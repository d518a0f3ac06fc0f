/-!
# Words of the shell

- **Parts** (`Part`): a word consists of literal text, parameters, sums and substituted commands,
  each inside or outside of quotes.
- **Tokens** (`Token`): words, operators and redirections.
- **Scanning** (`Token.scan`): one character after the other; the scanner remembers in which kind of
  text it is (`Mode`). A script may not end in the middle of quotes or braces.
-/

namespace ContainerInit.Shell

/-- What a parameter stands for. The conditions hold of parameters that are set, and not empty where
`orEmpty`. -/
inductive Form where
  /-- Its value. -/
  | value
  /-- The length of its value. -/
  | length
  /-- Its value, or another text. -/
  | fallback (orEmpty : Bool) (text : String)
  /-- Its value, or another text that it is given. -/
  | assigned (orEmpty : Bool) (text : String)
  /-- Its value, or an error. -/
  | required (orEmpty : Bool) (text : String)
  /-- Another text, if it has a value. -/
  | alternative (orEmpty : Bool) (text : String)
  /-- Its value without what matches a pattern at its end or its beginning. -/
  | trimmed (atEnd longest : Bool) (pattern : String)
  /-- Not a parameter at all. -/
  | bad
  deriving DecidableEq

/-- A part of a word. -/
inductive Part where
  | text (text : String) (quoted : Bool)
  | parameter (name : String) (form : Form) (quoted : Bool)
  | command (script : String) (quoted : Bool)
  /-- The value of an expression. -/
  | sum (text : String) (quoted : Bool)
  deriving DecidableEq

/-- A word before it is expanded. -/
abbrev Word := List Part

/-- A token of a script. -/
inductive Token where
  | word (word : Word)
  /-- One of `;`, `;;`, `&`, `&&`, `|`, `||`, `(`, `)` and the line feed. -/
  | operator (text : String)
  /-- A sign like `>`, with the number of a stream that may stand before it. -/
  | redirection (stream : Option Nat) (sign : String)
  deriving DecidableEq

/-- In which kind of text a scanner is. -/
inductive Mode where
  | plain
  | single
  | escape
  | dollar
  | name
  | brace (depth : Nat)
  | paren (depth : Nat) (quote : Option Char)
  | backquote (escaped : Bool)
  | comment
  deriving DecidableEq

/-- A scanner in the middle of a script; texts and lists are held backwards. -/
structure Scanner where
  tokens : List Token := []
  parts : List Part := []
  inWord : Bool := false
  /-- The last character was one of an operator. -/
  afterSign : Bool := false
  text : List Char := []
  quoted : Bool := false
  buffer : List Char := []
  mode : Mode := .plain

/-- A character of a name. -/
def isNameChar (c : Char) : Bool :=
  c.isAlphanum || c == '_'

/-- A text that can be the name of a variable. -/
def isName (text : String) : Bool :=
  match text.toList with
  | c :: cs => (c :: cs).all isNameChar && !c.isDigit
  | [] => false

/-- A parameter with a name of one character. -/
def isSpecial (c : Char) : Bool :=
  c.isDigit || ['#', '?', '$', '!', '@', '*', '-'].contains c

/-- The number that a text of digits stands for. -/
def decimal? (text : String) : Option Nat :=
  if text.isEmpty || !text.all Char.isDigit then none else text.toNat?

/-- The form that what follows the name between braces asks for. -/
def formOf : List Char → Form
  | [] => .value
  | ':' :: '-' :: text => .fallback true (String.ofList text)
  | '-' :: text => .fallback false (String.ofList text)
  | ':' :: '=' :: text => .assigned true (String.ofList text)
  | '=' :: text => .assigned false (String.ofList text)
  | ':' :: '?' :: text => .required true (String.ofList text)
  | '?' :: text => .required false (String.ofList text)
  | ':' :: '+' :: text => .alternative true (String.ofList text)
  | '+' :: text => .alternative false (String.ofList text)
  | '%' :: '%' :: text => .trimmed true true (String.ofList text)
  | '%' :: text => .trimmed true false (String.ofList text)
  | '#' :: '#' :: text => .trimmed false true (String.ofList text)
  | '#' :: text => .trimmed false false (String.ofList text)
  | _ => .bad

/-- The name at the beginning of what stands between braces. -/
def bracedName : List Char → List Char
  | c :: rest =>
    if c.isDigit then (c :: rest).takeWhile Char.isDigit
    else if isSpecial c then [c]
    else (c :: rest).takeWhile isNameChar
  | [] => []

/-- The parameter that stands between braces. -/
def readBraces (body : List Char) : String × Form :=
  let plain (body : List Char) : String × Form :=
    let name := bracedName body
    (String.ofList name, if name.isEmpty then .bad else formOf (body.drop name.length))
  match body with
  | '#' :: rest =>
    if !rest.isEmpty && bracedName rest == rest then (String.ofList rest, .length) else plain body
  | _ => plain body

/-- What stands between parentheses after a dollar sign: a sum has one more pair of them. -/
def readParens (body : List Char) (quoted : Bool) : Part :=
  if body.head? == some '(' && body.getLast? == some ')' then
    .sum (String.ofList (body.drop 1).dropLast) quoted
  else .command (String.ofList body) quoted

namespace Scanner

/-- Adds a character to the text of the word. -/
def push (s : Scanner) (c : Char) : Scanner :=
  { s with text := c :: s.text, inWord := true, mode := .plain }

/-- Ends the literal text. -/
def endText (s : Scanner) : Scanner :=
  if s.text.isEmpty then s
  else { s with parts := .text (String.ofList s.text.reverse) s.quoted :: s.parts, text := [] }

/-- Adds a part to the word. -/
def addPart (s : Scanner) (part : Part) : Scanner :=
  let s := s.endText
  { s with parts := part :: s.parts, inWord := true, buffer := [], mode := .plain }

/-- Ends the word. -/
def endWord (s : Scanner) : Scanner :=
  if s.inWord then
    let s := s.endText
    { s with tokens := .word s.parts.reverse :: s.tokens, parts := [], inWord := false }
  else s

/-- Adds a token. -/
def addToken (s : Scanner) (token : Token) : Scanner :=
  { s with tokens := token :: s.tokens, afterSign := true }

/-- Adds an operator, which may make one with the character before it. -/
def addOperator (s : Scanner) (text : String) : Scanner :=
  match s.afterSign, s.tokens with
  | true, .operator last :: tokens =>
    if last == text && [";", "&", "|"].contains text then
      { s with tokens }.addToken (.operator (last ++ text))
    else s.addToken (.operator text)
  | true, .redirection stream sign :: tokens =>
    if text == "&" && (sign == ">" || sign == "<") then
      { s with tokens }.addToken (.redirection stream (sign ++ text))
    else s.addToken (.operator text)
  | _, _ => s.endWord.addToken (.operator text)

/-- Adds a redirection, which may make one with the character before it. Digits right before it
belong to it. -/
def addRedirection (s : Scanner) (sign : String) : Scanner :=
  match s.afterSign, s.tokens with
  | true, .redirection stream last :: tokens =>
    if last ++ sign == ">>" || last ++ sign == "<<" || last ++ sign == "<>" then
      { s with tokens }.addToken (.redirection stream (last ++ sign))
    else s.addToken (.redirection none sign)
  | _, _ =>
    if s.parts.isEmpty && !s.text.isEmpty && s.text.all Char.isDigit then
      let stream := decimal? (String.ofList s.text.reverse)
      { s with text := [], inWord := false }.addToken (.redirection stream sign)
    else s.endWord.addToken (.redirection none sign)

/-- Ends a parameter that was named without braces. -/
def endName (s : Scanner) : Scanner :=
  s.addPart (.parameter (String.ofList s.buffer.reverse) .value s.quoted)

/-- A character outside of single quotes. -/
def plain (s : Scanner) (c : Char) : Scanner :=
  if [';', '&', '|', '(', ')'].contains c && !s.quoted then s.addOperator c.toString
  else if (c == '<' || c == '>') && !s.quoted then s.addRedirection c.toString
  else
    let s := { s with afterSign := false }
    if c == '\\' then { s with mode := .escape }
    else if c == '$' then { s with mode := .dollar }
    else if c == '\x60' then { s.endText with mode := .backquote false, buffer := [] }
    else if c == '\"' then
      let s := s.addPart (.text "" true)
      { s with quoted := !s.quoted }
    else if s.quoted then s.push c
    else if c == '\'' then { s.addPart (.text "" true) with mode := .single }
    else if c == ' ' || c == '\t' then s.endWord
    else if c == '\n' then s.addOperator "\n"
    else if c == '#' && !s.inWord then { s with mode := .comment }
    else s.push c

/-- A character after a dollar sign. -/
def dollar (s : Scanner) (c : Char) : Scanner :=
  if c == '(' then { s with mode := .paren 1 none, buffer := [] }
  else if c == '\x7b' then { s with mode := .brace 1, buffer := [] }
  else if isSpecial c then s.addPart (.parameter c.toString .value s.quoted)
  else if isNameChar c then { s with mode := .name, buffer := [c] }
  else (s.push '$').plain c

/-- A character between parentheses. -/
def paren (s : Scanner) (depth : Nat) (quote : Option Char) (c : Char) : Scanner :=
  if c == ')' && depth == 1 && quote.isNone then
    s.addPart (readParens s.buffer.reverse s.quoted)
  else
    let depth :=
      if quote.isSome then depth
      else if c == '(' then depth + 1
      else if c == ')' then depth - 1
      else depth
    let quote :=
      if quote == some c then none
      else if quote.isNone && (c == '\'' || c == '\"') then some c
      else quote
    { s with buffer := c :: s.buffer, mode := .paren depth quote }

/-- A character between backquotes. -/
def backquote (s : Scanner) (escaped : Bool) (c : Char) : Scanner :=
  if escaped then
    let before := if ['$', '\\', '\x60'].contains c then s.buffer else '\\' :: s.buffer
    { s with buffer := c :: before, mode := .backquote false }
  else if c == '\\' then { s with mode := .backquote true }
  else if c == '\x60' then s.addPart (.command (String.ofList s.buffer.reverse) s.quoted)
  else { s with buffer := c :: s.buffer }

/-- The next character. -/
def next (s : Scanner) (c : Char) : Scanner :=
  match s.mode with
  | .plain => s.plain c
  | .single =>
    if c == '\'' then
      { s with parts := .text (String.ofList s.buffer.reverse) true :: s.parts, buffer := [],
               mode := .plain }
    else { s with buffer := c :: s.buffer }
  | .escape =>
    if c == '\n' then { s with mode := .plain }
    else if s.quoted && !(['$', '\"', '\\', '\x60'].contains c) then (s.push '\\').push c
    else if s.quoted then s.push c
    else s.addPart (.text c.toString true)
  | .dollar => s.dollar c
  | .name =>
    if isNameChar c then { s with buffer := c :: s.buffer }
    else s.endName.plain c
  | .brace depth =>
    if c == '\x7d' && depth == 1 then
      let (name, form) := readBraces s.buffer.reverse
      s.addPart (.parameter name form s.quoted)
    else
      let depth := if c == '\x7b' then depth + 1 else if c == '\x7d' then depth - 1 else depth
      { s with buffer := c :: s.buffer, mode := .brace depth }
  | .paren depth quote => s.paren depth quote c
  | .backquote escaped => s.backquote escaped c
  | .comment => if c == '\n' then { s with mode := .plain }.addOperator "\n" else s

/-- The scanner at the end of a script, which may not be inside of anything. -/
def finish (s : Scanner) : Except String Scanner :=
  let unterminated := "Syntax error: Unterminated quoted string"
  match s.mode with
  | .single => .error unterminated
  | .brace _ => .error "Syntax error: Missing '\x7d'"
  | .paren _ (some _) => .error unterminated
  | .paren _ none => .error "Syntax error: end of file unexpected (expecting \")\")"
  | .backquote _ => .error "Syntax error: EOF in backquote substitution"
  | .plain | .comment | .name | .dollar | .escape =>
    let s := match s.mode with
      | .name => s.endName
      | .dollar => s.push '$'
      | .escape => s.push '\\'
      | _ => s
    if s.quoted then .error unterminated else .ok s.endWord

end Scanner

/-- The tokens of a script, or what is wrong with it. -/
def Token.scan (script : String) : Except String (List Token) :=
  (script.toList.foldl Scanner.next {}).finish.map (·.tokens.reverse)

/-- A text as one word: nothing in it is an operator. Quotes inside of quotes stay. -/
def Word.ofText (text : String) (quoted : Bool) : Word :=
  let step (s : Scanner) (c : Char) : Scanner :=
    match s.mode with
    | .plain =>
      if [';', '&', '|', '(', ')', '<', '>', '#', '\n', ' ', '\t'].contains c then s.push c
      else if quoted && (c == '\"' || c == '\'') then s.push c
      else s.plain c
    | .name =>
      if isNameChar c then s.next c
      else if [';', '&', '|', '(', ')', '<', '>', '#', '\n', ' ', '\t'].contains c then
        s.endName.push c
      else s.next c
    | _ => s.next c
  let s := text.toList.foldl step { quoted }
  let s := match s.mode with
    | .name => s.endName
    | .dollar => s.push '$'
    | _ => s
  s.endText.parts.reverse

end ContainerInit.Shell
