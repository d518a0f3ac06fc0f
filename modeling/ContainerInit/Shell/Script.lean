import ContainerInit.Shell.Token

/-!
# Scripts of the shell

- **Scripts** (`Script`): simple commands, put together by sequences, conditions, loops, pipelines
  and subshells.
- **Reading** (`Script.parse`): from tokens, by descent; a token that does not fit is named in the
  error. The readers take as much fuel as a multiple of the number of tokens: each of them uses up a
  token before it comes back to the same level.
-/

namespace ContainerInit.Shell

/-- Where the input or output of a command goes instead. -/
inductive Redirection where
  /-- One stream follows another, or goes nowhere. -/
  | duplicate (stream : Nat) (source : Option Nat)
  /-- A stream goes to a file. -/
  | toFile (stream : Nat) (path : Word)
  /-- A stream comes from a file. -/
  | fromFile (stream : Nat) (path : Word)
  deriving DecidableEq

/-- A script. -/
inductive Script where
  | empty
  /-- Assignments, the words of a command, and redirections. -/
  | simple (assignments : List (String × Word)) (words : List Word)
      (redirections : List Redirection)
  | sequence (first second : Script)
  /-- The second runs if the first succeeded. -/
  | both (first second : Script)
  /-- The second runs if the first failed. -/
  | either (first second : Script)
  | negation (body : Script)
  /-- The second reads what the first writes. -/
  | pipeline (first second : Script)
  | background (body : Script)
  | subshell (body : Script)
  | redirected (body : Script) (redirections : List Redirection)
  | branch (test yes no : Script)
  /-- The body runs again while the test succeeds, or while it fails. -/
  | loop (test body : Script) (whileTrue : Bool)
  /-- The body runs once for each field of some words, or for each argument. -/
  | each (name : String) (words : Option (List Word)) (body : Script)
  /-- The body runs if the subject matches one of some patterns. -/
  | clause (subject : Word) (patterns : List Word) (body otherwise : Script)
  | definition (name : String) (body : Script)

namespace Script

/-- Words with a meaning of their own at the beginning of a command. -/
def keywords : List String :=
  ["!", "case", "do", "done", "elif", "else", "esac", "fi", "for", "if", "in", "then", "until",
    "while", "\x7b", "\x7d"]

/-- A word without quotes that has this text. -/
def isKeyword (text : String) : Token → Bool
  | .word [.text t false] => t == text
  | _ => false

/-- How an error names a token. -/
def tokenName : Option Token → String
  | none => "end of file"
  | some (.operator "\n") => "newline"
  | some (.operator op) => "\"" ++ op ++ "\""
  | some (.redirection _ _) => "redirection"
  | some (.word [.text t false]) => if keywords.contains t then "\"" ++ t ++ "\"" else "word"
  | some (.word _) => "word"

/-- The error at a token that does not fit. -/
def unexpected (tokens : List Token) (expected : Option String) : String :=
  let note := match expected with
    | some name => " (expecting " ++ name ++ ")"
    | none => ""
  "Syntax error: " ++ tokenName tokens.head? ++ " unexpected" ++ note

/-- What a reader gives: a result and the tokens after it. -/
abbrev Read (α : Type) := α × List Token

/-- Tokens that end a list of commands. -/
def isClosing (t : Token) : Bool :=
  t == .operator ")" || t == .operator ";;" ||
    ["then", "do", "done", "else", "elif", "esac", "fi", "\x7d"].any (isKeyword · t)

/-- Passes over line feeds. -/
def skipLines (tokens : List Token) : List Token :=
  tokens.dropWhile (· == .operator "\n")

/-- Takes a keyword. -/
def expect (text : String) (tokens : List Token) : Except String (List Token) :=
  match tokens with
  | t :: rest =>
    if isKeyword text t then .ok rest else .error (unexpected tokens (some ("\"" ++ text ++ "\"")))
  | [] => .error (unexpected [] (some ("\"" ++ text ++ "\"")))

/-- An assignment at the beginning of a command. -/
def assignment? : Word → Option (String × Word)
  | .text t false :: rest =>
    let name := String.ofList (t.toList.takeWhile isNameChar)
    match t.toList.drop name.length with
    | '=' :: value =>
      if isName name then
        some (name, if value.isEmpty then rest else .text (String.ofList value) false :: rest)
      else none
    | _ => none
  | _ => none

/-- Reads what follows the sign of a redirection. -/
def parseRedirection (stream : Option Nat) (sign : String) :
    List Token → Except String (Read Redirection)
  | .word w :: rest =>
    let direction := if sign.startsWith "<" then 0 else 1
    let stream := stream.getD direction
    if sign.endsWith "&" then
      match w with
      | [.text "-" false] => .ok (.duplicate stream none, rest)
      | [.text t false] =>
        match decimal? t with
        | some source => .ok (.duplicate stream (some source), rest)
        | none => .error "Syntax error: Bad fd number"
      | _ => .error "Syntax error: Bad fd number"
    else if direction = 0 then .ok (.fromFile stream w, rest)
    else .ok (.toFile stream w, rest)
  | tokens => .error (unexpected tokens none)

/-- Reads redirections that follow a command. -/
def parseRedirections : Nat → List Token → Except String (Read (List Redirection))
  | fuel + 1, .redirection stream sign :: rest => do
    let (r, rest) ← parseRedirection stream sign rest
    let (more, rest) ← parseRedirections fuel rest
    return (r :: more, rest)
  | _, tokens => .ok ([], tokens)

/-- Reads the redirections after a command that has parts. -/
def parseTail (body : Script) (tokens : List Token) : Except String (Read Script) := do
  let (redirections, rest) ← parseRedirections tokens.length tokens
  return (if redirections.isEmpty then body else .redirected body redirections, rest)

/-- Reads the rest of a simple command. -/
def parseSimple (assignments : List (String × Word)) (words : List Word)
    (redirections : List Redirection) : Nat → List Token → Except String (Read Script)
  | fuel + 1, .redirection stream sign :: rest => do
    let (r, rest) ← parseRedirection stream sign rest
    parseSimple assignments words (redirections ++ [r]) fuel rest
  | fuel + 1, .word w :: rest =>
    match words, assignment? w with
    | [], some a => parseSimple (assignments ++ [a]) words redirections fuel rest
    | _, _ => parseSimple assignments (words ++ [w]) redirections fuel rest
  | _, tokens => .ok (.simple assignments words redirections, tokens)

/-- Reads words up to a token of another kind. -/
def parseWords : List Token → List Word × List Token
  | .word w :: rest => let (ws, rest) := parseWords rest; (w :: ws, rest)
  | tokens => ([], tokens)

/-- Reads patterns, each after a bar but the first, and the parenthesis after them. -/
def parsePatterns : List Token → Except String (Read (List Word))
  | .word w :: .operator "|" :: rest => do
    let (ws, rest) ← parsePatterns rest
    return (w :: ws, rest)
  | .word w :: .operator ")" :: rest => .ok ([w], rest)
  | .word _ :: rest => .error (unexpected rest (some "\")\""))
  | tokens => .error (unexpected tokens (some "\")\""))

/-- The names of the words between `for` and the body of the loop. -/
def parseEachHead (tokens : List Token) :
    Except String (Read (String × Option (List Word))) :=
  match tokens with
  | .word [.text name false] :: rest =>
    if !isName name then .error "Syntax error: Bad for loop variable"
    else
      match skipLines rest with
      | t :: after =>
        if isKeyword "in" t then
          match parseWords after with
          | (ws, .operator ";" :: rest) | (ws, .operator "\n" :: rest) =>
            .ok ((name, some ws), rest)
          | (_, rest) => .error (unexpected rest none)
        else if t == .operator ";" then .ok ((name, none), after)
        else .ok ((name, none), t :: after)
      | [] => .ok ((name, none), [])
  | _ => .error "Syntax error: Bad for loop variable"

mutual

/-- Reads a command and the redirections after it. -/
def parseCommand : Nat → List Token → Except String (Read Script)
  | 0, tokens => .error (unexpected tokens none)
  | fuel + 1, tokens =>
    match tokens with
    | [] => .error (unexpected [] none)
    | .operator "(" :: rest => do
      let (body, rest) ← parseList fuel rest
      match rest with
      | .operator ")" :: rest => parseTail (.subshell body) rest
      | _ => .error (unexpected rest (some "\")\""))
    | .operator _ :: _ => .error (unexpected tokens none)
    | .redirection _ _ :: _ => parseSimple [] [] [] tokens.length tokens
    | t :: rest =>
      if isKeyword "\x7b" t then do
        let (body, rest) ← parseList fuel rest
        parseTail body (← expect "\x7d" rest)
      else if isKeyword "if" t then do
        let (body, rest) ← parseBranch fuel rest
        parseTail body rest
      else if isKeyword "while" t || isKeyword "until" t then do
        let (test, rest) ← parseList fuel rest
        let (body, rest) ← parseList fuel (← expect "do" rest)
        parseTail (.loop test body (isKeyword "while" t)) (← expect "done" rest)
      else if isKeyword "for" t then do
        let ((name, words), rest) ← parseEachHead rest
        let (body, rest) ← parseList fuel (← expect "do" (skipLines rest))
        parseTail (.each name words body) (← expect "done" rest)
      else if isKeyword "case" t then
        match rest with
        | .word subject :: rest => do
          let (body, rest) ← parseClauses fuel subject (← expect "in" (skipLines rest))
          parseTail body rest
        | _ => .error (unexpected rest (some "word"))
      else if isClosing t then .error (unexpected tokens none)
      else
        match tokens with
        | .word [.text name false] :: .operator "(" :: rest =>
          match rest with
          | .operator ")" :: rest =>
            if isName name then do
              let (body, rest) ← parseCommand fuel (skipLines rest)
              return (.definition name body, rest)
            else .error "Syntax error: Bad function name"
          | .word _ :: _ => .error "Syntax error: word unexpected (expecting \")\")"
          | _ => .error (unexpected rest (some "\")\""))
        | _ => parseSimple [] [] [] tokens.length tokens

/-- Reads a condition after its keyword. -/
def parseBranch : Nat → List Token → Except String (Read Script)
  | 0, tokens => .error (unexpected tokens none)
  | fuel + 1, tokens => do
    let (test, rest) ← parseList fuel tokens
    let (yes, rest) ← parseList fuel (← expect "then" rest)
    match rest with
    | t :: after =>
      if isKeyword "elif" t then do
        let (no, rest) ← parseBranch fuel after
        return (.branch test yes no, rest)
      else if isKeyword "else" t then do
        let (no, rest) ← parseList fuel after
        return (.branch test yes no, ← expect "fi" rest)
      else return (.branch test yes .empty, ← expect "fi" rest)
    | [] => .error (unexpected [] (some "\"fi\""))

/-- Reads the clauses of a case. -/
def parseClauses : Nat → Word → List Token → Except String (Read Script)
  | 0, _, tokens => .error (unexpected tokens none)
  | fuel + 1, subject, tokens =>
    match skipLines tokens with
    | t :: after =>
      if isKeyword "esac" t then .ok (.empty, after)
      else do
        let (patterns, rest) ← parsePatterns (if t == .operator "(" then after else t :: after)
        let rest := skipLines rest
        let (body, rest) ←
          if rest.head?.any isClosing then pure (.empty, rest) else parseList fuel rest
        match rest with
        | .operator ";;" :: rest => do
          let (otherwise, rest) ← parseClauses fuel subject rest
          return (.clause subject patterns body otherwise, rest)
        | t :: after =>
          if isKeyword "esac" t then return (.clause subject patterns body .empty, after)
          else .error (unexpected rest (some "\";;\""))
        | [] => .error (unexpected [] (some "\";;\""))
    | [] => .error (unexpected [] (some "\")\""))

/-- Reads commands joined by bars, with the sign of negation before them. -/
def parsePipeline : Nat → List Token → Except String (Read Script)
  | 0, tokens => .error (unexpected tokens none)
  | fuel + 1, tokens =>
    match tokens with
    | t :: after => do
      if isKeyword "!" t then
        let (first, rest) ← parseCommand fuel after
        let (body, rest) ← parseBars fuel first rest
        return (.negation body, rest)
      else
        let (first, rest) ← parseCommand fuel tokens
        parseBars fuel first rest
    | [] => .error (unexpected [] none)

/-- Reads the commands after a bar. -/
def parseBars : Nat → Script → List Token → Except String (Read Script)
  | 0, _, tokens => .error (unexpected tokens none)
  | fuel + 1, first, tokens =>
    match tokens with
    | .operator "|" :: rest => do
      let (second, rest) ← parseCommand fuel (skipLines rest)
      parseBars fuel (.pipeline first second) rest
    | _ => .ok (first, tokens)

/-- Reads pipelines joined by conditions, after the first of them. -/
def parseChain : Nat → Script → List Token → Except String (Read Script)
  | 0, _, tokens => .error (unexpected tokens none)
  | fuel + 1, first, tokens =>
    match tokens with
    | .operator "&&" :: rest => do
      let (second, rest) ← parsePipeline fuel (skipLines rest)
      parseChain fuel (.both first second) rest
    | .operator "||" :: rest => do
      let (second, rest) ← parsePipeline fuel (skipLines rest)
      parseChain fuel (.either first second) rest
    | _ => .ok (first, tokens)

/-- Reads commands one after the other: one at least, unless nothing is left. -/
def parseList : Nat → List Token → Except String (Read Script)
  | 0, tokens => .error (unexpected tokens none)
  | fuel + 1, tokens =>
    match skipLines tokens with
    | [] => .ok (.empty, [])
    | tokens => do
      let (first, rest) ← parsePipeline fuel tokens
      let (first, rest) ← parseChain fuel first rest
      let (first, rest, separated) := match rest with
        | .operator "&" :: rest => (Script.background first, rest, true)
        | .operator ";" :: rest | .operator "\n" :: rest => (first, rest, true)
        | rest => (first, rest, false)
      let rest := if separated then skipLines rest else rest
      if !separated || rest.isEmpty || rest.head?.any isClosing then return (first, rest)
      else do
        let (second, rest) ← parseList fuel rest
        return (.sequence first second, rest)

end

/-- Reads a whole script. -/
def parse (script : String) : Except String Script := do
  let tokens ← Token.scan script
  match ← parseList (8 * tokens.length + 8) tokens with
  | (s, []) => return s
  | (_, rest) => .error (unexpected rest none)

end Script

end ContainerInit.Shell
