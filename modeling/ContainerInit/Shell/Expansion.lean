import ContainerInit.Shell.Pattern
import ContainerInit.Shell.Setting
import ContainerInit.Shell.Sum

/-!
# Expansion of words

- **Pieces** (`expandWord`): the parts of a word are replaced by characters. What comes from
  parameters, sums and commands outside of quotes may be split.
- **Fields** (`fieldsOf`): characters between fields separate them; blanks do so together.
- **Uses**: a word stands for fields (`expandFields`), for a text (`expandText`) or for a pattern
  (`expandPattern`).
-/

namespace ContainerInit.Shell

open Host (Program)

/-! ## Pieces -/

/-- The pieces of a text. -/
def piecesOf (text : String) (quoted splits : Bool) : List Piece :=
  (if quoted then [.quote] else []) ++ text.toList.map fun c => .char c quoted splits

/-- The text of pieces; fields are a blank apart. -/
def textOf (pieces : List Piece) : String :=
  String.ofList <| pieces.filterMap fun
    | .char c _ _ => some c
    | .quote => none
    | .cut => some ' '

/-- The pattern that pieces make. -/
def patternOf (pieces : List Piece) : Pattern :=
  pieces.filterMap fun
    | .char c quoted _ => some ⟨c, quoted⟩
    | _ => none

/-- The number that a variable holds, or zero where it holds nothing. -/
def Setting.number (s : Setting) (name : String) : Except SumError Int :=
  let text := ((s.lookup? name).getD "").trimAscii.toString
  let (negative, digits) := match text.toList with
    | '-' :: rest => (true, rest)
    | '+' :: rest => (false, rest)
    | cs => (false, cs)
  if text.isEmpty then .ok 0
  else
    match if digits.head?.any Char.isDigit then Sum.constant? digits else none with
    | some n => .ok (if negative then -n else n)
    | none => .error (.notNumber text)

/-- The pieces of the arguments, which are as many fields. -/
def argumentPieces (s : Setting) (quoted : Bool) : List Piece :=
  ((s.arguments.map fun a => piecesOf a quoted (!quoted)).intersperse [.cut]).flatten

/-- What a parameter stands for. -/
def expandParameter (nested : Nested) (name : String) (form : Form) (quoted : Bool) (s : Setting)
    (rest : List Piece → Setting → Program) : Program :=
  let value := s.parameter? name
  let plain (text : String) (s : Setting) : Program := rest (piecesOf text quoted (!quoted)) s
  let same (s : Setting) : Program :=
    if name == "@" || (name == "*" && !quoted) then rest (argumentPieces s quoted) s
    else plain (value.getD "") s
  let isMissing (orEmpty : Bool) : Bool :=
    match value with
    | none => true
    | some v => orEmpty && v.isEmpty
  match form with
  | .bad => abort nested s "Bad substitution"
  | .value =>
    if value.isNone && s.refusesUnset then abort nested s (name ++ ": parameter not set")
    else same s
  | .length => plain (toString (value.getD "").utf8ByteSize) s
  | .fallback orEmpty text =>
    if isMissing orEmpty then nested.word (Word.ofText text quoted) s rest else same s
  | .assigned orEmpty text =>
    if isMissing orEmpty then
      nested.word (Word.ofText text quoted) s fun pieces s =>
        plain (textOf pieces) (s.assign name (textOf pieces))
    else same s
  | .required orEmpty text =>
    if !isMissing orEmpty then same s
    else if text.isEmpty then
      let condition := if orEmpty then "parameter not set or null" else "parameter not set"
      abort nested s (name ++ ": " ++ condition)
    else
      nested.word (Word.ofText text quoted) s fun pieces s =>
        abort nested s (name ++ ": " ++ textOf pieces)
  | .alternative orEmpty text =>
    if isMissing orEmpty then plain "" s else nested.word (Word.ofText text quoted) s rest
  | .trimmed atEnd longest text =>
    nested.word (Word.ofText text false) s fun pieces s =>
      plain ((patternOf pieces).trim atEnd longest (value.getD "")) s

/-- A text without the line feeds at its end. -/
def trimLines (text : String) : String :=
  String.ofList (text.toList.reverse.dropWhile (· == '\n')).reverse

/-- What a part of a word stands for. -/
def expandPart (nested : Nested) (part : Part) (s : Setting)
    (rest : List Piece → Setting → Program) : Program :=
  match part with
  | .text t quoted => rest (piecesOf t quoted false) s
  | .parameter name form quoted => expandParameter nested name form quoted s rest
  | .command script quoted =>
    let child := inSubshell nested (nested.text "" script)
      { s with channels := { s.channels with output := some .output } }
    .fork none true child fun pid =>
      .await pid false fun e =>
        .collected pid fun text =>
          let next (s : Setting) : Program :=
            rest (piecesOf (trimLines text) quoted (!quoted))
              { s with substituted := some s.status }
          afterEnding s next e
  | .sum text quoted =>
    nested.word (Word.ofText text true) s fun pieces s =>
      let text := textOf pieces
      match (Sum.parse text).bind fun a => a.value s.number [] with
      | .ok (n, assigned) =>
        rest (piecesOf (toString n) quoted (!quoted))
          (assigned.reverse.foldl (fun s a => s.assign a.1 (toString a.2)) s)
      | .error e => abort nested s (e.message text)

/-- What the parts of a word stand for, one after the other. -/
def expandWord (nested : Nested) : Word → Setting → (List Piece → Setting → Program) → Program
  | [], s, rest => rest [] s
  | part :: parts, s, rest =>
    expandPart nested part s fun first s =>
      expandWord nested parts s fun others s => rest (first ++ others) s

/-! ## Fields -/

/-- A blank. -/
def isFieldBlank (c : Char) : Bool :=
  c == ' ' || c == '\t' || c == '\n'

/-- Adds a piece to the fields, the current one of which is held backwards if there is one. -/
def addPiece (separators : List Char) :
    Option (List Char) × List String → Piece → Option (List Char) × List String
  | (current, fields), .char c _ splits =>
    if splits && separators.contains c then
      match current with
      | some cs => (none, String.ofList cs.reverse :: fields)
      | none => (none, if isFieldBlank c then fields else "" :: fields)
    else (some (c :: current.getD []), fields)
  | (current, fields), .quote => (some (current.getD []), fields)
  | (current, fields), .cut =>
    match current with
    | some cs => (none, String.ofList cs.reverse :: fields)
    | none => (none, fields)

/-- The fields that pieces make. -/
def fieldsOf (separators : List Char) (pieces : List Piece) : List String :=
  match pieces.foldl (addPiece separators) (none, []) with
  | (some cs, fields) => (String.ofList cs.reverse :: fields).reverse
  | (none, fields) => fields.reverse

/-- A word is just all arguments in quotes; without arguments it is no field at all. -/
def isJustArguments (w : Word) : Bool :=
  let arguments := Part.parameter "@" .value true
  w.contains arguments && w.all fun p => p == arguments || p == .text "" true

/-- The fields of words. -/
def expandFields (nested : Nested) :
    List Word → Setting → (List String → Setting → Program) → Program
  | [], s, rest => rest [] s
  | w :: words, s, rest =>
    expandWord nested w s fun pieces s =>
      let isNothing := s.arguments.isEmpty && isJustArguments w
      let fields := if isNothing then [] else fieldsOf s.separators pieces
      expandFields nested words s fun others s => rest (fields ++ others) s

/-- The text of a word, which is not split. -/
def expandText (nested : Nested) (w : Word) (s : Setting) (rest : String → Setting → Program) :
    Program :=
  expandWord nested w s fun pieces s => rest (textOf pieces) s

/-- The pattern that a word stands for. -/
def expandPattern (nested : Nested) (w : Word) (s : Setting)
    (rest : Pattern → Setting → Program) : Program :=
  expandWord nested w s fun pieces s => rest (patternOf pieces) s

/-- The texts of words, in pairs with what belongs to them. -/
def expandEach (nested : Nested) {α : Type} :
    List (α × Word) → Setting → (List (α × String) → Setting → Program) → Program
  | [], s, rest => rest [] s
  | (a, w) :: words, s, rest =>
    expandText nested w s fun text s =>
      expandEach nested words s fun others s => rest ((a, text) :: others) s

end ContainerInit.Shell
