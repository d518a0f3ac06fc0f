import ContainerInit.Shell.Token

/-!
# Sums of the shell

Expressions over whole numbers, as they stand between double parentheses.

- **Reading** (`Sum.parse`): by precedence, the loosest operators first (`levels`).
- **Values** (`Sum.value`): in 64 bits with a sign. A name stands for the number that its variable
  holds, or for zero; an assignment changes it.
-/

namespace ContainerInit.Shell

/-- Why an expression has no value. -/
inductive SumError where
  /-- It cannot be read. -/
  | unreadable (reason : String)
  | divisionByZero
  /-- A variable holds something else. -/
  | notNumber (text : String)
  deriving DecidableEq

/-- The wording of an error in an expression. -/
def SumError.message (e : SumError) (expression : String) : String :=
  let inContext (reason : String) : String :=
    "arithmetic expression: " ++ reason ++ ": \"" ++ expression ++ "\""
  match e with
  | .unreadable reason => inContext reason
  | .divisionByZero => inContext "division by zero"
  | .notNumber text => "Illegal number: " ++ text

/-- An expression. -/
inductive Sum where
  | number (n : Int)
  | name (name : String)
  | unary (op : String) (a : Sum)
  | binary (op : String) (a b : Sum)
  | choice (test yes no : Sum)
  /-- An assignment; the operator is empty where the value is used as it is. -/
  | assign (name op : String) (a : Sum)

namespace Sum

/-- A token of an expression. -/
inductive Symbol where
  | number (n : Int)
  | name (name : String)
  | operator (text : String)
  deriving DecidableEq

/-- The binary operators, those that bind least first. -/
def levels : List (List String) :=
  [["||"], ["&&"], ["|"], ["^"], ["&"], ["==", "!="], ["<", "<=", ">", ">="], ["<<", ">>"],
    ["+", "-"], ["*", "/", "%"]]

/-- The operators, longer ones first. -/
def operators : List String :=
  ["<<=", ">>=", "||", "&&", "==", "!=", "<=", ">=", "<<", ">>", "+=", "-=", "*=", "/=", "%=", "&=",
    "|=", "^=", "+", "-", "*", "/", "%", "&", "|", "^", "~", "!", "<", ">", "=", "?", ":", "(", ")"]

/-- The value of a digit. -/
def digit (c : Char) : Nat :=
  if c.isDigit then c.toNat - '0'.toNat
  else if 'a' ≤ c && c ≤ 'f' then c.toNat - 'a'.toNat + 10
  else c.toNat - 'A'.toNat + 10

/-- A number at the beginning of a text, and what follows it: octal after a zero, hexadecimal after
`0x`, decimal otherwise. -/
def readConstant (text : List Char) : Int × List Char :=
  let read (base : Nat) (cs : List Char) : Int × List Char :=
    let digits := cs.takeWhile fun c => c.isAlphanum && digit c < base
    ((digits.foldl (fun n c => base * n + digit c) 0 : Nat), cs.drop digits.length)
  let isHex (c : Char) : Bool := c.isAlphanum && digit c < 16
  match text with
  | '0' :: x :: c :: rest =>
    if (x == 'x' || x == 'X') && isHex c then read 16 (c :: rest) else read 8 text
  | '0' :: _ => read 8 text
  | _ => read 10 text

/-- The number that a whole text stands for. -/
def constant? (text : List Char) : Option Int :=
  match readConstant text with
  | (n, []) => if text.isEmpty then none else some n
  | _ => none

/-- The symbols of an expression, with as much fuel as it has characters. -/
def scan : Nat → List Char → Option (List Symbol)
  | _, [] => some []
  | 0, _ => none
  | fuel + 1, c :: cs =>
    if c == ' ' || c == '\t' || c == '\n' then scan fuel cs
    else if c.isDigit then do
      let (n, rest) := readConstant (c :: cs)
      return .number n :: (← scan fuel rest)
    else if isNameChar c then do
      let name := String.ofList ((c :: cs).takeWhile isNameChar)
      return .name name :: (← scan fuel (cs.dropWhile isNameChar))
    else
      match operators.find? fun op => op.toList.isPrefixOf (c :: cs) with
      | some op => do return .operator op :: (← scan fuel (cs.drop (op.length - 1)))
      | none => none

/-- The operator of an assignment, without the sign of equality. -/
def assignmentOf? (op : String) : Option String :=
  if ["=", "+=", "-=", "*=", "/=", "%=", "&=", "|=", "^=", "<<=", ">>="].contains op then
    some (String.ofList op.toList.dropLast)
  else none

/-- What is wrong where an operand is missing. -/
def noOperand : SumError := .unreadable "expecting primary"

mutual

/-- Reads an assignment, or an expression that binds closer. -/
def parseAssign : Nat → List Symbol → Except SumError (Sum × List Symbol)
  | 0, _ => .error noOperand
  | fuel + 1, symbols =>
    match symbols with
    | .name x :: .operator op :: rest =>
      match assignmentOf? op with
      | some op => do
        let (a, rest) ← parseAssign fuel rest
        return (.assign x op a, rest)
      | none => parseChoice fuel symbols
    | _ => parseChoice fuel symbols

/-- Reads a choice between two values. -/
def parseChoice : Nat → List Symbol → Except SumError (Sum × List Symbol)
  | 0, _ => .error noOperand
  | fuel + 1, symbols => do
    let (test, rest) ← parseLevel fuel levels symbols
    match rest with
    | .operator "?" :: rest =>
      let (yes, rest) ← parseAssign fuel rest
      match rest with
      | .operator ":" :: rest =>
        let (no, rest) ← parseChoice fuel rest
        return (.choice test yes no, rest)
      | _ => .error (.unreadable "expecting ':'")
    | _ => return (test, rest)

/-- Reads operands joined by the operators of a level. -/
def parseLevel : Nat → List (List String) → List Symbol → Except SumError (Sum × List Symbol)
  | 0, _, _ => .error noOperand
  | fuel + 1, [], symbols => parseOperand fuel symbols
  | fuel + 1, level :: closer, symbols => do
    let (a, rest) ← parseLevel fuel closer symbols
    parseJoined fuel level closer a rest

/-- Reads what is joined to an operand. -/
def parseJoined : Nat → List String → List (List String) → Sum → List Symbol →
    Except SumError (Sum × List Symbol)
  | 0, _, _, a, symbols => .ok (a, symbols)
  | fuel + 1, level, closer, a, symbols =>
    match symbols with
    | .operator op :: rest =>
      if level.contains op then do
        let (b, rest) ← parseLevel fuel closer rest
        parseJoined fuel level closer (.binary op a b) rest
      else .ok (a, symbols)
    | _ => .ok (a, symbols)

/-- Reads an operand. -/
def parseOperand : Nat → List Symbol → Except SumError (Sum × List Symbol)
  | 0, _ => .error noOperand
  | fuel + 1, symbols =>
    match symbols with
    | .number n :: rest => .ok (.number n, rest)
    | .name x :: rest => .ok (.name x, rest)
    | .operator "(" :: rest => do
      let (a, rest) ← parseAssign fuel rest
      match rest with
      | .operator ")" :: rest => return (a, rest)
      | _ => .error (.unreadable "expecting ')'")
    | .operator op :: rest =>
      if ["+", "-", "!", "~"].contains op then do
        let (a, rest) ← parseOperand fuel rest
        return (.unary op a, rest)
      else .error noOperand
    | [] => .error noOperand

end

/-- Reads an expression. -/
def parse (text : String) : Except SumError Sum :=
  match scan text.length text.toList with
  | none => .error noOperand
  | some symbols => do
    match ← parseAssign (16 * symbols.length + 16) symbols with
    | (a, []) => return a
    | (_, _ :: _) => .error (.unreadable "expecting EOF")

/-- A number in 64 bits. -/
def wrap (n : Int) : Int :=
  n.bmod UInt64.size

/-- The value of an operator. -/
def apply (op : String) (a b : Int) : Except SumError Int :=
  let bits (f : Int64 → Int64 → Int64) : Int := (f (Int64.ofInt a) (Int64.ofInt b)).toInt
  let truth (c : Bool) : Int := if c then 1 else 0
  match op with
  | "||" => .ok (truth (a != 0 || b != 0))
  | "&&" => .ok (truth (a != 0 && b != 0))
  | "|" => .ok (bits (· ||| ·))
  | "^" => .ok (bits (· ^^^ ·))
  | "&" => .ok (bits (· &&& ·))
  | "==" => .ok (truth (a == b))
  | "!=" => .ok (truth (a != b))
  | "<" => .ok (truth (a < b))
  | "<=" => .ok (truth (a ≤ b))
  | ">" => .ok (truth (a > b))
  | ">=" => .ok (truth (a ≥ b))
  | "<<" => .ok (bits (· <<< ·))
  | ">>" => .ok (bits (· >>> ·))
  | "+" => .ok (wrap (a + b))
  | "-" => .ok (wrap (a - b))
  | "*" => .ok (wrap (a * b))
  | "/" => if b = 0 then .error .divisionByZero else .ok (wrap (Int.tdiv a b))
  | "%" => if b = 0 then .error .divisionByZero else .ok (Int.tmod a b)
  | _ => .ok b

/-- The numbers that variables hold. -/
abbrev Numbers := String → Except SumError Int

/-- The value of an expression, and the assignments in it, the latest first. -/
def value (numbers : Numbers) :
    Sum → List (String × Int) → Except SumError (Int × List (String × Int))
  | .number n, known => .ok (wrap n, known)
  | .name x, known =>
    match known.lookup x with
    | some n => .ok (n, known)
    | none => do return (wrap (← numbers x), known)
  | .unary op a, known => do
    let (n, known) ← value numbers a known
    let n := match op with
      | "-" => wrap (-n)
      | "!" => if n = 0 then 1 else 0
      | "~" => -n - 1
      | _ => n
    return (n, known)
  | .binary op a b, known => do
    let (m, known) ← value numbers a known
    if op == "||" && m != 0 then return (1, known)
    else if op == "&&" && m == 0 then return (0, known)
    else
      let (n, known) ← value numbers b known
      return (← apply op m n, known)
  | .choice test yes no, known => do
    let (n, known) ← value numbers test known
    if n != 0 then value numbers yes known else value numbers no known
  | .assign x op a, known => do
    let old ←
      if op.isEmpty then pure 0
      else match known.lookup x with
        | some n => pure n
        | none => wrap <$> numbers x
    let (n, known) ← value numbers a known
    let n ← apply op old n
    return (n, (x, n) :: known)

end Sum

end ContainerInit.Shell
