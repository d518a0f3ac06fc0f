import ContainerInit.Host.Files

/-!
# Tests of the shell

Conditions on texts, numbers and files, as `test` takes them as its arguments.

- **Reading**: by descent, `-o` binds less than `-a`, and `!` more than both. Each reader gives the
  value of what it read and the arguments after it.
- **Special cases** (`evaluate`): three arguments with an operator in the middle are a comparison,
  whatever else they could be.
-/

namespace ContainerInit.Shell.Test

open Host (Node)

/-- What a reader gives: the value of a condition, and the arguments after it. -/
abbrev Read := Bool × List String

/-- Operators of two operands. -/
def comparisons : List String :=
  ["=", "!=", "<", ">", "-eq", "-ne", "-lt", "-le", "-gt", "-ge", "-nt", "-ot", "-ef"]

/-- Operators of one operand. -/
def checks : List String :=
  ["-n", "-z", "-e", "-f", "-d", "-c", "-b", "-p", "-h", "-L", "-S", "-r", "-w", "-x", "-s", "-t",
    "-u", "-g", "-k", "-O", "-G"]

/-- The number that an operand stands for; blanks around it do not matter. -/
def number? (text : String) : Option Int :=
  let text := text.trimAscii.toString
  let (negative, digits) := match text.toList with
    | '-' :: rest => (true, rest)
    | '+' :: rest => (false, rest)
    | cs => (false, cs)
  if digits.isEmpty || !digits.all Char.isDigit then none
  else
    let n : Int := digits.foldl (fun n c => 10 * n + (c.toNat - '0'.toNat)) 0
    let n := if negative then -n else n
    if Int64.minValue.toInt ≤ n && n ≤ Int64.maxValue.toInt then some n else none

/-- The number that an operand stands for, or what is wrong with it. -/
def number (text : String) : Except String Int :=
  match number? text with
  | some n => .ok n
  | none => .error ("Illegal number: " ++ text)

/-- The value of a comparison. -/
def compare (op a b : String) : Except String Bool :=
  match op with
  | "=" => .ok (a == b)
  | "!=" => .ok (a != b)
  | "<" => .ok (decide (a < b))
  | ">" => .ok (decide (b < a))
  | "-nt" | "-ot" => .ok false
  | "-ef" => .ok (a == b)
  | _ => do
    let m ← number a
    let n ← number b
    return match op with
      | "-eq" => m == n
      | "-ne" => m != n
      | "-lt" => m < n
      | "-le" => m ≤ n
      | "-gt" => m > n
      | _ => m ≥ n

/-- The value of a check. -/
def check (directory op a : String) : Except String Bool :=
  let node := (Host.locate directory a).toOption.map (·.2)
  match op with
  | "-n" => .ok (!a.isEmpty)
  | "-z" => .ok a.isEmpty
  | "-t" => do
    let _ ← number a
    return false
  | "-d" => .ok (node == some .directory)
  | "-f" => .ok (node == some .file || node == some .program)
  | "-c" => .ok (node == some .device)
  | "-x" => .ok (node == some .directory || node == some .program)
  | "-e" | "-r" | "-w" | "-O" | "-G" => .ok node.isSome
  | "-s" => .ok (node.isSome && node != some .device)
  | _ => .ok false

/-- An operator of one operand stands for itself where an operator of two follows, or nothing. -/
def isOperand (args : List String) : Bool :=
  match args with
  | [] => true
  | [_] => false
  | op :: b :: _ => comparisons.contains op && b != ")"

mutual

/-- Reads conditions of which one is to hold. -/
def readAny (directory : String) : Nat → List String → Except String Read
  | 0, args => .ok (false, args)
  | fuel + 1, args => do
    let (a, rest) ← readAll directory fuel args
    match rest with
    | "-o" :: rest => do
      let (b, rest) ← readAny directory fuel rest
      return (a || b, rest)
    | _ => return (a, rest)

/-- Reads conditions all of which are to hold. -/
def readAll (directory : String) : Nat → List String → Except String Read
  | 0, args => .ok (false, args)
  | fuel + 1, args => do
    let (a, rest) ← readNegated directory fuel args
    match rest with
    | "-a" :: rest => do
      let (b, rest) ← readAll directory fuel rest
      return (a && b, rest)
    | _ => return (a, rest)

/-- Reads a condition that may be negated. -/
def readNegated (directory : String) : Nat → List String → Except String Read
  | 0, args => .ok (false, args)
  | fuel + 1, args =>
    match args with
    | "!" :: rest =>
      if rest.isEmpty then .ok (true, [])
      else do
        let (a, rest) ← readNegated directory fuel rest
        return (!a, rest)
    | _ => readOne directory fuel args

/-- Reads a single condition. -/
def readOne (directory : String) : Nat → List String → Except String Read
  | 0, args => .ok (false, args)
  | fuel + 1, args =>
    match args with
    | [] => .ok (false, [])
    | "(" :: b :: rest =>
      if b == ")" then .ok (false, rest)
      else do
        match ← readAny directory fuel (b :: rest) with
        | (a, ")" :: rest) => return (a, rest)
        | _ => throw "closing paren expected"
    | a :: rest =>
      if checks.contains a && !isOperand rest then
        match rest with
        | b :: rest => do return (← check directory a b, rest)
        | [] => .error (a ++ ": argument expected")
      else
        match rest with
        | op :: rest =>
          if comparisons.contains op then
            match rest with
            | b :: rest => do return (← compare op a b, rest)
            | [] => .error (op ++ ": argument expected")
          else .ok (!a.isEmpty, op :: rest)
        | [] => .ok (!a.isEmpty, [])

end

/-- The value of a whole condition. All arguments have to be used. -/
def evaluateAll (directory : String) (args : List String) : Except String Bool := do
  let (value, rest) ← readAny directory (4 * args.length + 4) args
  if rest.isEmpty then return value
  else throw ((args.take (args.length - rest.length)).getLastD "" ++ ": unexpected operator")

/-- The value of a condition. -/
def evaluate (directory : String) (args : List String) : Except String Bool :=
  match args with
  | [] => .ok false
  | [a, op, b] =>
    if comparisons.contains op then compare op a b
    else if a == "(" && b == ")" then evaluateAll directory [op]
    else evaluateAll directory args
  | "(" :: rest =>
    if args.length = 4 && args.getLast? == some ")" then evaluateAll directory rest.dropLast
    else evaluateAll directory args
  | _ => evaluateAll directory args

/-- The status of a test, and what is wrong with it. -/
def status (directory : String) (args : List String) : UInt8 × Option String :=
  match evaluate directory args with
  | .ok true => (0, none)
  | .ok false => (1, none)
  | .error reason => (2, some reason)

end ContainerInit.Shell.Test
