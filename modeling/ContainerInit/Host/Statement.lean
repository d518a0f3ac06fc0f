import ContainerInit.Host.Utility

/-!
# Statements

A small language of statements, in which a process asks who it is, moves to another group, sends
signals and ends.

- **Terms** (`Term`): whole numbers, names, calls and comparisons. A term is read by descent and has
  a value that depends on the process alone (`Term.value`).
- **Statements** (`runStatements`): each is a call that does something, or has no effect. A call
  that is not known ends the process with a report.
-/

namespace ContainerInit.Host

/-- A term. -/
inductive Term where
  | number (n : Int)
  | name (text : String)
  | call (function : String) (args : List Term)
  | binary (op : String) (a b : Term)
  | choice (yes test no : Term)

namespace Term

/-- The words and signs of a text. -/
def scan : Nat → List Char → List String
  | 0, _ | _, [] => []
  | fuel + 1, c :: cs =>
    let isWord (c : Char) : Bool := Shell.isNameChar c || c == '.'
    if c == ' ' || c == '\t' then scan fuel cs
    else if isWord c then
      String.ofList ((c :: cs).takeWhile isWord) :: scan fuel (cs.dropWhile isWord)
    else
      match c, cs with
      | '=', '=' :: cs | '!', '=' :: cs | '<', '=' :: cs | '>', '=' :: cs =>
        String.ofList [c, '='] :: scan fuel cs
      | _, _ => String.ofList [c] :: scan fuel cs

/-- The operators, those that bind least first. -/
def levels : List (List String) :=
  [["or"], ["and"], ["==", "!=", "<", "<=", ">", ">=", "is"], ["+", "-"], ["*", "%"]]

mutual

/-- Reads a term. -/
def parse : Nat → List String → Option (Term × List String)
  | 0, _ => none
  | fuel + 1, tokens => do
    let (a, rest) ← parseLevel fuel levels tokens
    match rest with
    | "if" :: rest =>
      let (test, rest) ← parseLevel fuel levels rest
      match rest with
      | "else" :: rest =>
        let (no, rest) ← parse fuel rest
        return (.choice a test no, rest)
      | _ => none
    | _ => return (a, rest)

/-- Reads operands joined by the operators of a level. -/
def parseLevel : Nat → List (List String) → List String → Option (Term × List String)
  | 0, _, _ => none
  | fuel + 1, [], tokens => parseOperand fuel tokens
  | fuel + 1, level :: closer, tokens => do
    let (a, rest) ← parseLevel fuel closer tokens
    match rest with
    | op :: rest =>
      if level.contains op then
        let (b, rest) ← parseLevel fuel (level :: closer) rest
        return (.binary op a b, rest)
      else return (a, op :: rest)
    | [] => return (a, [])

/-- Reads an operand. -/
def parseOperand : Nat → List String → Option (Term × List String)
  | 0, _ => none
  | fuel + 1, tokens =>
    match tokens with
    | "(" :: rest => do
      match ← parse fuel rest with
      | (a, ")" :: rest) => return (a, rest)
      | _ => none
    | "-" :: rest => do
      let (a, rest) ← parseOperand fuel rest
      return (.binary "-" (.number 0) a, rest)
    | "not" :: rest => do
      let (a, rest) ← parseOperand fuel rest
      return (.binary "==" a (.number 0), rest)
    | word :: "(" :: rest => do
      let (args, rest) ← parseArguments fuel rest
      return (.call word args, rest)
    | word :: rest =>
      match Shell.decimal? word with
      | some n => some (.number n, rest)
      | none => some (.name word, rest)
    | [] => none

/-- Reads the arguments of a call. -/
def parseArguments : Nat → List String → Option (List Term × List String)
  | 0, _ => none
  | fuel + 1, tokens =>
    match tokens with
    | ")" :: rest => some ([], rest)
    | "," :: rest => parseArguments fuel rest
    | _ => do
      let (a, rest) ← parse fuel tokens
      let (args, rest) ← parseArguments fuel rest
      return (a :: args, rest)

end

/-- The term that a text stands for. -/
def ofText? (text : String) : Option Term :=
  let tokens := scan text.length text.toList
  match parse (8 * tokens.length + 8) tokens with
  | some (a, []) => some a
  | _ => none

/-- The process group of a process. -/
def groupOf (self : Identity) (pid : Int) : Option Int :=
  if pid = 0 ∨ pid = self.pid then some self.group
  else if pid = self.parent then some self.parentGroup
  else none

/-- The value of a call. -/
def callValue (self : Identity) (function : String) (args : List Int) : Option Int :=
  match function, args with
  | "os.getpid", [] => some self.pid
  | "os.getppid", [] => some self.parent
  | "os.getpgrp", [] => some self.group
  | "os.getpgid", [pid] => groupOf self pid
  | "os.getsid", [_] => some 0
  | "int", [n] | "bool", [n] => some n
  | _, _ => none

/-- The value of an operator. -/
def binaryValue (op : String) (a b : Int) : Option Int :=
  let truth (c : Bool) : Option Int := some (if c then 1 else 0)
  match op with
  | "or" => some (if a != 0 then a else b)
  | "and" => some (if a != 0 then b else a)
  | "==" | "is" => truth (a == b)
  | "!=" => truth (a != b)
  | "<" => truth (a < b)
  | "<=" => truth (a ≤ b)
  | ">" => truth (a > b)
  | ">=" => truth (a ≥ b)
  | "+" => some (a + b)
  | "-" => some (a - b)
  | "*" => some (a * b)
  | "%" => if b = 0 then none else some (Int.fmod a b)
  | _ => none

/-- The value of a name. -/
def nameValue (text : String) : Option Int :=
  match text with
  | "True" => some 1
  | "False" | "None" => some 0
  | _ =>
    if text.startsWith "signal.SIG" then
      (Signal.ofName? (String.ofList (text.toList.drop 7))).map fun s => (s.number : Int)
    else none

/-- The value of a term. -/
def value (self : Identity) : Term → Option Int
  | .number n => some n
  | .name text => nameValue text
  | .call function args => do callValue self function (← args.mapM (value self))
  | .binary op a b => do binaryValue op (← value self a) (← value self b)
  | .choice yes test no => do
    if (← value self test) != 0 then value self yes else value self no

end Term

/-- The status of a process that ends with a report. -/
def reportStatus : UInt8 := 1

/-- Ends a process with a report. -/
def report : Program :=
  writeAll .error "Traceback (most recent call last):\n" reportStatus

/-- Sends a signal, or ends with a report. -/
def signalOrReport (target : Target) (number : Int) (next : Program) : Program :=
  .kill target number.toNat fun sent => if sent then next else report

/-- Does what a call says. -/
def runCall (self : Identity) (function : String) (args : List Int) (next : Program) : Program :=
  match function, args with
  | "os._exit", [status] | "sys.exit", [status] | "exit", [status] | "quit", [status]
  | "SystemExit", [status] => .exit (UInt8.ofNat (status.emod 256).toNat)
  | "sys.exit", [] | "exit", [] | "quit", [] | "SystemExit", [] => .exit 0
  | "os.abort", [] => signalOrReport (.process self.pid) 6 next
  | "os.kill", [pid, number] =>
    if pid = 0 then signalOrReport .ownGroup number next
    else if pid < 0 then signalOrReport (.group pid.natAbs) number next
    else signalOrReport (.process pid.toNat) number next
  | "os.killpg", [group, number] =>
    signalOrReport (if group = 0 then .ownGroup else .group group.toNat) number next
  | "signal.raise_signal", [number] => signalOrReport (.process self.pid) number next
  | "os.setpgid", [pid, group] =>
    if pid = 0 ∨ pid = self.pid then .join (if group = 0 then self.pid else group.toNat) next
    else report
  | "os.setpgrp", [] => .join self.pid next
  | _, _ => if (Term.callValue self function args).isSome then next else report

/-- The interval that a statement sleeps for. -/
def sleepMillis? (statement : String) : Option Nat :=
  if statement.startsWith "time.sleep(" && statement.endsWith ")" then
    intervalMillis? (String.ofList (statement.toList.drop 11).dropLast)
  else none

/-- Runs statements one after the other. -/
def runStatements : List String → Program
  | [] => .exit 0
  | statement :: others =>
    let next := runStatements others
    let statement := statement.trimAscii.toString
    let statement :=
      if statement.startsWith "raise " then String.ofList (statement.toList.drop 6) else statement
    if statement.isEmpty || statement == "pass" || statement.startsWith "import " ||
        statement.startsWith "from " then next
    else
      match sleepMillis? statement with
      | some millis => .sleep millis next
      | none =>
        match Term.ofText? statement with
        | some (.call function args) =>
          .identify fun self =>
            match args.mapM (Term.value self) with
            | some args => runCall self function args next
            | none => report
        | some term => .identify fun self => if (term.value self).isSome then next else report
        | none => report

/-- Runs the statements that the arguments give. -/
def interpreterProgram (args : List String) : Program :=
  match args.dropWhile (· != "-c") with
  | _ :: text :: _ => runStatements ((text.splitOn "\n").flatMap (·.splitOn ";"))
  | _ => .exit 0

end ContainerInit.Host
