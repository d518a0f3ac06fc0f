import ContainerInit.Shell.Execution

/-!
# Utilities

The small programs of a host: they write their arguments, sleep, test conditions, send signals, or
run another command in other surroundings.
-/

namespace ContainerInit.Host

/-- The factor in milliseconds of the unit after a number of seconds, minutes, hours or days. -/
def unitMillis : List Char → Option Nat
  | [] | ['s'] => some 1000
  | ['m'] => some 60000
  | ['h'] => some 3600000
  | ['d'] => some 86400000
  | _ => none

/-- The number that digits stand for. -/
def digitsValue (digits : List Char) : Nat :=
  digits.foldl (fun n c => 10 * n + (c.toNat - '0'.toNat)) 0

/-- The milliseconds of an interval: a decimal number with an optional unit. -/
def intervalMillis? (text : String) : Option Nat :=
  let whole := text.toList.takeWhile Char.isDigit
  let rest := text.toList.dropWhile Char.isDigit
  let (fraction, unit) := match rest with
    | '.' :: rest => (rest.takeWhile Char.isDigit, rest.dropWhile Char.isDigit)
    | rest => ([], rest)
  if whole.isEmpty && fraction.isEmpty then none
  else
    (unitMillis unit).map fun factor =>
      digitsValue (whole ++ fraction) * factor / Nat.pow 10 fraction.length

/-- Writes a text, if there is any, and exits. -/
def writeAll (stream : Stream) (text : String) (status : UInt8) : Program :=
  if text.isEmpty then .exit status else .write stream text (.exit status)

/-- Sleeps for the sum of intervals. -/
def sleepProgram (args : List String) : Program :=
  let hint := "Try 'sleep --help' for more information.\n"
  let bad := args.filter fun a => (intervalMillis? a).isNone
  if args.isEmpty then writeAll .error ("sleep: missing operand\n" ++ hint) 1
  else if bad.isEmpty then .sleep ((args.filterMap intervalMillis?).foldl (· + ·) 0) (.exit 0)
  else
    let report (arg : String) : String := "sleep: invalid time interval ‘" ++ arg ++ "’\n"
    writeAll .error (String.join (bad.map report) ++ hint) 1

/-- Writes its arguments; escapes count where an option says so. -/
def echoProgram (args : List String) : Program :=
  let isOption (arg : String) : Bool :=
    match arg.toList with
    | '-' :: c :: cs => (c :: cs).all fun c => c == 'n' || c == 'e' || c == 'E'
    | _ => false
  let flags := (args.takeWhile isOption).flatMap fun a => a.toList.drop 1
  let text := String.intercalate " " (args.dropWhile isOption)
  let escapes := (flags.filter (· != 'n')).getLast? == some 'e'
  let (text, stop) := if escapes then Shell.unescape true text else (text, false)
  writeAll .output (text ++ if flags.contains 'n' || stop then "" else "\n") 0

/-- Writes what there is to read. -/
def copyInput : (lines : Nat) → Program → Program
  | 0, next => next
  | lines + 1, next =>
    .readLine fun
      | some line => .write .output line (copyInput lines next)
      | none => next

/-- No more lines are copied. -/
def lineLimit : Nat := 100000

/-- Copies what there is to read; the files of a host hold no text. -/
def catProgram (directory : String) (args : List String) : Program :=
  let paths := args.filter fun a => a != "-" && a != "-u" && a != "--"
  let report (path : String) : Option String :=
    match locate directory path with
    | .ok (_, .directory) => some ("cat: " ++ path ++ ": Is a directory\n")
    | .ok _ => none
    | .error e => some ("cat: " ++ path ++ ": " ++ e.wording ++ "\n")
  let faults := String.join (paths.filterMap report)
  let ending := writeAll .error faults (if faults.isEmpty then 0 else 1)
  if paths.isEmpty || args.contains "-" then copyInput lineLimit ending else ending

/-- Tests a condition. -/
def testProgram (name directory : String) (args : List String) : Program :=
  match Shell.Test.status directory args with
  | (status, none) => .exit status
  | (status, some reason) => writeAll .error (name ++ ": " ++ reason ++ "\n") status

/-- Writes by a format. -/
def printfProgram (args : List String) : Program :=
  match args with
  | [] =>
    writeAll .error
      "printf: missing operand\nTry 'printf --help' for more information.\n" 1
  | format :: args =>
    match Shell.Format.read format with
    | .error reason => writeAll .error ("printf: " ++ reason ++ "\n") 1
    | .ok parts =>
      let w := Shell.Format.apply parts args
      writeAll .output w.text (if w.faults.isEmpty then 0 else 1)

/-- Writes numbers one after the other. -/
def seqProgram (args : List String) : Program :=
  let write (first step last : Nat) : Program :=
    let count := if step = 0 || last < first then 0 else (last - first) / step + 1
    writeAll .output
      (String.join ((List.range count).map fun i => toString (first + i * step) ++ "\n")) 0
  match args.map Shell.decimal? with
  | [some last] => write 1 1 last
  | [some first, some last] => write first 1 last
  | [some first, some step, some last] => write first step last
  | _ => writeAll .error "seq: missing operand\nTry 'seq --help' for more information.\n" 1

/-- Sends signals. -/
def killProgram (args : List String) : Program :=
  Shell.kill args { bindings := [], name := "kill", directory := "/" } fun s =>
    .exit (if s.status == 0 then 0 else 1)

/-- Writes variables of the environment. -/
def printenvProgram (environment : List (String × String)) (args : List String) : Program :=
  if args.isEmpty then
    writeAll .output (String.join (environment.map fun v => v.1 ++ "=" ++ v.2 ++ "\n")) 0
  else
    let found := args.filterMap fun a => environment.lookup a
    writeAll .output (String.join (found.map (· ++ "\n")))
      (if found.length < args.length then 1 else 0)

/-- The environment that the arguments of `env` describe, and the command after them. -/
def envArguments : List String → List (String × String) → List (String × String) × List String
  | "-i" :: args, _ | "-" :: args, _ => envArguments args []
  | "-u" :: name :: args, e => envArguments args (e.filter (·.1 != name))
  | arg :: args, e =>
    match Shell.splitAssignment arg with
    | (name, some value) => envArguments args (e.filter (·.1 != name) ++ [(name, value)])
    | (_, none) => (e, arg :: args)
  | [], e => (e, [])

/-- Runs a command in another environment, or writes that. -/
def envProgram (c : Command) : Program :=
  let (environment, args) := envArguments (c.args.drop 1) c.environment
  match args with
  | [] => printenvProgram environment []
  | name :: _ =>
    .exec { c with args, environment } fun e =>
      writeAll .error ("env: ‘" ++ name ++ "’: " ++ e.wording ++ "\n")
        (if e == .noEntry then 127 else 126)

end ContainerInit.Host
