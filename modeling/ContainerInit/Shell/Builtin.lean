import ContainerInit.Shell.Expansion
import ContainerInit.Shell.Format
import ContainerInit.Shell.Test
import ContainerInit.Signal

/-!
# Commands of the shell itself

They act on the setting and on the shell's own process.

- **Signals** (`kill`, `trapCommand`, `pollTraps`): what was noted for a signal is done between two
  commands.
- **Waiting** (`waitCommand`): a signal that is noted ends it.
- **Special commands** (`isSpecialCommand`): an error in one of them ends the shell.
-/

namespace ContainerInit.Shell

open Host (Program Reaction Target)

/-- The greatest status or count that a command takes. -/
def argumentLimit : Nat := 2147483647

/-- The number that an argument stands for. -/
def argumentNumber? (text : String) : Option Nat :=
  (decimal? text).filter (· ≤ argumentLimit)

/-! ## Signals -/

/-- The number of a signal that is given by number or by name. -/
def signalNumber? (text : String) : Option Nat :=
  match decimal? text with
  | some n => if n ≤ 64 then some n else none
  | none => (Signal.ofName? ("SIG" ++ text.toUpper)).map Signal.number

/-- The name of a signal, without what all names begin with. -/
def signalName (number : Nat) : String :=
  match Signal.ofNumber? number with
  | some signal => String.ofList (signal.name.toList.drop 3)
  | none => toString number

/-- Whom an argument of a kill names. -/
def target? (text : String) : Option Target :=
  match Test.number? text with
  | none => none
  | some i =>
    if i = 0 then some .ownGroup
    else if i < 0 then some (.group i.natAbs)
    else some (.process i.natAbs)

/-- Sends a signal to each of several targets. -/
def killEach (number : Nat) (rest : Rest) : List String → Setting → Program
  | [], s => rest s
  | arg :: args, s =>
    match target? arg with
    | none => s.fail ("kill: Illegal number: " ++ arg) errorStatus rest
    | some target =>
      .kill target number fun sent =>
        if sent then killEach number rest args s
        else s.fail "kill: No such process\n" 1 (killEach number rest args)

/-- How a kill is to be used. -/
def killUsage : String :=
  "kill: Usage: kill [-s sigspec | -signum | -sigspec] [pid | job]... or\nkill -l [exitstatus]"

/-- Sends signals, or writes the name of one. -/
def kill (args : List String) (s : Setting) (rest : Rest) : Program :=
  let send (number : Nat) (args : List String) : Program :=
    if args.isEmpty then s.fail killUsage errorStatus rest
    else killEach number rest args (s.withStatus 0)
  match args with
  | "-s" :: name :: args =>
    match signalNumber? name with
    | some n => send n args
    | none => s.fail ("kill: invalid signal number or name: " ++ name) errorStatus rest
  | ["-l", number] =>
    match argumentNumber? number with
    | some n =>
      s.say .output (signalName (if 128 < n then n - 128 else n) ++ "\n") (rest (s.withStatus 0))
    | none => s.fail ("kill: Illegal number: " ++ number) errorStatus rest
  | "--" :: args => send 15 args
  | arg :: others =>
    match arg.toList with
    | '-' :: c :: cs =>
      match signalNumber? (String.ofList (c :: cs)) with
      | some n => send n others
      | none => s.fail ("kill: Illegal option -" ++ String.ofList [c]) errorStatus rest
    | _ => send 15 args
  | [] => s.fail killUsage errorStatus rest

/-- The number of the signal that a trap is for; 0 stands for the end of the shell. -/
def trapNumber? (text : String) : Option Nat :=
  if text.toUpper == "EXIT" then some 0 else signalNumber? text

/-- Sets what is to be done for signals, or at the end of the shell. -/
def trapEach (action : Option String) (rest : Rest) : List String → Setting → Program
  | [], s => rest s
  | name :: names, s =>
    match trapNumber? name with
    | none => s.say .error ("trap: " ++ name ++ ": bad trap\n") (rest (s.withStatus 1))
    | some n =>
      let others := s.traps.filter (·.1 != n)
      let next := trapEach action rest names
        { s with traps := (action.map (n, ·)).toList ++ others }
      let reaction : Reaction := match action with
        | none => .standard
        | some text => if text.isEmpty then .ignore else .note
      if n = 0 then next else .react n reaction next

/-- A text as a word that stands for it: in single quotes, and single quotes in double ones. -/
def quoteText : Nat → List Char → String
  | 0, _ => ""
  | fuel + 1, cs =>
    let plain := cs.takeWhile (· != '\'')
    let rest := cs.drop plain.length
    let quotes := rest.takeWhile (· == '\'')
    let rest := rest.drop quotes.length
    "'" ++ String.ofList plain ++ "'" ++
      (if quotes.isEmpty then "" else "\"" ++ String.ofList quotes ++ "\"") ++
      if rest.isEmpty then "" else quoteText fuel rest

/-- The text that stands for a trap. -/
def trapText (trap : Nat × String) : String :=
  let name := if trap.1 = 0 then "EXIT" else signalName trap.1
  "trap -- " ++ quoteText (trap.2.length + 1) trap.2.toList ++ " " ++ name ++ "\n"

/-- Sets traps, or writes all of them. -/
def trapCommand (args : List String) (s : Setting) (rest : Rest) : Program :=
  let s := s.withStatus 0
  match args with
  | [] =>
    let sorted := s.traps.mergeSort fun a b => a.1 ≤ b.1
    s.say .output (String.join (sorted.map trapText)) (rest s)
  | [name] => trapEach none rest [name] s
  | action :: names =>
    if (trapNumber? action).isSome && (decimal? action).isSome then trapEach none rest args s
    else trapEach (if action == "-" then none else some action) rest names s

/-- No more signals are noted between two commands. -/
def pollLimit : Nat := 64

/-- Does what is to be done for a signal. The status stays as it was. -/
def runTrap (nested : Nested) (number : Nat) (s : Setting) (rest : Rest) : Program :=
  match s.traps.lookup number with
  | some text => nested.text "" text {} s fun t => rest (t.withStatus s.status)
  | none => rest s

/-- Does what is to be done for the signals that were noted. -/
def pollTraps (nested : Nested) (rest : Rest) : (limit : Nat) → Setting → Program
  | 0, s => rest s
  | limit + 1, s =>
    if s.traps.all (·.1 = 0) then rest s
    else
      .noted fun
        | none => rest s
        | some n => runTrap nested n s (pollTraps nested rest limit)

/-- Waits for processes one after the other, as long as no signal is noted. -/
def waitEach (nested : Nested) (reports : Bool) (rest : Rest) : List Nat → Setting → Program
  | [], s => rest s
  | pid :: pids, s =>
    let next := waitEach nested reports rest pids
    if s.children.contains pid then
      .await pid true fun
        | some e =>
          let t := { s with
            children := s.children.filter (· != pid)
            awaited := (pid, statusOf (some e)) :: s.awaited }
          if reports then afterEnding t next (some e) else next (t.withStatus (statusOf (some e)))
        | none =>
          .noted fun
            | some n => runTrap nested n (s.withStatus (UInt8.ofNat (128 + n))) rest
            | none => next (s.withStatus 127)
    else next (s.withStatus ((s.awaited.lookup pid).getD 127))

/-- Waits for the processes that are named, or for all in the background. -/
def waitCommand (nested : Nested) (args : List String) (s : Setting) (rest : Rest) : Program :=
  match args.find? fun a => (argumentNumber? a).isNone with
  | some bad => s.fail ("wait: Illegal number: " ++ bad) errorStatus rest
  | none =>
    if args.isEmpty then
      let settle (t : Setting) : Program :=
        rest (if t.children.isEmpty then t.withStatus 0 else t)
      waitEach nested false settle s.children.reverse (s.withStatus 0)
    else waitEach nested true rest (args.filterMap argumentNumber?) (s.withStatus 0)

/-! ## Variables -/

/-- Splits an argument into a name and a value. -/
def splitAssignment (arg : String) : String × Option String :=
  let name := arg.toList.takeWhile (· != '=')
  match arg.toList.drop name.length with
  | _ :: value => (String.ofList name, some (String.ofList value))
  | [] => (String.ofList name, none)

/-- Does something with the variable that each argument names; a bad name ends the shell. -/
def withNames (nested : Nested) (command : String)
    (step : String → Option String → Setting → Setting) (args : List String) (s : Setting)
    (rest : Rest) : Program :=
  let named := args.map splitAssignment
  match named.find? fun a => !isName a.1 with
  | some bad => abort nested s (command ++ ": " ++ bad.1 ++ ": bad variable name")
  | none => rest ((named.foldl (fun s a => step a.1 a.2 s) s).withStatus 0)

/-- Gives a variable a value, if there is one, and exports it. -/
def exportStep (name : String) (value : Option String) (s : Setting) : Setting :=
  (match value with
    | some v => s.assign name v
    | none => s).exportVariable name

/-- Remembers what a variable was, and gives it a value. -/
def localStep (name : String) (value : Option String) (s : Setting) : Setting :=
  let s :=
    if s.shadowed.any (·.1 == name) then s
    else { s with shadowed := (name, s.find? name) :: s.shadowed }
  match value with
  | some v => s.assign name v
  | none => s

/-- Sets options and arguments. -/
def setCommand (nested : Nested) : List String → Setting → Rest → Program
  | [], s, rest => rest (s.withStatus 0)
  | "--" :: args, s, rest => rest { s with arguments := args, status := 0 }
  | arg :: args, s, rest =>
    match arg.toList with
    | sign :: flags =>
      if (sign == '-' || sign == '+') && !flags.isEmpty then
        let on := sign == '-'
        match flags.find? fun c => !"euxfmnvCab".toList.contains c with
        | some bad => abort nested s ("set: Illegal option " ++ String.ofList [sign, bad])
        | none =>
          let step (s : Setting) (c : Char) : Setting :=
            match c with
            | 'e' => { s with stopsAtFailure := on }
            | 'u' => { s with refusesUnset := on }
            | 'x' => { s with traces := on }
            | _ => s
          setCommand nested args (flags.foldl step s) rest
      else rest { s with arguments := arg :: args, status := 0 }
    | [] => rest { s with arguments := arg :: args, status := 0 }

/-- Gives the parts of a line to variables; the last one gets what is left. -/
def assignFields (separators : List Char) : List String → List Char → Setting → Setting
  | [], _, s => s
  | [name], cs, s =>
    let skipped := cs.dropWhile fun c => separators.contains c && isFieldBlank c
    let kept := (skipped.reverse.dropWhile fun c => separators.contains c && isFieldBlank c).reverse
    s.assign name (String.ofList kept)
  | name :: names, cs, s =>
    let cs := cs.dropWhile fun c => separators.contains c && isFieldBlank c
    let field := cs.takeWhile (!separators.contains ·)
    let rest := (cs.drop field.length).dropWhile fun c => separators.contains c && isFieldBlank c
    let rest := match rest with
      | c :: more => if separators.contains c then more else rest
      | [] => []
    assignFields separators names rest (s.assign name (String.ofList field))

/-- Reads a line. -/
def readCommand (args : List String) (s : Setting) (rest : Rest) : Program :=
  let names := match args with
    | "-r" :: names => names
    | names => names
  match names.find? (!isName ·) with
  | some bad => s.fail ("read: " ++ bad ++ ": bad variable name") errorStatus rest
  | none =>
    if names.isEmpty then s.fail "read: arg count" errorStatus rest
    else
      let use (line : Option String) : Program :=
        let cs := (line.getD "").toList
        let isWhole := cs.getLast? == some '\n'
        let s := assignFields s.separators names (if isWhole then cs.dropLast else cs) s
        rest (s.withStatus (if isWhole then 0 else 1))
      if s.channels.input then .readLine use else use none

/-! ## The rest -/

/-- Writes what a test finds wrong, and goes on with its status. -/
def testCommand (name : String) (args : List String) (s : Setting) (rest : Rest) : Program :=
  match Test.status s.directory args with
  | (status, none) => rest (s.withStatus status)
  | (status, some reason) => s.fail (name ++ ": " ++ reason) status rest

/-- Writes by a format. -/
def printfCommand (args : List String) (s : Setting) (rest : Rest) : Program :=
  match (match args with | "--" :: args => args | args => args) with
  | [] => s.fail "printf: usage: printf format [arg ...]" errorStatus rest
  | format :: args =>
    match Format.read format with
    | .error reason => s.fail ("printf: " ++ reason) errorStatus rest
    | .ok parts =>
      let w := Format.apply parts args
      let faults := String.join (w.faults.map fun f => s.complaint ("printf: " ++ f))
      s.say .error faults
        (s.say .output w.text (rest (s.withStatus (if w.faults.isEmpty then 0 else 1))))

/-- Moves to another directory. -/
def cdCommand (args : List String) (s : Setting) (rest : Rest) : Program :=
  let path := match args with
    | "-" :: _ => (s.lookup? "OLDPWD").getD s.directory
    | path :: _ => path
    | [] => (s.lookup? "HOME").getD ""
  match if path.isEmpty then .ok s.directory else Host.enter s.directory path with
  | .ok directory =>
    let t := ((s.assign "OLDPWD" s.directory).assign "PWD" directory).withStatus 0
    let t := { t with directory }
    if args.head? == some "-" then s.say .output (directory ++ "\n") (rest t) else rest t
  | .error _ => s.fail ("cd: can't cd to " ++ path) errorStatus rest

/-- Leaves the shell. -/
def exitCommand (nested : Nested) (args : List String) (s : Setting) : Program :=
  match args with
  | [] => leave nested s s.status
  | arg :: _ =>
    match argumentNumber? arg with
    | some n => leave nested s (UInt8.ofNat n)
    | none => abort nested s ("exit: Illegal number: " ++ arg)

/-- Changes how a script goes on, by as many loops as an argument says. -/
def loopCommand (nested : Nested) (name : String) (flow : Nat → Flow) (args : List String)
    (s : Setting) (rest : Rest) : Program :=
  let arg := args.headD "1"
  match (argumentNumber? arg).filter (0 < ·) with
  | none => abort nested s (name ++ ": Illegal number: " ++ arg)
  | some n =>
    if s.loops = 0 then rest (s.withStatus 0)
    else rest { s with flow := flow (min n s.loops), status := 0 }

/-- Leaves a function, or a script. -/
def returnCommand (nested : Nested) (args : List String) (s : Setting) (rest : Rest) : Program :=
  match args with
  | [] => rest { s with flow := .returning }
  | arg :: _ =>
    match argumentNumber? arg with
    | some n => rest { s with flow := .returning, status := UInt8.ofNat n }
    | none => abort nested s ("return: Illegal number: " ++ arg)

/-- Drops the first arguments. -/
def shiftCommand (nested : Nested) (args : List String) (s : Setting) (rest : Rest) : Program :=
  let arg := args.headD "1"
  match argumentNumber? arg with
  | none => abort nested s ("shift: Illegal number: " ++ arg)
  | some n =>
    if s.arguments.length < n then abort nested s "shift: can't shift that many"
    else rest { s with arguments := s.arguments.drop n, status := 0 }

/-- Commands an error in which ends the shell, and whose assignments stay. -/
def isSpecialCommand (name : String) : Bool :=
  [":", ".", "break", "continue", "eval", "exec", "exit", "export", "readonly", "return", "set",
    "shift", "times", "trap", "unset"].contains name

/-- Commands that have nothing to do here. -/
def idleCommands : List String :=
  ["times", "ulimit", "umask", "hash", "alias", "unalias", "jobs", "fg", "bg"]

/-- A command of the shell itself. -/
def builtin? (nested : Nested) (place : Place) (s : Setting) (rest : Rest) :
    List String → Option Program
  | [] => none
  | name :: args =>
    match name with
    | ":" | "true" => some (rest (s.withStatus 0))
    | "false" => some (rest (s.withStatus 1))
    | "exit" => some (exitCommand nested args s)
    | "echo" => some (s.say .output (echoText args) (rest (s.withStatus 0)))
    | "printf" => some (printfCommand args s rest)
    | "pwd" => some (s.say .output (s.directory ++ "\n") (rest (s.withStatus 0)))
    | "cd" => some (cdCommand args s rest)
    | "test" => some (testCommand name args s rest)
    | "[" =>
      if args.getLast? == some "]" then some (testCommand name args.dropLast s rest)
      else some (s.fail "[: missing ]" errorStatus rest)
    | "read" => some (readCommand args s rest)
    | "export" => some (withNames nested name exportStep args s rest)
    | "readonly" =>
      some (withNames nested name (fun x v s => (v.map (s.assign x)).getD s) args s rest)
    | "unset" =>
      some (withNames nested name (fun x _ s => s.replace x none)
        (args.filter fun a => a != "-v" && a != "-f") s rest)
    | "local" =>
      if s.calls = 0 then some (abort nested s "local: not in a function")
      else some (withNames nested name localStep args s rest)
    | "shift" => some (shiftCommand nested args s rest)
    | "set" => some (setCommand nested args s rest)
    | "eval" =>
      some (nested.text "eval: " (String.intercalate " " args) { place with final := false }
        (s.withStatus 0) rest)
    | "." =>
      match Host.locate s.directory (args.headD "") with
      | .ok _ => some (rest (s.withStatus 0))
      | .error _ => some (abort nested s (".: cannot open " ++ args.headD "" ++ ": No such file"))
    | "wait" => some (waitCommand nested args s rest)
    | "trap" => some (trapCommand args s rest)
    | "kill" => some (kill args s rest)
    | "break" => some (loopCommand nested name .breaking args s rest)
    | "continue" => some (loopCommand nested name .continuing args s rest)
    | "return" => some (returnCommand nested args s rest)
    | _ => if idleCommands.contains name then some (rest (s.withStatus 0)) else none

end ContainerInit.Shell
