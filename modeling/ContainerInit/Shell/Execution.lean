import ContainerInit.Shell.Builtin

/-!
# Execution of scripts

A script becomes a program of the host.

- **Simple commands** (`runSimple`): functions, commands of the shell itself, and other commands,
  which run in a process of their own that the shell waits for. The last command of a subshell takes
  the place of the subshell.
- **Scripts** (`Script.run`): after each command, `settle` looks whether a failure ends the shell,
  and whether signals were noted.
- **Scripts inside scripts** (functions, traps, `eval`): `nested`, which knows one level less.
-/

namespace ContainerInit.Shell

open Host (Command Errno Program)

/-! ## Redirections -/

/-- The channels of a setting after a redirection has been made, or what is wrong with it. -/
def redirect (s : Setting) : Redirection × String → Except String Setting
  | (.duplicate stream source, _) =>
    let c := s.channels
    match source with
    | none =>
      .ok { s with channels :=
        if stream = 0 then { c with input := false }
        else if stream = 1 then { c with output := none }
        else if stream = 2 then { c with error := none }
        else c }
    | some n =>
      if 2 < n then .error (toString n ++ ": Bad file descriptor")
      else
        let target := if n = 1 then c.output else if n = 2 then c.error else none
        .ok { s with channels :=
          if stream = 1 then { c with output := target }
          else if stream = 2 then { c with error := target }
          else c }
  | (.toFile stream _, path) =>
    let parent := String.intercalate "/" ((path.splitOn "/").dropLast)
    let parent := if parent.isEmpty then (if path.startsWith "/" then "/" else ".") else parent
    match Host.locate s.directory path, Host.enter s.directory parent with
    | .ok (_, .directory), _ => .error ("cannot create " ++ path ++ ": Is a directory")
    | .error _, .error _ => .error ("cannot create " ++ path ++ ": Directory nonexistent")
    | _, _ =>
      let c := s.channels
      .ok { s with channels :=
        if stream = 1 then { c with output := none }
        else if stream = 2 then { c with error := none }
        else c }
  | (.fromFile stream _, path) =>
    match Host.locate s.directory path with
    | .ok _ =>
      .ok { s with channels :=
        if stream = 0 then { s.channels with input := false } else s.channels }
    | .error _ => .error ("cannot open " ++ path ++ ": No such file")

/-- The word that a redirection needs. -/
def Redirection.word : Redirection → Word
  | .duplicate _ _ => []
  | .toFile _ path | .fromFile _ path => path

/-- Makes redirections one after the other, and goes on with the setting after them, or with what is
wrong. -/
def redirectAll (nested : Nested) (redirections : List Redirection) (s : Setting)
    (failed : String → Setting → Program) (rest : Rest) : Program :=
  expandEach nested (redirections.map fun r => (r, r.word)) s fun made s =>
    match made.foldlM redirect s with
    | .ok s => rest s
    | .error reason => failed reason s

/-! ## Simple commands -/

/-- The error of a command that could not be run. -/
def notRun (s : Setting) (name : String) (e : Errno) (rest : Rest) : Program :=
  match e with
  | .noEntry | .notDirectory => s.fail (name ++ ": not found") 127 rest
  | .nameTooLong => s.fail (name ++ ": " ++ e.wording) 127 rest
  | _ => s.fail (name ++ ": " ++ e.wording) 126 rest

/-- The command that words name, with assignments for its environment. -/
def commandOf (s : Setting) (assigned : List (String × String)) (args : List String) : Command where
  args
  environment := assigned.foldl (fun e a => e.filter (·.1 != a.1) ++ [a]) s.environment
  directory := s.directory

/-- Runs a command in a process of its own and waits for it; the last one of all takes the place of
the shell. -/
def runCommand (place : Place) (s : Setting) (command : Command) (rest : Rest) : Program :=
  let name := command.args.headD ""
  let turn := s.redirectAll (.exec command fun e => notRun s name e fun s => .exit s.status)
  if place.final && s.traps.isEmpty then turn
  else
    .fork (if s.channels.input then none else some "") false turn
      fun pid => .await pid false (afterEnding s rest)

/-- Runs a function. -/
def runFunction (nested : Nested) (place : Place) (body : Script) (args : List String) (s : Setting)
    (rest : Rest) : Program :=
  let inside := { s with
    arguments := args, shadowed := [], loops := 0, calls := s.calls + 1 }
  nested.script body { place with final := false } inside fun t =>
    let t := t.shadowed.foldl (fun t v => t.replace v.1 v.2) t
    rest { t with
      arguments := s.arguments, shadowed := s.shadowed, loops := s.loops, calls := s.calls
      flow := if t.flow == .returning then .onward else t.flow }

/-- What the words of a command tell to do without other commands: `command` names one. -/
def lookUp (s : Setting) (nested : Nested) (name : String) : Option String :=
  let searchPath := (s.lookup? "PATH").getD Host.standardSearchPath
  if (builtin? nested {} s (fun s => .exit s.status) [name]).isSome then some name
  else if name.contains '/' then
    if (Host.findProgram s.directory searchPath name).toBool then some name else none
  else
    let places := searchPath.splitOn ":"
    (places.find? fun place => (Host.programAt s.directory (place ++ "/" ++ name)).toBool).map
      (· ++ "/" ++ name)

/-- Runs the command that words name. -/
def runWords (nested : Nested) (place : Place) (assigned : List (String × String)) (s : Setting)
    (rest : Rest) : List String → Program
  | [] => rest s
  | "exec" :: args =>
    if args.isEmpty then rest (s.withStatus 0)
    else
      s.redirectAll (.exec (commandOf s assigned args) fun e =>
        notRun s ("exec: " ++ args.headD "") e fun s => leave nested s s.status)
  | "command" :: "-v" :: name :: _ =>
    match lookUp s nested name with
    | some text => s.say .output (text ++ "\n") (rest (s.withStatus 0))
    | none => rest (s.withStatus 127)
  | "command" :: args =>
    match builtin? nested place s rest args with
    | some program => program
    | none => if args.isEmpty then rest (s.withStatus 0) else
      runCommand place s (commandOf s assigned args) rest
  | name :: args =>
    match s.functions.lookup name with
    | some body => runFunction nested place body args s rest
    | none =>
      match builtin? nested place s rest (name :: args) with
      | some program => program
      | none => runCommand place s (commandOf s assigned (name :: args)) rest

/-- Gives variables their values. -/
def assignAll (assigned : List (String × String)) (s : Setting) : Setting :=
  assigned.foldl (fun s a => s.assign a.1 a.2) s

/-- Gives variables back what they were in another setting. -/
def restoreAll (assigned : List (String × String)) (before s : Setting) : Setting :=
  assigned.foldl (fun s a => s.replace a.1 (before.find? a.1)) s

/-- What is written of a command before it runs. -/
def traceOf (assigned : List (String × String)) (args : List String) : String :=
  String.intercalate " " ("+" :: assigned.map (fun a => a.1 ++ "=" ++ a.2) ++ args) ++ "\n"

/-- Runs a simple command. -/
def runSimple (nested : Nested) (place : Place) (assignments : List (String × Word))
    (words : List Word) (redirections : List Redirection) (s : Setting) (rest : Rest) : Program :=
  expandFields nested words { s with substituted := none } fun args s =>
    let name := args.headD ""
    let outside := s.channels
    let back (t : Setting) : Setting := { t with channels := outside }
    let failed (reason : String) (s : Setting) : Program :=
      if isSpecialCommand name then abort nested s reason
      else s.fail reason errorStatus fun s => rest (back s)
    redirectAll nested redirections s failed fun s =>
      expandEach nested assignments s fun assigned s =>
        let run : Program :=
          if args.isEmpty then
            rest (back ((assignAll assigned s).withStatus (s.substituted.getD 0)))
          else if args == ["exec"] then rest (s.withStatus 0)
          else if isSpecialCommand name then
            runWords nested place assigned (assignAll assigned s) (fun t => rest (back t)) args
          else
            runWords nested place assigned (assignAll assigned s)
              (fun t => rest (back (restoreAll assigned s t))) args
        if s.traces then s.say .error (traceOf assigned args) run else run

/-! ## Scripts -/

/-- Goes on after a command: a failure may end the shell, and signals are looked at. -/
def settle (nested : Nested) (place : Place) (rest : Rest) (s : Setting) : Program :=
  pollTraps nested
    (fun s =>
      if s.stopsAtFailure && s.status != 0 && !place.checked && s.goesOn then
        leave nested s s.status
      else rest s)
    pollLimit s

/-- How long a round of a loop takes, in milliseconds: time passes in a loop without end. -/
def roundMillis : Nat := 1

/-- Runs the body of a loop as long as its test says so, for `rounds` rounds at most. What a round
does depends on the host's answer, so that no round is worked out before it comes. -/
def iterate (test body : Setting → Rest → Program) (whileTrue : Bool) (rest : Rest) :
    (rounds : Nat) → (last : UInt8) → Setting → Program
  | 0, last, s => rest (s.withStatus last)
  | rounds + 1, last, s =>
    test s fun s =>
      match s.endRound with
      | (s, false) => rest s
      | (s, true) =>
        if (s.status == 0) == whileTrue then
          body s fun s =>
            match s.endRound with
            | (s, false) => rest s
            | (s, true) =>
              .sleep roundMillis (.identify fun _ =>
                iterate test body whileTrue rest rounds s.status s)
        else rest (s.withStatus last)

/-- No loop of a script runs more often. -/
def roundLimit : Nat := 1000000

/-- Runs the body of a loop once for each value of a variable. -/
def iterateOver (name : String) (body : Setting → Rest → Program) (rest : Rest) :
    List String → Setting → Program
  | [], s => rest s
  | value :: values, s =>
    body (s.assign name value) fun s =>
      match s.endRound with
      | (s, false) => rest s
      | (s, true) => iterateOver name body rest values s

/-- Looks for a pattern that accepts a text. -/
def findPattern (nested : Nested) (text : String) (found otherwise : Rest) :
    List Word → Setting → Program
  | [], s => otherwise s
  | w :: words, s =>
    expandPattern nested w s fun p s =>
      if p.accepts text then found s else findPattern nested text found otherwise words s

/-- A setting around which a loop is. -/
def inLoop (s : Setting) : Setting :=
  { s with loops := s.loops + 1 }

/-- A setting after a loop. -/
def outOfLoop (rest : Rest) (s : Setting) : Program :=
  rest { s with loops := s.loops - 1 }

/-- Runs a script at a place. -/
def Script.run (nested : Nested) : Script → Place → Setting → Rest → Program
  | .empty, _, s, rest => rest s
  | .simple assignments words redirections, place, s, rest =>
    runSimple nested place assignments words redirections s (settle nested place rest)
  | .sequence first second, place, s, rest =>
    first.run nested { place with final := false } s fun s =>
      if s.goesOn then second.run nested place s rest else rest s
  | .both first second, place, s, rest =>
    first.run nested { checked := true } s fun s =>
      if s.goesOn && s.status == 0 then second.run nested place s rest else rest s
  | .either first second, place, s, rest =>
    first.run nested { checked := true } s fun s =>
      if s.goesOn && s.status != 0 then second.run nested place s rest else rest s
  | .negation body, _, s, rest =>
    body.run nested { checked := true } s fun s =>
      rest (if s.goesOn then s.withStatus (if s.status == 0 then 1 else 0) else s)
  | .pipeline first second, place, s, rest =>
    let writer := { s with channels := { s.channels with output := some .output } }
    let reader := { s with channels := { s.channels with input := true } }
    .fork none true (inSubshell nested (first.run nested) writer) fun pid =>
      .await pid false <| afterEnding s fun _ =>
        .collected pid fun text =>
          .fork (some text) false (inSubshell nested (second.run nested) reader) fun pid =>
            .await pid false (afterEnding s (settle nested place rest))
  | .background body, _, s, rest =>
    .fork (some "") false
      (.react 2 .ignore (.react 3 .ignore (inSubshell nested (body.run nested) s)))
      fun pid => rest { s with children := pid :: s.children, lastChild := some pid, status := 0 }
  | .subshell body, place, s, rest =>
    .fork none false (inSubshell nested (body.run nested) s) fun pid =>
      .await pid false (afterEnding s (settle nested place rest))
  | .redirected body redirections, place, s, rest =>
    let back (t : Setting) : Setting := { t with channels := s.channels }
    redirectAll nested redirections s
      (fun reason t => t.fail reason errorStatus fun t => settle nested place rest (back t))
      fun t => body.run nested { place with final := false } t fun t => rest (back t)
  | .branch test yes no, place, s, rest =>
    test.run nested { checked := true } s fun s =>
      if !s.goesOn then rest s
      else if s.status == 0 then yes.run nested place s rest
      else no.run nested place (s.withStatus 0) rest
  | .loop test body whileTrue, place, s, rest =>
    iterate (test.run nested { checked := true }) (body.run nested { place with final := false })
      whileTrue (outOfLoop rest) roundLimit 0 (inLoop s)
  | .each name words body, place, s, rest =>
    let runFor (values : List String) (s : Setting) : Program :=
      iterateOver name (body.run nested { place with final := false }) (outOfLoop rest) values
        (inLoop (s.withStatus 0))
    match words with
    | some words => expandFields nested words s runFor
    | none => runFor s.arguments s
  | .clause subject patterns body otherwise, place, s, rest =>
    expandText nested subject s fun text s =>
      findPattern nested text (fun s => body.run nested place (s.withStatus 0) rest)
        (fun s => otherwise.run nested place (s.withStatus 0) rest) patterns s
  | .definition name body, _, s, rest =>
    rest { s with
      functions := (name, body) :: s.functions.filter (·.1 != name), status := 0 }

/-- How scripts and words inside of a script are dealt with, `depth` deep at most. -/
def nestedTo : (depth : Nat) → Nested
  | 0 => { script := fun _ _ s rest => rest s, word := fun _ s rest => rest [] s }
  | depth + 1 =>
    { script := fun script place s rest => script.run (nestedTo depth) place s rest
      word := fun w s rest => expandWord (nestedTo depth) w s rest }

/-- How deep scripts lie inside each other. -/
def nestingLimit : Nat := 100

/-- The variables of a shell that starts: those of the environment whose names can be names of
variables, and some of its own. -/
def initialVariables (environment : List (String × String)) (directory : String) (parent : Nat) :
    List Variable :=
  let given := environment.map fun v => splitAssignment (v.1 ++ "=" ++ v.2)
  let imported : List Variable := (given.filter fun v => isName v.1).map fun v =>
    ⟨v.1, v.2.getD "", true⟩
  let exportsPlace := imported.any (·.name == "PWD")
  let own : List Variable :=
    [⟨"IFS", " \t\n", false⟩, ⟨"PPID", toString parent, false⟩, ⟨"OPTIND", "1", false⟩,
      ⟨"PWD", directory, exportsPlace⟩]
  own ++ imported.reverse.filter fun v => !own.any (·.name == v.name)

/-- Options before the script, each of one letter. -/
def launchOptions : List String → List Char × List String
  | arg :: args =>
    match arg.toList with
    | '-' :: c :: cs =>
      let (more, rest) := launchOptions args
      (c :: cs ++ more, rest)
    | _ => ([], arg :: args)
  | [] => ([], [])

/-- Reads all lines there are, `limit` at most. -/
def readAll (use : String → Program) : (limit : Nat) → (text : String) → Program
  | 0, text => use text
  | limit + 1, text =>
    .readLine fun
      | some line => readAll use limit (text ++ line)
      | none => use text

/-- No script that is read has more lines. -/
def scriptLimit : Nat := 10000

/-- The shell: runs the script that its arguments give, or the one that it reads. -/
def launch (args : List String) (environment : List (String × String)) (directory : String) :
    Program :=
  let (options, args) := launchOptions args
  let nested := nestedTo nestingLimit
  let start (text : String) (args : List String) : Program :=
    .identify fun self =>
      let s : Setting :=
        { bindings := initialVariables environment directory self.parent
          name := args.headD "sh"
          arguments := args.drop 1
          self := self.pid
          directory
          stopsAtFailure := options.contains 'e'
          refusesUnset := options.contains 'u'
          traces := options.contains 'x' }
      nested.text "" text {} s fun s => leave nested s s.status
  match args with
  | text :: rest =>
    if options.contains 'c' then start text rest
    else
      match Host.locate directory text with
      | .ok _ => .exit 0
      | .error _ =>
        .write .error ("sh: 0: cannot open " ++ text ++ ": No such file\n") (.exit errorStatus)
  | [] =>
    if options.contains 'c' then
      .write .error "sh: 0: -c requires an argument\n" (.exit errorStatus)
    else readAll (fun text => start text []) scriptLimit ""

end ContainerInit.Shell
