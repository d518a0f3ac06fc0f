import ContainerInit.Host.Statement

/-!
# Programs by name

What the programs of a host do when they are run (`programOf`), and which of them a command names
(`load`).
-/

namespace ContainerInit.Host

/-- What a program does with its arguments and surroundings. -/
def programOf (name : String) (c : Command) : Program :=
  let args := c.args.drop 1
  match name with
  | "true" => .exit 0
  | "sleep" => sleepProgram args
  | "echo" => echoProgram args
  | "printf" => printfProgram args
  | "pwd" => .write .output (c.directory ++ "\n") (.exit 0)
  | "cat" => catProgram c.directory args
  | "seq" => seqProgram args
  | "test" => testProgram name c.directory args
  | "[" =>
    if args.getLast? == some "]" then testProgram name c.directory args.dropLast
    else writeAll .error "[: missing ‘]’\n" 2
  | "kill" => killProgram args
  | "env" => envProgram c
  | "printenv" => printenvProgram c.environment args
  | "sh" | "dash" | "bash" => Shell.launch args c.environment c.directory
  | "python3" => interpreterProgram args
  | _ => .exit 1

/-- The directories in which programs are looked for where the environment does not say. -/
def fallbackSearchPath : String := "/bin:/usr/bin"

/-- Finds the program that a command names. -/
def load (c : Command) : Except Errno Program := do
  let searchPath := (c.environment.lookup "PATH").getD fallbackSearchPath
  let name ← findProgram c.directory searchPath (c.args.headD "")
  return programOf name c

end ContainerInit.Host
