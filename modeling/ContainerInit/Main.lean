import ContainerInit.Supervisor.Schedule
import ContainerInit.Wire.Notice

/-!
# The command line

Supervises one command on a host of its own: `main` reads what it needs of the environment, and
writes the log, if it is to be written as JSON, and what the command and the supervisor have
written.
-/

namespace ContainerInit

/-- The variable that says which notices are written. -/
def filterKey : String := "RUST_LOG"

/-- The variables that the host of a supervision has. -/
def hostKeys : List String :=
  [Config.idKey, Config.killGraceKey, Config.traceJsonKey, filterKey, "PATH", "HOME"]

/-- The number that bytes stand for, the first byte first. -/
def wordOf (bytes : ByteArray) : UInt64 :=
  bytes.foldl (fun n b => n <<< 8 ||| b.toUInt64) 0

/-- What is written to the output of a supervision: the log, if it is to be, and the rest. -/
def Supervised.outputText (s : Supervised) (lookup : String → Option String) : String :=
  let notices := (LogFilter.ofText (lookup filterKey)).notices s.log
  let asJson := Config.loadTraceJson (lookup Config.traceJsonKey)
  (if asJson then noticeLines notices else "") ++ s.output

end ContainerInit

open ContainerInit in
/-- Supervises the command that the arguments give. -/
def main (args : List String) : IO UInt32 := do
  let given ← hostKeys.filterMapM fun key => do
    return (← IO.getEnv key).map (key, ·)
  let lookup (key : String) : Option String := given.lookup key
  let random ← IO.getRandomBytes 16
  let fresh := Uuid.ofRandom (wordOf (random.extract 0 8)) (wordOf (random.extract 8 16))
  let host : Host := { clock := ← IO.monoMsNow }
  let host := { host with environment := host.environmentOf given }
  let result := supervise args lookup fresh host false
  IO.print (result.outputText lookup)
  IO.eprint result.error
  return (result.code.getD failureCode).toUInt32
