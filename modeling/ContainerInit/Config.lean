import ContainerInit.Lifecycle.Error
import ContainerInit.Text.Blank
import ContainerInit.Text.Quoted
import ContainerInit.Uuid

/-!
# Configuration from the environment

- **Settings** (`Config`): the identity of the init process, the grace period between the signals
  of a shutdown, and whether logs are written as JSON.
- **Loading** (`Config.load`): from a lookup of variables by name. The identity is checked first,
  then the grace period; both are read without the blanks around them.
- **Numbers** (`readMillis`): an optional plus sign and decimal digits below 2^64; the first thing
  from left to right that is wrong decides what is reported (`NumberFault`).
-/

namespace ContainerInit

/-- The settings of one run. -/
structure Config where
  id : String
  /-- The grace period in milliseconds. -/
  killGrace : UInt64
  traceJson : Bool
  deriving DecidableEq

/-- Why a text is not a number below 2^64. -/
inductive NumberFault where
  | empty
  | invalidDigit
  | tooLarge
  deriving DecidableEq

/-- The wording of the fault. -/
def NumberFault.message : NumberFault → String
  | .empty => "cannot parse integer from empty string"
  | .invalidDigit => "invalid digit found in string"
  | .tooLarge => "number too large to fit in target type"

/-- Reads decimal digits after the number `acc`. -/
def readDecimal (acc : Nat) : List Char → Except NumberFault Nat
  | [] => .ok acc
  | c :: cs =>
    if c.isDigit then
      let n := acc * 10 + (c.toNat - '0'.toNat)
      if n < UInt64.size then readDecimal n cs else .error .tooLarge
    else .error .invalidDigit

/-- Reads a number of milliseconds: an optional plus sign and at least one digit. -/
def readMillis (cs : List Char) : Except NumberFault Nat :=
  match cs with
  | [] => .error .empty
  | ['+'] => .error .invalidDigit
  | '+' :: digits => readDecimal 0 digits
  | digits => readDecimal 0 digits

namespace Config

/-- The variable that names the init process. -/
def idKey : String := "SHIM_ID"

/-- The variable that sets the grace period, in milliseconds. -/
def killGraceKey : String := "SHIM_KILL_GRACE_MS"

/-- The variable that turns on logs in JSON. -/
def traceJsonKey : String := "SHIM_TRACE_JSON"

/-- The grace period where none is set: ten seconds. -/
def defaultKillGrace : UInt64 := 10000

/-- The identity of the init process: what is given without the blanks around it, which may not be
empty, or else a fresh identifier. -/
def loadId (fresh : Uuid) : Option String → Except ConfigError String
  | none => .ok fresh.text
  | some s =>
    let id := Text.trim s
    if id.isEmpty then .error (.empty idKey) else .ok id

/-- The grace period: what is given without the blanks around it, or else the default. -/
def loadKillGrace : Option String → Except ConfigError UInt64
  | none => .ok defaultKillGrace
  | some s =>
    match readMillis (Text.trimChars s.toList) with
    | .ok n => .ok (UInt64.ofNat n)
    | .error e => .error (.invalid killGraceKey s e.message)

/-- Logs are in JSON where exactly this is asked for. -/
def loadTraceJson : Option String → Bool
  | none => false
  | some s => s == "1" || s == "true"

/-- The settings that the variables make, with `fresh` as the identity where none is given. -/
def load (lookup : String → Option String) (fresh : Uuid) : Except ConfigError Config := do
  let id ← loadId fresh (lookup idKey)
  let killGrace ← loadKillGrace (lookup killGraceKey)
  return ⟨id, killGrace, loadTraceJson (lookup traceJsonKey)⟩

/-- The whole seconds of the grace period. -/
def killGraceSeconds (c : Config) : Nat :=
  c.killGrace.toNat / 1000

/-- The nanoseconds of the grace period beyond its whole seconds. -/
def killGraceNanos (c : Config) : Nat :=
  c.killGrace.toNat % 1000 * 1000000

end Config

/-- The wording of a configuration error. The value is shown in quotes, untrimmed. -/
def ConfigError.message : ConfigError → String
  | .invalid key value reason =>
    "invalid value " ++ Text.quoted value ++ " for " ++ key ++ ": " ++ reason
  | .empty key => key ++ " must not be empty"

end ContainerInit
