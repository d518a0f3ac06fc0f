import ContainerInit.Lifecycle.Error
import ContainerInit.Wire.Basic

/-!
# The JSON form of controllers' errors

An error is an object of two members, its kind (`error_type`) and its `details`, in either order
and among others, or an array of the two. Details that come first are kept until the kind is known.
Details are a string, or for a failed signal an object of three members; they are no array.
-/

namespace ContainerInit

open Json

namespace ControllerError

/-- The kinds of controllers' errors. -/
inductive Kind where
  | notFound
  | spawnFailed
  | signalFailed
  | stillRunning
  | unsupported
  | io
  | failed
  deriving DecidableEq

namespace Kind

/-- Every kind of error. -/
def all : List Kind :=
  [.notFound, .spawnFailed, .signalFailed, .stillRunning, .unsupported, .io, .failed]

/-- The name of a kind of error. -/
def name : Kind → String
  | .notFound => "not_found"
  | .spawnFailed => "spawn_failed"
  | .signalFailed => "signal_failed"
  | .stillRunning => "still_running"
  | .unsupported => "unsupported"
  | .io => "io"
  | .failed => "failed"

/-- The kind with a given name. -/
def ofName? (name : String) : Option Kind :=
  all.find? fun k => k.name == name

theorem mem_all (k : Kind) : k ∈ all := by
  cases k <;> decide

theorem ofName?_name (k : Kind) : ofName? k.name = some k := by
  cases k <;> decide

end Kind

/-- The kind of an error. -/
def kind : ControllerError → Kind
  | .notFound _ => .notFound
  | .spawnFailed _ => .spawnFailed
  | .signalFailed _ _ _ => .signalFailed
  | .stillRunning _ => .stillRunning
  | .unsupported _ => .unsupported
  | .io _ => .io
  | .failed _ => .failed

/-- The process that the signal was for. -/
def idField : RecordField String := ⟨"id", Reader.text, none⟩

/-- The name of the signal. -/
def signalField : RecordField String := ⟨"signal", Reader.text, none⟩

/-- Why it could not be delivered. -/
def reasonField : RecordField String := ⟨"reason", Reader.text, none⟩

/-- The fields of the details of a failed signal. -/
def signalLayout : Layout := [idField.shape, signalField.shape, reasonField.shape]

/-- Reads the details of a failed signal, which have to be an object. -/
def readSignalFailed : Reader ControllerError
  | .object members closed => do
    let r ← signalLayout.readObject members closed
    return .signalFailed (← r.get idField) (← r.get signalField) (← r.get reasonField)
  | _ => .error .malformed

/-- Reads the details of an error of a kind. -/
def readDetails (kind : Kind) : Reader ControllerError := fun t =>
  match kind with
  | .notFound => return .notFound (← Reader.text t)
  | .spawnFailed => return .spawnFailed (← Reader.text t)
  | .signalFailed => readSignalFailed t
  | .stillRunning => return .stillRunning (← Reader.text t)
  | .unsupported => return .unsupported (← Reader.text t)
  | .io => return .io (← Reader.text t)
  | .failed => return .failed (← Reader.text t)

/-- What has been read of an error. -/
inductive Progress where
  | nothing
  | kind (k : Kind)
  | details (t : Tree)
  | whole (e : ControllerError)

/-- Reads the members of an error from left to right. Details that come before the kind, in an
object at nesting depth 1, have to be readable as a whole. -/
def readMembers (so : Progress) : List Member → Except Fault Progress
  | [] => .ok so
  | (none, _) :: _ => .error .malformed
  | (some name, t) :: rest =>
    if name = "error_type" then
      match so with
      | .nothing => do
        let k ← Reader.variant Kind.ofName? t
        readMembers (.kind k) rest
      | .details d => do
        let k ← Reader.variant Kind.ofName? t
        let e ← readDetails k d
        readMembers (.whole e) rest
      | .kind _ | .whole _ => .error (.duplicateField "error_type")
    else if name = "details" then
      match so with
      | .nothing => do
        demand (t.isReadable 2)
        readMembers (.details t) rest
      | .kind k => do
        let e ← readDetails k t
        readMembers (.whole e) rest
      | .details _ | .whole _ => .error (.duplicateField "details")
    else do
      demand t.isSound
      readMembers so rest

/-- Reads an error. -/
def read : Reader ControllerError
  | .object members closed => do
    let found ← readMembers .nothing members
    demand closed
    match found with
    | .whole e => return e
    | .kind _ => .error (.missingField "details")
    | .nothing | .details _ => .error (.missingField "error_type")
  | .array (s :: t :: rest) closed => do
    let k ← Reader.variant Kind.ofName? s
    let e ← readDetails k t
    demand (rest.isEmpty && closed)
    return e
  | .array [s] _ => do
    let _ ← Reader.variant Kind.ofName? s
    .error .malformed
  | _ => .error .malformed

/-- The tree of the details of an error. -/
def detailsTree : ControllerError → Tree
  | .notFound s | .spawnFailed s | .stillRunning s | .unsupported s | .io s | .failed s => .text s
  | .signalFailed id signal reason =>
    .record [("id", some (.text id)), ("signal", some (.text signal)),
      ("reason", some (.text reason))]

/-- The tree of an error. -/
def toTree (e : ControllerError) : Tree :=
  .record [("error_type", some (.text e.kind.name)), ("details", some e.detailsTree)]

end ControllerError

end ContainerInit
