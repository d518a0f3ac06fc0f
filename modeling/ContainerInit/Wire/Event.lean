import ContainerInit.Wire.Basic

/-!
# The JSON form of events

A payload is an object with its kind among its members, anywhere, or an array that starts with the
kind. It is taken in as a whole before its fields are looked at, because the kind may come last:
`Payload.split` keeps the members apart from the kind, and `Payload.ofRecord` reads the fields of
that kind. An event is a record whose last field is a payload.
-/

namespace ContainerInit

open Json

namespace Payload

/-- Reads an operation from a value kept for later. -/
def keptOperation : Reader Operation := Reader.keptVariant Operation.ofName?

/-- Reads a state from a value kept for later. -/
def keptState : Reader State := Reader.keptVariant State.ofName?

/-- The operation that an event is about. -/
def operationField : RecordField Operation := ⟨"operation", keptOperation, none⟩

/-- The state before a change. -/
def sourceField : RecordField State := ⟨"from", keptState, none⟩

/-- The state after a change. -/
def resultField : RecordField State := ⟨"to", keptState, none⟩

/-- The code of a recorded exit. -/
def statusField : RecordField Int32 := ⟨"status", Reader.int32, none⟩

/-- The state in which an exit was recorded. -/
def previousField : RecordField State := ⟨"previous", keptState, none⟩

/-- The state in which an operation was rejected. -/
def stateField : RecordField State := ⟨"state", keptState, none⟩

/-- The wording of an error. -/
def errorField : RecordField String := ⟨"error", Reader.text, none⟩

/-- The state that a superseded transition was to reach. -/
def targetField : RecordField State := ⟨"target", keptState, none⟩

/-- The state that was found instead. -/
def currentField : RecordField State := ⟨"current", keptState, none⟩

/-- The fields of the payloads of a kind. -/
def layout : PayloadKind → Layout
  | .stateChanged => [operationField.shape, sourceField.shape, resultField.shape]
  | .exitRecorded => [statusField.shape, previousField.shape]
  | .operationRejected => [operationField.shape, stateField.shape]
  | .controllerFailed => [operationField.shape, errorField.shape]
  | .compensatingResumeFailed => [errorField.shape]
  | .transitionSuperseded => [operationField.shape, targetField.shape, currentField.shape]

/-- The payload of a kind that a record holds. -/
def ofRecord (kind : PayloadKind) (r : Record) : Except Fault Payload :=
  match kind with
  | .stateChanged => do
    return .stateChanged (← r.get operationField) (← r.get sourceField) (← r.get resultField)
  | .exitRecorded => do return .exitRecorded (← r.get statusField) (← r.get previousField)
  | .operationRejected => do
    return .operationRejected (← r.get operationField) (← r.get stateField)
  | .controllerFailed => do
    return .controllerFailed (← r.get operationField) (← r.get errorField)
  | .compensatingResumeFailed => do return .compensatingResumeFailed (← r.get errorField)
  | .transitionSuperseded => do
    return .transitionSuperseded (← r.get operationField) (← r.get targetField)
      (← r.get currentField)

/-- Reads the kind of a payload, which has to be a string. -/
def readKind : Reader PayloadKind
  | .string (some name) => Reader.variantNamed PayloadKind.ofName? name
  | _ => .error .malformed

/-- Keeps the members of a payload apart from its kind. Values at nesting depth `depth` have to be
readable as a whole. -/
def split (depth : Nat) : List Member → Option PayloadKind → List Member →
    Except Fault (Option PayloadKind × List Member)
  | [], kind, kept => .ok (kind, kept.reverse)
  | (none, _) :: _, _, _ => .error .malformed
  | (some name, t) :: rest, kind, kept =>
    if name = "kind" then
      match kind with
      | some _ => .error (.duplicateField "kind")
      | none => do
        let k ← readKind t
        split depth rest (some k) kept
    else do
      demand (t.isReadable depth)
      split depth rest kind ((some name, t) :: kept)

/-- Reads a payload that lies at nesting depth `depth`. -/
def readAt (depth : Nat) : Reader Payload
  | .object members closed => do
    let (kind, kept) ← split (depth + 1) members none []
    demand closed
    match kind with
    | none => .error (.missingField "kind")
    | some kind => ofRecord kind (← (layout kind).readObject kept true)
  | .array [] closed => do
    demand closed
    .error (.missingField "kind")
  | .array (t :: items) closed => do
    let kind ← readKind t
    demand (Tree.areReadable (depth + 1) items && closed)
    ofRecord kind (← (layout kind).readArray items true)
  | _ => .error .malformed

/-- Reads a payload. -/
def read : Reader Payload := readAt 1

/-- The members of a payload in the order in which they are written. -/
def toTree (p : Payload) : Tree :=
  .record (("kind", some (.text p.kind.name)) ::
    match p with
    | .stateChanged operation source target =>
      [("operation", some operation.toTree), ("from", some source.toTree),
        ("to", some target.toTree)]
    | .exitRecorded status previous =>
      [("status", some (.int status.toInt)), ("previous", some previous.toTree)]
    | .operationRejected operation state =>
      [("operation", some operation.toTree), ("state", some state.toTree)]
    | .controllerFailed operation error =>
      [("operation", some operation.toTree), ("error", some (.text error))]
    | .compensatingResumeFailed error => [("error", some (.text error))]
    | .transitionSuperseded operation target current =>
      [("operation", some operation.toTree), ("target", some target.toTree),
        ("current", some current.toTree)])

end Payload

namespace Event

/-- The time of an event, in nanoseconds since the first. -/
def timestampField : RecordField UInt64 := ⟨"timestamp_ns", Reader.uint64, none⟩

/-- How severe an event is. -/
def severityField : RecordField Severity := ⟨"severity", Severity.read, none⟩

/-- The process that an event is about. -/
def idField : RecordField String := ⟨"id", Reader.text, none⟩

/-- What happened; it lies one level deeper than the event. -/
def payloadField : RecordField Payload := ⟨"payload", Payload.readAt 2, none⟩

/-- The fields of an event. -/
def layout : Layout :=
  [timestampField.shape, severityField.shape, idField.shape, payloadField.shape]

/-- The event that a record holds. -/
def ofRecord (r : Record) : Except Fault Event := do
  return {
    timestamp := ← r.get timestampField
    severity := ← r.get severityField
    id := ← r.get idField
    payload := ← r.get payloadField }

/-- Reads an event. -/
def read : Reader Event := fun t => do ofRecord (← layout.readRecord t)

/-- The tree of an event. -/
def toTree (e : Event) : Tree :=
  .record [
    ("timestamp_ns", some (.nat e.timestamp.toNat)),
    ("severity", some e.severity.toTree),
    ("id", some (.text e.id)),
    ("payload", some e.payload.toTree)]

end Event

end ContainerInit
