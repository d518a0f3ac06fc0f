import ContainerInit.Json.Decode

/-!
# Reading records

- **Fields** (`RecordField`): a name, a reader, and a default for fields that may be absent.
- **Layouts** (`Layout`): the fields of a record in declaration order.
- **Reading** (`Layout.readRecord`): an object with the fields in any order, or an array with their
  values in declaration order. Members of other names are skipped. A repeated field is found at
  its second name, a missing one at the end of the object, the first in declaration order.
- **Looking up** (`Record.get`): the value of a field, or its default.
-/

namespace ContainerInit.Json

/-- A field of a record. -/
structure RecordField (α : Type) where
  name : String
  read : Reader α
  default : Option α := none

/-- What a layout knows of a field: its name, whether it has to be there, and which trees are
values of it. -/
structure FieldShape where
  name : String
  isRequired : Bool
  check : Tree → Except Fault Unit

/-- The shape of a field. -/
def RecordField.shape {α : Type} (f : RecordField α) : FieldShape where
  name := f.name
  isRequired := f.default.isNone
  check t := (f.read t).map fun _ => ()

/-- The fields of a record in declaration order. -/
abbrev Layout := List FieldShape

/-- The values of the fields of a record, by name. -/
abbrev Record := List (String × Tree)

/-- The tree that a record holds for a name. -/
def Record.find? (r : Record) (name : String) : Option Tree :=
  (List.find? (fun m => m.1 == name) r).map (·.2)

/-- The value of a field of a record; an absent field has its default. -/
def Record.get {α : Type} (r : Record) (f : RecordField α) : Except Fault α :=
  match r.find? f.name, f.default with
  | some t, _ => f.read t
  | none, some a => .ok a
  | none, none => .error (.missingField f.name)

namespace Layout

/-- The field of a given name. -/
def find? (fields : Layout) (name : String) : Option FieldShape :=
  List.find? (fun f => f.name == name) fields

/-- Reads members from left to right into the record `seen`, newest first. -/
def readMembers (fields : Layout) (seen : Record) : List Member → Except Fault Record
  | [] => .ok seen
  | (none, _) :: _ => .error .malformed
  | (some name, t) :: rest =>
    match fields.find? name with
    | none => do
      demand t.isSound
      readMembers fields seen rest
    | some f =>
      match seen.find? name with
      | some _ => .error (.duplicateField name)
      | none => do
        f.check t
        readMembers fields ((name, t) :: seen) rest

/-- The first required field that a record does not hold. -/
def firstMissing? (fields : Layout) (r : Record) : Option FieldShape :=
  List.find? (fun f => f.isRequired && (r.find? f.name).isNone) fields

/-- Reads an object. -/
def readObject (fields : Layout) (members : List Member) (closed : Bool) : Except Fault Record := do
  let r ← fields.readMembers [] members
  demand closed
  match fields.firstMissing? r with
  | some f => .error (.missingField f.name)
  | none => return r

/-- Reads values in declaration order; fields with a default may be missing at the end. -/
def readItems : Layout → List Tree → Except Fault Record
  | [], [] => .ok []
  | [], _ :: _ => .error .malformed
  | fields, [] => if fields.any (·.isRequired) then .error .malformed else .ok []
  | f :: fields, t :: ts => do
    f.check t
    let r ← readItems fields ts
    return (f.name, t) :: r

/-- Reads an array. -/
def readArray (fields : Layout) (items : List Tree) (closed : Bool) : Except Fault Record := do
  let r ← fields.readItems items
  demand closed
  return r

/-- Reads a record from an object or from an array. -/
def readRecord (fields : Layout) : Reader Record
  | .object members closed => fields.readObject members closed
  | .array items closed => fields.readArray items closed
  | _ => .error .malformed

end Layout

end ContainerInit.Json
