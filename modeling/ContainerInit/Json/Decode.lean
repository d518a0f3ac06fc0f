import ContainerInit.Json.Tree

/-!
# Reading values from trees

- **Faults** (`Fault`): why a tree is not a value of a type. Three kinds have a wording; a value of
  the wrong kind, out of range, or cut short is `malformed` and has none.
- **Readers** (`Reader`): of booleans, texts, integers of a range, lists, optional values, and
  names of variants. Each stops at the first fault from left to right.
- **Integers** (`integer`): only integer literals in the range are integers, whatever their length
  (`integer_number`).
-/

namespace ContainerInit.Json

/-- Why a tree is not a value of a type. -/
inductive Fault where
  | missingField (name : String)
  | duplicateField (name : String)
  | unknownVariant (name : String)
  | malformed
  deriving DecidableEq

/-- The wording of a fault, for the kinds that have one. -/
def Fault.message? : Fault → Option String
  | .missingField name => some ("missing field `" ++ name ++ "`")
  | .duplicateField name => some ("duplicate field `" ++ name ++ "`")
  | .unknownVariant name => some ("unknown variant `" ++ name ++ "`")
  | .malformed => none

/-- Reads a value from a tree. -/
abbrev Reader (α : Type) := Tree → Except Fault α

/-- A condition that a reader has to meet. -/
def demand (b : Bool) : Except Fault Unit :=
  if b then .ok () else .error .malformed

namespace Reader

variable {α β : Type}

/-- Reads `true` or `false`. -/
def bool : Reader Bool
  | .bool b => .ok b
  | _ => .error .malformed

/-- Reads a string that has text. -/
def text : Reader String
  | .string (some s) => .ok s
  | _ => .error .malformed

/-- Reads an integer between `least` and `greatest`. -/
def integer (least greatest : Int) : Reader Int
  | .number l =>
    match l.toInt? with
    | some i => if least ≤ i ∧ i ≤ greatest then .ok i else .error .malformed
    | none => .error .malformed
  | _ => .error .malformed

/-- Reads an unsigned number of 32 bits. -/
def uint32 : Reader UInt32 := fun t =>
  (integer 0 (.ofNat (UInt32.size - 1)) t).map fun i => UInt32.ofNat i.toNat

/-- Reads an unsigned number of 64 bits. -/
def uint64 : Reader UInt64 := fun t =>
  (integer 0 (.ofNat (UInt64.size - 1)) t).map fun i => UInt64.ofNat i.toNat

/-- Reads a signed number of 32 bits. -/
def int32 : Reader Int32 := fun t =>
  (integer Int32.minValue.toInt Int32.maxValue.toInt t).map Int32.ofInt

/-- Reads a signed number of 64 bits. -/
def int64 : Reader Int64 := fun t =>
  (integer Int64.minValue.toInt Int64.maxValue.toInt t).map Int64.ofInt

/-- Reads the values in a list of trees. -/
def each (read : Reader α) : List Tree → Except Fault (List α)
  | [] => .ok []
  | t :: ts => do
    let a ← read t
    let as ← each read ts
    return a :: as

/-- Reads an array of values. -/
def list (read : Reader α) : Reader (List α)
  | .array items closed => do
    let as ← each read items
    demand closed
    return as
  | _ => .error .malformed

/-- Reads an array of two values. -/
def pair (first : Reader α) (second : Reader β) : Reader (α × β)
  | .array [s, t] closed => do
    let a ← first s
    let b ← second t
    demand closed
    return (a, b)
  | .array (s :: t :: _) _ => do
    let _ ← first s
    let _ ← second t
    .error .malformed
  | .array [s] _ => do
    let _ ← first s
    .error .malformed
  | _ => .error .malformed

/-- Reads a value, or nothing from `null`. -/
def optional (read : Reader α) : Reader (Option α)
  | .null => .ok none
  | t => (read t).map some

/-- The variant of a given name, or the fault that there is none. -/
def variantNamed (ofName? : String → Option α) (name : String) : Except Fault α :=
  match ofName? name with
  | some a => .ok a
  | none => .error (.unknownVariant name)

/-- Reads a variant: its name, or an object that maps its name to `null`. The name is looked up
before the rest of the object is looked at. -/
def variant (ofName? : String → Option α) : Reader α
  | .string (some name) => variantNamed ofName? name
  | .object ((some name, t) :: rest) closed => do
    let a ← variantNamed ofName? name
    match t, rest, closed with
    | .null, [], true => return a
    | _, _, _ => .error .malformed
  | _ => .error .malformed

/-- Reads a variant from a value kept for later: its name, or an object with that one member, whose
value is `null` or the empty object. -/
def keptVariant (ofName? : String → Option α) : Reader α
  | .string (some name) => variantNamed ofName? name
  | .object [(some name, t)] true => do
    let a ← variantNamed ofName? name
    match t with
    | .null | .object [] true => return a
    | _ => .error .malformed
  | _ => .error .malformed

/-- **Integers never wrap:** a number is read as the integer its literal denotes, if that lies in
the range. -/
theorem integer_number {least greatest i : Int} {l : Literal} :
    integer least greatest (.number l) = .ok i ↔
      l.toInt? = some i ∧ least ≤ i ∧ i ≤ greatest := by
  simp only [integer]
  cases l.toInt? with
  | none => simp
  | some j =>
    simp only [Option.some.injEq]
    split
    · next h =>
      constructor
      · intro he; cases he; exact ⟨rfl, h⟩
      · rintro ⟨rfl, -⟩; rfl
    · next h =>
      constructor
      · intro he; cases he
      · rintro ⟨rfl, hb⟩; exact absurd hb h

end Reader

/-- Reads a text as a value: the value itself first, then the end of the text. -/
def decode {α : Type} (read : Reader α) (text : String) : Except Fault α := do
  let document := Document.parse text
  let a ← read document.root
  demand !document.trailing
  return a

end ContainerInit.Json
