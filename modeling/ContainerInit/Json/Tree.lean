import ContainerInit.Json.Token

/-!
# Trees of JSON text

- **Trees** (`Tree`): a value as it is written. Members keep their order and repetitions, numbers
  their digits. A text that stops being JSON still has a tree: it holds `fault` where the reader
  met the fault, and no container around that place is closed. So whoever walks a tree from left
  to right meets what a reader of the text would meet, in the same order.
- **Building** (`Document.build`, `Document.parse`): from the tokens, with the open containers on a
  stack; recursion is on the tokens.
- **Whole values** (`Tree.isSound`): no fault anywhere, the test for a value that nobody looks at.
- **Readable values** (`Tree.isReadable`): in addition every string has text, every number is
  finite and no container lies deeper than `maxDepth`, the test for a value that is kept for later.
-/

namespace ContainerInit.Json

/-- A JSON value as it is written, up to the first fault. -/
inductive Tree where
  | null
  | bool (b : Bool)
  | number (l : Literal)
  /-- A string; it has no text if it holds an unpaired surrogate. -/
  | string (text : Option String)
  /-- The items of an array, and whether its end was reached. -/
  | array (items : List Tree) (closed : Bool)
  /-- The members of an object, and whether its end was reached. -/
  | object (members : List (Option String × Tree)) (closed : Bool)
  /-- The place where the text stops being JSON. -/
  | fault

/-- A member of an object: its name, if that has text, and its value. -/
abbrev Member := Option String × Tree

/-- A text as a tree, and whether anything follows the value. -/
structure Document where
  root : Tree
  trailing : Bool

/-! ## Building trees from tokens -/

/-- An open container: what it holds so far, newest first. -/
inductive Frame where
  | array (done : List Tree)
  /-- An object, with the name of the member whose value is being read. -/
  | object (done : List Member) (name : Option String)

/-- Closes the containers around the place of a fault without reaching their ends. -/
def Tree.abandon (t : Tree) : List Frame → Tree
  | [] => t
  | .array done :: frames => (Tree.array (t :: done).reverse false).abandon frames
  | .object done name :: frames => (Tree.object ((name, t) :: done).reverse false).abandon frames

/-- What the reader expects next. -/
inductive Expect where
  /-- A value. -/
  | value
  /-- The first item of an array, or its end. -/
  | firstItem
  /-- A comma or the end of an array that holds these items, newest first. -/
  | nextItem (done : List Tree)
  /-- The name of the first member of an object, or its end. -/
  | firstName
  /-- The name of a further member. -/
  | nextName (done : List Member)
  /-- The colon after a name. -/
  | colon (done : List Member) (name : Option String)
  /-- A comma or the end of an object that holds these members, newest first. -/
  | nextMember (done : List Member)
  /-- The end of the text, after the value. -/
  | nothing (root : Tree)

/-- What comes after a value, inside the open containers. -/
def Expect.after (t : Tree) : List Frame → Expect × List Frame
  | [] => (.nothing t, [])
  | .array done :: frames => (.nextItem (t :: done), frames)
  | .object done name :: frames => (.nextMember ((name, t) :: done), frames)

/-- The tree of a text in which the fault stands where `e` was expected. -/
def Expect.abandon (e : Expect) (frames : List Frame) : Document :=
  match e with
  | .value => ⟨Tree.fault.abandon frames, false⟩
  | .firstItem => ⟨(Tree.array [.fault] false).abandon frames, false⟩
  | .nextItem done => ⟨(Tree.array done.reverse false).abandon frames, false⟩
  | .firstName => ⟨(Tree.object [] false).abandon frames, false⟩
  | .nextName done => ⟨(Tree.object done.reverse false).abandon frames, false⟩
  | .colon done name => ⟨(Tree.object ((name, .fault) :: done).reverse false).abandon frames, false⟩
  | .nextMember done => ⟨(Tree.object done.reverse false).abandon frames, false⟩
  | .nothing root => ⟨root, true⟩

/-- The value that one token is. -/
def Token.scalar? : Token → Option Tree
  | .null => some .null
  | .bool b => some (.bool b)
  | .number l => some (.number l)
  | .string text => some (.string text)
  | _ => none

/-- One step of the reader at the start of a value; nothing if no value starts here. -/
def Expect.beginValue? (t : Token) (frames : List Frame) : Option (Expect × List Frame) :=
  match t with
  | .openArray => some (.firstItem, frames)
  | .openObject => some (.firstName, frames)
  | t => t.scalar?.map fun v => after v frames

/-- One step of the reader; nothing if the token is not what was expected. -/
def Expect.step? (e : Expect) (t : Token) (frames : List Frame) : Option (Expect × List Frame) :=
  match e with
  | .value => beginValue? t frames
  | .firstItem =>
    match t with
    | .closeArray => some (after (.array [] true) frames)
    | t => beginValue? t (.array [] :: frames)
  | .nextItem done =>
    match t with
    | .comma => some (.value, .array done :: frames)
    | .closeArray => some (after (.array done.reverse true) frames)
    | _ => none
  | .firstName =>
    match t with
    | .closeObject => some (after (.object [] true) frames)
    | .string text => some (.colon [] text, frames)
    | _ => none
  | .nextName done =>
    match t with
    | .string text => some (.colon done text, frames)
    | _ => none
  | .colon done name =>
    match t with
    | .colon => some (.value, .object done name :: frames)
    | _ => none
  | .nextMember done =>
    match t with
    | .comma => some (.nextName done, frames)
    | .closeObject => some (after (.object done.reverse true) frames)
    | _ => none
  | .nothing _ => none

/-- Reads tokens until one is not what was expected, or none is left. -/
def Document.build (e : Expect) (frames : List Frame) : List Token → Document
  | [] =>
    match e with
    | .nothing root => ⟨root, false⟩
    | e => e.abandon frames
  | t :: ts =>
    match e.step? t frames with
    | some (e', frames') => build e' frames' ts
    | none => e.abandon frames

/-- The tree of a sequence of tokens. -/
def Document.ofTokens (ts : List Token) : Document :=
  build .value [] ts

/-- The tree of a text. -/
def Document.parse (text : String) : Document :=
  ofTokens (scan text.toList)

/-! ## Values that nobody looks at -/

namespace Tree

mutual

/-- A value without a fault. -/
def isSound : Tree → Bool
  | .array items closed => closed && areSound items
  | .object members closed => closed && membersAreSound members
  | .fault => false
  | _ => true

/-- Values without a fault. -/
def areSound : List Tree → Bool
  | [] => true
  | t :: ts => t.isSound && areSound ts

/-- Members without a fault. -/
def membersAreSound : List Member → Bool
  | [] => true
  | m :: ms => m.2.isSound && membersAreSound ms

end

/-! ## Values kept for later -/

/-- The greatest number of containers inside one another, the outermost included. -/
def maxDepth : Nat := 127

mutual

/-- A value at nesting depth `depth` that can be kept as a whole: it has no fault, its strings have
text, its numbers are finite, and its containers do not lie too deep. -/
def isReadable (depth : Nat) : Tree → Bool
  | .null => true
  | .bool _ => true
  | .number l => l.fitsDouble
  | .string text => text.isSome
  | .array items closed => depth ≤ maxDepth && areReadable (depth + 1) items && closed
  | .object members closed => depth ≤ maxDepth && membersAreReadable (depth + 1) members && closed
  | .fault => false

/-- Values that can be kept. -/
def areReadable (depth : Nat) : List Tree → Bool
  | [] => true
  | t :: ts => t.isReadable depth && areReadable depth ts

/-- Members that can be kept. -/
def membersAreReadable (depth : Nat) : List Member → Bool
  | [] => true
  | m :: ms => m.1.isSome && m.2.isReadable depth && membersAreReadable depth ms

end

end Tree

end ContainerInit.Json
