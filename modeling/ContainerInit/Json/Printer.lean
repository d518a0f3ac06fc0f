import ContainerInit.Json.Tree

/-!
# Writing JSON text

- **Strings** (`printString`): only a quote, a backslash and the control characters below U+0020
  are escaped, the latter by a short escape where there is one and by number otherwise.
- **Values** (`Tree.print`, `Tree.render`): without white space; members and items in their order.
- **Making trees** (`Tree.text`, `Tree.int`, `Tree.record`, `Tree.list`): the trees of values to
  be written.
-/

namespace ContainerInit.Json

/-- The hexadecimal digit of a number below sixteen, lower case. -/
def hexDigit (n : Nat) : Char :=
  Nat.digitChar n

/-- How a character stands inside a string. -/
def printChar (c : Char) : List Char :=
  if c = '\"' then ['\\', '\"']
  else if c = '\\' then ['\\', '\\']
  else if c = '\x08' then ['\\', 'b']
  else if c = '\t' then ['\\', 't']
  else if c = '\n' then ['\\', 'n']
  else if c = '\x0c' then ['\\', 'f']
  else if c = '\r' then ['\\', 'r']
  else if c.toNat < 0x20 then
    ['\\', 'u', '0', '0', hexDigit (c.toNat / 16), hexDigit (c.toNat % 16)]
  else [c]

/-- A string with its quotes. -/
def printString (cs : List Char) : List Char :=
  '\"' :: cs.flatMap printChar ++ ['\"']

namespace Tree

mutual

/-- The characters of a value. A string without text and a fault have none. -/
def print : Tree → List Char
  | .null => ['n', 'u', 'l', 'l']
  | .bool true => ['t', 'r', 'u', 'e']
  | .bool false => ['f', 'a', 'l', 's', 'e']
  | .number l => l.print
  | .string (some s) => printString s.toList
  | .string none => []
  | .array items _ => '[' :: printItems items ++ [']']
  | .object members _ => '\x7b' :: printMembers members ++ ['\x7d']
  | .fault => []

/-- The characters of values with commas between them. -/
def printItems : List Tree → List Char
  | [] => []
  | [t] => t.print
  | t :: ts => t.print ++ ',' :: printItems ts

/-- The characters of members with commas between them. -/
def printMembers : List Member → List Char
  | [] => []
  | [m] => printString (m.1.getD "").toList ++ ':' :: m.2.print
  | m :: ms => printString (m.1.getD "").toList ++ ':' :: m.2.print ++ ',' :: printMembers ms

end

/-- The text of a value. -/
def render (t : Tree) : String :=
  String.ofList t.print

/-! ## Making trees -/

/-- The tree of a text. -/
def text (s : String) : Tree :=
  .string (some s)

/-- The tree of an integer. -/
def int (i : Int) : Tree :=
  .number (.ofInt i)

/-- The tree of a natural number. -/
def nat (n : Nat) : Tree :=
  .int n

/-- The tree of a list. -/
def list (items : List Tree) : Tree :=
  .array items true

/-- The tree of a record: its fields in order, those that are absent left out. -/
def record (fields : List (String × Option Tree)) : Tree :=
  .object (fields.filterMap fun f => f.2.map fun t => (some f.1, t)) true

end Tree

end ContainerInit.Json
