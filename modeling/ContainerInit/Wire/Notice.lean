import ContainerInit.Json.Printer
import ContainerInit.Log

/-!
# The JSON form of notices

A notice is a record of its level and its fields, the message first (`Notice.toTree`). A log in this
form has one line for each notice that a filter shows (`noticeLines`).
-/

namespace ContainerInit

open Json

/-- The tree of a value of a field. -/
def FieldValue.toTree : FieldValue → Tree
  | .text s => .text s
  | .int i => .int i
  | .bool b => .bool b

namespace Notice

/-- The tree of a notice. -/
def toTree (n : Notice) : Tree :=
  .record [("level", some (.text n.severity.level)),
    ("fields", some (.record
      (("message", some (.text n.message)) :: n.fields.map fun f => (f.1, some f.2.toTree))))]

end Notice

/-- The lines of notices. -/
def noticeLines (notices : List Notice) : String :=
  String.join (notices.map fun n => n.toTree.render ++ "\n")

end ContainerInit
