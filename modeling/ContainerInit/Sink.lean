import ContainerInit.Event
import ContainerInit.Log

/-!
# Where events go

- **Kept events** (`MemorySink`): a sink that holds what it is given, in the order of emission,
  until it is emptied. Emission adds one event at the end (`events_emit`); emptying hands out
  exactly what was held (`take`).
- **The log** (`Sink.log`): the other sink writes each event as a notice of its severity.
-/

namespace ContainerInit

/-- A sink that holds events, oldest first. -/
structure MemorySink where
  events : List Event := []
  deriving DecidableEq

namespace MemorySink

/-- Adds an event. -/
def emit (s : MemorySink) (e : Event) : MemorySink :=
  ⟨s.events ++ [e]⟩

/-- Hands out the events and holds none. -/
def take (s : MemorySink) : List Event × MemorySink :=
  (s.events, {})

/-- How many events a sink holds. -/
def size (s : MemorySink) : Nat :=
  s.events.length

/-- A sink holds no event. -/
def isEmpty (s : MemorySink) : Bool :=
  s.events.isEmpty

/-- How many events have a severity of at least the given one. -/
def countAtLeast (s : MemorySink) (least : Severity) : Nat :=
  s.events.countP fun e => least.rank ≤ e.severity.rank

/-- How many events are of the kind with the given name. -/
def countKind (s : MemorySink) (name : String) : Nat :=
  s.events.countP fun e => e.payload.kind.name == name

@[simp]
theorem events_emit (s : MemorySink) (e : Event) : (s.emit e).events = s.events ++ [e] := rfl

@[simp]
theorem size_emit (s : MemorySink) (e : Event) : (s.emit e).size = s.size + 1 := by
  simp [size]

end MemorySink

/-- A choice of where events go. -/
inductive Sink where
  /-- They are kept. -/
  | memory
  /-- They are written to the log. -/
  | log
  deriving DecidableEq

/-- What emitting an event adds to the log. -/
def Sink.entries : Sink → Event → Log
  | .memory, _ => []
  | .log, e => [.notice (.ofEvent e)]

end ContainerInit
