import ContainerInit.Log

/-!
# Filters of the log

Which notices are written. A filter is the least severity that is, or that nothing is
(`LogFilter`). Its text consists of parts (`LogFilter.directive`), each of which names a level, for
everything or for a part of some program.
-/

namespace ContainerInit

/-- The least severity that is written, if any is. -/
abbrev LogFilter := Option Severity

namespace LogFilter

/-- The names of the filters, with their numbers. -/
def names : List (List String × LogFilter) := [
  (["off", "0"], none),
  (["error", "1"], some .error),
  (["warn", "2"], some .warn),
  (["info", "3"], some .info),
  (["debug", "4"], some .debug),
  (["trace", "5"], some .trace)]

/-- What a part of a text asks for. -/
inductive Directive where
  /-- A level for everything. -/
  | level (filter : LogFilter)
  /-- A level for a part of some program; of this one nothing is written for it. -/
  | elsewhere
  /-- Nothing that can be understood. -/
  | malformed
  deriving DecidableEq

/-- The filter of a name or number. -/
def ofName? (name : String) : Option LogFilter :=
  (names.find? fun n => n.1.contains name.toLower).map (·.2)

/-- Reads a part of a text. -/
def directive (text : String) : Directive :=
  match text.splitOn "=" with
  | [name] =>
    match ofName? name with
    | some f => .level f
    | none => .elsewhere
  | [_, level] => if (ofName? level).isSome then .elsewhere else .malformed
  | _ => .malformed

/-- The filter that a text asks for, part by part. Without a text, or where a part cannot be
understood, information and what matters more is written. -/
def ofText : Option String → LogFilter
  | none => some .info
  | some text =>
    let parts := ((text.splitOn ",").filter (!·.isEmpty)).map directive
    if parts.contains .malformed then some .info
    else if parts.isEmpty then some .error
    else
      let levels := parts.filterMap fun
        | .level f => some f
        | _ => none
      levels.getLast?.getD none

/-- A notice is written. -/
def shows (f : LogFilter) (n : Notice) : Bool :=
  f.any fun least => least.rank ≤ n.severity.rank

/-- The notices of a log that are written. -/
def notices (f : LogFilter) (log : Log) : List Notice :=
  log.filterMap fun
    | .notice n => if f.shows n then some n else none
    | _ => none

end LogFilter

end ContainerInit
