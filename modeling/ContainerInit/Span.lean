import ContainerInit.Log

/-!
# Spans of operations

What the span of an operation adds to the log: when it opens (`opening`), when a result or an error
is recorded on it (`recordResult`, `recordError`), and when it closes (`closing`). A span that was
open for longer than `slowOperationMillis` is reported as slow.
-/

namespace ContainerInit.Span

/-- The entries of a span that opens. -/
def opening (operation : Operation) (id : String) : Log :=
  [.opened operation id, .notice (.operationStarted operation id)]

/-- The entry for a recorded result. -/
def recordResult (success : Bool) : Log :=
  [.result success]

/-- The entries for a recorded error: its text, and that the result is an error. -/
def recordError (text : String) : Log :=
  [.error text, .result false]

/-- The entry of a span that closes after so many milliseconds. Waiting takes a little longer than
asked, so a span that waited for the whole threshold has passed it. -/
def closing (operation : Operation) (elapsed : Nat) : Log :=
  if slowOperationMillis ≤ elapsed then [.notice (.slowOperation operation)]
  else [.notice (.operationCompleted operation)]

end ContainerInit.Span
