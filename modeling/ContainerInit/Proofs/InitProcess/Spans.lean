import ContainerInit.Proofs.InitProcess.Restore

/-!
# Spans in the log

A log says where spans open and close, and what was recorded on them. Somebody who knows nothing of
the process reads it from the beginning (`SpanReader`), and finds spans that lie in each other like
brackets: one for each call that is not a question, opened when the call began and closed when it
returned, with the result of the call on it and nothing else (`spans_balanced`).

- **Reading** (`SpanReader.next`, `brackets?`): a span opens, its start is reported at once, what is
  recorded belongs to the innermost open span, and only that one can close. Anything else is an
  error of the log.
- **Visits** (`Visit`, `Script.attend`): a script is done, and of each call that returns it is
  written down how deep it lies in others, what came of it, and how long the log was before and
  after it. This changes nothing else (`Script.looks_attend`).
- **Stretches** (`InitProcess.Stretch`): a piece of a run. What its reader finds is put together
  from the pieces (`Stretch.trans`), and there is one lemma for each step of a process.
-/

namespace ContainerInit

/-! ## Reading -/

/-- A span as the log tells of it: in how many others it lies, what was recorded on it, the place of
its first entry, and the first place after it. -/
structure Bracket where
  depth : Nat
  operation : Operation
  id : String
  records : Log
  first : Nat
  after : Nat
  deriving DecidableEq

/-- A span that is still open. -/
structure OpenBracket where
  operation : Operation
  id : String
  records : Log
  first : Nat
  deriving DecidableEq

/-- What an entry of the log means for the spans. -/
inductive LogEntry.Role where
  | opens (operation : Operation) (id : String)
  | starts (operation : Operation) (id : String)
  | records
  | closes (operation : Operation)
  | none

/-- What an entry means: a span opens at its own entry, starts with the notice of its operation,
records what its call returns and closes with one of the two notices of an end. -/
def LogEntry.role : LogEntry → Role
  | .opened operation id => .opens operation id
  | .result _ | .error _ => .records
  | .notice (.operationStarted operation id) => .starts operation id
  | .notice (.operationCompleted operation) | .notice (.slowOperation operation) => .closes operation
  | .notice _ => .none

/-- What somebody knows who has read a part of a log: how long it was, whether the start of the
innermost span has to be reported next, the open spans, innermost first, and the closed ones. -/
structure SpanReader where
  place : Nat := 0
  fresh : Bool := false
  stack : List OpenBracket := []
  closed : List Bracket := []
  deriving DecidableEq

namespace SpanReader

/-- Reads one more entry; none if it cannot stand there. -/
def next (ρ : SpanReader) (entry : LogEntry) : Option SpanReader :=
  let moved := { ρ with place := ρ.place + 1 }
  match ρ.fresh, entry.role, ρ.stack with
  | true, .starts operation id, top :: _ =>
    if operation = top.operation ∧ id = top.id then some { moved with fresh := false } else none
  | false, .opens operation id, stack =>
    some { moved with fresh := true, stack := ⟨operation, id, [], ρ.place⟩ :: stack }
  | false, .records, top :: stack =>
    some { moved with stack := { top with records := top.records ++ [entry] } :: stack }
  | false, .closes operation, top :: stack =>
    if operation = top.operation then
      some { moved with
        stack
        closed := ρ.closed ++
          [⟨stack.length, operation, top.id, top.records, top.first, ρ.place + 1⟩] }
    else none
  | false, .none, _ => some moved
  | _, _, _ => none

/-- Reads a piece of a log. -/
def read (ρ : SpanReader) (entries : Log) : Option SpanReader :=
  entries.foldlM next ρ

/-- Something was recorded on the innermost open span. -/
def recorded (records : Log) : List OpenBracket → List OpenBracket
  | [] => []
  | top :: stack => { top with records := top.records ++ records } :: stack

@[simp]
theorem length_recorded (records : Log) (stack : List OpenBracket) :
    (recorded records stack).length = stack.length := by
  cases stack <;> rfl

@[simp]
theorem recorded_nil (stack : List OpenBracket) : recorded [] stack = stack := by
  cases stack <;> simp [recorded]

theorem recorded_append (records later : Log) (stack : List OpenBracket) :
    recorded later (recorded records stack) = recorded (records ++ later) stack := by
  cases stack <;> simp [recorded]

theorem read_append (ρ : SpanReader) (entries later : Log) :
    ρ.read (entries ++ later) = (ρ.read entries).bind (read · later) :=
  List.foldlM_append

variable {place : Nat} {stack : List OpenBracket} {closed : List Bracket}

/-- A notice that has nothing to do with spans is passed over. -/
theorem read_notice {entry : LogEntry} (none : entry.role = .none) :
    read ⟨place, false, stack, closed⟩ [entry] = some ⟨place + 1, false, stack, closed⟩ := by
  simp [read, next, none]

theorem read_opening (operation : Operation) (id : String) :
    read ⟨place, false, stack, closed⟩ (Span.opening operation id) =
      some ⟨place + 2, false, ⟨operation, id, [], place⟩ :: stack, closed⟩ := by
  simp [read, next, Span.opening, LogEntry.role]

theorem read_records {entries : Log} (records : ∀ entry ∈ entries, entry.role = .records)
    {top : OpenBracket} : read ⟨place, false, top :: stack, closed⟩ entries =
      some ⟨place + entries.length, false, recorded entries (top :: stack), closed⟩ := by
  induction entries generalizing place top with
  | nil => simp [read]
  | cons entry entries ih =>
    obtain ⟨first, rest⟩ := List.forall_mem_cons.mp records
    have step : next ⟨place, false, top :: stack, closed⟩ entry =
        some ⟨place + 1, false, { top with records := top.records ++ [entry] } :: stack, closed⟩ := by
      simp [next, first]
    rw [read, List.foldlM_cons, step]
    change read _ entries = _
    rw [ih rest]
    simp [recorded]
    omega

theorem read_closing {operation : Operation} {id : String} {records : Log} {first : Nat}
    (elapsed : Nat) :
    read ⟨place, false, ⟨operation, id, records, first⟩ :: stack, closed⟩
        (Span.closing operation elapsed) =
      some ⟨place + 1, false, stack, closed ++
        [⟨stack.length, operation, id, records, first, place + 1⟩]⟩ := by
  unfold Span.closing
  split <;> simp [read, next, LogEntry.role]

end SpanReader

/-- The spans of a log, in the order in which they close; none if the log is in error or if a span
is still open in the end. -/
def brackets? (log : Log) : Option (List Bracket) :=
  (SpanReader.read {} log).bind fun ρ =>
    if ρ.fresh = false ∧ ρ.stack = [] then some ρ.closed else none

open InitProcess Run

/-! ## Visits -/

/-- A call that has returned: in how many calls it lies, the length of the log before it, and the
length of the log after it. -/
structure Visit where
  depth : Nat
  action : Action
  reply : Reply
  before : Nat
  after : Nat

/-- What is to be recorded on the span of an operation that gives a reply. -/
def Reply.records : Reply → Log
  | .failed e => [.error e.message, .result false]
  | _ => [.result true]

/-- The span that a visit to the process `id` is to have. -/
def Visit.bracket? (id : String) (v : Visit) : Option Bracket :=
  match v.action with
  | .request r => some ⟨v.depth, r.operation, id, v.reply.records, v.before, v.after⟩
  | .exited _ => some ⟨v.depth, .setExited, id, [], v.before, v.after⟩
  | .query _ => none

/-- Does what a script says inside of `depth` calls, and writes down every visit. -/
def Script.attend : Nat → Script → Run (List Visit) (Except ControllerError Answer)
  | _, .finish outcome => return outcome
  | depth, .sleep millis rest => do
    InitProcess.sleep millis
    rest.attend depth
  | depth, .act action inner rest => do
    let before ← get
    let reply ← perform (fun _ => inner.attend (depth + 1)) action
    modify fun p => { p with
      controller := p.controller ++ [⟨depth, action, reply, before.log.length, p.log.length⟩] }
    (rest reply).attend depth

variable {κ : Type}

theorem Script.alike_attend (script : Script) (depth : Nat) {k : Pair} (slots : k.left = k.right) :
    Alike (Resembles (κ := κ)) (fun _ => False) k script.run (script.attend depth)
      fun outcome outcome' k' => outcome' = outcome ∧ k'.left = k'.right := by
  induction script generalizing depth k with
  | finish outcome => exact .ret ⟨rfl, slots⟩
  | sleep millis rest ih =>
    refine .step ((alike_sleep .resembles millis).mono ?_)
    rintro _ _ _ rfl
    exact ih depth slots
  | act action inner rest ihInner ih =>
    refine .read_right fun before => .step ((alike_perform .resembles .eq
      (fun call k slots => ihInner (depth + 1) slots) slots).mono ?_)
    rintro a b k' ⟨slots', replies⟩
    obtain rfl : b = a := replies.eq slots'
    exact .write_right (fun p p' related pair => ⟨related, pair⟩) (ih b depth slots')

/-- Writing down the visits changes nothing else. -/
theorem Script.looks_attend (script : Script) {p : InitProcess κ} {p' : InitProcess (List Visit)}
    (bare : p.Resembles p') (slots : p.slot = p'.slot) :
    looks (script.attend 0 p') = looks (script.run p) :=
  (script.alike_attend 0 (k := .of p p') slots p p' bare rfl).looks_eq

/-! ## Stretches -/

/-- A stretch of a run, from `p` to `q`, inside of `depth` spans. Somebody who reads on finds that
`records` are recorded on the innermost of them, and finds the spans of the calls that have returned
meanwhile, and then the spans `own`. -/
structure InitProcess.Stretch (depth : Nat) (p q : InitProcess (List Visit)) (records : Log)
    (own : List Bracket) : Prop where
  id : q.id = p.id
  read : ∃ entries visits, q.log = p.log ++ entries ∧ q.controller = p.controller ++ visits ∧
    ∀ stack closed, stack.length = depth →
      SpanReader.read ⟨p.log.length, false, stack, closed⟩ entries =
        some ⟨q.log.length, false, SpanReader.recorded records stack,
          closed ++ visits.filterMap (Visit.bracket? p.id) ++ own⟩

namespace InitProcess.Stretch

variable {depth : Nat} {p q r : InitProcess (List Visit)} {records later : Log}
  {own : List Bracket}

/-- Nothing has been logged, and no call has returned. -/
theorem still (id : q.id = p.id) (log : q.log = p.log) (controller : q.controller = p.controller) :
    Stretch depth p q [] [] := by
  refine ⟨id, [], [], ?_, ?_, fun stack closed _ => ?_⟩
  · rw [log, List.append_nil]
  · rw [controller, List.append_nil]
  · simp [SpanReader.read, log]

theorem trans (first : Stretch depth p q records []) (second : Stretch depth q r later own) :
    Stretch depth p r (records ++ later) own := by
  obtain ⟨entries, visits, log, attended, read⟩ := first.read
  obtain ⟨entries', visits', log', attended', read'⟩ := second.read
  refine ⟨second.id.trans first.id, entries ++ entries', visits ++ visits', ?_, ?_, ?_⟩
  · rw [log', log, List.append_assoc]
  · rw [attended', attended, List.append_assoc]
  · intro stack closed deep
    have deep' : (SpanReader.recorded records stack).length = depth := by simpa using deep
    rw [SpanReader.read_append, read stack closed deep, Option.bind_some, read' _ _ deep',
      SpanReader.recorded_append, first.id]
    simp

/-- A notice that has nothing to do with spans has been logged. -/
theorem notice {entry : LogEntry} (none : entry.role = .none) (id : q.id = p.id)
    (log : q.log = p.log ++ [entry]) (controller : q.controller = p.controller) :
    Stretch depth p q [] [] := by
  refine ⟨id, [entry], [], log, by rw [controller, List.append_nil], fun stack closed _ => ?_⟩
  simp [log, SpanReader.read_notice none]

/-- Records have been made on the innermost span. -/
theorem record {entries : Log} (records : ∀ entry ∈ entries, entry.role = .records)
    (id : q.id = p.id) (log : q.log = p.log ++ entries) (controller : q.controller = p.controller) :
    Stretch (depth + 1) p q entries [] := by
  refine ⟨id, entries, [], log, by rw [controller, List.append_nil], fun stack closed deep => ?_⟩
  obtain ⟨top, stack, rfl⟩ := List.exists_cons_of_length_eq_add_one deep
  simp [log, SpanReader.read_records records]

/-- A stretch lies between the first and the last entry of a span. -/
theorem enclose {operation : Operation} {elapsed : Nat} {p' q' : InitProcess (List Visit)}
    (inside : Stretch (depth + 1) p' q' records []) (before : p' = { p with
      log := p.log ++ Span.opening operation p.id })
    (after : q = { q' with log := q'.log ++ Span.closing operation elapsed }) :
    Stretch depth p q [] [⟨depth, operation, p.id, records, p.log.length, q.log.length⟩] := by
  subst before after
  obtain ⟨entries, visits, log, attended, read⟩ := inside.read
  refine ⟨inside.id, Span.opening operation p.id ++ entries ++ Span.closing operation elapsed,
    visits, ?_, attended, fun stack closed deep => ?_⟩
  · simp [log]
  · have one : (Span.closing operation elapsed).length = 1 := by
      unfold Span.closing
      split <;> rfl
    have read := read (⟨operation, p.id, [], p.log.length⟩ :: stack) closed (by simp [deep])
    simp only [List.append_nil, List.length_append, Span.opening, List.length_cons, List.length_nil,
      SpanReader.recorded, List.nil_append] at read
    rw [SpanReader.read_append, SpanReader.read_append, SpanReader.read_opening, Option.bind_some, read,
      Option.bind_some, SpanReader.read_closing, deep]
    simp [one]

/-- A call has returned, and its visit is written down. -/
theorem visit (h : Stretch depth p q records own) {v : Visit}
    (same : (v.bracket? p.id).toList = own) :
    Stretch depth p { q with controller := q.controller ++ [v] } records [] := by
  obtain ⟨entries, visits, log, attended, read⟩ := h.read
  refine ⟨h.id, entries, visits ++ [v], log, by rw [attended, List.append_assoc], ?_⟩
  intro stack closed deep
  rw [read stack closed deep, ← same]
  cases own : v.bracket? p.id <;> simp [own]

end InitProcess.Stretch

/-! ## Steps and calls -/

namespace InitProcess

variable {depth : Nat} {p q : InitProcess (List Visit)} {α : Type}

theorem modify_eq_ok {κ : Type} {f : InitProcess κ → InitProcess κ} {p q : InitProcess κ} {u : Unit}
    (h : (modify f : Run κ Unit) p = .ok (u, q)) : q = f p := by
  cases h
  rfl

theorem record_eq_ok {κ : Type} {entries : Log} {p q : InitProcess κ} {u : Unit}
    (h : record entries p = .ok (u, q)) : q = { p with log := p.log ++ entries } :=
  modify_eq_ok h

theorem emit_stretch {severity : Severity} {payload : Payload} {u : Unit}
    (h : emit severity payload p = .ok (u, q)) : Stretch depth p q [] [] := by
  have emitted : q = p.emitted severity payload := by
    cases h
    rfl
  cases sink : p.sink with
  | memory =>
    rw [emitted, emitted_memory sink]
    exact .still rfl rfl rfl
  | log =>
    rw [emitted, emitted_log sink]
    exact .notice rfl rfl rfl rfl

theorem record_stretch {entries : Log} (records : ∀ entry ∈ entries, entry.role = .records)
    {u : Unit} (h : record entries p = .ok (u, q)) : Stretch (depth + 1) p q entries [] := by
  rw [record_eq_ok h]
  exact .record records rfl rfl rfl

theorem checked_eq_ok {κ : Type} {r : Except Violation α} {p q : InitProcess κ} {a : α}
    (h : checked r p = .ok (a, q)) : r = .ok a ∧ q = p := by
  cases r with
  | ok b => cases h; exact ⟨rfl, rfl⟩
  | error v => cases h

/-- What happens in a span lies between its first entry and its last one. -/
theorem withSpan_stretch {operation : Operation} {body : Run (List Visit) α} {a : α} {records : Log}
    (inside : ∀ p' q', p'.id = p.id → body p' = .ok (a, q') →
      Stretch (depth + 1) p' q' records [])
    (h : withSpan operation body p = .ok (a, q)) :
    Stretch depth p q [] [⟨depth, operation, p.id, records, p.log.length, q.log.length⟩] := by
  obtain ⟨opened, p₁, read, h⟩ := bind_eq_ok h
  cases read
  obtain ⟨_, p', told, h⟩ := bind_eq_ok h
  obtain ⟨b, q', ran, h⟩ := bind_eq_ok h
  obtain ⟨closing, q₁, read, h⟩ := bind_eq_ok h
  cases read
  obtain ⟨_, q₂, told', h⟩ := bind_eq_ok h
  cases h
  have before := record_eq_ok told
  exact .enclose (inside p' q' (by rw [before]) ran) before (record_eq_ok told')

theorem exclusively_stretch {body : Run (List Visit) α} {a : α} {records : Log}
    (inside : ∀ p' q', p'.id = p.id → body p' = .ok (a, q') → Stretch depth p' q' records [])
    (h : exclusively body p = .ok (a, q)) : Stretch depth p q records [] := by
  obtain ⟨before, p₁, read, h⟩ := bind_eq_ok h
  cases read
  split at h
  · cases h
  · obtain ⟨_, p', taken, h⟩ := bind_eq_ok h
    obtain ⟨b, q', ran, h⟩ := bind_eq_ok h
    obtain ⟨_, q₁, given, h⟩ := bind_eq_ok h
    cases h
    have locked : Stretch depth p p' [] [] := by
      cases taken
      exact .still rfl rfl rfl
    have unlocked : Stretch depth q' q [] [] := by
      cases given
      exact .still rfl rfl rfl
    have between := inside p' q' locked.id ran
    have all := (locked.trans between).trans unlocked
    rwa [List.nil_append, List.append_nil] at all

/-- What the controller does in a call is a stretch on which nothing is recorded on open spans. -/
def Tidy (depth : Nat) (controller : Controller (List Visit)) : Prop :=
  ∀ call p outcome q, controller call p = .ok (outcome, q) → Stretch depth p q [] []

section Calls

variable {controller : Controller (List Visit)}

theorem consult_stretch (tidy : Tidy depth controller) {call : Call}
    {outcome : Except ControllerError Answer} (h : consult controller call p = .ok (outcome, q)) :
    Stretch depth p q [] [] := by
  obtain ⟨_, p', noted, h⟩ := bind_eq_ok h
  have called : Stretch depth p p' [] [] := by
    cases noted
    exact .still rfl rfl rfl
  exact called.trans (tidy call p' outcome q h)

theorem commit_stretch {operation : Operation} {source next : State} {u : Unit}
    (h : commit operation source next p = .ok (u, q)) : Stretch depth p q [] [] := by
  obtain ⟨before, p₁, read, h⟩ := bind_eq_ok h
  cases read
  obtain ⟨commit, p₂, taken, h⟩ := bind_eq_ok h
  obtain ⟨-, rfl⟩ := checked_eq_ok taken
  cases commit with
  | superseded current => exact emit_stretch h
  | installed previous slot =>
    obtain ⟨_, p₃, written, h⟩ := bind_eq_ok h
    have installed : Stretch depth p₂ p₃ [] [] := by
      cases written
      exact .still rfl rfl rfl
    exact installed.trans (emit_stretch h)

theorem recordError_roles (text : String) : ∀ entry ∈ Span.recordError text, entry.role = .records := by
  simp [Span.recordError, LogEntry.role]

theorem recordResult_roles : ∀ entry ∈ Span.recordResult true, entry.role = .records := by
  simp [Span.recordResult, LogEntry.role]

/-- An accepted request records its result, or the error of the controller. -/
theorem carryOut_stretch (tidy : Tidy (depth + 1) controller) {r : Request} {source : State}
    {next : Option State} {a : Except LifecycleError Answer}
    (h : carryOut controller r source next p = .ok (a, q)) :
    Stretch (depth + 1) p q (Reply.ofResult a).records [] := by
  obtain ⟨before, p₁, read, h⟩ := bind_eq_ok h
  cases read
  cases asks : r.call? p.id with
  | none =>
    simp only [asks] at h
    cases h
  | some call =>
    simp only [asks] at h
    obtain ⟨outcome, p', consulted, h⟩ := bind_eq_ok h
    have effect := consult_stretch tidy consulted
    cases outcome with
    | error e =>
      obtain ⟨_, q₁, told, h⟩ := bind_eq_ok h
      obtain ⟨_, q₂, emitted, h⟩ := bind_eq_ok h
      cases h
      have failure : Stretch (depth + 1) p' q₁ _ [] :=
        record_stretch (recordError_roles e.message) told
      have all := (effect.trans failure).trans (emit_stretch emitted)
      rwa [List.nil_append, List.append_nil] at all
    | ok answer =>
      have success : ∀ p' q', (do record (Span.recordResult true); return .ok answer :
          Run (List Visit) (Except LifecycleError Answer)) p' = .ok (a, q') →
          Stretch (depth + 1) p' q' (Reply.ofResult a).records [] := by
        intro p' q' h
        obtain ⟨_, q₁, told, h⟩ := bind_eq_ok h
        cases h
        exact record_stretch recordResult_roles told
      cases next with
      | none => exact effect.trans (success _ _ h)
      | some target =>
        obtain ⟨_, q₁, committed, h⟩ := bind_eq_ok h
        exact (effect.trans (commit_stretch committed)).trans (success _ _ h)

/-- A refused request records the error. -/
theorem attempt_stretch (tidy : Tidy (depth + 1) controller) {r : Request}
    {a : Except LifecycleError Answer} (h : attempt controller r p = .ok (a, q)) :
    Stretch (depth + 1) p q (Reply.ofResult a).records [] := by
  obtain ⟨before, p₁, read, h⟩ := bind_eq_ok h
  cases read
  cases dispatched : p.slot.state.dispatch r.operation with
  | error rejection =>
    simp only [dispatched] at h
    obtain ⟨_, q₁, told, h⟩ := bind_eq_ok h
    obtain ⟨_, q₂, emitted, h⟩ := bind_eq_ok h
    cases h
    have failure : Stretch (depth + 1) p q₁ _ [] :=
      record_stretch (recordError_roles rejection.message) told
    exact failure.trans (emit_stretch emitted)
  | ok way =>
    simp only [dispatched] at h
    cases way with
    | observe => cases h
    | delegate next => exact carryOut_stretch tidy h

/-- An operation has one span, and its result is recorded on it. -/
theorem operate_stretch (tidy : Tidy (depth + 1) controller) {r : Request}
    {a : Except LifecycleError Answer} (h : operate controller r p = .ok (a, q)) :
    Stretch depth p q [] [⟨depth, r.operation, p.id, (Reply.ofResult a).records, p.log.length,
      q.log.length⟩] :=
  withSpan_stretch (fun _ _ _ h => exclusively_stretch (fun _ _ _ h => attempt_stretch tidy h) h) h

theorem compensate_stretch (tidy : Tidy depth controller) {u : Unit}
    (h : compensate controller p = .ok (u, q)) : Stretch depth p q [] [] := by
  obtain ⟨before, p₁, read, h⟩ := bind_eq_ok h
  cases read
  obtain ⟨outcome, p', consulted, h⟩ := bind_eq_ok h
  have effect := consult_stretch tidy consulted
  have stop : ∀ p' q', (do
      let slot ← checked (← get).slot.stop
      modify fun p => { p with slot } : Run (List Visit) Unit) p' = .ok (u, q') →
      Stretch depth p' q' [] [] := by
    intro p' q' h
    obtain ⟨before, p₁, read, h⟩ := bind_eq_ok h
    cases read
    obtain ⟨slot, p₂, taken, wrote⟩ := bind_eq_ok h
    obtain ⟨-, rfl⟩ := checked_eq_ok taken
    rw [modify_eq_ok wrote]
    exact .still rfl rfl rfl
  cases outcome with
  | error e =>
    obtain ⟨_, q₁, emitted, h⟩ := bind_eq_ok h
    exact (effect.trans (emit_stretch emitted)).trans (stop _ _ h)
  | ok a => exact effect.trans (stop _ _ h)

/-- The report of an exit has one span, and nothing is recorded on it. -/
theorem setExited_stretch (tidy : Tidy (depth + 1) controller) {code : Int32} {u : Unit}
    (h : setExited controller code p = .ok (u, q)) :
    Stretch depth p q [] [⟨depth, .setExited, p.id, [], p.log.length, q.log.length⟩] := by
  refine withSpan_stretch (fun p' q' _ h => ?_) h
  obtain ⟨looked, p₁, read, h⟩ := bind_eq_ok h
  cases read
  obtain ⟨claim, p₂, claimed, h⟩ := bind_eq_ok h
  obtain ⟨-, rfl⟩ := checked_eq_ok claimed
  cases claim with
  | ignored state =>
    rw [record_eq_ok h]
    exact .notice rfl rfl rfl rfl
  | accepted previous resume slot =>
    obtain ⟨_, p₃, written, h⟩ := bind_eq_ok h
    have recorded : Stretch (depth + 1) p₂ p₃ [] [] := by
      cases written
      exact .still rfl rfl rfl
    obtain ⟨_, p₄, emitted, h⟩ := bind_eq_ok h
    have told := recorded.trans (emit_stretch emitted)
    cases resume with
    | false => exact told.trans (emit_stretch h)
    | true =>
      obtain ⟨_, p₅, compensated, h⟩ := bind_eq_ok h
      exact (told.trans (compensate_stretch tidy compensated)).trans (emit_stretch h)

/-- A call has the span that its visit is to have. -/
theorem perform_stretch (tidy : Tidy (depth + 1) controller) {action : Action} {reply : Reply}
    (h : perform controller action p = .ok (reply, q)) :
    Stretch depth p q []
      ((Visit.mk depth action reply p.log.length q.log.length).bracket? p.id).toList := by
  cases action with
  | request r =>
    obtain ⟨a, q', operated, h⟩ := bind_eq_ok h
    cases h
    exact operate_stretch tidy operated
  | exited code =>
    obtain ⟨u, q', reported, h⟩ := bind_eq_ok h
    cases h
    exact setExited_stretch tidy reported
  | query query =>
    cases h
    exact .still rfl rfl rfl

end Calls

end InitProcess

/-- A script is a stretch in which every call has the span that it is to have. -/
theorem Script.attend_stretch {script : Script} {depth : Nat} {p q : InitProcess (List Visit)}
    {outcome : Except ControllerError Answer} (h : script.attend depth p = .ok (outcome, q)) :
    Stretch depth p q [] [] := by
  induction script generalizing depth p q outcome with
  | finish =>
    cases h
    exact .still rfl rfl rfl
  | sleep millis rest ih =>
    obtain ⟨_, p', slept, h⟩ := bind_eq_ok h
    have passed : Stretch depth p p' [] [] := by
      cases slept
      exact .still rfl rfl rfl
    exact passed.trans (ih h)
  | act action inner rest ihInner ih =>
    obtain ⟨before, p₁, read, h⟩ := bind_eq_ok h
    cases read
    obtain ⟨reply, p', performed, h⟩ := bind_eq_ok h
    obtain ⟨_, p₂, written, h⟩ := bind_eq_ok h
    have tidy : Tidy (depth + 1) fun _ => inner.attend (depth + 1) :=
      fun _ _ _ _ ran => ihInner ran
    have call := (perform_stretch tidy performed).visit rfl
    cases written
    exact call.trans (ih reply h)

/-! ## Balance -/

/-- **Spans are balanced, and tell the truth.** A process comes to be in any way, and a script is
done. It returns if it is allowed; that visits are written down changes nothing of what it does.

If it returns, its log can be read: spans open and close like brackets, the start of each one is
reported at once, and none is open in the end. The spans are those of the visits, one for one, in
the order in which the calls returned. The first entry of the span of a call is the first one after
the call began, and its last entry is the last one before the call returned; it has the operation of
the call and the name of the process, and lies in as many spans as the call lies in others. Recorded
on it is the success of an operation or its error, and nothing if an exit was reported. A question
has no span. -/
theorem spans_balanced (origin : Origin) (id : String) (sink : Sink) (script : Script) :
    looks (script.attend 0 (origin.process id [] sink)) =
      looks (script.run (origin.process id () sink)) ∧
    (script.Allowed false →
      ∃ outcome q, script.attend 0 (origin.process id [] sink) = .ok (outcome, q)) ∧
    ∀ outcome q, script.attend 0 (origin.process id [] sink) = .ok (outcome, q) →
      brackets? q.log = some (q.controller.filterMap (Visit.bracket? id)) := by
  have same : looks (script.attend 0 (origin.process id [] sink)) =
      looks (script.run (origin.process id () sink)) :=
    script.looks_attend (by cases origin <;> rfl) (by cases origin <;> rfl)
  refine ⟨same, fun allowed => ?_, fun outcome q ran => ?_⟩
  · have idle : script.Allowed (origin.process id () sink).core.busy := by
      cases origin <;> exact allowed
    have told : script.Told Unit (origin.process id () sink).core := Script.told idle
    obtain ⟨outcome, q, ran, -⟩ := told _ rfl
    rw [ran] at same
    cases attended : script.attend 0 (origin.process id [] sink) with
    | error halt => rw [attended] at same; cases same
    | ok x => exact ⟨x.1, x.2, rfl⟩
  · obtain ⟨-, entries, visits, log, attended, read⟩ := Script.attend_stretch ran
    have made : (origin.process id ([] : List Visit) sink).id = id := by cases origin <;> rfl
    have unvisited : (origin.process id ([] : List Visit) sink).controller = [] := by
      cases origin <;> rfl
    have header : SpanReader.read {} (origin.process id ([] : List Visit) sink).log =
        some ⟨(origin.process id ([] : List Visit) sink).log.length, false, [], []⟩ := by
      cases origin <;> rfl
    rw [brackets?, log, SpanReader.read_append, header, Option.bind_some, read [] [] rfl, attended,
      unvisited, made]
    simp [SpanReader.recorded]

theorem spans_balanced_thaw :
    ∃ outcome q, thaw.attend 0 (restore "web" [] .paused .memory) = .ok (outcome, q) ∧
      brackets? q.log = some [
        ⟨1, .start, "web", [.error "cannot start process in paused state", .result false], 4, 9⟩,
        ⟨1, .setExited, "web", [], 9, 13⟩, ⟨0, .setExited, "web", [], 2, 14⟩,
        ⟨1, .setExited, "web", [], 16, 20⟩, ⟨0, .delete, "web", [.result true], 14, 22⟩] := by
  obtain ⟨-, returns, balanced⟩ := spans_balanced (.found .paused) "web" .memory thaw
  obtain ⟨outcome, q, ran⟩ := returns (by simp [thaw, Script.Allowed])
  have attended : (thaw.attend 0 (restore "web" [] .paused .memory)).toOption.map (fun x =>
      x.2.controller.filterMap (Visit.bracket? "web")) = some _ :=
    congrArg _ (congrArg Except.toOption ran)
  refine ⟨outcome, q, ran, (balanced outcome q ran).trans (attended.symm.trans ?_)⟩
  decide +kernel

end ContainerInit
