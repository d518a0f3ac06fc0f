import ContainerInit.Proofs.InitProcess.Journal

/-!
# Erased calls

Some calls might as well not be made: questions, requests that are refused, and reports of exits
that come too late (`Action.Stutters`). Wherever they stand in a script, they can be deleted from
it, and nothing else becomes different (`stutters_erased`).

- **Drafts** (`Draft`): scripts in which calls are marked. A draft does what the script with all its
  calls does (`Draft.looks_record`); `Draft.erased` is the script without the marked ones.
- **Trails** (`keepOthers`): what the sink has received, without the messages at some places. A
  marked call adds one message at most, the refusal of a request (`InitProcess.Hears`).
- **Two runs** (`InitProcess.Erases`): of the draft, and of the script without the marked calls. It
  is known only from the journal that all the marked calls were stutters; a journal in which one was
  not is spoilt, and stays so.
-/

namespace ContainerInit

open InitProcess Run

/-! ## Drafts -/

/-- A script in which calls are marked. -/
inductive Draft where
  | finish (outcome : Except ControllerError Answer)
  | sleep (millis : Nat) (rest : Draft)
  | act (action : Action) (inner : Draft) (rest : Reply → Draft)
  /-- A marked call; what comes next does not depend on its reply. -/
  | spare (action : Action) (inner : Draft) (rest : Draft)

namespace Draft

/-- Does what a draft says, marked calls and all, and writes it down. -/
def record : Draft → Run Journal (Except ControllerError Answer)
  | .finish outcome => return outcome
  | .sleep millis rest => do
    InitProcess.sleep millis
    rest.record
  | .act action inner rest => do
    let reply ← perform (noted inner.record) action
    note (.done action reply)
    (rest reply).record
  | .spare action inner rest => do
    let before ← get
    let _ ← perform (noted inner.record) action
    note fun _ => .spared action before.slot before.told.length
    rest.record

/-- The script with all the calls. -/
def full : Draft → Script
  | .finish outcome => .finish outcome
  | .sleep millis rest => .sleep millis rest.full
  | .act action inner rest => .act action inner.full fun reply => (rest reply).full
  | .spare action inner rest => .act action inner.full fun _ => rest.full

/-- The script without the marked calls. -/
def erased : Draft → Script
  | .finish outcome => .finish outcome
  | .sleep millis rest => .sleep millis rest.erased
  | .act action inner rest => .act action inner.erased fun reply => (rest reply).erased
  | .spare _ _ rest => rest.erased

end Draft

/-- The call does nothing to a process with the slot `s`. -/
def Action.Stutters (s : Slot) : Action → Prop
  | .query _ => True
  | .request r => ∃ rejection, s.state.dispatch r.operation = .error rejection
  | .exited _ => s.Late

/-- If a marked call is written down, it was a stutter. -/
def Note.Stutters : Note → Prop
  | .spared action before _ => action.Stutters before
  | _ => True

instance (s : Slot) (action : Action) : Decidable (action.Stutters s) :=
  match action with
  | .query _ => .isTrue trivial
  | .request r =>
    match h : s.state.dispatch r.operation with
    | .error rejection => .isTrue ⟨rejection, h⟩
    | .ok _ => .isFalse fun ⟨_, refused⟩ => nomatch h.symm.trans refused
  | .exited _ => inferInstanceAs (Decidable (_ ∨ _))

instance (n : Note) : Decidable n.Stutters :=
  match n with
  | .spared action before _ => inferInstanceAs (Decidable (action.Stutters before))
  | .answered .. | .done .. => .isTrue trivial

/-- A marked call is written down. -/
def Note.isSpared : Note → Bool
  | .spared .. => true
  | _ => false

/-- Where the refusal of a marked request stands among the messages. -/
def Note.place? : Note → Option Nat
  | .spared (.request _) _ place => some place
  | _ => none

namespace Journal

/-- What is written down of the calls that are not marked. -/
def kept (j : Journal) : Journal := j.filter fun n => !n.isSpared

/-- Where the refusals of marked requests stand among the messages. -/
def places (j : Journal) : List Nat := j.filterMap Note.place?

/-- A marked call was no stutter. -/
def Spoilt (j : Journal) : Prop := ∃ n ∈ j, ¬ n.Stutters

end Journal

/-! ## Trails -/

/-- The list without the entries at some places. -/
def keepOthers {α : Type} (places : List Nat) (l : List α) : List α :=
  (l.zipIdx.filter fun x => x.2 ∉ places).map Prod.fst

section Trails

variable {α : Type} {places : List Nat} {l : List α} {x : α}

theorem keepOthers_nil (l : List α) : keepOthers [] l = l := by
  rw [keepOthers, List.filter_eq_self.mpr (by simp), List.zipIdx_map_fst]

theorem keepOthers_concat (new : l.length ∉ places) :
    keepOthers places (l ++ [x]) = keepOthers places l ++ [x] := by
  simp [keepOthers, List.zipIdx_append, new]

/-- An entry that is left out as soon as it is added. -/
theorem keepOthers_concat_length : keepOthers (places ++ [l.length]) (l ++ [x]) =
    keepOthers places l := by
  have before : l.zipIdx.filter (fun y => y.2 ∉ places ++ [l.length]) =
      l.zipIdx.filter fun y => y.2 ∉ places := by
    refine List.filter_congr fun y hy => ?_
    have := List.snd_lt_of_mem_zipIdx hy
    simp
    omega
  rw [keepOthers, List.zipIdx_append, List.filter_append, before]
  simp [keepOthers]

end Trails

/-! ## Stutters -/

/-- What was told, when something else was written to the log. -/
theorem InitProcess.told_log {κ : Type} {p : InitProcess κ} {entries : Log}
    (plain : entries.filterMap LogEntry.message? = []) :
    ({ p with log := p.log ++ entries } : InitProcess κ).told = p.told := by
  unfold InitProcess.told
  cases p.sink with
  | memory => rfl
  | log => simp only [List.filterMap_append, plain, List.append_nil]

theorem InitProcess.told_emitted {κ : Type} (p : InitProcess κ) (severity : Severity)
    (payload : Payload) :
    (p.emitted severity payload).told = p.told ++ [⟨severity, p.id, payload⟩] := by
  cases hs : p.sink with
  | memory =>
    rw [emitted_memory hs]
    simp [told, hs, event, Event.message]
  | log =>
    rw [emitted_log hs]
    simp [told, hs, event, Sink.entries, Notice.ofEvent, LogEntry.message?]

section Hears

variable {κ : Type} {p q r : InitProcess κ} {payloads later : List Payload}

/-- The process `p` has become `q`: something was written to its log, and its sink has received
events. Nothing else has happened. -/
structure InitProcess.Hears (p : InitProcess κ) (payloads : List Payload) (q : InitProcess κ) :
    Prop where
  id : q.id = p.id
  slot : q.slot = p.slot
  busy : q.busy = p.busy
  sink : q.sink = p.sink
  clock : q.clock = p.clock
  calls : q.calls = p.calls
  controller : q.controller = p.controller
  told : q.told = p.told ++ payloads.map (⟨.info, p.id, ·⟩)
  events : p.sink = .memory → q.events.events = p.events.events ++ payloads.map (p.event .info)

namespace InitProcess.Hears

theorem refl (p : InitProcess κ) : p.Hears [] p :=
  ⟨rfl, rfl, rfl, rfl, rfl, rfl, rfl, (List.append_nil _).symm, fun _ => (List.append_nil _).symm⟩

/-- An operation that is over is not under way any more. -/
theorem release (free : p.busy = false)
    (h : ({ p with busy := true } : InitProcess κ).Hears payloads q) :
    p.Hears payloads { q with busy := false } :=
  ⟨h.id, h.slot, free.symm, h.sink, h.clock, h.calls, h.controller, h.told, h.events⟩

theorem trans (h : p.Hears payloads q) (h' : q.Hears later r) : p.Hears (payloads ++ later) r where
  id := h'.id.trans h.id
  slot := h'.slot.trans h.slot
  busy := h'.busy.trans h.busy
  sink := h'.sink.trans h.sink
  clock := h'.clock.trans h.clock
  calls := h'.calls.trans h.calls
  controller := h'.controller.trans h.controller
  told := by rw [h'.told, h.told, h.id, List.append_assoc, List.map_append]
  events memory := by
    have same : q.event .info = p.event .info := by
      funext payload
      rw [event, event, h.clock, h.id]
    rw [h'.events (h.sink.trans memory), h.events memory, same, List.append_assoc, List.map_append]

theorem record {entries : Log} (plain : entries.filterMap LogEntry.message? = []) {u : Unit}
    (ran : InitProcess.record entries p = .ok (u, q)) : p.Hears [] q := by
  cases ran
  refine { Hears.refl p with told := ?_ }
  exact (told_log plain).trans (List.append_nil _).symm

theorem emit {payload : Payload} {u : Unit} (ran : InitProcess.emit .info payload p = .ok (u, q)) :
    p.Hears [payload] q := by
  obtain rfl : p.emitted .info payload = q := by cases ran; rfl
  have told := told_emitted p .info payload
  cases hs : p.sink with
  | memory =>
    rw [emitted_memory hs] at told ⊢
    exact { Hears.refl p with told, events := fun _ => MemorySink.events_emit _ _ }
  | log =>
    rw [emitted_log hs] at told ⊢
    exact { Hears.refl p with told, events := fun memory => by rw [hs] at memory; cases memory }

/-- What is done inside of a span. -/
theorem withSpan {α : Type} {operation : Operation} {body : Run κ α} {a : α}
    (ran : InitProcess.withSpan operation body p = .ok (a, q))
    (inside : ∀ p' q', p'.slot = p.slot → body p' = .ok (a, q') → p'.Hears payloads q') :
    p.Hears payloads q := by
  obtain ⟨opened, _, read, ran⟩ := bind_eq_ok ran
  cases read
  obtain ⟨_, p', told, ran⟩ := bind_eq_ok ran
  obtain ⟨b, q', done, ran⟩ := bind_eq_ok ran
  obtain ⟨closed, _, read, ran⟩ := bind_eq_ok ran
  cases read
  obtain ⟨_, _, told', ran⟩ := bind_eq_ok ran
  cases ran
  have before := Hears.record rfl told
  have closing : (Span.closing operation (q'.clock - p.clock)).filterMap LogEntry.message? = [] := by
    unfold Span.closing
    split <;> rfl
  have after := Hears.record closing told'
  simpa using (before.trans (inside p' q' before.slot done)).trans after

end InitProcess.Hears

/-- What a stutter tells. -/
def Action.refusals (s : Slot) : Action → List Payload
  | .request r => [.operationRejected r.operation s.state]
  | _ => []

/-- Where a marked call writes down that its refusal stands, if `length` messages were told
before. -/
def Action.place (length : Nat) : Action → List Nat
  | .request _ => [length]
  | _ => []

/-- What a stutter tells is left out. -/
theorem Action.keepOthers_refusals {α : Type} {places : List Nat} {l : List α} {s : Slot}
    (f : Payload → α) (action : Action) :
    keepOthers (places ++ action.place l.length) (l ++ (action.refusals s).map f) =
      keepOthers places l := by
  cases action with
  | request r => exact keepOthers_concat_length
  | _ => simp [Action.place, Action.refusals]

/-- A request that is refused tells that, and no more. -/
theorem hears_refused {controller : Controller κ} {r : Request} {rejection : Rejection}
    {a : Except LifecycleError Answer}
    (refused : p.slot.state.dispatch r.operation = .error rejection)
    (ran : operate controller r p = .ok (a, q)) :
    p.Hears [.operationRejected r.operation p.slot.state] q := by
  refine Hears.withSpan ran fun p' q' slot ran => ?_
  have refused' : p'.slot.state.dispatch r.operation = .error rejection := slot ▸ refused
  obtain ⟨_, _, read, ran⟩ := bind_eq_ok ran
  cases read
  split at ran
  · cases ran
  · rename_i idle
    obtain ⟨_, _, taken, ran⟩ := bind_eq_ok ran
    cases taken
    obtain ⟨_, q₁, attempted, ran⟩ := bind_eq_ok ran
    obtain ⟨_, _, given, ran⟩ := bind_eq_ok ran
    cases given
    cases ran
    obtain ⟨_, _, read, attempted⟩ := bind_eq_ok attempted
    cases read
    simp only [refused'] at attempted
    obtain ⟨_, q₂, told, attempted⟩ := bind_eq_ok attempted
    obtain ⟨_, q₃, emitted, attempted⟩ := bind_eq_ok attempted
    cases attempted
    rw [(State.dispatch_rejection refused).2] at emitted
    exact .release (by simpa using idle) ((Hears.record rfl told).trans (Hears.emit emitted))

/-- The report of an exit that comes too late tells nothing. -/
theorem hears_late {controller : Controller κ} {code : Int32} {u : Unit} (late : p.slot.Late)
    (ran : setExited controller code p = .ok (u, q)) : p.Hears [] q := by
  refine Hears.withSpan ran fun p' q' slot ran => ?_
  obtain ⟨before, _, read, ran⟩ := bind_eq_ok ran
  cases read
  rw [slot, Slot.claim_of_ignore late] at ran
  obtain ⟨_, _, claimed, ran⟩ := bind_eq_ok ran
  cases claimed
  exact Hears.record rfl ran

/-- **A stutter that returns** tells that it was refused, if it was a request, and does no more. -/
theorem hears_stutter {controller : Controller κ} {action : Action} {reply : Reply}
    (stutters : action.Stutters p.slot) (ran : perform controller action p = .ok (reply, q)) :
    p.Hears (action.refusals p.slot) q := by
  cases action with
  | request r =>
    obtain ⟨rejection, refused⟩ := stutters
    obtain ⟨a, _, operated, ⟨⟩⟩ := bind_eq_ok ran
    exact hears_refused refused operated
  | exited code =>
    obtain ⟨_, _, reported, ⟨⟩⟩ := bind_eq_ok ran
    exact hears_late stutters reported
  | query q =>
    cases ran
    exact .refl p

end Hears

/-! ## Two runs -/

/-- The process `p` is that of a draft, and `r` is that of the script without the marked calls. They
have done the same; but what is written down of marked calls is missing, and what the sink has
received from them, which are the refusals of the marked requests. -/
structure InitProcess.Erases (p r : InitProcess Journal) : Prop where
  id : r.id = p.id
  busy : r.busy = p.busy
  sink : r.sink = p.sink
  clock : r.clock = p.clock
  calls : r.calls = p.calls
  notes : r.controller = p.controller.kept
  told : r.told = keepOthers p.controller.places p.told
  events : p.sink = .memory →
    r.events.events = keepOthers p.controller.places p.events.events
  refusals {request : Request} {before : Slot} {place : Nat} :
    .spared (.request request) before place ∈ p.controller →
      p.told[place]? = some ⟨.info, p.id, .operationRejected request.operation before.state⟩

namespace InitProcess.Erases

variable {p q r : InitProcess Journal}

/-- Two runs that begin where nothing is written down. -/
theorem refl (blank : p.controller = []) : p.Erases p where
  id := rfl
  busy := rfl
  sink := rfl
  clock := rfl
  calls := rfl
  notes := by rw [blank]; rfl
  told := by rw [blank]; exact (keepOthers_nil _).symm
  events _ := by rw [blank]; exact (keepOthers_nil _).symm
  refusals marked := by rw [blank] at marked; cases marked

/-- What is not told yet is not left out yet. -/
theorem fresh (h : p.Erases r) : p.told.length ∉ p.controller.places := by
  intro mem
  obtain ⟨n, hn, placed⟩ := List.mem_filterMap.mp mem
  obtain ⟨request, before, rfl⟩ : ∃ request before,
      n = .spared (.request request) before p.told.length := by
    cases n with
    | spared action before place =>
      cases action with
      | request request => cases placed; exact ⟨request, before, rfl⟩
      | _ => cases placed
    | _ => cases placed
  have told := h.refusals hn
  rw [List.getElem?_eq_none (Nat.le_refl _)] at told
  cases told

theorem told_length (memory : p.sink = .memory) : p.told.length = p.events.events.length := by
  simp [InitProcess.told, memory]

/-- What was told before a message stays where it is. -/
theorem refusal_told (h : p.Erases r) {request : Request} {before : Slot} {place : Nat}
    (marked : .spared (.request request) before place ∈ p.controller) (messages : List Message) :
    (p.told ++ messages)[place]? =
      some ⟨.info, p.id, .operationRejected request.operation before.state⟩ := by
  have told := h.refusals marked
  rw [List.getElem?_append_left (List.getElem?_eq_some_iff.mp told).1, told]

theorem bond : Bond Erases where
  id h := h.id
  busy h := h.busy
  clock h := h.clock
  record {p r entries} plain h := by
    have told := told_log (p := p) plain
    refine { h with told := ?_, refusals := ?_ }
    · rw [told, told_log plain, h.told]
    · rw [told]
      exact h.refusals
  emit {p r} severity payload h := by
    have same : r.event severity payload = p.event severity payload := by
      rw [event, event, h.id, h.clock]
    have told := told_emitted p severity payload
    have told' := told_emitted r severity payload
    rw [h.id, h.told, ← keepOthers_concat h.fresh, ← told] at told'
    cases hs : p.sink with
    | memory =>
      rw [emitted_memory hs] at told told' ⊢
      rw [emitted_memory (h.sink.trans hs)] at told' ⊢
      refine { h with told := told', events := fun _ => ?_, refusals := fun marked => ?_ }
      · have fresh : p.events.events.length ∉ p.controller.places := told_length hs ▸ h.fresh
        rw [MemorySink.events_emit, MemorySink.events_emit, same, h.events hs,
          keepOthers_concat fresh]
      · rw [told]
        exact h.refusal_told marked _
    | log =>
      rw [emitted_log hs] at told told' ⊢
      rw [emitted_log (h.sink.trans hs)] at told' ⊢
      refine { h with told := told', events := h.events, refusals := fun marked => ?_ }
      rw [told]
      exact h.refusal_told marked _
  sleep millis h := { h with clock := congrArg (· + millis) h.clock }
  hold busy h := { h with busy := rfl }
  call call h := { h with calls := by rw [h.calls] }
  write slot slot' h := { h with }

/-- Something is written down of both. -/
theorem note (h : p.Erases r) {n : Slot → Note} (unmarked : ∀ s, (n s).isSpared = false)
    (slots : p.slot = r.slot) : (p.noting n).Erases (r.noting n) := by
  have placeless : (n p.slot).place? = none := by
    have := unmarked p.slot
    cases hn : n p.slot <;> rw [hn] at this <;> first | rfl | cases this
  have places : (p.noting n).controller.places = p.controller.places := by
    simp [Journal.places, noting, placeless]
  refine { h with notes := ?_, told := ?_, events := ?_, refusals := ?_ }
  · rw [noting, noting, h.notes, ← slots]
    simp [Journal.kept, unmarked]
  · rw [places]
    exact h.told
  · rw [places]
    exact h.events
  · intro request before place marked
    rcases List.mem_append.mp marked with marked | marked
    · exact h.refusals marked
    · have := unmarked p.slot
      rw [← List.mem_singleton.mp marked] at this
      cases this

theorem places_noting {action : Action} {before : Slot} {length : Nat}
    (same : q.controller = p.controller) :
    (q.noting fun _ => .spared action before length).controller.places =
      p.controller.places ++ action.place length := by
  cases action <;> simp [noting, Journal.places, same, Note.place?, Action.place]

/-- A marked call that was a stutter is over. -/
theorem spare (h : p.Erases r) {action : Action} (heard : p.Hears (action.refusals p.slot) q) :
    (q.noting fun _ => .spared action p.slot p.told.length).Erases r := by
  have notes : r.controller =
      (q.noting fun _ => .spared action p.slot p.told.length).controller.kept := by
    simp [noting, Journal.kept, heard.controller, h.notes, Note.isSpared]
  have earlier : ∀ {request : Request} {before : Slot} {place : Nat},
      .spared (.request request) before place ∈ p.controller →
        q.told[place]? = some ⟨.info, q.id, .operationRejected request.operation before.state⟩ :=
    fun marked => by rw [heard.told, heard.id]; exact h.refusal_told marked _
  refine ⟨h.id.trans heard.id.symm, h.busy.trans heard.busy.symm, h.sink.trans heard.sink.symm,
    h.clock.trans heard.clock.symm, h.calls.trans heard.calls.symm, notes, ?told, ?events, ?refusals⟩
  case told =>
    rw [h.told, places_noting heard.controller]
    exact (heard.told ▸ action.keepOthers_refusals _).symm
  case events =>
    intro memory
    have memory' : p.sink = .memory := heard.sink ▸ memory
    rw [h.events memory', places_noting heard.controller, told_length memory']
    exact (heard.events memory' ▸ action.keepOthers_refusals _).symm
  case refusals =>
    intro request before place marked
    rw [noting, heard.controller] at marked
    rcases List.mem_append.mp marked with marked | marked
    · exact earlier marked
    · cases List.mem_singleton.mp marked
      show q.told[p.told.length]? = some ⟨.info, q.id, _⟩
      rw [heard.told, heard.id]
      simp [Action.refusals]

end InitProcess.Erases

/-! ## Scripts -/

namespace Draft

/-- Marks are no part of what a draft does. -/
theorem alike_full {κ : Type} (draft : Draft) {k : Pair} (slots : k.left = k.right) :
    Alike (Resembles (κ := κ)) (fun _ => False) k draft.full.run draft.record
      fun outcome outcome' k' => outcome' = outcome ∧ k'.left = k'.right := by
  induction draft generalizing k with
  | finish outcome => exact .ret ⟨rfl, slots⟩
  | sleep millis rest ih =>
    refine .step ((alike_sleep .resembles millis).mono ?_)
    rintro _ _ _ rfl
    exact ih slots
  | act action inner rest ihInner ih =>
    refine .step ((alike_perform .resembles .eq
      (fun call k slots => alike_noted_right (ihInner slots)) slots).mono ?_)
    rintro a b k' ⟨slots', replies⟩
    obtain rfl : b = a := replies.eq slots'
    exact .write_right (fun p p' related pair => ⟨related, pair⟩) (ih b slots')
  | spare action inner rest ihInner ih =>
    refine .read_right fun before => .step ((alike_perform .resembles .eq
      (fun call k slots => alike_noted_right (ihInner slots)) slots).mono fun a b k' ⟨slots', _⟩ => ?_)
    exact .write_right (fun p p' related pair => ⟨related, pair⟩) (ih slots')

/-- **A draft does what the script with all its calls does.** -/
theorem looks_record {κ : Type} (draft : Draft) {p : InitProcess κ} {p' : InitProcess Journal}
    (bare : p.Resembles p') (slots : p.slot = p'.slot) :
    looks (draft.record p') = looks (draft.full.run p) :=
  (draft.alike_full (k := .of p p') slots p p' bare rfl).looks_eq

open Journal

theorem stays_note (n : Slot → Note) : Stays Spoilt (note n) := by
  rintro p _ _ ⟨⟩ ⟨m, written, bad⟩
  exact ⟨m, List.mem_append_left _ written, bad⟩

theorem stays_noted {inner : Run Journal (Except ControllerError Answer)}
    (stays : Stays Spoilt inner) (call : Call) : Stays Spoilt (noted inner call) :=
  .bind stays fun _ => .bind (stays_note _) fun _ => .ret _

/-- What was written down stays. -/
theorem stays_record (draft : Draft) : Stays Spoilt draft.record := by
  induction draft with
  | finish outcome => exact .ret _
  | sleep millis rest ih =>
    exact .bind ((keeps_sleep millis).stays _) fun _ => ih
  | act action inner rest ihInner ih =>
    exact .bind (.perform (stays_noted ihInner) action) fun reply =>
      .bind (stays_note _) fun _ => ih reply
  | spare action inner rest ihInner ih =>
    exact .bind (Keeps.read.stays _) fun before =>
      .bind (.perform (stays_noted ihInner) action) fun _ => .bind (stays_note _) fun _ => ih

/-- A journal that is spoilt. -/
theorem spoilt_exited : Spoilt [.spared (.exited 0) {} 0] :=
  ⟨_, List.mem_singleton_self _, fun late => by rcases late with h | h <;> cases h⟩

variable {k : Pair}

/-- A marked call is made in the first process only. -/
theorem erases_spare {action : Action} {inner rest : Draft} {script : Script}
    (ih : ∀ {k : Pair}, k.left = k.right → Alike Erases Spoilt k rest.record script.record
      fun outcome outcome' k' => outcome' = outcome ∧ k'.left = k'.right)
    (slots : k.left = k.right) :
    Alike Erases Spoilt k (Draft.spare action inner rest).record script.record
      fun outcome outcome' k' => outcome' = outcome ∧ k'.left = k'.right := by
  intro p r erases pair
  have same : p.slot = r.slot := Pair.slot_eq pair slots
  change Agree Erases Spoilt _ (perform (noted inner.record) action p >>= fun s =>
    rest.record (s.2.noting fun _ => .spared action p.slot p.told.length)) _
  cases ran : perform (noted inner.record) action p with
  | error halt => exact .lost spoilt_exited
  | ok s =>
    obtain ⟨reply, q⟩ := s
    by_cases stutters : action.Stutters p.slot
    · have heard := hears_stutter stutters ran
      exact ih (k := .of (q.noting _) r) (heard.slot.trans same) _ r (erases.spare heard) rfl
    · have bad : Spoilt (q.noting fun _ => .spared action p.slot p.told.length).controller :=
        ⟨_, List.mem_append_right _ (List.mem_singleton_self _), stutters⟩
      change Agree Erases Spoilt _ (rest.record _) _
      cases later : rest.record (q.noting fun _ => .spared action p.slot p.told.length) with
      | error halt => exact .lost bad
      | ok s => exact .spoilt (rest.stays_record _ s.1 s.2 later bad)

/-- A draft, and the script without the marked calls, do the same. -/
theorem erases (draft : Draft) (slots : k.left = k.right) :
    Alike Erases Spoilt k draft.record draft.erased.record
      fun outcome outcome' k' => outcome' = outcome ∧ k'.left = k'.right := by
  induction draft generalizing k with
  | finish outcome => exact .ret ⟨rfl, slots⟩
  | sleep millis rest ih =>
    refine .step ((alike_sleep Erases.bond millis).mono ?_)
    rintro _ _ _ rfl
    exact ih slots
  | act action inner rest ihInner ih =>
    have alike_unmarked : ∀ {k : Pair} (n : Slot → Note), (∀ s, (n s).isSpared = false) →
        k.left = k.right → Alike Erases (fun _ => False) k (note n) (note n) fun _ _ k' => k' = k := by
      intro k n unmarked slots
      exact alike_note fun p r erases pair => erases.note unmarked (Pair.slot_eq pair slots)
    have effect : ∀ (call : Call) (k : Pair), k.left = k.right →
        Alike Erases Spoilt k (noted inner.record call) (noted inner.erased.record call)
          fun outcome outcome' k' => outcome' = outcome ∧ k'.left = k'.right := by
      intro call k slots
      refine .bind (fun _ => .bind (stays_note _) fun _ => .ret _) ((ihInner slots).mono ?_)
      rintro _ outcome k' ⟨rfl, slots'⟩
      refine .step ((alike_unmarked _ (fun _ => rfl) slots').mono ?_)
      rintro _ _ _ rfl
      exact .ret ⟨rfl, slots'⟩
    refine .bind (fun reply => .bind (stays_note _) fun _ => (rest reply).stays_record)
      ((alike_perform Erases.bond .eq effect slots).mono ?_)
    rintro a b k' ⟨slots', replies⟩
    obtain rfl : b = a := replies.eq slots'
    refine .step ((alike_unmarked _ (fun _ => rfl) slots').mono ?_)
    rintro _ _ _ rfl
    exact ih b slots'
  | spare action inner rest ihInner ih => exact erases_spare ih slots

end Draft

/-- **Stutters can be erased.** A process in any state goes through a script in which calls are
marked, at the top and inside of effects, and the script returns. If every marked call was a
question, a request that was refused, or the report of an exit that came too late, the script
without the marked calls returns the same. All other calls get the same replies, the controller is
called in the same way and gives the same, the slot is the same in the end and after each call, and
the sink receives the same but for the refusals of the marked requests. -/
theorem stutters_erased {draft : Draft} {p q : InitProcess Journal}
    {outcome : Except ControllerError Answer} (blank : p.controller = [])
    (ran : draft.record p = .ok (outcome, q)) (stutters : ∀ n ∈ q.controller, n.Stutters) :
    ∃ r, draft.erased.record p = .ok (outcome, r) ∧ q.Erases r ∧ r.slot = q.slot := by
  have ends := draft.erases (k := .of p p) rfl p p (.refl blank) rfl
  rw [ran] at ends
  generalize erased : draft.erased.record p = x at ends
  cases ends with
  | returned erases post =>
    obtain ⟨rfl, slots⟩ := post
    exact ⟨_, rfl, erases, slots.symm⟩
  | spoilt bad =>
    obtain ⟨n, written, bad⟩ := bad
    exact absurd (stutters n written) bad

/-- The exit of a frozen process is reported; while it is resumed, a start is refused, another exit
comes too late, and the process is asked for its state, all of which is marked; then it is killed,
and the resume fails. After that a second start is refused, which is not marked. -/
def noise : Draft :=
  .act (.exited 7)
    (.spare (.request .start) (.finish (.ok .done)) <|
      .spare (.exited 8) (.finish (.ok .done)) <|
      .spare (.query .status) (.finish (.ok .done)) <|
      .act (.query .exitStatus) (.finish (.ok .done)) fun _ =>
      .finish (.error (.failed "thaw"))) fun _ =>
    .act (.request .start) (.finish (.ok .done)) fun _ =>
    .finish (.ok .done)

theorem stutters_erased_noise :
    ∃ outcome q, noise.record (restore "web" [] .paused .memory) = .ok (outcome, q) ∧
      (∀ n ∈ q.controller, n.Stutters) ∧
    ∃ r, noise.erased.record (restore "web" [] .paused .memory) = .ok (outcome, r) ∧ q.Erases r ∧
      r.slot = q.slot ∧
      q.told.map Message.payload = [.exitRecorded 7 .paused, .operationRejected .start .paused,
        .compensatingResumeFailed "thaw", .stateChanged .setExited .paused .stopped,
        .operationRejected .start .stopped] ∧
      r.told.map Message.payload = [.exitRecorded 7 .paused, .compensatingResumeFailed "thaw",
        .stateChanged .setExited .paused .stopped, .operationRejected .start .stopped] := by
  have full : (noise.record (restore "web" [] .paused .memory)).toOption.map (fun x =>
      (decide (∀ n ∈ x.2.controller, n.Stutters), x.2.told.map Message.payload)) =
      some (true, [.exitRecorded 7 .paused, .operationRejected .start .paused,
        .compensatingResumeFailed "thaw", .stateChanged .setExited .paused .stopped,
        .operationRejected .start .stopped]) := by
    decide +kernel
  have brief : (noise.erased.record (restore "web" [] .paused .memory)).toOption.map (fun x =>
      x.2.told.map Message.payload) =
      some [.exitRecorded 7 .paused, .compensatingResumeFailed "thaw",
        .stateChanged .setExited .paused .stopped, .operationRejected .start .stopped] := by
    decide +kernel
  cases ran : noise.record (restore "web" [] .paused .memory) with
  | error halt => rw [ran] at full; cases full
  | ok x =>
    obtain ⟨outcome, q⟩ := x
    rw [ran] at full
    obtain ⟨stutters, told⟩ := Prod.mk.inj (Option.some.inj full)
    obtain ⟨r, erased, erases, slot⟩ := stutters_erased rfl ran (of_decide_eq_true stutters)
    rw [erased] at brief
    exact ⟨outcome, q, rfl, of_decide_eq_true stutters, r, erased, erases, slot, told,
      Option.some.inj brief⟩

end ContainerInit
