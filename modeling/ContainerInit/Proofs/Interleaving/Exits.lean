import ContainerInit.Proofs.Interleaving.History
import ContainerInit.Proofs.Interleaving.Schedule
import ContainerInit.Proofs.Interleaving.Writes

/-!
# The first exit wins

Any number of calls may report the exit of a process, with any codes, at any time, also from inside
a start, a deletion or the resume that an earlier report has brought about. One of them is accepted:
the first whose claim finds the process alive (`first_exit_wins`).

- **Reports** (`accepted`, `firstReport?`): the calls whose claims were accepted, and the first
  claim that found the process alive.
- **Trails** (`Stage.told?`, `Trail`): what the call that was accepted has told the sink, by the
  stage that it is at. It is the only call that does anything (`Trail.quiet`).
-/

namespace ContainerInit

/-- The process has not ended, as far as its state tells. -/
def State.isLive : State → Bool
  | .created | .running | .paused => true
  | .stopped | .deleted => false

/-- The state that a claim has found. -/
def Claim.state : Claim → State
  | .ignored state => state
  | .accepted previous _ _ => previous

namespace Mark

/-- The number of the call whose report was accepted. -/
def accepts? : Mark → Option Nat
  | .claimed n _ (.accepted ..) => some n
  | _ => none

/-- The number and the code of a report whose claim found the process alive. -/
def liveReport? : Mark → Option (Nat × Int32)
  | .claimed n code claim => if claim.state.isLive then some (n, code) else none
  | _ => none

/-- The step wrote nothing, called nothing and emitted nothing. -/
def Quiet (m : Mark) : Prop :=
  m.write? = none ∧ m.call? = none ∧ m.payload? = none

end Mark

namespace Payload

/-- An exit was recorded. -/
def isExitRecord : Payload → Bool
  | .exitRecorded .. => true
  | _ => false

/-- The process was stopped by the report of its exit. -/
def isExitStop : Payload → Bool
  | .stateChanged .setExited _ _ => true
  | _ => false

end Payload

theorem State.isLive_eq_false {s : State} : s.isLive = false ↔ s.onExit = .ignore := by
  cases s <;> decide

/-- Whether the sink has been told the exit that the call is about to carry out, if there is one. -/
def Stage.told? : Stage → Option Bool
  | .recording .. => some false
  | .resumeCalling _ | .resuming _ | .resumeFailing .. | .stopping _ | .stopped _ => some true
  | _ => none

namespace Interleaving

variable {c d : Interleaving} {u : Caller}

/-- The calls whose reports of an exit have been accepted, in the order in which they were. -/
def accepted (c : Interleaving) : List Nat :=
  c.history.filterMap Mark.accepts?

/-- The first report whose claim found the process alive: the number of the call, and the code. -/
def firstReport? (c : Interleaving) : Option (Nat × Int32) :=
  c.history.findSome? Mark.liveReport?

/-- How often an exit was recorded, by the events. -/
def exitRecords (c : Interleaving) : Nat :=
  c.payloads.countP Payload.isExitRecord

/-- How often the process was stopped by an exit, by the events. -/
def exitStops (c : Interleaving) : Nat :=
  c.payloads.countP Payload.isExitStop

/-! ## What a turn tells -/

/-- What the marks of a turn of call `n` are for the report of an exit, by what it has told before
and after. -/
inductive Tells (n : Nat) : Option Bool → Option Bool → List Mark → Prop
  | claim {code : Int32} {previous : State} {resume : Bool} {slot : Slot} :
    Tells n none (some false) [.claimed n code (.accepted previous resume slot)]
  | record {code : Int32} {previous : State} :
    Tells n (some false) (some true) [.emitted n .info (.exitRecorded code previous)]
  | stop {previous : State} :
    Tells n (some true) none [.emitted n .info (.stateChanged .setExited previous .stopped)]
  | other {told : Option Bool} {marks : List Mark}
    (h : ∀ m ∈ marks, m.accepts? = none ∧
      ∀ p, m.payload? = some p → p.isExitRecord = false ∧ p.isExitStop = false) :
    Tells n told told marks

/-- A single mark that stands for no event and no accepted report. -/
private theorem Tells.silent {n : Nat} {told : Option Bool} {m : Mark} (h : m.accepts? = none)
    (hp : m.payload? = none) : Tells n told told [m] := by
  refine .other fun m' hm => ?_
  rw [List.mem_singleton.mp hm]
  exact ⟨h, fun p h => by rw [hp] at h; cases h⟩

/-- A single event that does not tell of an exit. -/
private theorem Tells.event {n k : Nat} {told : Option Bool} {severity : Severity} {p : Payload}
    (hr : p.isExitRecord = false) (hs : p.isExitStop = false) :
    Tells n told told [.emitted k severity p] := by
  refine .other fun m hm => ?_
  rw [List.mem_singleton.mp hm]
  refine ⟨rfl, fun q h => ?_⟩
  cases h
  exact ⟨hr, hs⟩

theorem Turn.tells {n : Nat} {s stage : Stage} {slot : Slot} {holder : Option Caller}
    {marks : List Mark} {action : Action} (t : Turn c u n s stage slot holder marks)
    (h : s.Suits c.id action) : Tells n s.told? stage.told? marks := by
  cases t with
  | claim | claimFrozen => exact .claim
  | record | recordFrozen => exact .record
  | tellStop => exact .stop
  | enter | leave => exact .other fun m hm => nomatch hm
  | refuse | tellFailure | tellResumeFailure => exact .event rfl rfl
  | @announce r a payload =>
    rcases h.2 with ⟨s, t, rfl⟩ | ⟨s, t, rfl⟩
    · refine .event rfl ?_
      cases r <;> rfl
    · exact .event rfl rfl
  | _ => exact .silent rfl rfl

/-- A turn that does something belongs to a request, or to a report that was accepted. -/
theorem Turn.quiet {n : Nat} {s stage : Stage} {slot : Slot} {holder : Option Caller}
    {marks : List Mark} {action : Action} (t : Turn c u n s stage slot holder marks)
    (h : s.Suits c.id action) :
    (∀ m ∈ marks, m.Quiet) ∨ (∃ r, action = .request r) ∨ s.told?.isSome = true ∨
      ∃ m ∈ marks, m.accepts? = some n := by
  cases t with
  | refuse | call | announce => exact .inr (.inl ⟨_, h.1⟩)
  | tellFailure => exact .inr (.inl ⟨_, h⟩)
  | install => exact .inr (.inl ⟨_, h.1⟩)
  | record | recordFrozen | resume | tellResumeFailure | stop | tellStop =>
    exact .inr (.inr (.inl rfl))
  | claim | claimFrozen => exact .inr (.inr (.inr ⟨_, List.mem_cons_self, rfl⟩))
  | enter | leave => exact .inl fun m hm => nomatch hm
  | _ =>
    refine .inl fun m hm => ?_
    rw [List.mem_singleton.mp hm]
    exact ⟨rfl, rfl, rfl⟩

/-- What a turn does to the recorded exit: nothing, unless a live process had none. -/
theorem Turn.liveReport {n : Nat} {s stage : Stage} {slot : Slot} {holder : Option Caller}
    {marks : List Mark} (t : Turn c u n s stage slot holder marks) :
    slot.exit = c.slot.exit ∧ (∀ m ∈ marks, m.accepts? = none) ∧
        (c.slot.exit.isSome = true ∨ ∀ m ∈ marks, m.liveReport? = none) ∨
      c.slot.exit = none ∧ ∃ e m, slot.exit = some e ∧ marks = [m] ∧ m.accepts? = some n ∧
        m.liveReport? = some (n, e.code) := by
  cases t with
  | claim hx h =>
    have hl : c.slot.state.isLive = true := by
      cases hl : c.slot.state.isLive with
      | true => rfl
      | false => rw [State.isLive_eq_false.mp hl] at h; cases h
    exact .inr ⟨hx, _, _, rfl, rfl, rfl, if_pos hl⟩
  | claimFrozen hx => exact .inr ⟨hx, _, _, rfl, rfl, rfl, rfl⟩
  | @ignore code h =>
    refine .inl ⟨rfl, fun m hm => by rw [List.mem_singleton.mp hm]; rfl, h.imp_right ?_⟩
    intro h m hm
    rw [List.mem_singleton.mp hm]
    exact if_neg (by rw [Claim.state, State.isLive_eq_false.mpr h]; decide)
  | enter | leave => exact .inl ⟨rfl, fun m hm => (nomatch hm), .inr fun m hm => nomatch hm⟩
  | _ =>
    refine .inl ⟨rfl, fun m hm => ?_, .inr fun m hm => ?_⟩ <;>
      rw [List.mem_singleton.mp hm] <;> rfl

/-! ## The trail of the accepted report -/

section Append

variable {marks : List Mark}

private theorem accepted_append (h : d.history = c.history ++ marks) :
    d.accepted = c.accepted ++ marks.filterMap Mark.accepts? := by
  rw [accepted, h, List.filterMap_append]
  rfl

private theorem firstReport?_append (h : d.history = c.history ++ marks) :
    d.firstReport? = c.firstReport?.or (marks.findSome? Mark.liveReport?) := by
  rw [firstReport?, h, List.findSome?_append]
  rfl

private theorem exitRecords_append (h : d.history = c.history ++ marks) :
    d.exitRecords =
      c.exitRecords + (marks.filterMap Mark.payload?).countP Payload.isExitRecord := by
  rw [exitRecords, payloads, h, List.filterMap_append, List.countP_append]
  rfl

private theorem exitStops_append (h : d.history = c.history ++ marks) :
    d.exitStops =
      c.exitStops + (marks.filterMap Mark.payload?).countP Payload.isExitStop := by
  rw [exitStops, payloads, h, List.filterMap_append, List.countP_append]
  rfl

end Append

/-- What the call whose report was accepted leaves behind (module doc). -/
structure Trail (c : Interleaving) : Prop where
  accepted : c.accepted = (c.firstReport?.map Prod.fst).toList
  code : c.slot.exit.map ExitStatus.code = c.firstReport?.map Prod.snd
  told : ∀ {f b}, c.Pending f → f.stage.told? = some b →
    f.number ∈ c.accepted ∧ c.exitRecords = b.toNat ∧ c.exitStops = 0
  settled : (∀ f, c.Pending f → f.stage.told? = none) →
    c.exitRecords = c.accepted.length ∧ c.exitStops = c.accepted.length
  quiet : ∀ m ∈ c.history, m.Quiet ∨ m.number ∈ c.accepted ∨
    ∃ v r, .began v m.number (.request r) ∈ c.history

namespace Trail

theorem length_accepted (ht : c.Trail) : c.accepted.length ≤ 1 := by
  rw [ht.accepted]
  cases c.firstReport? with
  | none => exact Nat.zero_le 1
  | some r => exact Nat.le_refl 1

/-- One report is accepted. -/
theorem accepted_eq (ht : c.Trail) {n : Nat} (h : n ∈ c.accepted) : c.accepted = [n] := by
  rw [ht.accepted] at h ⊢
  cases hr : c.firstReport? with
  | none => rw [hr] at h; cases h
  | some r =>
    rw [hr] at h
    rw [List.mem_singleton.mp h]
    rfl

/-- As long as no exit is recorded, no report has been accepted. -/
theorem of_exit_none (ht : c.Trail) (h : c.slot.exit = none) :
    c.firstReport? = none ∧ c.accepted = [] := by
  have hr : c.firstReport? = none := by
    have hc := ht.code
    rw [h] at hc
    exact Option.map_eq_none_iff.mp hc.symm
  exact ⟨hr, by rw [ht.accepted, hr]; rfl⟩

/-- Only one call at a time is about to carry out an exit. -/
private theorem told_other (ht : c.Trail) {f g : Frame} {a b : Bool} (hf : c.Pending f)
    (ef : f.stage.told? = some a) (hg : c.Pending g) (eg : g.stage.told? = some b) :
    g.number = f.number := by
  have hm := (ht.told hg eg).1
  rw [ht.accepted_eq (ht.told hf ef).1] at hm
  exact List.mem_singleton.mp hm

/-- The recorded exit is that of the first report, whoever takes a turn. -/
private theorem code_of_turn (ht : c.Trail) {n : Nat} {s stage : Stage} {slot : Slot}
    {holder : Option Caller} {marks : List Mark} (t : Turn c u n s stage slot holder marks)
    (hs : d.slot = slot) (hh : d.history = c.history ++ marks) :
    d.accepted = (d.firstReport?.map Prod.fst).toList ∧
      d.slot.exit.map ExitStatus.code = d.firstReport?.map Prod.snd := by
  rw [accepted_append hh, firstReport?_append hh, hs]
  rcases t.liveReport with ⟨hx, ha, hl⟩ | ⟨hx, e, m, he, rfl, ha, hl⟩
  · have hm : marks.filterMap Mark.accepts? = [] := List.filterMap_eq_nil_iff.mpr ha
    have hr : c.firstReport?.or (marks.findSome? Mark.liveReport?) = c.firstReport? := by
      rcases hl with hl | hl
      · have hc := ht.code
        cases hr : c.firstReport? with
        | some r => rfl
        | none => rw [hr] at hc; rw [Option.map_eq_none_iff.mp hc] at hl; cases hl
      · rw [List.findSome?_eq_none_iff.mpr hl, Option.or_none]
    rw [hm, hr, List.append_nil, hx]
    exact ⟨ht.accepted, ht.code⟩
  · obtain ⟨hr, hn⟩ := ht.of_exit_none hx
    rw [hr, hn, he, Option.none_or, List.filterMap_cons_some ha, List.findSome?_singleton, hl]
    exact ⟨rfl, rfl⟩

/-- What the sink has been told is known from the stage of the accepted report. -/
private theorem told_of_turn (hc : c.Sound) (ht : c.Trail) {f : Frame} {stage : Stage} {slot : Slot}
    {holder : Option Caller} {marks : List Mark} (hf : c.Pending f)
    (t : Turn c u f.number f.stage stage slot holder marks) (hh : d.history = c.history ++ marks)
    (pending : ∀ g, d.Pending g ↔ g = { f with stage } ∨ c.Pending g ∧ g.number ≠ f.number) :
    (∀ {g b}, d.Pending g → g.stage.told? = some b →
      g.number ∈ d.accepted ∧ d.exitRecords = b.toNat ∧ d.exitStops = 0) ∧
    ((∀ g, d.Pending g → g.stage.told? = none) →
      d.exitRecords = d.accepted.length ∧ d.exitStops = d.accepted.length) := by
  have tells := t.tells (hc.suits hf)
  -- While `f` is about to carry out an exit, no other call is.
  have other : ∀ {a g b}, f.stage.told? = some a → c.Pending g → g.number ≠ f.number →
      g.stage.told? ≠ some b := fun ef hg hne eg => hne (ht.told_other hf ef hg eg)
  have new : d.Pending { f with stage } := (pending _).mpr (.inl rfl)
  rw [accepted_append hh, exitRecords_append hh, exitStops_append hh]
  generalize hs : f.stage.told? = a at tells
  generalize hs' : stage.told? = b at tells
  cases tells with
  | claim =>
    have hnil : c.accepted = [] := by
      rcases t.liveReport with ⟨-, ha, -⟩ | ⟨hx, -⟩
      · exact nomatch ha _ List.mem_cons_self
      · exact (ht.of_exit_none hx).2
    have none : ∀ g, c.Pending g → g.stage.told? = none := fun g hg =>
      Option.eq_none_iff_forall_ne_some.mpr fun b eg => by
        have hm := (ht.told hg eg).1
        rw [hnil] at hm
        cases hm
    obtain ⟨hr, hz⟩ := ht.settled none
    rw [hnil] at hr hz ⊢
    rw [hr, hz]
    refine ⟨fun {g b} hg eg => ?_, fun h => nomatch (h _ new).symm.trans hs'⟩
    rcases (pending g).mp hg with rfl | ⟨hg, -⟩
    · cases hs'.symm.trans eg
      exact ⟨List.mem_cons_self, rfl, rfl⟩
    · exact nomatch (none g hg).symm.trans eg
  | record =>
    obtain ⟨hm, hr, hz⟩ := ht.told hf hs
    rw [hr, hz]
    refine ⟨fun {g b} hg eg => ?_, fun h => nomatch (h _ new).symm.trans hs'⟩
    rcases (pending g).mp hg with rfl | ⟨hg, hne⟩
    · cases hs'.symm.trans eg
      exact ⟨List.mem_append_left _ hm, rfl, rfl⟩
    · exact absurd eg (other hs hg hne)
  | stop =>
    obtain ⟨hm, hr, hz⟩ := ht.told hf hs
    rw [hr, hz, ht.accepted_eq hm]
    refine ⟨fun {g b} hg eg => ?_, fun _ => ⟨rfl, rfl⟩⟩
    rcases (pending g).mp hg with rfl | ⟨hg, hne⟩
    · exact nomatch hs'.symm.trans eg
    · exact absurd eg (other hs hg hne)
  | other h =>
    have ha : marks.filterMap Mark.accepts? = [] :=
      List.filterMap_eq_nil_iff.mpr fun m hm => (h m hm).1
    have hr : (marks.filterMap Mark.payload?).countP Payload.isExitRecord = 0 := by
      refine List.countP_eq_zero.mpr fun p hp => ?_
      obtain ⟨m, hm, he⟩ := List.mem_filterMap.mp hp
      exact Bool.eq_false_iff.mp ((h m hm).2 p he).1
    have hz : (marks.filterMap Mark.payload?).countP Payload.isExitStop = 0 := by
      refine List.countP_eq_zero.mpr fun p hp => ?_
      obtain ⟨m, hm, he⟩ := List.mem_filterMap.mp hp
      exact Bool.eq_false_iff.mp ((h m hm).2 p he).2
    rw [ha, hr, hz, List.append_nil, Nat.add_zero, Nat.add_zero]
    refine ⟨fun {g b} hg eg => ?_, fun none => ht.settled fun g hg => ?_⟩
    · rcases (pending g).mp hg with rfl | ⟨hg, -⟩
      · exact ht.told (f := f) hf (hs.trans (hs'.symm.trans eg))
      · exact ht.told hg eg
    · by_cases hn : g.number = f.number
      · rw [hc.numbered.pending_eq hg hf hn, hs, ← hs']
        exact none _ new
      · exact none g ((pending g).mpr (.inr ⟨hg, hn⟩))

/-- What is done is done for a request, or by the accepted report. -/
private theorem quiet_of_turn (hc : c.Sound) (hr : c.Recorded) (ht : c.Trail) {f : Frame}
    {stage : Stage} {slot : Slot} {holder : Option Caller} {marks : List Mark} (hf : c.Pending f)
    (t : Turn c u f.number f.stage stage slot holder marks) (hh : d.history = c.history ++ marks) :
    ∀ m ∈ d.history, m.Quiet ∨ m.number ∈ d.accepted ∨
      ∃ v r, .began v m.number (.request r) ∈ d.history := by
  intro m hm
  rw [accepted_append hh]
  rw [hh] at hm ⊢
  rcases List.mem_append.mp hm with hm | hm
  · refine (ht.quiet m hm).imp_right (Or.imp (List.mem_append_left _) ?_)
    exact fun ⟨v, r, h⟩ => ⟨v, r, List.mem_append_left _ h⟩
  · rw [(t.mark_inner m hm).1]
    rcases t.quiet (hc.suits hf) with h | ⟨r, h⟩ | h | ⟨m', hm', ha⟩
    · exact .inl (h m hm)
    · obtain ⟨v, hv⟩ := hr.began hf
      exact .inr (.inr ⟨v, r, List.mem_append_left _ (h ▸ hv)⟩)
    · obtain ⟨b, hb⟩ := Option.isSome_iff_exists.mp h
      exact .inr (.inl (List.mem_append_left _ (ht.told hf hb).1))
    · exact .inr (.inl (List.mem_append_right _ (List.mem_filterMap.mpr ⟨m', hm', ha⟩)))

/-- A mark that is neither a claim nor an event leaves the trail alone. -/
private theorem of_mark (ht : c.Trail) {marks : List Mark} (hh : d.history = c.history ++ marks)
    (hm : ∀ m ∈ marks, m.isInner = false) (slot : d.slot = c.slot)
    (pending : ∀ {g b}, g.stage.told? = some b → (d.Pending g ↔ c.Pending g)) : d.Trail := by
  have ha : marks.filterMap Mark.accepts? = [] := List.filterMap_eq_nil_iff.mpr fun m h => by
    cases m <;> first | rfl | cases hm _ h
  have hl : marks.findSome? Mark.liveReport? = none := List.findSome?_eq_none_iff.mpr fun m h => by
    cases m <;> first | rfl | cases hm _ h
  have hp : marks.filterMap Mark.payload? = [] := List.filterMap_eq_nil_iff.mpr fun m h => by
    cases m <;> first | rfl | cases hm _ h
  have accepted : d.accepted = c.accepted := by rw [accepted_append hh, ha, List.append_nil]
  have report : d.firstReport? = c.firstReport? := by
    rw [firstReport?_append hh, hl, Option.or_none]
  have records : d.exitRecords = c.exitRecords := by rw [exitRecords_append hh, hp]; rfl
  have stops : d.exitStops = c.exitStops := by rw [exitStops_append hh, hp]; rfl
  refine ⟨?_, ?_, fun {g b} hg eg => ?_, fun none => ?_, fun m h => ?_⟩
  · rw [accepted, report]; exact ht.accepted
  · rw [slot, report]; exact ht.code
  · rw [accepted, records, stops]; exact ht.told ((pending eg).mp hg) eg
  · rw [accepted, records, stops]
    refine ht.settled fun g hg => Option.eq_none_iff_forall_ne_some.mpr fun b eg => ?_
    exact nomatch (none g ((pending eg).mpr hg)).symm.trans eg
  · rw [accepted]
    rw [hh] at h ⊢
    rcases List.mem_append.mp h with h | h
    · refine (ht.quiet m h).imp_right (Or.imp_right fun ⟨v, r, h⟩ => ⟨v, r, ?_⟩)
      exact List.mem_append_left _ h
    · refine .inl ?_
      cases m <;> first | exact ⟨rfl, rfl, rfl⟩ | cases hm _ h

theorem of_change (hc : c.Sound) (hr : c.Recorded) (ht : c.Trail) (m : c.Change d) : d.Trail := by
  cases m with
  | still upd pending =>
    exact ht.of_mark upd.history (fun m h => nomatch h) upd.slot fun _ => pending _
  | begin v action upd pending =>
    refine ht.of_mark upd.history (fun m h => ?_) upd.slot
      fun {g b} eg => ⟨fun hg => ?_, fun hg => ?_⟩
    · rw [List.mem_singleton.mp h]; rfl
    · rcases (pending g).mp hg with rfl | hg
      · cases action with
        | query q => cases q <;> cases eg
        | _ => cases eg
      · exact hg
    · exact (pending g).mpr (.inr hg)
  | turn hf t upd pending =>
    obtain ⟨accepted, code⟩ := ht.code_of_turn t upd.slot upd.history
    obtain ⟨told, settled⟩ := ht.told_of_turn hc hf t upd.history pending
    exact ⟨accepted, code, told, settled, ht.quiet_of_turn hc hr hf t upd.history⟩
  | @finish v f reply hf stage upd pending =>
    refine ht.of_mark upd.history (fun m h => ?_) upd.slot
      fun {g b} eg => ⟨fun hg => ?_, fun hg => ?_⟩
    · rw [List.mem_singleton.mp h]; rfl
    · exact ((pending g).mp hg).1
    · refine (pending g).mpr ⟨hg, fun hn => ?_⟩
      rw [hc.numbered.pending_eq hg hf hn, stage] at eg
      cases eg

end Trail

theorem trail_initial {id : String} {state : State} {moments : Nat → Moment}
    (h : Reachable (initial id state moments) c) : c.Trail := by
  refine (h.invariant (P := fun c => c.Recorded ∧ c.Trail) (sound_initial id state moments) ?_
    fun hc ⟨hr, ht⟩ m => ?_).2.2
  · exact ⟨recorded_initial .refl, rfl, rfl, fun ⟨_, h⟩ => (nomatch h), fun _ => ⟨rfl, rfl⟩,
      fun _ h => nomatch h⟩
  · have m := m.change hc.numbered
    exact ⟨hr.of_change hc m, ht.of_change hc hr m⟩

/-! ## The first exit -/

/-- **The first exit wins.** Whoever calls a process, in whatever order, at most one report of an
exit is accepted: the first whose claim found the process created, running or frozen. The recorded
exit has the code of this report, and never changes. Once every call has returned, one event tells
of the record and one of the stop, or neither if no report was accepted. The slot holds what was
written last, and every other report writes nothing, calls nothing and emits nothing. -/
theorem first_exit_wins {id : String} {state : State} {moments : Nat → Moment}
    (h : Reachable (initial id state moments) c) :
    c.accepted.length ≤ 1 ∧
    c.accepted = (c.firstReport?.map Prod.fst).toList ∧
    c.slot.exit.map ExitStatus.code = c.firstReport?.map Prod.snd ∧
    (∀ n code, c.firstReport? = some (n, code) → ∃ u, .began u n (.exited code) ∈ c.history) ∧
    (∀ d e, Reachable c d → c.slot.exit = some e → d.slot.exit = some e) ∧
    (c.Idle → c.exitRecords = c.accepted.length ∧ c.exitStops = c.accepted.length) ∧
    c.slot = c.writes.getLastD { state } ∧
    ∀ u n code, .began u n (.exited code) ∈ c.history → n ∉ c.accepted →
      ∀ m ∈ c.history, m.number = n → m.Quiet := by
  have hc := h.sound (sound_initial id state moments)
  have hr := recorded_initial h
  have ht := trail_initial h
  refine ⟨ht.length_accepted, ht.accepted, ht.code, fun n code hf => ?_, fun d e hd he => ?_,
    fun idle => ?_, (life_initial h).eq_getLastD, fun u n code hb hn m hm hmn => ?_⟩
  · obtain ⟨m, hm, he⟩ := List.exists_of_findSome?_eq_some hf
    cases m with
    | claimed k code' claim =>
      simp only [Mark.liveReport?, Option.ite_none_right_eq_some, Option.some.injEq] at he
      cases he.2
      exact hr.claimed hm
    | _ => cases he
  · obtain ⟨written, -, life⟩ := hd.life hc
    exact life.exit_eq he
  · exact ht.settled fun f ⟨v, hf⟩ => by rw [idle v] at hf; cases hf
  · subst hmn
    rcases ht.quiet m hm with hq | ha | ⟨v, r, hr'⟩
    · exact hq
    · exact absurd ha hn
    · cases hr.once hb hr'

/-- A start whose controller reports an exit, and another caller who reports one as well. -/
def racingExits : List (Caller × Choice) :=
  [(0, .act (.request .start)), (0, .go), (0, .go), (0, .go), (0, .go), (0, .act (.exited 3)),
    (1, .act (.exited 5)), (0, .go), (0, .go), (1, .go), (1, .go), (0, .go), (1, .go), (0, .go),
    (0, .go), (0, .finish (.ok .done)), (0, .go), (0, .go), (0, .go), (0, .go), (0, .go)]

theorem first_exit_wins_racingExits :
    ∃ c, Reachable (initial "web" .created fun _ => Moment.ofMillis 0) c ∧ c.accepted = [1] ∧
      c.slot.exit.map ExitStatus.code = some 3 ∧ c.exitRecords = 1 ∧ c.exitStops = 1 ∧
      ∀ m ∈ c.history, m.number = 2 → m.Quiet := by
  have run : ∃ c, (initial "web" .created fun _ => Moment.ofMillis 0).follow? racingExits = some c ∧
      c.firstReport? = some (1, 3) ∧ c.history[4]? = some (.began 1 2 (.exited 5)) ∧
      ∀ turn ∈ racingExits, c.frames turn.1 = [] := by
    refine ⟨_, rfl, rfl, rfl, ?_⟩
    decide
  obtain ⟨c, hc, hf, hb, hframes⟩ := run
  have reachable := reachable_of_follow? hc
  obtain ⟨-, ha, hx, -, -, settled, -, quiet⟩ := first_exit_wins reachable
  rw [hf] at ha hx
  obtain ⟨hr, hs⟩ := settled (idle_of_follow? hc (fun _ => rfl) hframes)
  rw [ha] at hr hs quiet
  exact ⟨c, reachable, ha, hx, hr, hs,
    quiet 1 2 5 (List.mem_of_getElem? hb) (by decide)⟩

end Interleaving

end ContainerInit
