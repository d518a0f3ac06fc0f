import ContainerInit.Proofs.Interleaving.Schedule
import ContainerInit.Proofs.Interleaving.Sound

/-!
# The two locks and progress

Neither lock can be the end of a run: as long as a call has not returned, some caller can go on
(`never_stuck`).

- **Who holds the locks** (`Locked`): the slot lock is held for one look, which is the next step of
  the innermost call of its holder; the operation lock by a caller one of whose calls is between
  taking and giving it back.
- **Nesting** (`Locked.outer`): a call is inside of another one only while the controller or the
  sink is at work for that one.
- **Courtesy** (`mayBegin`, `Courteous`): what the controller and the sink begin on the process does
  not wait for the caller that it is inside of. An operation is begun from outside, or from inside
  the resume of a frozen process whose caller does not have the operation lock.
-/

namespace ContainerInit

namespace Stage

/-- The call waits for the operation lock. -/
def isQueued : Stage → Bool
  | .queued _ => true
  | _ => false

/-- The controller is resuming a frozen process. -/
def isResuming : Stage → Bool
  | .resuming _ => true
  | _ => false

theorem isOpen_of_isCritical {s : Stage} (h : s.isCritical = true) : s.isOpen = false := by
  cases s <;> first | rfl | cases h

theorem isQueued_of_isCritical {s : Stage} (h : s.isCritical = true) : s.isQueued = false := by
  cases s <;> first | rfl | cases h

theorem isQueued_of_isOpen {s : Stage} (h : s.isOpen = true) : s.isQueued = false := by
  cases s <;> first | rfl | cases h

theorem isQueued_of_isExclusive {s : Stage} (h : s.isExclusive = true) : s.isQueued = false := by
  cases s <;> first | rfl | cases h

/-- A call that has to do with the operation lock is an operation. -/
theorem request_of_suits {id : String} {action : Action} {s : Stage} (h : s.Suits id action)
    (hs : s.isQueued = true ∨ s.isExclusive = true) : ∃ r, action = .request r := by
  cases s with
  | queued r | dispatching r | failing r | leaving r => exact ⟨r, h⟩
  | rejecting r | calling r | performing r | committing r | announcing r => exact ⟨r, h.1⟩
  | _ => rcases hs with hs | hs <;> cases hs

end Stage

namespace Interleaving

variable {c d : Interleaving} {u : Caller}

/-! ## Steps and the locks -/

/-- What a step does to the slot lock: nothing, or it takes the lock for the look of the innermost
call, or it takes that look and gives the lock back. -/
theorem slotHolder_of_step {choice : Choice} (h : c.step? u choice = some d) :
    ((∀ f outer, c.frames u = f :: outer → f.stage.isCritical = false) ∧
      d.slotHolder = c.slotHolder) ∨
    ∃ f outer, c.frames u = f :: outer ∧ f.stage.isCritical = true ∧ choice = .go ∧
      (c.slotHolder = none ∧ d.slotHolder = some u ∧ d.frames = c.frames ∨
        c.slotHolder = some u ∧ d.slotHolder = none) := by
  cases choice with
  | act action =>
    unfold step? begin? at h
    simp only [Option.ite_none_right_eq_some, Option.some.injEq] at h
    obtain ⟨free, rfl⟩ := h
    refine .inl ⟨fun f outer top => Bool.eq_false_iff.mpr fun critical => ?_, rfl⟩
    rw [top] at free
    exact nomatch free.symm.trans (Stage.isOpen_of_isCritical critical)
  | finish outcome =>
    simp only [step?] at h
    split at h
    · rename_i f outer top
      split at h
      · rename_i stage marks concluded
        cases h
        refine .inl ⟨fun g rest top' => ?_, rfl⟩
        rw [top] at top'
        cases top'
        cases hs : f.stage <;> first | rfl | (rw [hs] at concluded; cases concluded)
      · cases h
    · cases h
  | go =>
    simp only [step?] at h
    split at h
    · rename_i f outer top
      unfold go? at h
      by_cases critical : f.stage.isCritical = true
      · rw [if_pos critical] at h
        refine .inr ⟨f, outer, top, critical, rfl, ?_⟩
        split at h
        · rename_i free
          cases h
          exact .inl ⟨free, rfl, rfl⟩
        · rename_i holder held
          split at h
          · rename_i same
            cases h
            exact .inr ⟨same ▸ held, rfl⟩
          · cases h
      · rw [if_neg critical] at h
        refine .inl ⟨fun g rest top' => ?_, ?_⟩
        · rw [top] at top'
          cases top'
          exact Bool.eq_false_iff.mpr critical
        · split at h
          · split at h <;> cases h
            rfl
          · cases h; rfl
          · cases h; rfl
          · split at h <;> cases h
            rfl
    · cases h

namespace Turn

variable {n : Nat} {s stage : Stage} {slot : Slot} {holder : Option Caller} {marks : List Mark}

/-- A call gives the operation lock back when it leaves the stages that hold it. -/
theorem released (t : Turn c u n s stage slot holder marks) (h : s.isExclusive = true) :
    stage.isExclusive = true ∧ holder = c.holder ∨ holder = none := by
  cases t with
  | leave => exact .inr rfl
  | _ => first | exact .inl ⟨rfl, rfl⟩ | cases h

/-- A call without the operation lock takes it or leaves it where it is. -/
theorem taken (t : Turn c u n s stage slot holder marks) (h : s.isExclusive = false) :
    holder = c.holder ∨ holder = some u ∧ stage.isExclusive = true := by
  cases t with
  | enter => exact .inr ⟨rfl, rfl⟩
  | _ => first | exact .inl rfl | cases h

/-- No call queues up a second time. -/
theorem not_queued (t : Turn c u n s stage slot holder marks) : stage.isQueued = false := by
  cases t <;> rfl

end Turn

/-! ## Who holds the locks -/

/-- What holds of the two locks and of the nesting of calls (module doc). -/
structure Locked (c : Interleaving) : Prop where
  slot : ∀ {u}, c.slotHolder = some u →
    ∃ f outer, c.frames u = f :: outer ∧ f.stage.isCritical = true
  operation : ∀ {u}, c.holder = some u → ∃ f ∈ c.frames u, f.stage.isExclusive = true
  outer : ∀ {u f outer}, c.frames u = f :: outer → ∀ g ∈ outer, g.stage.isOpen = true

theorem locked_initial (id : String) (state : State) (moments : Nat → Moment) :
    (initial id state moments).Locked where
  slot h := nomatch h
  operation h := nomatch h
  outer h := nomatch h

namespace Locked

private theorem slot_of_step (hl : c.Locked) {choice : Choice} (h : c.step? u choice = some d)
    {v : Caller} (hv : d.slotHolder = some v) :
    ∃ f outer, d.frames v = f :: outer ∧ f.stage.isCritical = true := by
  rcases slotHolder_of_step h with ⟨free, same⟩ | ⟨f, outer, top, critical, -, hs⟩
  · rw [same] at hv
    obtain ⟨f, outer, top, critical⟩ := hl.slot hv
    have other : v ≠ u := fun hvu => by
      rw [hvu] at top
      rw [free f outer top] at critical
      cases critical
    exact ⟨f, outer, by rw [frames_of_step? h other, top], critical⟩
  · rcases hs with ⟨-, taken, frames⟩ | ⟨-, released⟩
    · rw [taken] at hv
      cases hv
      exact ⟨f, outer, by rw [frames, top], critical⟩
    · rw [released] at hv
      cases hv

private theorem operation_of_move (hl : c.Locked) (m : Move c u d) {v : Caller}
    (hv : d.holder = some v) : ∃ f ∈ d.frames v, f.stage.isExclusive = true := by
  -- The calls of the other callers stay as they are, so only those of `u` are of interest.
  cases m with
  | lock => exact hl.operation hv
  | begin action =>
    obtain ⟨f, hf, exclusive⟩ := hl.operation hv
    refine ⟨f, ?_, exclusive⟩
    rw [mark, frames_setFrames]
    split
    · rename_i same
      exact List.mem_cons_of_mem _ (same ▸ hf)
    · exact hf
  | @turn f outer stage _ holder _ _ top t =>
    have inner : stage.isExclusive = true →
        ∃ g ∈ { f with stage } :: outer, g.stage.isExclusive = true :=
      fun h => ⟨_, List.mem_cons_self, h⟩
    have kept : holder = c.holder → v ≠ u ∨
        ∃ g ∈ f :: outer, g.stage.isExclusive = true := by
      intro same
      obtain ⟨g, hg, exclusive⟩ := hl.operation (same.symm.trans hv)
      by_cases hvu : v = u
      · subst hvu
        rw [top] at hg
        exact .inr ⟨g, hg, exclusive⟩
      · exact .inl hvu
    rw [mark, frames_setFrames]
    by_cases hvu : v = u
    · rw [if_pos hvu]
      cases exclusive : f.stage.isExclusive with
      | true =>
        rcases t.released exclusive with ⟨h, -⟩ | h
        · exact inner h
        · cases h.symm.trans hv
      | false =>
        rcases t.taken exclusive with same | ⟨-, h⟩
        · obtain ⟨g, hg, he⟩ := (kept same).resolve_left (not_not_intro hvu)
          rcases List.mem_cons.mp hg with rfl | hg
          · rw [exclusive] at he
            cases he
          · exact ⟨g, List.mem_cons_of_mem _ hg, he⟩
        · exact inner h
    · rw [if_neg hvu]
      refine hl.operation ?_
      cases exclusive : f.stage.isExclusive with
      | true =>
        rcases t.released exclusive with ⟨-, same⟩ | h
        · exact same.symm.trans hv
        · cases h.symm.trans hv
      | false =>
        rcases t.taken exclusive with same | ⟨h, -⟩
        · exact same.symm.trans hv
        · exact absurd (Option.some.inj (hv.symm.trans h)) hvu
  | @finish f outer _ top stage =>
    obtain ⟨g, hg, exclusive⟩ := hl.operation hv
    refine ⟨g, ?_, exclusive⟩
    rw [mark, frames_setFrames]
    split
    · rename_i same
      rw [same, top] at hg
      rcases List.mem_cons.mp hg with rfl | hg
      · rw [stage] at exclusive
        cases exclusive
      · exact hg
    · exact hg

private theorem outer_of_move (hl : c.Locked) (m : Move c u d) {v : Caller} {f : Frame}
    {outer : List Frame} (top : d.frames v = f :: outer) : ∀ g ∈ outer, g.stage.isOpen = true := by
  cases m with
  | lock => exact hl.outer top
  | begin action free =>
    rw [mark, frames_setFrames] at top
    split at top
    · cases top
      intro g hg
      cases hf : c.frames u with
      | nil => rw [hf] at hg; cases hg
      | cons f outer =>
        rw [hf] at hg
        rcases List.mem_cons.mp hg with rfl | hg
        · exact free _ _ hf
        · exact hl.outer hf g hg
    · exact hl.outer top
  | turn top' =>
    rw [mark, frames_setFrames] at top
    split at top
    · cases top
      exact hl.outer top'
    · exact hl.outer top
  | finish top' =>
    rw [mark, frames_setFrames] at top
    split at top
    · subst top
      exact fun g hg => hl.outer top' g (List.mem_cons_of_mem _ hg)
    · exact hl.outer top

theorem of_step (hc : c.Sound) (hl : c.Locked) {choice : Choice} (h : c.step? u choice = some d) :
    d.Locked where
  slot := hl.slot_of_step h
  operation := hl.operation_of_move (hc.move h)
  outer := hl.outer_of_move (hc.move h)

end Locked

theorem Reachable.locked {start : Interleaving} (sound : start.Sound) (locked : start.Locked)
    (h : Reachable start c) : c.Locked := by
  induction h with
  | refl => exact locked
  | step u choice reachable taken ih => exact ih.of_step (reachable.sound sound) taken

/-! ## Courtesy -/

/-- Whether a caller that is in the calls `frames` may begin an action without waiting for itself:
an operation from outside, or from inside the resume of a frozen process if none of its calls has
the operation lock; reports of exits and questions at any time. -/
def mayBegin (frames : List Frame) : Action → Bool
  | .request _ =>
    match frames with
    | [] => true
    | f :: _ => f.stage.isResuming && frames.all fun g => !g.stage.isExclusive
  | _ => true

/-- Whether a choice is courteous. -/
def isCourteous (frames : List Frame) : Choice → Bool
  | .act action => mayBegin frames action
  | _ => true

/-- What some schedule leads to in which the controller and the sink are courteous. -/
inductive Courteous (start : Interleaving) : Interleaving → Prop where
  | refl : Courteous start start
  | step {c d : Interleaving} (caller : Caller) (choice : Choice) (courteous : Courteous start c)
      (polite : isCourteous (c.frames caller) choice = true)
      (taken : c.step? caller choice = some d) : Courteous start d

theorem Courteous.reachable {start : Interleaving} (h : Courteous start c) : Reachable start c := by
  induction h with
  | refl => exact .refl
  | step u choice _ _ taken ih => exact .step u choice ih taken

/-- A caller that waits for the operation lock does not have it. -/
def Patient (c : Interleaving) : Prop :=
  ∀ u f outer, c.frames u = f :: outer → f.stage.isQueued = true →
    ∀ g ∈ outer, g.stage.isExclusive = false

/-- What is begun is queued only if it is an operation. -/
private theorem not_exclusive_of_mayBegin {id : String} {frames : List Frame} {action : Action}
    (polite : mayBegin frames action = true)
    (queued : (Stage.ofAction id action).isQueued = true) :
    ∀ g ∈ frames, g.stage.isExclusive = false := by
  cases action with
  | request r =>
    intro g hg
    cases frames with
    | nil => cases hg
    | cons f outer =>
      have free := List.all_eq_true.mp (Bool.and_eq_true_iff.mp polite).2 g hg
      exact Bool.not_eq_eq_eq_not.mp free
  | exited code => cases queued
  | query q => cases q <;> cases queued

/-- Only an action begins a call. -/
private theorem begun_of_step {choice : Choice} (h : c.step? u choice = some d)
    (silent : ∀ action, choice ≠ .act action) : d.begun = c.begun := by
  cases choice with
  | act action => exact absurd rfl (silent action)
  | go =>
    simp only [step?, go?] at h
    repeat' split at h
    all_goals cases h
    all_goals rfl
  | finish outcome =>
    simp only [step?] at h
    repeat' split at h
    all_goals cases h
    all_goals rfl

theorem Patient.of_step (hc : c.Sound) (hl : c.Locked) (hp : c.Patient) {choice : Choice}
    (polite : isCourteous (c.frames u) choice = true) (h : c.step? u choice = some d) :
    d.Patient := by
  intro v f outer top queued
  by_cases begins : ∃ action, choice = .act action
  · obtain ⟨action, rfl⟩ := begins
    unfold step? begin? at h
    simp only [Option.ite_none_right_eq_some, Option.some.injEq] at h
    obtain ⟨-, rfl⟩ := h
    rw [mark, frames_setFrames] at top
    split at top
    · cases top
      exact not_exclusive_of_mayBegin polite queued
    · exact hp _ _ _ top queued
  · have begun := begun_of_step h fun action e => begins ⟨action, e⟩
    cases hc.move h with
    | lock => exact hp _ _ _ top queued
    | begin action => exact absurd begun (Nat.succ_ne_self _)
    | turn top' t =>
      rw [mark, frames_setFrames] at top
      split at top
      · cases top
        rw [t.not_queued] at queued
        cases queued
      · exact hp _ _ _ top queued
    | finish top' =>
      rw [mark, frames_setFrames] at top
      split at top
      · subst top
        rw [Stage.isQueued_of_isOpen (hl.outer top' f List.mem_cons_self)] at queued
        cases queued
      · exact hp _ _ _ top queued

theorem Courteous.patient {start : Interleaving} (sound : start.Sound) (locked : start.Locked)
    (patient : start.Patient) (h : Courteous start c) : c.Patient := by
  induction h with
  | refl => exact patient
  | step u choice courteous polite taken ih =>
    have reachable := courteous.reachable
    exact ih.of_step (reachable.sound sound) (reachable.locked sound locked) polite taken

/-! ## Progress -/

/-- The caller can go on: with a step of its own, or because its controller returns, whatever it
returns. -/
def CanGoOn (c : Interleaving) (u : Caller) : Prop :=
  c.frames u ≠ [] ∧
    ((∃ d, c.step? u .go = some d) ∨ ∀ outcome, ∃ d, c.step? u (.finish outcome) = some d)

/-- A caller can go on unless it waits for a lock. -/
private theorem canGoOn_of_free (hc : c.Sound) {f : Frame} {outer : List Frame}
    (top : c.frames u = f :: outer)
    (slot : f.stage.isCritical = true → c.slotHolder = none ∨ c.slotHolder = some u)
    (operation : f.stage.isQueued = true → c.holder = none) : c.CanGoOn u := by
  refine ⟨by rw [top]; exact List.cons_ne_nil _ _, ?_⟩
  by_cases critical : f.stage.isCritical = true
  · refine .inl ?_
    simp only [step?, top, go?, if_pos critical]
    rcases slot critical with h | h
    · rw [h]
      exact ⟨_, rfl⟩
    · rw [h]
      exact ⟨_, if_pos rfl⟩
  · have suits := hc.suits (.head top)
    simp only [step?, top, go?, if_neg critical]
    cases hs : f.stage with
    | queued r =>
      rw [hs] at operation
      rw [operation rfl]
      exact .inl ⟨_, rfl⟩
    | performing | resuming => exact .inr fun outcome => ⟨_, rfl⟩
    | crashed => rw [hs] at suits; exact suits.elim
    | dispatching | committing | claiming | stopping | asking =>
      rw [hs] at critical
      exact absurd rfl critical
    | _ => exact .inl ⟨_, rfl⟩

/-- As long as a call has not returned, some caller can go on. -/
theorem exists_canGoOn (hc : c.Sound) (hl : c.Locked) (hp : c.Patient) (busy : ¬ c.Idle) :
    ∃ u, c.CanGoOn u := by
  -- The holder of the slot lock can take its look.
  cases hs : c.slotHolder with
  | some v =>
    obtain ⟨f, outer, top, critical⟩ := hl.slot hs
    refine ⟨v, canGoOn_of_free hc top (fun _ => .inr hs) fun queued => ?_⟩
    rw [Stage.isQueued_of_isCritical critical] at queued
    cases queued
  | none =>
    -- So can every other caller, if it does not wait for the operation lock.
    cases hh : c.holder with
    | none =>
      obtain ⟨u, hu⟩ := Classical.not_forall.mp busy
      obtain ⟨f, outer, top⟩ := List.exists_cons_of_ne_nil hu
      exact ⟨u, canGoOn_of_free hc top (fun _ => .inl hs) fun _ => hh⟩
    | some v =>
      -- The holder of the operation lock does not wait for it.
      obtain ⟨g, hg, exclusive⟩ := hl.operation hh
      obtain ⟨f, outer, top⟩ := List.exists_cons_of_ne_nil (List.ne_nil_of_mem hg)
      refine ⟨v, canGoOn_of_free hc top (fun _ => .inl hs) fun queued => ?_⟩
      rw [top] at hg
      rcases List.mem_cons.mp hg with rfl | hg
      · rw [Stage.isQueued_of_isExclusive exclusive] at queued
        cases queued
      · rw [hp _ _ _ top queued g hg] at exclusive
        cases exclusive

/-- **No caller waits for ever.**

- Whoever calls a process, in whatever order: a caller that holds the slot lock holds it for its
  innermost call, which is about to look at the slot. Neither the controller nor the sink is at work
  for that call, it asks for no other lock, and all that it can do is to take its look and give the
  lock back. The calls that it is inside of have nothing to do with the slot.
- Reports of exits and questions never wait for the operation lock, and never have it.
- Where the controller and the sink are courteous, some caller can go on as long as a call has not
  returned, if the controller and the sink return. -/
theorem never_stuck {id : String} {state : State} {moments : Nat → Moment} :
    (∀ c, Reachable (initial id state moments) c →
      (∀ u, c.slotHolder = some u → ∃ f outer, c.frames u = f :: outer ∧
        f.stage.isCritical = true ∧ f.stage.isOpen = false ∧ f.stage.isQueued = false ∧
        (∀ g ∈ outer, g.stage.isCritical = false) ∧
        ∀ choice d, c.step? u choice = some d → choice = .go ∧ d.slotHolder = none) ∧
      ∀ f, c.Pending f → (∀ r, f.action ≠ .request r) →
        f.stage.isQueued = false ∧ f.stage.isExclusive = false) ∧
    ∀ c, Courteous (initial id state moments) c → ¬ c.Idle → ∃ u, c.CanGoOn u := by
  have sound := sound_initial id state moments
  have locked := locked_initial id state moments
  refine ⟨fun c reachable => ⟨fun u holds => ?_, fun f hf other => ?_⟩, fun c courteous busy => ?_⟩
  · have held := reachable.locked sound locked
    obtain ⟨f, outer, top, critical⟩ := held.slot holds
    refine ⟨f, outer, top, critical, Stage.isOpen_of_isCritical critical,
      Stage.isQueued_of_isCritical critical, fun g hg => ?_, fun choice d taken => ?_⟩
    · refine Bool.eq_false_iff.mpr fun inside => ?_
      exact nomatch (held.outer top g hg).symm.trans (Stage.isOpen_of_isCritical inside)
    rcases slotHolder_of_step taken with ⟨free, -⟩ | ⟨-, -, -, -, go, ⟨free, -⟩ | ⟨-, released⟩⟩
    · rw [free f outer top] at critical
      cases critical
    · exact nomatch free.symm.trans holds
    · exact ⟨go, released⟩
  · have suits := (reachable.sound sound).suits hf
    have idle : ¬ (f.stage.isQueued = true ∨ f.stage.isExclusive = true) := fun h => by
      obtain ⟨r, hr⟩ := Stage.request_of_suits suits h
      exact other r hr
    exact ⟨Bool.eq_false_iff.mpr fun h => idle (.inl h),
      Bool.eq_false_iff.mpr fun h => idle (.inr h)⟩
  · have reachable := courteous.reachable
    have patient := courteous.patient sound locked fun _ _ _ top => nomatch top
    exact exists_canGoOn (reachable.sound sound) (reachable.locked sound locked) patient busy

/-- Whether all that a schedule begins is begun with courtesy. -/
def allCourteous (c : Interleaving) : List (Caller × Choice) → Bool
  | [] => true
  | (u, choice) :: rest =>
    isCourteous (c.frames u) choice &&
      match c.step? u choice with
      | none => true
      | some d => d.allCourteous rest

theorem courteous_of_follow? {start : Interleaving} {schedule : List (Caller × Choice)}
    (h : Courteous start c) (polite : c.allCourteous schedule = true)
    (followed : c.follow? schedule = some d) : Courteous start d := by
  induction schedule generalizing c with
  | nil => cases followed; exact h
  | cons turn rest ih =>
    obtain ⟨first, later⟩ := Bool.and_eq_true_iff.mp polite
    unfold follow? at followed
    split at followed
    · cases followed
    · rename_i b hb
      simp only [hb] at later
      exact ih (.step turn.1 turn.2 h first hb) later followed

/-- A frozen process has ended. From inside its resume the process is killed, and the controller
reports the exit once more from inside the kill; another kill is queued. -/
def killInsideResume : List (Caller × Choice) :=
  [(0, .act (.exited 7)), (0, .go), (0, .go), (0, .go), (0, .go),
    (0, .act (.request (.kill .kill true))), (0, .go), (0, .go), (0, .go), (0, .go),
    (1, .act (.request (.kill .terminate false))), (0, .act (.exited 8)), (0, .go)]

theorem never_stuck_killInsideResume :
    ∃ c, Courteous (initial "web" .paused fun _ => Moment.ofMillis 0) c ∧ c.holder = some 0 ∧
      c.slotHolder = some 0 ∧ ¬ c.Idle ∧ ∃ u, c.CanGoOn u := by
  have run : ∃ c, (initial "web" .paused fun _ => Moment.ofMillis 0).follow? killInsideResume =
      some c ∧ c.holder = some 0 ∧ c.slotHolder = some 0 ∧ (c.frames 0).length = 3 :=
    ⟨_, rfl, rfl, rfl, rfl⟩
  obtain ⟨c, hc, operation, slot, frames⟩ := run
  have courteous := courteous_of_follow? .refl (by decide) hc
  have busy : ¬ c.Idle := fun idle => by
    rw [idle 0] at frames
    cases frames
  exact ⟨c, courteous, operation, slot, busy, never_stuck.2 c courteous busy⟩

/-- An operation that is begun from inside another operation waits for its own caller. -/
example : ∃ c, (initial "web" .created fun _ => Moment.ofMillis 0).follow?
      [(0, .act (.request .start)), (0, .go), (0, .go), (0, .go), (0, .go),
        (0, .act (.request (.kill .kill true)))] = some c ∧
    (c.step? 0 .go).isNone = true ∧ c.holder = some 0 :=
  ⟨_, rfl, rfl, rfl⟩

end Interleaving

end ContainerInit
