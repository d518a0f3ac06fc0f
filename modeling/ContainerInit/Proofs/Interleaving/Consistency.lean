import ContainerInit.Proofs.Interleaving.Schedule
import ContainerInit.Proofs.Interleaving.Sound

/-!
# The tables never disagree

The transition table, the dispatch table and the table of exits are consulted at different times,
and in between other calls may change the slot. Even so, no look at the slot asks for a step that
the transition table lacks, and nothing is performed that has no side effect (`tables_agree`).

- **Edges** (`edge?`): the step of the transition table that a look at the slot asks for.
-/

namespace ContainerInit.Interleaving

variable {c d : Interleaving}

/-! ## Edges -/

/-- The step of the transition table that the look at `slot` at a stage asks for, if it asks for
one: a commit that is not superseded, a report that stops the process at once, and the stop of a
process that was resumed after its exit. -/
def edge? (slot : Slot) : Stage → Option (State × State)
  | .committing _ _ source target =>
    if slot.state ≠ source ∧ slot.state.mayBecome target = false then none
    else some (slot.state, target)
  | .claiming _ =>
    if slot.exit.isSome = false ∧ slot.state.onExit = .stop then some (slot.state, .stopped)
    else none
  | .stopping _ => some (slot.state, .stopped)
  | _ => none

/-- A turn leads into no violation. -/
theorem Turn.ne_crashed {u : Caller} {n : Nat} {s stage : Stage} {slot : Slot}
    {holder : Option Caller} {marks : List Mark} (t : Turn c u n s stage slot holder marks)
    (v : Violation) : stage ≠ .crashed v := by
  cases t <;> exact fun h => nomatch h

theorem look_of_not_critical {n : Nat} {s : Stage} (h : s.isCritical = false) :
    c.look n s = (c.slot, s, []) := by
  cases s <;> first | rfl | cases h

namespace Sound

/-- No look at the slot ends in a violation, at whatever time it is taken. -/
theorem look_ne_crashed (hc : c.Sound) {f : Frame} (hf : c.Pending f) (v : Violation) :
    (c.look f.number f.stage).2.1 ≠ .crashed v := by
  have safe := hc.safe hf
  cases hs : f.stage.isCritical with
  | true => exact (turn_of_look (u := 0) hs safe).ne_crashed v
  | false =>
    rw [look_of_not_critical hs]
    intro h
    rw [show f.stage = .crashed v from h] at safe
    exact safe

/-- What a look at the slot asks for is in the transition table. -/
theorem mayBecome_of_edge? (hc : c.Sound) {f : Frame} (hf : c.Pending f) {s t : State}
    (h : edge? c.slot f.stage = some (s, t)) : s.mayBecome t = true := by
  have safe := hc.safe hf
  generalize f.stage = stage at h safe
  cases stage with
  | committing r a source target =>
    simp only [edge?] at h
    split at h
    · cases h
    · rename_i hn
      cases h
      by_cases hs : c.slot.state = source
      · rw [hs]; exact safe
      · simpa [hs] using hn
  | claiming code =>
    simp only [edge?] at h
    split at h
    · rename_i hx
      cases h
      exact State.mayBecome_stopped_of_onExit (by rw [hx.2]; decide)
    · cases h
  | stopping previous => cases h; exact safe
  | _ => cases h

end Sound

/-- **The tables never disagree.** Whoever calls a process, from outside or from inside the
controller or the sink, in whatever order, and however the controller answers: no call has ended in
a violation and no look at the slot is about to, so that no operation without a side effect is
performed; and every step that a look asks the transition table for is one of its edges. -/
theorem tables_agree {id : String} {state : State} {moments : Nat → Moment}
    (h : Reachable (initial id state moments) c) {f : Frame} (hf : c.Pending f) :
    (∀ v, f.stage ≠ .crashed v) ∧
    (∀ v, (c.look f.number f.stage).2.1 ≠ .crashed v) ∧
    ∀ s t, edge? c.slot f.stage = some (s, t) → s.mayBecome t = true := by
  have hc := h.sound (sound_initial id state moments)
  refine ⟨fun v hv => ?_, hc.look_ne_crashed hf, fun s t => hc.mayBecome_of_edge? hf⟩
  have hs := hc.suits hf
  rw [hv] at hs
  exact hs

/-- The exit of a frozen process whose resume fails, while the controller starts the process and
reports another exit from inside the resume. -/
def frozenExit : List (Caller × Choice) :=
  [(0, .act (.exited 7)), (0, .go), (0, .go), (0, .go), (0, .go),
    (0, .act (.request .start)), (1, .act (.request .delete)), (1, .go), (1, .go), (1, .go),
    (1, .go), (1, .go), (1, .go), (0, .go), (0, .go), (0, .go), (0, .go), (0, .go), (0, .go),
    (0, .act (.exited 8)), (0, .go), (0, .go), (0, .go),
    (0, .finish (.error (.failed "thaw"))), (0, .go)]

theorem tables_agree_frozenExit :
    ∃ c f, Reachable (initial "web" .paused fun _ => Moment.ofMillis 0) c ∧ c.Pending f ∧
      edge? c.slot f.stage = some (.paused, .stopped) ∧
      State.paused.mayBecome .stopped = true := by
  have run : ∃ c, (initial "web" .paused fun _ => Moment.ofMillis 0).follow? frozenExit = some c ∧
      c.frames 0 = [⟨0, .exited 7, .stopping .paused⟩] ∧ c.slot.state = .paused :=
    ⟨_, rfl, rfl, rfl⟩
  obtain ⟨c, hc, hf, hs⟩ := run
  have hp : c.Pending ⟨0, .exited 7, .stopping .paused⟩ := ⟨0, by rw [hf]; exact List.mem_cons_self⟩
  have he : edge? c.slot (.stopping .paused) = some (.paused, .stopped) := by rw [edge?, hs]
  exact ⟨c, _, reachable_of_follow? hc, hp, he,
    (tables_agree (reachable_of_follow? hc) hp).2.2 _ _ he⟩

end ContainerInit.Interleaving
