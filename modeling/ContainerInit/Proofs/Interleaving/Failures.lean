import Mathlib.Data.List.Induction
import ContainerInit.Proofs.InitProcess.Journal
import ContainerInit.Proofs.Interleaving.Words

/-!
# Side effects that fail

The controller fails in the middle of an operation. By then others may have acted on the process,
from inside of the effect as well, and its exit may have been reported. The operation returns the
error as it is, tells of it once, and leaves the slot to the exits (`failed_effect_atomic`).

- **Words of failures** (`failure`, `Stage.Said.of_failed`): all that the operation leaves.
- **Who was dispatched last** (`Reachable.last_dispatched`): the operation that is under way. So
  nobody commits in the window but this operation (`Reachable.dispatcher_of_committed`).
- **Exits alone** (`Slot.exitStep`, `Slot.reported`): what the steps of reports make of a slot, and
  what whole reports make of it. The window does the same (`Reachable.held_window`,
  `Reachable.reports_of_window`).
-/

namespace ContainerInit

/-! ## Words of failures -/

/-- What an operation leaves whose side effect fails. -/
def failure (n : Nat) (r : Request) (s : State) (call : Call) (e : ControllerError) : List Mark :=
  [.dispatched n r s, .called n call, .answered n call (.error e),
    .emitted n .error (.controllerFailed r.operation e.message)]

section Failure

variable {id : String} {n : Nat} {action : Action} {reply : Reply} {marks : List Mark} {r : Request}
  {s : State} {call : Call} {e : ControllerError}

/-- An operation whose side effect failed has said nothing else, and returns the error. -/
theorem Word.of_failed (h : Word id n action reply marks) (dispatched : .dispatched n r s ∈ marks)
    (answered : .answered n call (.error e) ∈ marks) :
    reply = .failed (.controller e) ∧ (∃ next, s.dispatch r.operation = .ok (.delegate next)) ∧
      r.call? id = some call ∧ marks = failure n r s call e := by
  cases h with
  | failed hd hc =>
    obtain ⟨rfl, rfl⟩ : r = _ ∧ s = _ := by simpa using dispatched
    obtain ⟨rfl, rfl⟩ : call = _ ∧ e = _ := by simpa using answered
    exact ⟨rfl, ⟨_, hd⟩, hc, rfl⟩
  | thawed outcome => cases outcome <;> simp [resumeFailure] at dispatched
  | _ => first | simp at dispatched; done | simp at answered

/-- An operation whose side effect failed has said no more than that, as far as it has come. -/
theorem Stage.Said.of_failed {stage : Stage} (h : stage.Said id n action marks)
    (dispatched : .dispatched n r s ∈ marks) (answered : .answered n call (.error e) ∈ marks) :
    (∃ next, s.dispatch r.operation = .ok (.delegate next)) ∧ r.call? id = some call ∧
      marks <+: failure n r s call e := by
  cases stage with
  | failing =>
    obtain ⟨_, _, _, rfl, hd, hc⟩ := h
    obtain ⟨rfl, rfl⟩ : r = _ ∧ s = _ := by simpa using dispatched
    obtain ⟨rfl, rfl⟩ : call = _ ∧ e = _ := by simpa using answered
    exact ⟨⟨_, hd⟩, hc, List.prefix_append _ [_]⟩
  | leaving | returning =>
    obtain ⟨-, hd, hc, rfl⟩ := Word.of_failed h dispatched answered
    exact ⟨hd, hc, List.prefix_rfl⟩
  | stopped previous =>
    obtain ⟨-, -, -, eq⟩ := Word.of_failed h (List.mem_append_left _ dispatched)
      (List.mem_append_left _ answered)
    have last := congrArg List.getLast? eq
    simp [failure] at last
  | queued | dispatching | claiming | asking => cases h; cases dispatched
  | rejecting => obtain ⟨_, rfl, -⟩ := h; simp at answered
  | calling | performing => cases h; simp at answered
  | committing => obtain ⟨_, rfl, -⟩ := h; simp at answered
  | announcing => obtain ⟨_, _, _, _, rfl, -⟩ := h; simp at answered
  | recording => obtain ⟨-, _, rfl⟩ := h; simp at dispatched
  | resumeCalling | resuming | resumeFailing => obtain ⟨-, _, _, -, rfl⟩ := h; simp at dispatched
  | stopping =>
    obtain ⟨-, _, _, outcome, -, rfl⟩ := h
    cases outcome <;> simp [resumeFailure] at dispatched
  | crashed => cases h

/-- An operation that was accepted has called the controller by the time it returns. -/
theorem Word.called (h : Word id n action reply marks) (dispatched : .dispatched n r s ∈ marks)
    {next : Option State} (hd : s.dispatch r.operation = .ok (.delegate next)) :
    ∃ call, r.call? id = some call ∧ .called n call ∈ marks := by
  cases h with
  | refused refused =>
    obtain ⟨rfl, rfl⟩ : r = _ ∧ s = _ := by simpa using dispatched
    rw [hd] at refused
    cases refused
  | failed _ hc | performed _ hc | committed _ hc =>
    obtain ⟨rfl, rfl⟩ : r = _ ∧ s = _ := by simpa using dispatched
    exact ⟨_, hc, by simp⟩
  | thawed outcome => cases outcome <;> simp [resumeFailure] at dispatched
  | _ => simp at dispatched

end Failure

/-! ## Exits alone -/

namespace Slot

/-- The slot after the step of a mark, if that is a step of the report of an exit, taken on this
slot; other steps leave it as it is. -/
def exitStep (moments : Nat → Moment) (s : Slot) : Mark → Slot
  | .claimed n code _ =>
    match s.claim ⟨code, moments n⟩ with
    | .ok (.accepted _ _ slot) => slot
    | _ => s
  | .stopped .. => s.stop.toOption.getD s
  | _ => s

/-- The slot after a whole report that is made alone: the exit is claimed, and a process that was
frozen is stopped. -/
def reported (s : Slot) (exit : ExitStatus) : Slot :=
  match s.claim exit with
  | .ok (.accepted _ false slot) => slot
  | .ok (.accepted _ true slot) => slot.stop.toOption.getD slot
  | _ => s

theorem reported_of_ignore {s : Slot} {exit : ExitStatus}
    (h : s.exit.isSome = true ∨ s.state.onExit = .ignore) : s.reported exit = s := by
  unfold reported
  rw [claim_of_ignore h]

/-- The first report of an exit that the process cares about stops it. -/
theorem reported_of_ne_ignore {s : Slot} {exit : ExitStatus} (hx : s.exit = none)
    (h : s.state.onExit ≠ .ignore) : s.reported exit = ⟨.stopped, some exit⟩ := by
  unfold reported
  cases reaction : s.state.onExit with
  | ignore => exact absurd reaction h
  | stop => rw [claim_of_stop hx reaction]
  | resumeThenStop =>
    rw [claim_of_resumeThenStop hx reaction]
    have stops : Slot.stop { s with exit := some exit } = .ok ⟨.stopped, some exit⟩ :=
      stop_of_mayBecome (State.mayBecome_stopped_of_onExit h)
    simp only [stops]
    rfl

/-- Reports that are made alone leave nothing half done. -/
theorem Settled.reported {s : Slot} (h : s.Settled) (exit : ExitStatus) :
    (s.reported exit).Settled := by
  by_cases known : s.exit.isSome = true ∨ s.state.onExit = .ignore
  · rwa [reported_of_ignore known]
  · obtain ⟨unknown, cares⟩ := not_or.mp known
    rw [reported_of_ne_ignore (by simpa using unknown) cares]
    exact fun _ => rfl

/-- A report that is claimed is done with, or the process is still frozen. -/
theorem exitStep_claimed (moments : Nat → Moment) (s : Slot) (n : Nat) (code : Int32)
    (claim : Claim) :
    s.exitStep moments (.claimed n code claim) = s.reported ⟨code, moments n⟩ ∨
      s.exitStep moments (.claimed n code claim) = ⟨.paused, some ⟨code, moments n⟩⟩ ∧
        s.reported ⟨code, moments n⟩ = ⟨.stopped, some ⟨code, moments n⟩⟩ := by
  by_cases known : s.exit.isSome = true ∨ s.state.onExit = .ignore
  · left
    rw [reported_of_ignore known]
    simp only [exitStep, claim_of_ignore known]
  · obtain ⟨unknown, cares⟩ := not_or.mp known
    have unknown : s.exit = none := by simpa using unknown
    rw [reported_of_ne_ignore unknown cares]
    cases reaction : s.state.onExit with
    | ignore => exact absurd reaction cares
    | stop => simp only [exitStep, claim_of_stop unknown reaction, true_or]
    | resumeThenStop =>
      right
      simp only [exitStep, claim_of_resumeThenStop unknown reaction,
        State.eq_paused_of_onExit reaction, and_self]

end Slot

namespace Mark

/-- The call whose operation was dispatched. -/
def dispatcher? : Mark → Option Nat
  | .dispatched n _ _ => some n
  | _ => none

/-- The exit that was reported, whatever has become of the report. -/
def report? (moments : Nat → Moment) : Mark → Option ExitStatus
  | .claimed n code _ => some ⟨code, moments n⟩
  | _ => none

/-- A step of the report of an exit at the slot. -/
def isExitStep : Mark → Bool
  | .claimed .. | .stopped .. => true
  | _ => false

end Mark

/-- Where no exit lands, steps of reports make nothing of a slot. -/
theorem Slot.foldl_exitStep (moments : Nat → Moment) (s : Slot) {window : List Mark}
    (h : ∀ m ∈ window, m.isExitStep = false) : window.foldl (Slot.exitStep moments) s = s := by
  induction window with
  | nil => rfl
  | cons m rest ih =>
    have same : s.exitStep moments m = s := by
      have other := h m List.mem_cons_self
      cases m <;> first | rfl | cases other
    rw [List.foldl_cons, same]
    exact ih fun m hm => h m (List.mem_cons_of_mem _ hm)

/-- The operation was dispatched, and has not given back the operation lock. -/
def Stage.isDispatched : Stage → Bool
  | .dispatching _ => false
  | s => s.isExclusive

theorem Stage.isExclusive_of_isDispatched {s : Stage} (h : s.isDispatched = true) :
    s.isExclusive = true := by
  cases s <;> first | rfl | cases h

namespace Interleaving

variable {c : Interleaving} {id : String} {state : State} {moments : Nat → Moment}
  {pre window post : List Mark} {n : Nat} {r : Request} {s : State}

/-! ## Who was dispatched last -/

/-- A call comes to be dispatched by its own mark, and leaves no such mark otherwise. -/
private theorem Turn.dispatcher {u : Caller} {stage stage' : Stage} {slot : Slot}
    {holder : Option Caller} {marks : List Mark} (t : Turn c u n stage stage' slot holder marks) :
    marks.filterMap Mark.dispatcher? = [] ∧
        (stage'.isDispatched = true → stage.isDispatched = true) ∨
      marks.filterMap Mark.dispatcher? = [n] ∧ stage.isExclusive = true := by
  cases t with
  | reject | accept => exact .inr ⟨rfl, rfl⟩
  | _ => first | exact .inl ⟨rfl, fun _ => rfl⟩ | exact .inl ⟨rfl, nofun⟩

/-- The operation that is under way was dispatched last. -/
theorem Reachable.last_dispatched (h : Reachable (initial id state moments) c) :
    ∀ f, c.Pending f → f.stage.isDispatched = true →
      (c.history.filterMap Mark.dispatcher?).getLast? = some f.number := by
  refine (h.invariant (P := fun c => ∀ f, c.Pending f → f.stage.isDispatched = true →
      (c.history.filterMap Mark.dispatcher?).getLast? = some f.number)
    (sound_initial id state moments) (fun _ ⟨_, h⟩ => nomatch h) fun {c d u} hc ih m => ?_).2
  rcases (m.change hc.numbered).borders_or_turn hc with
    hb | ⟨v, f, stage, slot, holder, marks, hf, t, upd, pending⟩
  · intro g hg dispatched
    rw [hb.filterMap_history fun m hm => by cases m <;> first | rfl | cases hm]
    rcases hb.new hg with hg | fresh
    · exact ih g hg dispatched
    · rw [fresh] at dispatched
      cases hg : g.action with
      | request | exited => rw [hg] at dispatched; cases dispatched
      | query q => rw [hg] at dispatched; cases q <;> cases dispatched
  · intro g hg dispatched
    rw [upd.history, List.filterMap_append]
    rcases t.dispatcher with ⟨silent, before⟩ | ⟨own, exclusive⟩
    · rw [silent, List.append_nil]
      rcases (pending g).mp hg with rfl | ⟨hg, -⟩
      · exact ih f hf (before dispatched)
      · exact ih g hg dispatched
    · rw [own, List.getLast?_concat]
      rcases (pending g).mp hg with rfl | ⟨hg, other⟩
      · rfl
      · exact absurd (hc.alone hg hf (Stage.isExclusive_of_isDispatched dispatched) exclusive) other

/-- An operation commits before another one is dispatched. -/
theorem Reachable.dispatcher_of_committed (h : Reachable (initial id state moments) c)
    {commit : Commit} (hh : c.history = pre ++ .committed n r commit :: post) :
    (pre.filterMap Mark.dispatcher?).getLast? = some n := by
  obtain ⟨a, b, ha, -, hab, -, he, e⟩ := h.cut hh
  obtain ⟨u, f, stage, slot, holder, hf, hn, t⟩ := hab.turn_of_mark rfl e
  cases hn
  rw [← he]
  refine ha.last_dispatched f hf ?_
  generalize f.stage = s at t
  cases t <;> rfl

/-- The operation that was dispatched last, where no other one is dispatched in the window. -/
private theorem last_of_window (quiet : ∀ m ∈ window, m.dispatcher? = none) :
    ((pre ++ .dispatched n r s :: window).filterMap Mark.dispatcher?).getLast? = some n := by
  have own : (Mark.dispatched n r s :: window).filterMap Mark.dispatcher? = [n] := by
    rw [List.filterMap_cons, List.filterMap_eq_nil_iff.mpr quiet]
    rfl
  rw [List.filterMap_append, own, List.getLast?_concat]

/-! ## What the window does to the slot -/

/-- A turn that commits nothing does to the slot what the steps of reports do. -/
private theorem Turn.getD_write? {u : Caller} {stage stage' : Stage} {slot : Slot}
    {holder : Option Caller} {m : Mark} (t : Turn c u n stage stage' slot holder [m])
    (uncommitted : ∀ k r commit, m ≠ .committed k r commit) :
    m.write?.getD c.slot = c.slot.exitStep c.moments m := by
  cases t with
  | install => exact absurd rfl (uncommitted _ _ _)
  | ignore h => simp only [Slot.exitStep, Slot.claim_of_ignore h]; rfl
  | claim hx h => simp only [Slot.exitStep, Slot.claim_of_stop hx h]; rfl
  | claimFrozen hx h =>
    have reaction : c.slot.state.onExit = .resumeThenStop := by rw [h]; rfl
    simp only [Slot.exitStep, Slot.claim_of_resumeThenStop hx reaction, h]
    rfl
  | stop h => simp only [Slot.exitStep, Slot.stop_of_mayBecome h]; rfl
  | _ => rfl

/-- A step that commits nothing does to the slot what the steps of reports do. -/
theorem Reachable.held_exitStep (h : Reachable (initial id state moments) c) {m : Mark}
    (hh : c.history = pre ++ m :: post) (uncommitted : ∀ k r commit, m ≠ .committed k r commit) :
    held state (pre ++ [m]) = (held state pre).exitStep moments m := by
  obtain ⟨a, b, ha, -, hab, -, he, e⟩ := h.cut hh
  rw [held_concat, ← he, ← ha.slot_eq_held, ← ha.moments_eq]
  by_cases inner : m.isInner = true
  · obtain ⟨u, f, stage, slot, holder, -, -, t⟩ := hab.turn_of_mark inner e
    exact t.getD_write? uncommitted
  · cases m <;> first | rfl | exact absurd rfl inner

/-- **The window belongs to the exits.** After the dispatch of an operation that commits nothing, as
long as no other one is dispatched, the slot is what steps of reports make of it. -/
theorem Reachable.held_window (h : Reachable (initial id state moments) c)
    (hh : c.history = pre ++ .dispatched n r s :: window ++ post)
    (quiet : ∀ m ∈ window, m.dispatcher? = none)
    (uncommitted : ∀ r commit, .committed n r commit ∉ c.history) :
    held state (pre ++ .dispatched n r s :: window) =
      window.foldl (Slot.exitStep moments) (held state pre) := by
  induction window using List.reverseRecOn generalizing post with
  | nil => exact held_concat state pre _
  | append_singleton window m ih =>
    have split : c.history = (pre ++ .dispatched n r s :: window) ++ m :: post := by
      rw [hh]
      simp
    have before := fun m hm => quiet m (List.mem_append_left _ hm)
    have step := h.held_exitStep split (by
      rintro k r' commit rfl
      have last := h.dispatcher_of_committed split
      rw [last_of_window before] at last
      cases last
      exact uncommitted r' commit (split ▸ List.mem_append_cons_self))
    rw [List.foldl_append, ← ih split before, List.foldl_cons, List.foldl_nil, ← step]
    simp

/-- A process that is stopped after its resume was frozen, with its exit recorded. -/
theorem Reachable.frozen_of_stopped (h : Reachable (initial id state moments) c) {slot : Slot}
    (hh : c.history = pre ++ .stopped n slot :: post) :
    ∃ exit, held state pre = ⟨.paused, some exit⟩ := by
  obtain ⟨a, b, ha, sound, hab, -, he, e⟩ := h.cut hh
  obtain ⟨u, f, stage, after, holder, hf, -, t⟩ := hab.turn_of_mark rfl e
  rw [← he, ← ha.slot_eq_held]
  have window := sound.window hf
  generalize f.stage = s at t window
  cases t with
  | stop =>
    obtain ⟨frozen, recorded⟩ := window rfl
    obtain ⟨exit, recorded⟩ := Option.isSome_iff_exists.mp recorded
    exact ⟨exit, by rw [← frozen, ← recorded]⟩

/-- A frozen process with an exit is about to be stopped. -/
private theorem not_settled (exit : ExitStatus) : ¬ Slot.Settled ⟨.paused, some exit⟩ :=
  fun settled => nomatch settled rfl

/-- Reports alone, made on the slot that the window began with, lead to the slot that it ends with,
or to the one that this becomes when the process, still frozen, is stopped. -/
private theorem Reachable.reports_of_window (h : Reachable (initial id state moments) c)
    (hh : c.history = pre ++ .dispatched n r s :: window ++ post)
    (quiet : ∀ m ∈ window, m.dispatcher? = none)
    (uncommitted : ∀ r commit, .committed n r commit ∉ c.history)
    (settled : (held state pre).Settled) :
    let reported := (window.filterMap (Mark.report? moments)).foldl Slot.reported (held state pre)
    reported.Settled ∧
      (window.foldl (Slot.exitStep moments) (held state pre) = reported ∨
        ∃ exit, window.foldl (Slot.exitStep moments) (held state pre) = ⟨.paused, some exit⟩ ∧
          reported = ⟨.stopped, some exit⟩) := by
  induction window using List.reverseRecOn generalizing post with
  | nil => exact ⟨settled, .inl rfl⟩
  | append_singleton window m ih =>
    have split : c.history = pre ++ .dispatched n r s :: window ++ m :: post := by
      rw [hh]
      simp
    have before := fun m hm => quiet m (List.mem_append_left _ hm)
    have now := h.held_window split before uncommitted
    obtain ⟨done, so⟩ := ih split before
    simp only [List.filterMap_append, List.foldl_append, List.foldl_cons, List.foldl_nil]
    generalize (window.filterMap (Mark.report? moments)).foldl Slot.reported (held state pre) =
      reported at done so ⊢
    generalize window.foldl (Slot.exitStep moments) (held state pre) = slot at now so ⊢
    cases m with
    | claimed k code claim =>
      refine ⟨done.reported _, ?_⟩
      rcases so with rfl | ⟨exit, rfl, rfl⟩
      · exact (slot.exitStep_claimed moments k code claim).imp_right fun frozen => ⟨_, frozen⟩
      · exact .inr ⟨exit, rfl, rfl⟩
    | stopped k installed =>
      obtain ⟨exit, frozen⟩ := h.frozen_of_stopped split
      rw [now] at frozen
      rcases so with rfl | ⟨_, rfl, rfl⟩
      · exact absurd (frozen ▸ done) (not_settled exit)
      · exact ⟨done, .inl rfl⟩
    | _ => exact ⟨done, so⟩

/-- What an operation that failed leaves of the slot. It was dispatched in the state `s` of
`before`; the steps of `window` were done since, and the slot holds `after`. -/
structure LeftToExits (moments : Nat → Moment) (s : State) (before : Slot) (window : List Mark)
    (after : Slot) : Prop where
  state : before.state = s
  /-- The steps of reports, taken on the slot one after the other, lead from one to the other. -/
  steps : after = window.foldl (Slot.exitStep moments) before
  /-- So do whole reports, one after the other, unless one of them is half done at either end. -/
  reports : before.Settled → after.Settled →
    after = (window.filterMap (Mark.report? moments)).foldl Slot.reported before
  same : (∀ m ∈ window, m.isExitStep = false) → after = before

theorem Reachable.leftToExits (h : Reachable (initial id state moments) c)
    (hh : c.history = pre ++ .dispatched n r s :: window ++ post)
    (quiet : ∀ m ∈ window, m.dispatcher? = none)
    (uncommitted : ∀ r commit, .committed n r commit ∉ c.history) :
    LeftToExits moments s (held state pre) window
      (held state (pre ++ .dispatched n r s :: window)) := by
  have split : c.history = pre ++ .dispatched n r s :: (window ++ post) := by
    rw [hh]
    simp
  rw [h.held_window hh quiet uncommitted]
  refine ⟨h.state_of_dispatched split, rfl, fun before after => ?_, Slot.foldl_exitStep moments _⟩
  obtain ⟨-, same | ⟨exit, frozen, -⟩⟩ := h.reports_of_window hh quiet uncommitted before
  · exact same
  · exact absurd (frozen ▸ after) (not_settled exit)

/-! ## Operations whose side effect fails -/

section Failed

variable {call : Call} {e : ControllerError}

/-- An operation whose side effect has failed has left nothing else, as far as it has come. -/
theorem Traced.of_failed (h : c.Traced) (hr : c.Recorded)
    (dispatched : .dispatched n r s ∈ c.history)
    (answered : .answered n call (.error e) ∈ c.history) :
    (∃ next, s.dispatch r.operation = .ok (.delegate next)) ∧ r.call? c.id = some call ∧
      ∀ m ∈ c.history, m.number = n → m.isInner = true → m ∈ failure n r s call e := by
  rcases h.begun n (hr.below _ dispatched) with ⟨f, hf, rfl⟩ | ⟨u, reply, returned⟩
  · obtain ⟨v, marks, begun, said⟩ := h.pending hf
    have inside : ∀ m ∈ c.history, m.number = f.number → m.isInner = true → m ∈ marks := by
      intro m hm hn inner
      have mem := mem_trace.mpr ⟨hm, hn⟩
      rw [begun, List.mem_cons] at mem
      refine mem.resolve_left fun first => ?_
      rw [first] at inner
      cases inner
    obtain ⟨hd, hc, said⟩ :=
      said.of_failed (inside _ dispatched rfl rfl) (inside _ answered rfl rfl)
    exact ⟨hd, hc, fun m hm hn inner => said.subset (inside m hm hn inner)⟩
  · obtain ⟨v, action, marks, -, word, inside⟩ := h.word_of_returned returned
    obtain ⟨-, hd, hc, rfl⟩ :=
      word.of_failed (inside _ dispatched rfl rfl) (inside _ answered rfl rfl)
    exact ⟨hd, hc, inside⟩

/-- No other operation is dispatched until the failure is told. -/
private theorem Reachable.quiet_of_told (h : Reachable (initial id state moments) c) {text : String}
    {o : Operation}
    (hh : c.history = pre ++ .dispatched n r s :: window ++
      .emitted n .error (.controllerFailed o text) :: post)
    (own : window.filter (fun m => m.number = n) = [.called n call, .answered n call (.error e)]) :
    ∀ m ∈ window, m.dispatcher? = none := by
  obtain ⟨a, b, ha, sound, hab, -, he, eq⟩ := h.cut hh
  obtain ⟨u, f, stage, slot, holder, hf, hn, t⟩ := hab.turn_of_mark rfl eq
  have last : (a.history.filterMap Mark.dispatcher?).getLast? = some n := by
    rw [ha.last_dispatched f hf, hn]
    · rfl
    · have suits := sound.suits hf
      generalize f.stage = s at t suits
      cases t
      rfl
  have silent : window.filterMap Mark.dispatcher? = [] := by
    by_contra other
    obtain ⟨k, hk⟩ := Option.ne_none_iff_exists'.mp (mt List.getLast?_eq_none_iff.mp other)
    have first : (Mark.dispatched n r s :: window).filterMap Mark.dispatcher? =
        n :: window.filterMap Mark.dispatcher? := rfl
    rw [he, List.filterMap_append, first, List.getLast?_append, List.getLast?_cons, hk] at last
    obtain rfl : k = n := by simpa using last
    obtain ⟨m, hm, dispatcher⟩ := List.mem_filterMap.mp (List.mem_of_getLast? hk)
    cases m with
    | dispatched l r' s' =>
      cases dispatcher
      have mem : .dispatched k r' s' ∈ window.filter (fun m => m.number = k) :=
        List.mem_filter.mpr ⟨hm, decide_eq_true rfl⟩
      rw [own] at mem
      simp at mem
    | _ => cases dispatcher
  exact List.filterMap_eq_nil_iff.mp silent

/-- The trace of an operation that failed is a split of the history at its dispatch and where the
failure is told. -/
theorem Reachable.exists_told (h : Reachable (initial id state moments) c) {v : Caller}
    {action : Action} {rest : List Mark}
    (traced : c.trace n = .began v n action :: (failure n r s call e ++ rest)) :
    ∃ pre window post, c.history = pre ++ .dispatched n r s :: window ++
        .emitted n .error (.controllerFailed r.operation e.message) :: post ∧
      ∀ m ∈ window, m.dispatcher? = none := by
  have first : c.history.filter (fun m => m.number = n) =
      [.began v n action] ++ .dispatched n r s :: _ := traced
  obtain ⟨pre, later, hh, -, after⟩ := exists_cut_of_filter first
  have second : later.filter (fun m => m.number = n) =
      [.called n call, .answered n call (.error e)] ++
        .emitted n .error (.controllerFailed r.operation e.message) :: rest := after
  obtain ⟨window, post, rfl, own, -⟩ := exists_cut_of_filter second
  have split : c.history = pre ++ .dispatched n r s :: window ++
      .emitted n .error (.controllerFailed r.operation e.message) :: post := by
    rw [hh]
    simp
  exact ⟨pre, window, post, split, h.quiet_of_told split own⟩

end Failed

/-- **Side effects that fail are atomic**, whoever acts on the process while the controller is at
work, and whatever is done. An operation was dispatched in the state `s`, and its side effect has
failed with the error `e`:

- It had been accepted. It does not crash, and returns `e` as it is. It has told of this once, and
  of nothing else. No other operation is dispatched before that.
- After its dispatch, and for as long as no other operation is dispatched, the slot is what exits
  alone would have left (`LeftToExits`). If none has landed, it is what it was.
- If the same operation is dispatched next, and no exit has landed, then it is accepted again: it is
  dispatched in the same state, and the controller is called for it. -/
theorem failed_effect_atomic {id : String} {state : State} {moments : Nat → Moment}
    (h : Reachable (initial id state moments) c) {n : Nat} {r : Request} {s : State} {call : Call}
    {e : ControllerError} (dispatched : .dispatched n r s ∈ c.history)
    (answered : .answered n call (.error e) ∈ c.history) :
    ((∃ next, s.dispatch r.operation = .ok (.delegate next)) ∧ r.call? id = some call) ∧
    (∀ f v, c.Pending f → f.number = n → f.stage ≠ .crashed v) ∧
    (c.Idle → ∃ u, .returned u n (.failed (.controller e)) ∈ c.history) ∧
    (∀ u reply, .returned u n reply ∈ c.history → reply = .failed (.controller e) ∧
      c.events n = [(.error, .controllerFailed r.operation e.message)] ∧
      ∃ pre window post, c.history = pre ++ .dispatched n r s :: window ++
          .emitted n .error (.controllerFailed r.operation e.message) :: post ∧
        ∀ m ∈ window, m.dispatcher? = none) ∧
    ∀ pre window post, c.history = pre ++ .dispatched n r s :: window ++ post →
      (∀ m ∈ window, m.dispatcher? = none) →
      LeftToExits moments s (held state pre) window
        (held state (pre ++ .dispatched n r s :: window)) ∧
      ∀ k r' s' rest, post = .dispatched k r' s' :: rest → r'.operation = r.operation →
        (∀ m ∈ window, m.isExitStep = false) → s' = s ∧
        ∀ u reply, .returned u k reply ∈ c.history →
          ∃ call', r'.call? id = some call' ∧ .called k call' ∈ c.history := by
  have hc := h.sound (sound_initial id state moments)
  have hr := recorded_initial h
  have ht := traced_initial h
  obtain ⟨⟨next, hd⟩, accepted, inside⟩ := ht.of_failed hr dispatched answered
  rw [h.id_eq] at accepted
  have word : ∀ u reply, .returned u n reply ∈ c.history → reply = .failed (.controller e) ∧
      ∃ v action, c.trace n =
        .began v n action :: (failure n r s call e ++ [.returned u n reply]) := by
    intro u reply returned
    obtain ⟨v, action, marks, begun, word, own⟩ := ht.word_of_returned returned
    obtain ⟨rfl, -, -, rfl⟩ := word.of_failed (own _ dispatched rfl rfl) (own _ answered rfl rfl)
    exact ⟨rfl, v, action, begun⟩
  have uncommitted : ∀ r' commit, .committed n r' commit ∉ c.history := by
    intro r' commit mem
    have own := inside _ mem rfl rfl
    simp [failure] at own
  refine ⟨⟨⟨next, hd⟩, accepted⟩, fun f v hf _ => hc.ne_crashed hf v, fun idle => ?_,
    fun u reply returned => ?_, fun pre window post hh quiet => ?_⟩
  · obtain ⟨u, reply, returned⟩ := ht.exists_returned idle (hr.below _ dispatched)
    obtain ⟨rfl, -⟩ := word u reply returned
    exact ⟨u, returned⟩
  · obtain ⟨rfl, v, action, traced⟩ := word u reply returned
    refine ⟨rfl, ?_, h.exists_told traced⟩
    rw [events, traced]
    rfl
  · have left := h.leftToExits hh quiet uncommitted
    refine ⟨left, ?_⟩
    rintro k r' s' rest rfl same silent
    obtain rfl : s' = s := by
      rw [← h.state_of_dispatched hh, left.same silent, left.state]
    refine ⟨rfl, fun u reply returned => ?_⟩
    obtain ⟨v, action, marks, traced, word, own⟩ := ht.word_of_returned returned
    have again : .dispatched k r' s' ∈ c.history := hh ▸ List.mem_append_cons_self
    obtain ⟨call', hc', called⟩ := word.called (own _ again rfl rfl) (same ▸ hd)
    refine ⟨call', h.id_eq ▸ hc', (mem_trace.mp (?_ : _ ∈ c.trace k)).1⟩
    rw [traced]
    exact List.mem_cons_of_mem _ (List.mem_append_left _ called)

/-- A start fails and is tried again. This time the process ends while the controller is at work,
which the controller reports before it fails as well; another caller looks at the process. -/
def twiceFailedStart : List (Caller × Choice) :=
  [(0, .act (.request .start)), (0, .go), (0, .go), (0, .go), (0, .go),
    (0, .finish (.error (.spawnFailed "no such file"))), (0, .go), (0, .go), (0, .go),
    (0, .act (.request .start)), (0, .go), (0, .go), (0, .go), (0, .go),
    (0, .act (.exited 3)), (0, .go), (0, .go), (0, .go), (0, .go), (0, .go),
    (1, .act (.query .snapshot)), (1, .go), (1, .go), (1, .go),
    (0, .finish (.error (.notFound "web"))), (0, .go), (0, .go), (0, .go)]

theorem failed_effect_atomic_twiceFailedStart :
    ∃ c pre window rest, Reachable (initial "web" .created fun _ => Moment.ofMillis 0) c ∧
      c.history = pre ++ .dispatched 0 .start .created :: window ++
        .dispatched 1 .start .created :: rest ∧
      .returned 0 0 (.failed (.controller (.spawnFailed "no such file"))) ∈ c.history ∧
      c.events 0 = [(.error, .controllerFailed .start "failed to spawn process: no such file")] ∧
      held .created (pre ++ .dispatched 0 .start .created :: window) = held .created pre ∧
      .called 1 (.start "web") ∈ c.history ∧
      c.events 1 = [(.error, .controllerFailed .start "process web not found")] ∧
      c.slot = ⟨.stopped, some ⟨3, Moment.ofMillis 0⟩⟩ := by
  have run : ∃ c window rest, (initial "web" .created fun _ => Moment.ofMillis 0).follow?
        twiceFailedStart = some c ∧
      c.history = [.began 0 0 (.request .start)] ++ .dispatched 0 .start .created :: window ++
        .dispatched 1 .start .created :: rest ∧
      window = [.called 0 (.start "web"), .answered 0 (.start "web")
          (.error (.spawnFailed "no such file")),
        .emitted 0 .error (.controllerFailed .start "failed to spawn process: no such file"),
        .returned 0 0 (.failed (.controller (.spawnFailed "no such file"))),
        .began 0 1 (.request .start)] ∧
      (∀ m ∈ rest, m.dispatcher? = none) ∧
      rest.foldl (Slot.exitStep fun _ => Moment.ofMillis 0) { state := .created } =
        ⟨.stopped, some ⟨3, Moment.ofMillis 0⟩⟩ ∧
      c.history[17]? = some (.answered 1 (.start "web") (.error (.notFound "web"))) ∧
      c.history[19]? = some (.returned 0 1 (.failed (.controller (.notFound "web")))) := by
    refine ⟨_, _, _, rfl, rfl, rfl, ?_, rfl, rfl, rfl⟩
    simp [Mark.dispatcher?]
  obtain ⟨c, window, rest, hc, hh, hw, quiet, ends, answered, returned⟩ := run
  have reachable := reachable_of_follow? hc
  have silent : ∀ m ∈ window, m.dispatcher? = none ∧ m.isExitStep = false := by
    rw [hw]
    simp [Mark.dispatcher?, Mark.isExitStep]
  have refused : .answered 0 (.start "web") (.error (.spawnFailed "no such file")) ∈ c.history := by
    rw [hh, hw]
    simp
  have failed :
      .returned 0 0 (.failed (.controller (.spawnFailed "no such file"))) ∈ c.history := by
    rw [hh, hw]
    simp
  obtain ⟨-, -, -, told, atomic⟩ := failed_effect_atomic (r := .start) (s := .created) reachable
    (by rw [hh]; simp) refused
  obtain ⟨-, -, -, told', atomic'⟩ := failed_effect_atomic (r := .start) (s := .created) reachable
    (by rw [hh]; simp) (List.mem_of_getElem? answered)
  obtain ⟨left, again⟩ := atomic _ window _ hh fun m hm => (silent m hm).1
  have same := left.same fun m hm => (silent m hm).2
  obtain ⟨-, accepted⟩ := again 1 .start .created rest rfl rfl fun m hm => (silent m hm).2
  obtain ⟨call, hcall, called⟩ := accepted 0 _ (List.mem_of_getElem? returned)
  cases hcall
  have steps := (atomic' _ rest [] (hh.trans (List.append_nil _).symm) quiet).1.steps
  rw [same, ← hh, ← reachable.slot_eq_held] at steps
  exact ⟨c, _, window, rest, reachable, hh, failed, (told 0 _ failed).2.1, same, called,
    (told' 0 _ (List.mem_of_getElem? returned)).2.1, steps.trans ends⟩

end Interleaving

end ContainerInit
