import ContainerInit.Interleaving.Basic

/-!
# What a step can do

The steps of callers at work at once (`Interleaving.step?`), taken apart once for all that is
proved about them.

- **Pending calls** (`Pending`): calls that have not returned, whoever is in them. Their numbers are
  their own (`Numbered`), so a step that moves a call on changes this call and no other
  (`Numbered.pending_swap`, `Numbered.pending_drop`).
- **Turns** (`Turn`): what a call can do next at each of its stages: the next stage, the slot, the
  operation lock, and the marks. No turn leads into a violation.
- **Moves** (`Move`): what a caller can do: take the slot lock, begin a call, take a turn, or return
  from a call. Every step is a move (`move_of_step`), where the looks at the slot are `Safe`.
- **Changes** (`Change`): what a move changes (`Move.change`), with the callers and their nesting
  left out: the form in which invariants are proved.
-/

namespace ContainerInit

namespace Interleaving

variable {c d : Interleaving} {u : Caller}

/-! ## Pending calls -/

/-- A call that has not returned. -/
def Pending (c : Interleaving) (f : Frame) : Prop := ∃ u, f ∈ c.frames u

/-- Pending calls have numbers of their own, below that of the next call. -/
structure Numbered (c : Interleaving) : Prop where
  lt : ∀ {u : Caller} {f : Frame}, f ∈ c.frames u → f.number < c.begun
  nodup : ∀ u, (c.frames u).Pairwise fun f g => f.number ≠ g.number
  apart : ∀ {u v : Caller} {f g : Frame}, u ≠ v → f ∈ c.frames u → g ∈ c.frames v →
    f.number ≠ g.number

theorem frames_setFrames (frames : List Frame) (v : Caller) :
    (c.setFrames u frames).frames v = if v = u then frames else c.frames v := rfl

theorem mark_nil : c.mark [] = c := by
  unfold mark; rw [List.append_nil]

theorem Pending.head {f : Frame} {outer : List Frame} (top : c.frames u = f :: outer) :
    c.Pending f := ⟨u, by rw [top]; exact List.mem_cons_self⟩

namespace Numbered

theorem pending_lt (hn : c.Numbered) {g : Frame} (hg : c.Pending g) : g.number < c.begun := by
  obtain ⟨v, hv⟩ := hg
  exact hn.lt hv

/-- Pending calls are told apart by their numbers. -/
theorem pending_eq (hn : c.Numbered) {f g : Frame} (hf : c.Pending f) (hg : c.Pending g)
    (h : f.number = g.number) : f = g := by
  obtain ⟨u, hu⟩ := hf
  obtain ⟨v, hv⟩ := hg
  by_cases huv : u = v
  · subst huv
    obtain ⟨i, hi, rfl⟩ := List.getElem_of_mem hu
    obtain ⟨j, hj, rfl⟩ := List.getElem_of_mem hv
    have distinct := List.pairwise_iff_getElem.mp (hn.nodup u)
    rcases Nat.lt_trichotomy i j with hij | rfl | hij
    · exact absurd h (distinct i j hi hj hij)
    · rfl
    · exact absurd h.symm (distinct j i hj hi hij)
  · exact absurd h (hn.apart huv hu hv)

/-- The calls outside of the innermost one, and those of other callers. -/
private theorem pending_other (hn : c.Numbered) {f g : Frame} {outer : List Frame}
    (top : c.frames u = f :: outer) :
    (c.Pending g ∧ g.number ≠ f.number) ↔ g ∈ outer ∨ ∃ v, v ≠ u ∧ g ∈ c.frames v := by
  have hf : f ∈ c.frames u := by rw [top]; exact List.mem_cons_self
  constructor
  · rintro ⟨⟨v, hv⟩, hne⟩
    by_cases hvu : v = u
    · subst hvu
      rw [top, List.mem_cons] at hv
      rcases hv with rfl | hv
      · exact absurd rfl hne
      · exact .inl hv
    · exact .inr ⟨v, hvu, hv⟩
  · rintro (hg | ⟨v, hvu, hv⟩)
    · have hp := hn.nodup u
      rw [top, List.pairwise_cons] at hp
      exact ⟨⟨u, by rw [top]; exact List.mem_cons_of_mem _ hg⟩, (hp.1 g hg).symm⟩
    · exact ⟨⟨v, hv⟩, hn.apart hvu hv hf⟩

/-- Moving the innermost call of a caller on changes this call and no other. -/
theorem pending_swap (hn : c.Numbered) {f f' g : Frame} {outer : List Frame}
    (top : c.frames u = f :: outer) (hd : d.frames = (c.setFrames u (f' :: outer)).frames) :
    d.Pending g ↔ g = f' ∨ c.Pending g ∧ g.number ≠ f.number := by
  rw [pending_other hn top]
  unfold Pending
  simp only [hd, frames_setFrames]
  constructor
  · rintro ⟨v, hv⟩
    by_cases hvu : v = u
    · rw [if_pos hvu, List.mem_cons] at hv
      rcases hv with rfl | hv
      · exact .inl rfl
      · exact .inr (.inl hv)
    · rw [if_neg hvu] at hv
      exact .inr (.inr ⟨v, hvu, hv⟩)
  · rintro (rfl | hg | ⟨v, hvu, hv⟩)
    · exact ⟨u, by rw [if_pos rfl]; exact List.mem_cons_self⟩
    · exact ⟨u, by rw [if_pos rfl]; exact List.mem_cons_of_mem _ hg⟩
    · exact ⟨v, by rw [if_neg hvu]; exact hv⟩

/-- Returning from the innermost call of a caller ends this call and no other. -/
theorem pending_drop (hn : c.Numbered) {f g : Frame} {outer : List Frame}
    (top : c.frames u = f :: outer) (hd : d.frames = (c.setFrames u outer).frames) :
    d.Pending g ↔ c.Pending g ∧ g.number ≠ f.number := by
  rw [pending_other hn top]
  unfold Pending
  simp only [hd, frames_setFrames]
  constructor
  · rintro ⟨v, hv⟩
    by_cases hvu : v = u
    · rw [if_pos hvu] at hv
      exact .inl hv
    · rw [if_neg hvu] at hv
      exact .inr ⟨v, hvu, hv⟩
  · rintro (hg | ⟨v, hvu, hv⟩)
    · exact ⟨u, by rw [if_pos rfl]; exact hg⟩
    · exact ⟨v, by rw [if_neg hvu]; exact hv⟩

end Numbered

/-- Beginning a call adds it to the pending ones. -/
theorem pending_begin {f g : Frame} (hd : d.frames = (c.setFrames u (f :: c.frames u)).frames) :
    d.Pending g ↔ g = f ∨ c.Pending g := by
  unfold Pending
  simp only [hd, frames_setFrames]
  constructor
  · rintro ⟨v, hv⟩
    by_cases hvu : v = u
    · subst hvu
      rw [if_pos rfl, List.mem_cons] at hv
      exact hv.imp_right fun h => ⟨v, h⟩
    · rw [if_neg hvu] at hv
      exact .inr ⟨v, hv⟩
  · rintro (rfl | ⟨v, hv⟩)
    · exact ⟨u, by rw [if_pos rfl]; exact List.mem_cons_self⟩
    · by_cases hvu : v = u
      · subst hvu
        exact ⟨v, by rw [if_pos rfl]; exact List.mem_cons_of_mem _ hv⟩
      · exact ⟨v, by rw [if_neg hvu]; exact hv⟩

/-! ## Turns -/

/-- What a call of number `n` of the caller `u` can do at a stage: the next stage, and the slot, the
holder of the operation lock and the marks after it. -/
inductive Turn (c : Interleaving) (u : Caller) (n : Nat) :
    Stage → Stage → Slot → Option Caller → List Mark → Prop
  | enter {r : Request} (free : c.holder = none) :
    Turn c u n (.queued r) (.dispatching r) c.slot (some u) []
  | reject {r : Request} {rejection : Rejection}
    (h : c.slot.state.dispatch r.operation = .error rejection) :
    Turn c u n (.dispatching r) (.rejecting r rejection) c.slot c.holder
      [.dispatched n r c.slot.state]
  | accept {r : Request} {call : Call} {next : Option State}
    (h : c.slot.state.dispatch r.operation = .ok (.delegate next)) (hc : r.call? c.id = some call) :
    Turn c u n (.dispatching r) (.calling r call c.slot.state next) c.slot c.holder
      [.dispatched n r c.slot.state]
  | refuse {r : Request} {rejection : Rejection} :
    Turn c u n (.rejecting r rejection) (.leaving r (.error (.rejected rejection))) c.slot c.holder
      [.emitted n .info (.operationRejected r.operation rejection.state)]
  | call {r : Request} {call : Call} {source : State} {next : Option State} :
    Turn c u n (.calling r call source next) (.performing r call source next) c.slot c.holder
      [.called n call]
  | fail {r : Request} {call : Call} {source : State} {next : Option State} {e : ControllerError} :
    Turn c u n (.performing r call source next) (.failing r e) c.slot c.holder
      [.answered n call (.error e)]
  | succeed {r : Request} {call : Call} {source : State} {a : Answer} :
    Turn c u n (.performing r call source none) (.leaving r (.ok a)) c.slot c.holder
      [.answered n call (.ok a)]
  | succeedTo {r : Request} {call : Call} {source target : State} {a : Answer} :
    Turn c u n (.performing r call source (some target)) (.committing r a source target) c.slot
      c.holder [.answered n call (.ok a)]
  | tellFailure {r : Request} {e : ControllerError} :
    Turn c u n (.failing r e) (.leaving r (.error (.controller e))) c.slot c.holder
      [.emitted n .error (.controllerFailed r.operation e.message)]
  | install {r : Request} {a : Answer} {source target : State}
    (h : c.slot.state.mayBecome target = true) :
    Turn c u n (.committing r a source target)
      (.announcing r a (.stateChanged r.operation c.slot.state target))
      { c.slot with state := target } c.holder
      [.committed n r (.installed c.slot.state { c.slot with state := target })]
  | supersede {r : Request} {a : Answer} {source target : State} (hs : c.slot.state ≠ source)
    (h : c.slot.state.mayBecome target = false) :
    Turn c u n (.committing r a source target)
      (.announcing r a (.transitionSuperseded r.operation target c.slot.state)) c.slot c.holder
      [.committed n r (.superseded c.slot.state)]
  | announce {r : Request} {a : Answer} {payload : Payload} :
    Turn c u n (.announcing r a payload) (.leaving r (.ok a)) c.slot c.holder
      [.emitted n .info payload]
  | leave {r : Request} {result : Except LifecycleError Answer} :
    Turn c u n (.leaving r result) (.returning (.ofResult result)) c.slot none []
  | ignore {code : Int32} (h : c.slot.exit.isSome = true ∨ c.slot.state.onExit = .ignore) :
    Turn c u n (.claiming code) (.returning (.answer .done)) c.slot c.holder
      [.claimed n code (.ignored c.slot.state)]
  | claim {code : Int32} (hx : c.slot.exit = none) (h : c.slot.state.onExit = .stop) :
    Turn c u n (.claiming code) (.recording code c.slot.state false)
      ⟨.stopped, some ⟨code, c.moments n⟩⟩ c.holder
      [.claimed n code (.accepted c.slot.state false ⟨.stopped, some ⟨code, c.moments n⟩⟩)]
  | claimFrozen {code : Int32} (hx : c.slot.exit = none) (h : c.slot.state = .paused) :
    Turn c u n (.claiming code) (.recording code .paused true)
      ⟨.paused, some ⟨code, c.moments n⟩⟩ c.holder
      [.claimed n code (.accepted .paused true ⟨.paused, some ⟨code, c.moments n⟩⟩)]
  | record {code : Int32} {previous : State} :
    Turn c u n (.recording code previous false) (.stopped previous) c.slot c.holder
      [.emitted n .info (.exitRecorded code previous)]
  | recordFrozen {code : Int32} {previous : State} :
    Turn c u n (.recording code previous true) (.resumeCalling previous) c.slot c.holder
      [.emitted n .info (.exitRecorded code previous)]
  | resume {previous : State} :
    Turn c u n (.resumeCalling previous) (.resuming previous) c.slot c.holder
      [.called n (.resume c.id)]
  | resumed {previous : State} {a : Answer} :
    Turn c u n (.resuming previous) (.stopping previous) c.slot c.holder
      [.answered n (.resume c.id) (.ok a)]
  | resumeFail {previous : State} {e : ControllerError} :
    Turn c u n (.resuming previous) (.resumeFailing previous e) c.slot c.holder
      [.answered n (.resume c.id) (.error e)]
  | tellResumeFailure {previous : State} {e : ControllerError} :
    Turn c u n (.resumeFailing previous e) (.stopping previous) c.slot c.holder
      [.emitted n .error (.compensatingResumeFailed e.message)]
  | stop {previous : State} (h : c.slot.state.mayBecome .stopped = true) :
    Turn c u n (.stopping previous) (.stopped previous) { c.slot with state := .stopped } c.holder
      [.stopped n { c.slot with state := .stopped }]
  | tellStop {previous : State} :
    Turn c u n (.stopped previous) (.returning (.answer .done)) c.slot c.holder
      [.emitted n .info (.stateChanged .setExited previous .stopped)]
  | answer {q : Query} :
    Turn c u n (.asking q) (.returning (q.reply c.snapshot)) c.slot c.holder [.asked n q c.slot]

/-- What a look at the slot needs so that it does not end in a violation. -/
def Safe (slot : Slot) : Stage → Prop
  | .committing _ _ source target => source.mayBecome target = true
  | .stopping _ => slot.state.mayBecome .stopped = true
  | .crashed _ => False
  | _ => True

/-- The look at the slot of a critical stage is a turn. -/
theorem turn_of_look {n : Nat} {s : Stage} (hs : s.isCritical = true) (safe : Safe c.slot s) :
    Turn c u n s (c.look n s).2.1 (c.look n s).1 c.holder (c.look n s).2.2 := by
  cases s with
  | dispatching r =>
    simp only [look]
    cases hd : c.slot.state.dispatch r.operation with
    | error rejection => exact .reject hd
    | ok dispatch =>
      cases dispatch with
      | observe => exact absurd hd (r.dispatch_ne_observe _)
      | delegate next =>
        cases hc : r.call? c.id with
        | none => exact absurd hc (r.call?_ne_none hd)
        | some call => exact .accept hd hc
  | committing r a source target =>
    simp only [look]
    cases hm : c.slot.state.mayBecome target with
    | true => rw [Slot.commit_of_mayBecome hm]; exact .install hm
    | false =>
      have hne : c.slot.state ≠ source := fun h => by
        rw [h, show source.mayBecome target = true from safe] at hm
        cases hm
      rw [Slot.commit_of_ne hne hm]; exact .supersede hne hm
  | claiming code =>
    simp only [look]
    cases hx : c.slot.exit with
    | some e =>
      rw [Slot.claim_of_ignore (.inl (by rw [hx]; rfl))]
      exact .ignore (.inl (by rw [hx]; rfl))
    | none =>
      cases ho : c.slot.state.onExit with
      | stop => rw [Slot.claim_of_stop hx ho]; exact .claim hx ho
      | ignore => rw [Slot.claim_of_ignore (.inr ho)]; exact .ignore (.inr ho)
      | resumeThenStop =>
        have hp : c.slot.state = .paused := State.eq_paused_of_onExit ho
        rw [Slot.claim_of_resumeThenStop hx ho, hp]
        exact .claimFrozen hx hp
  | stopping previous =>
    simp only [look]
    rw [Slot.stop_of_mayBecome safe]
    exact .stop safe
  | asking q => exact .answer
  | _ => cases hs

theorem turn_of_proceed {n : Nat} {s stage : Stage} {marks : List Mark}
    (h : c.proceed n s = some (stage, marks)) : Turn c u n s stage c.slot c.holder marks := by
  cases s with
  | rejecting r rejection => cases h; exact .refuse
  | calling r call source next => cases h; exact .call
  | failing r e => cases h; exact .tellFailure
  | announcing r a payload => cases h; exact .announce
  | recording code previous resume =>
    cases resume with
    | true => cases h; exact .recordFrozen
    | false => cases h; exact .record
  | resumeCalling previous => cases h; exact .resume
  | resumeFailing previous e => cases h; exact .tellResumeFailure
  | stopped previous => cases h; exact .tellStop
  | _ => cases h

theorem turn_of_conclude {n : Nat} {outcome : Except ControllerError Answer} {s stage : Stage}
    {marks : List Mark} (h : c.conclude n outcome s = some (stage, marks)) :
    Turn c u n s stage c.slot c.holder marks := by
  cases s with
  | performing r call source next =>
    cases outcome with
    | error e => cases h; exact .fail
    | ok a =>
      cases next with
      | none => cases h; exact .succeed
      | some target => cases h; exact .succeedTo
  | resuming previous =>
    cases outcome with
    | error e => cases h; exact .resumeFail
    | ok a => cases h; exact .resumed
  | _ => cases h

/-! ## Moves -/

/-- What the caller `u` can do. -/
inductive Move (c : Interleaving) (u : Caller) : Interleaving → Prop
  | lock (free : c.slotHolder = none) : Move c u { c with slotHolder := some u }
  | begin (action : Action) (free : ∀ f outer, c.frames u = f :: outer → f.stage.isOpen = true) :
    Move c u (({ c with begun := c.begun + 1 }.setFrames u
      (⟨c.begun, action, .ofAction c.id action⟩ :: c.frames u)).mark [.began u c.begun action])
  | turn {f : Frame} {outer : List Frame} {stage : Stage} {slot : Slot}
    {holder slotHolder : Option Caller} {marks : List Mark} (top : c.frames u = f :: outer)
    (turn : Turn c u f.number f.stage stage slot holder marks)
    (lock : if f.stage.isCritical then c.slotHolder = some u ∧ slotHolder = none
      else slotHolder = c.slotHolder) :
    Move c u (({ c with slot, holder, slotHolder }.setFrames u
      ({ f with stage } :: outer)).mark marks)
  | finish {f : Frame} {outer : List Frame} {reply : Reply} (top : c.frames u = f :: outer)
    (stage : f.stage = .returning reply) :
    Move c u ((c.setFrames u outer).mark [.returned u f.number reply])

private theorem move_of_go {f : Frame} {outer : List Frame} (top : c.frames u = f :: outer)
    (safe : Safe c.slot f.stage) (h : c.go? u f outer = some d) : Move c u d := by
  unfold go? at h
  by_cases hs : f.stage.isCritical = true
  · rw [if_pos hs] at h
    split at h
    · rename_i hl
      cases h
      exact .lock hl
    · rename_i holder hl
      split at h
      · rename_i hu
        cases h
        refine .turn top (turn_of_look hs safe) ?_
        rw [if_pos hs, hl, hu]
        exact ⟨rfl, rfl⟩
      · cases h
  · have hlock : if f.stage.isCritical then c.slotHolder = some u ∧ c.slotHolder = none
        else c.slotHolder = c.slotHolder := by rw [if_neg hs]
    rw [if_neg hs] at h
    split at h
    · rename_i r hf
      split at h
      · rename_i hl
        cases h
        have turn : Turn c u f.number f.stage (.dispatching r) c.slot (some u) [] := by
          rw [hf]
          exact .enter hl
        simpa only [mark_nil] using Move.turn top turn hlock
      · cases h
    · rename_i r result hf
      cases h
      have turn : Turn c u f.number f.stage (.returning (.ofResult result)) c.slot none [] := by
        rw [hf]
        exact .leave
      simpa only [mark_nil] using Move.turn top turn hlock
    · rename_i reply hf
      cases h
      exact .finish top hf
    · split at h
      · rename_i hp
        cases h
        exact .turn top (turn_of_proceed hp) hlock
      · cases h

/-- **Every step is a move**, where no look at the slot can end in a violation. -/
theorem move_of_step {choice : Choice} (safe : ∀ f ∈ c.frames u, Safe c.slot f.stage)
    (h : c.step? u choice = some d) : Move c u d := by
  cases choice with
  | act action =>
    unfold step? begin? at h
    simp only [Option.ite_none_right_eq_some, Option.some.injEq] at h
    obtain ⟨free, rfl⟩ := h
    refine .begin action fun f outer top => ?_
    rw [top] at free
    exact free
  | go =>
    simp only [step?] at h
    split at h
    · rename_i f outer top
      exact move_of_go top (safe f (by rw [top]; exact List.mem_cons_self)) h
    · cases h
  | finish outcome =>
    simp only [step?] at h
    split at h
    · rename_i f outer top
      split at h
      · rename_i stage marks hc
        cases h
        refine .turn top (turn_of_conclude hc) ?_
        have hs : f.stage.isCritical = false := by
          cases hf : f.stage <;> first | rfl | (rw [hf] at hc; cases hc)
        rw [hs]
        rfl
      · cases h
    · cases h

/-! ## Numbers along moves -/

namespace Numbered

private theorem of_setFrames (hn : c.Numbered) {frames : List Frame}
    (hd : d.frames = (c.setFrames u frames).frames) (hb : c.begun ≤ d.begun)
    (lt : ∀ f ∈ frames, f.number < d.begun)
    (nodup : frames.Pairwise fun f g => f.number ≠ g.number)
    (apart : ∀ f ∈ frames, ∀ v, v ≠ u → ∀ g ∈ c.frames v, f.number ≠ g.number) :
    d.Numbered := by
  have frames_eq : ∀ v, d.frames v = if v = u then frames else c.frames v := by
    intro v; rw [hd]; rfl
  refine ⟨fun {v f} hf => ?_, fun v => ?_, fun {v w f g} hvw hf hg => ?_⟩
  · rw [frames_eq] at hf
    split at hf
    · exact lt f hf
    · exact Nat.lt_of_lt_of_le (hn.lt hf) hb
  · rw [frames_eq]
    split
    · exact nodup
    · exact hn.nodup v
  · rw [frames_eq] at hf hg
    split at hf
    · rename_i hv
      subst hv
      rw [if_neg (Ne.symm hvw)] at hg
      exact apart f hf w (Ne.symm hvw) g hg
    · split at hg
      · rename_i hv hw
        subst hw
        exact (apart g hg v hv f hf).symm
      · exact hn.apart hvw hf hg

theorem of_move (hn : c.Numbered) (m : Move c u d) : d.Numbered := by
  cases m with
  | lock => exact ⟨hn.lt, hn.nodup, hn.apart⟩
  | begin action =>
    refine hn.of_setFrames rfl (Nat.le_succ _) (fun f hf => ?_) ?_ fun f hf v hv g hg => ?_
    · rcases List.mem_cons.mp hf with rfl | hf
      · exact Nat.lt_succ_self _
      · exact Nat.lt_succ_of_lt (hn.lt hf)
    · exact List.pairwise_cons.mpr ⟨fun g hg => (Nat.ne_of_lt (hn.lt hg)).symm, hn.nodup u⟩
    · rcases List.mem_cons.mp hf with rfl | hf
      · exact (Nat.ne_of_lt (hn.lt hg)).symm
      · exact hn.apart hv.symm hf hg
  | @turn f outer stage _ _ _ _ top =>
    have hp := hn.nodup u
    rw [top, List.pairwise_cons] at hp
    have hmem : ∀ g ∈ { f with stage } :: outer, ∃ g' ∈ c.frames u, g'.number = g.number := by
      intro g hg
      rw [top]
      rcases List.mem_cons.mp hg with rfl | hg
      · exact ⟨f, List.mem_cons_self, rfl⟩
      · exact ⟨g, List.mem_cons_of_mem _ hg, rfl⟩
    refine hn.of_setFrames rfl (Nat.le_refl _) (fun g hg => ?_) ?_ fun g hg v hv k hk => ?_
    · obtain ⟨g', hg', he⟩ := hmem g hg
      exact he ▸ hn.lt hg'
    · exact List.pairwise_cons.mpr hp
    · obtain ⟨g', hg', he⟩ := hmem g hg
      exact he ▸ hn.apart hv.symm hg' hk
  | @finish f outer _ top =>
    have hp := hn.nodup u
    rw [top, List.pairwise_cons] at hp
    have hmem : ∀ g ∈ outer, g ∈ c.frames u := fun g hg => by
      rw [top]; exact List.mem_cons_of_mem _ hg
    exact hn.of_setFrames rfl (Nat.le_refl _) (fun g hg => hn.lt (hmem g hg)) hp.2
      fun g hg v hv k hk => hn.apart hv.symm (hmem g hg) hk

end Numbered

/-! ## Changes -/

/-- All of `d` but the callers and their calls, after a change of `c`. -/
structure Becomes (c d : Interleaving) (slot : Slot) (holder : Option Caller) (begun : Nat)
    (marks : List Mark) : Prop where
  id : d.id = c.id
  moments : d.moments = c.moments
  slot : d.slot = slot
  holder : d.holder = holder
  begun : d.begun = begun
  history : d.history = c.history ++ marks

/-- What a move changes, whatever caller makes it and whatever calls it is inside of: the pending
calls, the slot, the operation lock and the history. -/
inductive Change (c d : Interleaving) : Prop
  | still (upd : c.Becomes d c.slot c.holder c.begun []) (pending : ∀ g, d.Pending g ↔ c.Pending g)
  | begin (u : Caller) (action : Action)
    (upd : c.Becomes d c.slot c.holder (c.begun + 1) [.began u c.begun action])
    (pending : ∀ g, d.Pending g ↔
      g = ⟨c.begun, action, .ofAction c.id action⟩ ∨ c.Pending g)
  | turn {u : Caller} {f : Frame} {stage : Stage} {slot : Slot} {holder : Option Caller}
    {marks : List Mark} (hf : c.Pending f)
    (turn : Turn c u f.number f.stage stage slot holder marks)
    (upd : c.Becomes d slot holder c.begun marks)
    (pending : ∀ g, d.Pending g ↔ g = { f with stage } ∨ c.Pending g ∧ g.number ≠ f.number)
  | finish {u : Caller} {f : Frame} {reply : Reply} (hf : c.Pending f)
    (stage : f.stage = .returning reply)
    (upd : c.Becomes d c.slot c.holder c.begun [.returned u f.number reply])
    (pending : ∀ g, d.Pending g ↔ c.Pending g ∧ g.number ≠ f.number)

theorem Move.change (hn : c.Numbered) (m : Move c u d) : c.Change d := by
  cases m with
  | lock =>
    exact .still ⟨rfl, rfl, rfl, rfl, rfl, (List.append_nil _).symm⟩ fun g => Iff.rfl
  | begin action => exact .begin u action ⟨rfl, rfl, rfl, rfl, rfl, rfl⟩ fun g => pending_begin rfl
  | turn top turn =>
    exact .turn (.head top) turn ⟨rfl, rfl, rfl, rfl, rfl, rfl⟩ fun g => hn.pending_swap top rfl
  | finish top stage =>
    exact .finish (.head top) stage ⟨rfl, rfl, rfl, rfl, rfl, rfl⟩
      fun g => hn.pending_drop top rfl

theorem Change.id_eq (m : c.Change d) : d.id = c.id := by
  cases m with
  | still upd | begin _ _ upd | turn _ _ upd | finish _ _ upd => exact upd.id

end Interleaving

end ContainerInit
