import ContainerInit.Proofs.Interleaving.Step

/-!
# Sound configurations

What holds of callers at work at once, whatever they do and in whatever order.

- **Stages fit their calls** (`Stage.Suits`): a stage belongs to an action, and knows what dispatch
  said about it. No call is at `crashed`.
- **One operation at a time** (`Sound.alone`, `Sound.held`): at most one call is between taking and
  giving back the operation lock.
- **Exits only stop** (`Sound.source`): while an operation that was dispatched in some state is
  under way, the process is in that state, or it has been stopped.
- **One frozen exit** (`Sound.window`, `Sound.single`): at most one call has recorded the exit of a
  frozen process and not stopped it yet, and until then the process is frozen with an exit.

The steps of a sound configuration are moves (`Sound.move`), and moves keep it sound
(`Sound.of_move`). `Reachable.invariant` is the induction for all that follows.
-/

namespace ContainerInit

/-- An operation with a successor state leads out of `created` or out of `stopped`. -/
theorem State.source_of_dispatch {s t : State} {o : Operation}
    (h : s.dispatch o = .ok (.delegate (some t))) : s = .created ∨ s = .stopped := by
  cases s <;> cases o <;> cases h <;> simp

namespace Stage

/-- The stage belongs to a call that does `action` to the process `id`. -/
def Suits (id : String) (action : Action) : Stage → Prop
  | .queued r | .dispatching r | .failing r _ | .leaving r _ => action = .request r
  | .rejecting r rejection =>
    action = .request r ∧ ∃ s : State, s.dispatch r.operation = .error rejection
  | .calling r call source next | .performing r call source next =>
    action = .request r ∧ source.dispatch r.operation = .ok (.delegate next) ∧
      r.call? id = some call
  | .committing r _ source target =>
    action = .request r ∧ source.dispatch r.operation = .ok (.delegate (some target))
  | .announcing r _ payload =>
    action = .request r ∧ ((∃ s t, payload = .stateChanged r.operation s t) ∨
      ∃ s t, payload = .transitionSuperseded r.operation s t)
  | .claiming code | .recording code _ _ => action = .exited code
  | .resumeCalling _ | .resuming _ | .resumeFailing _ _ | .stopping _ | .stopped _ =>
    ∃ code, action = .exited code
  | .asking q => action = .query q
  | .returning _ => True
  | .crashed _ => False

/-- The state that an operation under way was dispatched in. -/
def source? : Stage → Option State
  | .calling _ _ source _ | .performing _ _ source _ | .committing _ _ source _ => some source
  | _ => none

/-- The exit of a frozen process is recorded, and the process is to be stopped. -/
def isCompensating : Stage → Bool
  | .recording _ _ resume => resume
  | .resumeCalling _ | .resuming _ | .resumeFailing .. | .stopping _ => true
  | _ => false

theorem isExclusive_of_source? {s : Stage} {source : State} (h : s.source? = some source) :
    s.isExclusive = true := by
  cases s <;> first | rfl | cases h

end Stage

namespace Interleaving

variable {c d : Interleaving} {u : Caller}

/-! ## What a turn keeps -/

namespace Turn

variable {n : Nat} {s stage : Stage} {slot : Slot} {holder : Option Caller} {marks : List Mark}

theorem suits {action : Action} (t : Turn c u n s stage slot holder marks)
    (h : s.Suits c.id action) : stage.Suits c.id action := by
  cases t with
  | reject hd => exact ⟨h, _, hd⟩
  | accept hd hc => exact ⟨h, hd, hc⟩
  | refuse | succeed | announce => exact h.1
  | succeedTo => exact ⟨h.1, h.2.1⟩
  | install => exact ⟨h.1, .inl ⟨_, _, rfl⟩⟩
  | supersede => exact ⟨h.1, .inr ⟨_, _, rfl⟩⟩
  | fail => exact h.1
  | leave | ignore | tellStop | answer => trivial
  | record | recordFrozen => exact ⟨_, h⟩
  | _ => exact h

/-- A call that has the operation lock had it before, or has just found it free. -/
theorem exclusive (t : Turn c u n s stage slot holder marks) (h : stage.isExclusive = true) :
    s.isExclusive = true ∨ c.holder = none := by
  cases t with
  | enter free => exact .inr free
  | _ => first | exact .inl rfl | cases h

/-- The operation lock changes hands only when a call takes it or gives it back. -/
theorem holder_eq (t : Turn c u n s stage slot holder marks) :
    holder = c.holder ∨ holder = some u ∨ s.isExclusive = true ∧ stage.isExclusive = false := by
  cases t with
  | enter => exact .inr (.inl rfl)
  | leave => exact .inr (.inr ⟨rfl, rfl⟩)
  | _ => exact .inl rfl

/-- Calls without the operation lock leave the state as it is, or stop the process. -/
theorem state_eq (t : Turn c u n s stage slot holder marks) (h : s.isExclusive = false) :
    slot.state = c.slot.state ∨ slot.state = .stopped := by
  cases t with
  | install => cases h
  | claim | stop => exact .inr rfl
  | claimFrozen hx hp => exact .inl hp.symm
  | _ => exact .inl rfl

theorem held (t : Turn c u n s stage slot holder marks)
    (h : s.isExclusive = true → c.holder.isSome = true) (he : stage.isExclusive = true) :
    holder.isSome = true := by
  cases t with
  | enter => rfl
  | _ => first | exact h rfl | cases he

theorem source_eq {source : State} (t : Turn c u n s stage slot holder marks)
    (h : stage.source? = some source) :
    slot = c.slot ∧ (s.source? = some source ∨ source = c.slot.state) := by
  cases t with
  | accept => exact ⟨rfl, .inr (Option.some.inj h).symm⟩
  | call | succeedTo => exact ⟨rfl, .inl h⟩
  | _ => cases h

/-- A call comes to have recorded the exit of a frozen process by claiming it, and in no other
way. -/
theorem compensating (t : Turn c u n s stage slot holder marks)
    (h : stage.isCompensating = true) :
    s.isCompensating = true ∧ slot = c.slot ∨
      c.slot.exit = none ∧ slot.state = .paused ∧ slot.exit.isSome = true := by
  cases t with
  | claimFrozen hx hp => exact .inr ⟨hx, rfl, rfl⟩
  | recordFrozen | resume | resumed | resumeFail | tellResumeFailure => exact .inl ⟨rfl, rfl⟩
  | _ => cases h

end Turn

/-! ## Soundness -/

/-- What holds of every configuration of callers at work (module doc). -/
structure Sound (c : Interleaving) : Prop where
  numbered : c.Numbered
  suits : ∀ {f}, c.Pending f → f.stage.Suits c.id f.action
  alone : ∀ {f g}, c.Pending f → c.Pending g → f.stage.isExclusive = true →
    g.stage.isExclusive = true → f.number = g.number
  held : ∀ {f}, c.Pending f → f.stage.isExclusive = true → c.holder.isSome = true
  source : ∀ {f s}, c.Pending f → f.stage.source? = some s →
    c.slot.state = s ∨ c.slot.state = .stopped
  window : ∀ {f}, c.Pending f → f.stage.isCompensating = true →
    c.slot.state = .paused ∧ c.slot.exit.isSome = true
  single : ∀ {f g}, c.Pending f → c.Pending g → f.stage.isCompensating = true →
    g.stage.isCompensating = true → f.number = g.number

theorem sound_initial (id : String) (state : State) (moments : Nat → Moment) :
    (initial id state moments).Sound := by
  have none : ∀ f, ¬ (initial id state moments).Pending f := fun f ⟨_, h⟩ => nomatch h
  exact ⟨⟨fun h => (none _ ⟨_, h⟩).elim, fun _ => .nil, fun _ h _ => (none _ ⟨_, h⟩).elim⟩,
    fun h => (none _ h).elim, fun h _ => (none _ h).elim, fun h _ => (none _ h).elim,
    fun h _ => (none _ h).elim, fun h _ => (none _ h).elim, fun h _ => (none _ h).elim⟩

/-- What begins is at none of the stages that soundness speaks of. -/
theorem ofAction_fresh (id : String) (action : Action) :
    (Stage.ofAction id action).Suits id action ∧ (Stage.ofAction id action).isExclusive = false ∧
      (Stage.ofAction id action).isCompensating = false := by
  cases action with
  | request r => exact ⟨rfl, rfl, rfl⟩
  | exited code => exact ⟨rfl, rfl, rfl⟩
  | query q => cases q <;> exact ⟨by trivial, rfl, rfl⟩

namespace Sound

/-- While a frozen exit is on its way, nothing else writes the slot. -/
private theorem window_turn (hc : c.Sound) {f g : Frame} (hf : c.Pending f) (hg : c.Pending g)
    (hne : g.number ≠ f.number) (hw : g.stage.isCompensating = true) {stage : Stage} {slot : Slot}
    {holder : Option Caller} {marks : List Mark}
    (t : Turn c u f.number f.stage stage slot holder marks) : slot = c.slot := by
  obtain ⟨hp, hx⟩ := hc.window hg hw
  have hsuits := hc.suits hf
  have hsource := @hc.source f
  have hsingle := hc.single hf hg
  generalize f.stage = s at t hsuits hsource hsingle
  cases t with
  | @install r a source target h =>
    have hd : source.dispatch r.operation = .ok (.delegate (some target)) := hsuits.2
    have hs := hsource hf (s := source) rfl
    rw [hp] at hs
    rcases hs with rfl | hs
    · rcases State.source_of_dispatch hd with hs | hs <;> cases hs
    · cases hs
  | claim h => rw [h] at hx; cases hx
  | claimFrozen h => rw [h] at hx; cases hx
  | stop => exact absurd (hsingle rfl hw).symm hne
  | _ => rfl

private theorem of_begin (hc : c.Sound) {f : Frame} (hf : f.stage = .ofAction c.id f.action)
    (id : d.id = c.id) (slot : d.slot = c.slot) (holder : d.holder = c.holder)
    (pending : ∀ g, d.Pending g ↔ g = f ∨ c.Pending g) (numbered : d.Numbered) : d.Sound := by
  obtain ⟨hs, hx, hw⟩ := ofAction_fresh c.id f.action
  rw [← hf] at hs hx hw
  -- Whatever is at one of the stages in question was pending before.
  have old : ∀ {g}, d.Pending g → (g.stage.isExclusive = true ∨ g.stage.isCompensating = true) →
      c.Pending g := by
    intro g hg eg
    rcases (pending g).mp hg with rfl | hg
    · rw [hx, hw] at eg
      rcases eg with eg | eg <;> cases eg
    · exact hg
  refine ⟨numbered, fun {g} hg => ?_, fun hg hk eg ek => ?_, fun hg eg => ?_, fun hg eg => ?_,
    fun hg eg => ?_, fun hg hk eg ek => ?_⟩
  · rw [id]
    rcases (pending g).mp hg with rfl | hg
    · exact hs
    · exact hc.suits hg
  · exact hc.alone (old hg (.inl eg)) (old hk (.inl ek)) eg ek
  · rw [holder]; exact hc.held (old hg (.inl eg)) eg
  · rw [slot]; exact hc.source (old hg (.inl (Stage.isExclusive_of_source? eg))) eg
  · rw [slot]; exact hc.window (old hg (.inr eg)) eg
  · exact hc.single (old hg (.inr eg)) (old hk (.inr ek)) eg ek

private theorem of_turn (hc : c.Sound) {f : Frame} {stage : Stage} {slot : Slot}
    {holder : Option Caller} {marks : List Mark} (hf : c.Pending f)
    (t : Turn c u f.number f.stage stage slot holder marks)
    (upd : c.Becomes d slot holder c.begun marks)
    (pending : ∀ g, d.Pending g ↔ g = { f with stage } ∨ c.Pending g ∧ g.number ≠ f.number)
    (numbered : d.Numbered) : d.Sound := by
  -- If this call has the operation lock or takes it, no other call has it.
  have lone : ∀ {g}, c.Pending g → g.stage.isExclusive = true → stage.isExclusive = true →
      g.number = f.number := by
    intro g hg eg ef
    rcases t.exclusive ef with ef | free
    · exact hc.alone hg hf eg ef
    · have := hc.held hg eg
      rw [free] at this
      cases this
  have only : ∀ {g}, c.Pending g → g.stage.isCompensating = true → stage.isCompensating = true →
      g.number = f.number := by
    intro g hg eg ef
    rcases t.compensating ef with ⟨h, -⟩ | ⟨hx, -⟩
    · exact hc.single hg hf eg h
    · have := (hc.window hg eg).2
      rw [hx] at this
      cases this
  refine ⟨numbered, fun {g} hg => ?_, fun {g k} hg hk eg ek => ?_, fun {g} hg eg => ?_,
    fun {g s} hg eg => ?_, fun {g} hg eg => ?_, fun {g k} hg hk eg ek => ?_⟩
  all_goals rw [pending] at hg
  · rw [upd.id]
    rcases hg with rfl | ⟨hg, -⟩
    · exact t.suits (hc.suits hf)
    · exact hc.suits hg
  · rw [pending] at hk
    rcases hg with rfl | ⟨hg, hgn⟩ <;> rcases hk with rfl | ⟨hk, hkn⟩
    · rfl
    · exact absurd (lone hk ek eg) hkn
    · exact absurd (lone hg eg ek) hgn
    · exact hc.alone hg hk eg ek
  · rw [upd.holder]
    rcases hg with rfl | ⟨hg, hgn⟩
    · exact t.held (hc.held hf) eg
    · rcases t.holder_eq with h | h | ⟨ef, -⟩
      · rw [h]; exact hc.held hg eg
      · rw [h]; rfl
      · exact absurd (hc.alone hg hf eg ef) hgn
  · rw [upd.slot]
    rcases hg with rfl | ⟨hg, hgn⟩
    · obtain ⟨rfl, h | rfl⟩ := t.source_eq eg
      · exact hc.source hf h
      · exact .inl rfl
    · have ef : f.stage.isExclusive = false := by
        cases h : f.stage.isExclusive with
        | false => rfl
        | true => exact absurd (hc.alone hg hf (Stage.isExclusive_of_source? eg) h) hgn
      rcases t.state_eq ef with h | h
      · rw [h]; exact hc.source hg eg
      · exact .inr h
  · rw [upd.slot]
    rcases hg with rfl | ⟨hg, hgn⟩
    · rcases t.compensating eg with ⟨h, rfl⟩ | ⟨-, h⟩
      · exact hc.window hf h
      · exact h
    · rw [window_turn hc hf hg hgn eg t]; exact hc.window hg eg
  · rw [pending] at hk
    rcases hg with rfl | ⟨hg, hgn⟩ <;> rcases hk with rfl | ⟨hk, hkn⟩
    · rfl
    · exact absurd (only hk ek eg) hkn
    · exact absurd (only hg eg ek) hgn
    · exact hc.single hg hk eg ek

/-- Where nothing but the pending calls changes, and these get fewer, soundness stays. -/
private theorem of_subset (hc : c.Sound) (id : d.id = c.id) (slot : d.slot = c.slot)
    (holder : d.holder = c.holder) (pending : ∀ g, d.Pending g → c.Pending g)
    (numbered : d.Numbered) : d.Sound where
  numbered := numbered
  suits hg := by rw [id]; exact hc.suits (pending _ hg)
  alone hg hk := hc.alone (pending _ hg) (pending _ hk)
  held hg := by rw [holder]; exact hc.held (pending _ hg)
  source hg := by rw [slot]; exact hc.source (pending _ hg)
  window hg := by rw [slot]; exact hc.window (pending _ hg)
  single hg hk := hc.single (pending _ hg) (pending _ hk)

/-- **Moves keep a configuration sound.** -/
theorem of_move (hc : c.Sound) (m : Move c u d) : d.Sound := by
  have numbered := hc.numbered.of_move m
  cases m.change hc.numbered with
  | still upd pending =>
    exact hc.of_subset upd.id upd.slot upd.holder (fun g => (pending g).mp) numbered
  | begin v action upd pending => exact hc.of_begin rfl upd.id upd.slot upd.holder pending numbered
  | turn hf turn upd pending => exact hc.of_turn hf turn upd pending numbered
  | finish hf stage upd pending =>
    exact hc.of_subset upd.id upd.slot upd.holder (fun g hg => ((pending g).mp hg).1) numbered

theorem safe (hc : c.Sound) {f : Frame} (hf : c.Pending f) : Safe c.slot f.stage := by
  have hsuits := hc.suits hf
  have hwindow := hc.window hf
  generalize f.stage = s at hsuits hwindow
  cases s with
  | committing => exact State.mayBecome_of_dispatch hsuits.2
  | stopping => rw [Safe, (hwindow rfl).1]; rfl
  | crashed => exact hsuits
  | _ => trivial

/-- No call has ended in a violation. -/
theorem ne_crashed (hc : c.Sound) {f : Frame} (hf : c.Pending f) (v : Violation) :
    f.stage ≠ .crashed v := by
  intro crashed
  have safe := hc.safe hf
  rw [crashed] at safe
  exact safe

/-- Every step of a sound configuration is a move. -/
theorem move (hc : c.Sound) {choice : Choice} (h : c.step? u choice = some d) : Move c u d :=
  move_of_step (fun _ hf => hc.safe ⟨u, hf⟩) h

end Sound

/-- **Induction on runs.** What holds at the start and is kept by every move holds of all that is
reachable; the configurations on the way are sound. -/
theorem Reachable.invariant {start : Interleaving} {P : Interleaving → Prop} (sound : start.Sound)
    (init : P start) (step : ∀ {c d u}, c.Sound → P c → Move c u d → P d)
    (h : Reachable start c) : c.Sound ∧ P c := by
  induction h with
  | refl => exact ⟨sound, init⟩
  | step u choice _ taken ih =>
    have m := ih.1.move taken
    exact ⟨ih.1.of_move m, step ih.1 ih.2 m⟩

theorem Reachable.sound {start : Interleaving} (sound : start.Sound) (h : Reachable start c) :
    c.Sound :=
  (h.invariant (P := fun _ => True) sound trivial fun _ _ _ => trivial).1

end Interleaving

end ContainerInit
