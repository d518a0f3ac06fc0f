import ContainerInit.Proofs.Interleaving.Exits

/-!
# The order of the events

A change of the state is written under the slot lock and told to the sink afterwards, without a
lock. What the sink has been told is complete once every call has returned, but not always in order
(`changes_reordered`).

- **Paths** (`StateChange.Path`): changes of the state that follow each other. The changes that a
  run makes are a path (`Reachable.path`).
- **Owed events** (`Stage.owes?`, `Owing`): a change that was made and not told is owed by the call
  that made it. At most one is owed by an operation and one by the report of an exit, so the events
  of each of the two kinds are in order.
-/

namespace ContainerInit

theorem State.precedes_irrefl (s : State) : s.precedes s = false := by
  cases s <;> rfl

/-- A change of the state of a process, and what has made it. -/
structure StateChange where
  operation : Operation
  source : State
  target : State
  deriving DecidableEq

namespace StateChange

/-- The process was stopped by the report of its exit. -/
def isExit (x : StateChange) : Bool :=
  x.operation = .setExited

/-- The changes of one of the two kinds: by reports of exits, or by operations. -/
def ofKind (exit : Bool) (l : List StateChange) : List StateChange :=
  l.filter fun x => x.isExit == exit

theorem ofKind_concat (l : List StateChange) (x : StateChange) :
    ofKind x.isExit (l ++ [x]) = ofKind x.isExit l ++ [x] := by
  simp [ofKind]

theorem ofKind_concat_of_ne (l : List StateChange) {x : StateChange} {exit : Bool}
    (h : x.isExit ≠ exit) : ofKind exit (l ++ [x]) = ofKind exit l := by
  simp [ofKind, h]

/-- Two lists of changes with the same changes of each kind have the same changes. -/
theorem perm_of_ofKind {l l' : List StateChange} (h : ∀ exit, ofKind exit l = ofKind exit l') :
    l.Perm l' := by
  have split : ∀ l : List StateChange, (ofKind true l ++ ofKind false l).Perm l := by
    intro l
    have hn : (fun x : StateChange => !(x.isExit == true)) = fun x => x.isExit == false := by
      funext x
      cases x.isExit <;> rfl
    have hp := List.filter_append_perm (fun x : StateChange => x.isExit == true) l
    rw [hn] at hp
    exact hp
  have hp := (split l).symm
  rw [h, h] at hp
  exact hp.trans (split l')

/-- Changes that follow each other, from a first state to a last one. -/
inductive Path : State → List StateChange → State → Prop
  | nil {s : State} : Path s [] s
  | cons {x : StateChange} {rest : List StateChange} {t : State} (tail : Path x.target rest t) :
    Path x.source (x :: rest) t

namespace Path

variable {s t : State} {l : List StateChange}

theorem snoc (h : Path s l t) {x : StateChange} (hx : x.source = t) :
    Path s (l ++ [x]) x.target := by
  induction h with
  | nil => exact hx ▸ .cons .nil
  | cons _ ih => exact .cons (ih hx)

theorem source_eq {x : StateChange} (h : Path s (x :: l) t) : x.source = s := by
  generalize hl : x :: l = changes at h
  cases h with
  | nil => cases hl
  | cons => cases hl; rfl

/-- A path ends where it began, or at the target of one of its changes. -/
theorem eq_nil_or_mem (h : Path s l t) : l = [] ∧ t = s ∨ ∃ x ∈ l, x.target = t := by
  induction h with
  | nil => exact .inl ⟨rfl, rfl⟩
  | @cons x rest t _ ih =>
    right
    rcases ih with ⟨-, h⟩ | ⟨y, hy, e⟩
    · exact ⟨x, List.mem_cons_self, h.symm⟩
    · exact ⟨y, List.mem_cons_of_mem _ hy, e⟩

variable (up : ∀ x ∈ l, x.source.precedes x.target = true)

include up

theorem le_of_forall (h : Path s l t) : s ≤ t := by
  induction h with
  | nil => exact .inl rfl
  | cons _ ih =>
    have first := up _ List.mem_cons_self
    exact Std.le_trans (.inr first) (ih fun y hy => up y (List.mem_cons_of_mem _ hy))

/-- On a path that only goes on in the order of a life, no target comes after the end. -/
theorem target_le (h : Path s l t) : ∀ x ∈ l, x.target ≤ t := by
  induction h with
  | nil => exact fun x hx => nomatch hx
  | cons tail ih =>
    have rest := fun y hy => up y (List.mem_cons_of_mem _ hy)
    intro y hy
    rcases List.mem_cons.mp hy with rfl | hy
    · exact tail.le_of_forall rest
    · exact ih rest y hy

/-- A path that only goes on in the order of a life and ends where it began is empty. -/
theorem eq_nil (h : Path s l t) (closed : t = s) : l = [] := by
  cases h with
  | nil => rfl
  | @cons x rest _ tail =>
    have first := up x List.mem_cons_self
    have back : x.target ≤ x.source :=
      closed ▸ tail.le_of_forall fun y hy => up y (List.mem_cons_of_mem _ hy)
    have on : x.source ≤ x.target := .inr first
    rw [Std.le_antisymm on back, State.precedes_irrefl] at first
    cases first

end Path

end StateChange

/-- The change of the state that an event tells of. -/
def Payload.change? : Payload → Option StateChange
  | .stateChanged operation source target => some ⟨operation, source, target⟩
  | _ => none

namespace Mark

/-- The change of the state that a step has made. -/
def change? : Mark → Option StateChange
  | .committed _ r (.installed previous slot) => some ⟨r.operation, previous, slot.state⟩
  | .claimed _ _ (.accepted previous false slot) => some ⟨.setExited, previous, slot.state⟩
  | .stopped _ slot => some ⟨.setExited, .paused, slot.state⟩
  | _ => none

/-- The change of the state that a step has told the sink. -/
def told? (m : Mark) : Option StateChange :=
  m.payload?.bind Payload.change?

end Mark

namespace Stage

/-- The change of the state that the call has made and is still to tell. -/
def owes? : Stage → Option StateChange
  | .announcing _ _ payload => payload.change?
  | .recording _ previous false => some ⟨.setExited, previous, .stopped⟩
  | .stopped previous => some ⟨.setExited, previous, .stopped⟩
  | _ => none

/-- The state in which the exit of a frozen process was claimed that is to be stopped. -/
def thawedFrom? : Stage → Option State
  | .recording _ previous true | .resumeCalling previous | .resuming previous
  | .resumeFailing previous _ | .stopping previous => some previous
  | _ => none

end Stage

namespace Interleaving

variable {c d : Interleaving} {u : Caller}

/-- The changes of the state that a run has made, oldest first. -/
def made (c : Interleaving) : List StateChange :=
  c.history.filterMap Mark.change?

/-- The changes of the state that the sink has been told, in the order in which it holds them. -/
def changes (c : Interleaving) : List StateChange :=
  c.payloads.filterMap Payload.change?

theorem changes_eq (c : Interleaving) : c.changes = c.history.filterMap Mark.told? := by
  rw [changes, payloads, List.filterMap_filterMap]
  rfl

section Append

variable {marks : List Mark}

private theorem made_append (h : d.history = c.history ++ marks) :
    d.made = c.made ++ marks.filterMap Mark.change? := by
  rw [made, h, List.filterMap_append]
  rfl

private theorem changes_append (h : d.history = c.history ++ marks) :
    d.changes = c.changes ++ marks.filterMap Mark.told? := by
  rw [changes_eq, changes_eq, h, List.filterMap_append]

end Append

private theorem Borders.made_eq (hb : c.Borders d) : d.made = c.made :=
  hb.filterMap_history fun m h => by cases m <;> first | rfl | cases h

private theorem Borders.changes_eq (hb : c.Borders d) : d.changes = c.changes := by
  rw [Interleaving.changes_eq, Interleaving.changes_eq]
  exact hb.filterMap_history fun m h => by cases m <;> first | rfl | cases h

/-! ## What a turn makes and tells -/

section Turn

variable {n : Nat} {s stage : Stage} {slot : Slot} {holder : Option Caller} {marks : List Mark}
  {action : Action}

/-- A frozen process is claimed frozen. -/
private theorem Turn.thawedFrom (t : Turn c u n s stage slot holder marks) {previous : State}
    (h : stage.thawedFrom? = some previous) : s.thawedFrom? = some previous ∨ previous = .paused := by
  cases t with
  | claimFrozen => exact .inr (Option.some.inj h).symm
  | recordFrozen | resume | resumed | resumeFail | tellResumeFailure => exact .inl h
  | _ => cases h

/-- What the marks of a turn are for the changes of the state, by the change that the call owes
before and after. -/
inductive Owes : Option StateChange → Option StateChange → List Mark → Prop
  | makes {x : StateChange} {m : Mark} (hm : m.change? = some x) (ht : m.told? = none) :
    Owes none (some x) [m]
  | tells {x : StateChange} {m : Mark} (hm : m.change? = none) (ht : m.told? = some x) :
    Owes (some x) none [m]
  | other {o : Option StateChange} {marks : List Mark}
    (h : ∀ m ∈ marks, m.change? = none ∧ m.told? = none) : Owes o o marks

private theorem Owes.silent {o : Option StateChange} {m : Mark} (hm : m.change? = none)
    (ht : m.told? = none) : Owes o o [m] := by
  refine .other fun m' h => ?_
  rw [List.mem_singleton.mp h]
  exact ⟨hm, ht⟩

private theorem Turn.owes (t : Turn c u n s stage slot holder marks) (h : s.Suits c.id action)
    (thawed : ∀ previous, s.thawedFrom? = some previous → previous = .paused) :
    Owes s.owes? stage.owes? marks := by
  cases t with
  | install | claim => exact .makes rfl rfl
  | stop =>
    cases thawed _ rfl
    exact .makes rfl rfl
  | tellStop => exact .tells rfl rfl
  | announce =>
    rcases h.2 with ⟨s, t, rfl⟩ | ⟨s, t, rfl⟩
    · exact .tells rfl rfl
    · exact .silent rfl rfl
  | enter | leave => exact .other fun m hm => nomatch hm
  | _ => exact .silent rfl rfl

end Turn

/-! ## The path of the changes -/

/-- A turn makes a change from the state that the slot holds to the one that it writes. -/
private theorem Turn.change {n : Nat} {s stage : Stage} {slot : Slot} {holder : Option Caller}
    {marks : List Mark} (t : Turn c u n s stage slot holder marks)
    (window : s.isCompensating = true → c.slot.state = .paused) :
    marks.filterMap Mark.change? = [] ∧ slot.state = c.slot.state ∨
      ∃ x, marks.filterMap Mark.change? = [x] ∧ x.source = c.slot.state ∧
        x.target = slot.state ∧ x.source.mayBecome x.target = true := by
  cases t with
  | install edge => exact .inr ⟨_, rfl, rfl, rfl, edge⟩
  | claim _ exit =>
    exact .inr ⟨_, rfl, rfl, rfl, State.mayBecome_stopped_of_onExit (by rw [exit]; decide)⟩
  | stop => exact .inr ⟨_, rfl, (window rfl).symm, rfl, rfl⟩
  | claimFrozen _ hp => exact .inl ⟨rfl, hp.symm⟩
  | _ => exact .inl ⟨rfl, rfl⟩

/-- **The changes that a run makes are a path**, from the initial state to the one that the slot
holds, and each goes on in the order of a life. -/
theorem Reachable.path {id : String} {state : State} {moments : Nat → Moment}
    (h : Reachable (initial id state moments) c) :
    StateChange.Path state c.made c.slot.state ∧
      ∀ x ∈ c.made, x.source.precedes x.target = true := by
  refine (h.invariant (P := fun c => StateChange.Path state c.made c.slot.state ∧
    ∀ x ∈ c.made, x.source.precedes x.target = true) (sound_initial id state moments)
    ⟨.nil, fun x hx => nomatch hx⟩ fun {c d u} hc ⟨path, up⟩ m => ?_).2
  have change := m.change hc.numbered
  rcases change.borders_or_turn hc with hb | ⟨v, f, stage, slot, holder, marks, hf, t, upd, -⟩
  · rw [hb.made_eq, hb.slot]
    exact ⟨path, up⟩
  · rw [made_append upd.history, upd.slot]
    rcases t.change fun ec => (hc.window hf ec).1 with ⟨hm, hs⟩ | ⟨x, hm, hx, ht, edge⟩
    · rw [hm, hs, List.append_nil]
      exact ⟨path, up⟩
    · rw [hm, ← ht]
      refine ⟨path.snoc hx, fun y hy => ?_⟩
      rcases List.mem_append.mp hy with hy | hy
      · exact up y hy
      · rw [List.mem_singleton.mp hy]
        have le : x.source ≤ x.target := by
          rw [hx, ht, ← upd.slot]
          rcases hc.write change with ⟨same, -⟩ | ⟨w, -⟩
          · exact .inl (congrArg Slot.state same).symm
          · exact w.le
        refine le.resolve_left fun same => ?_
        rw [← same, State.mayBecome_irrefl] at edge
        cases edge

/-! ## Owed events -/

/-- What was made and not told is owed. -/
structure Owing (c : Interleaving) : Prop where
  thawed : ∀ {f previous}, c.Pending f → f.stage.thawedFrom? = some previous → previous = .paused
  owed : ∀ {f x}, c.Pending f → f.stage.owes? = some x →
    StateChange.ofKind x.isExit c.made = StateChange.ofKind x.isExit c.changes ++ [x]
  paid : ∀ exit, (∀ f x, c.Pending f → f.stage.owes? = some x → x.isExit ≠ exit) →
    StateChange.ofKind exit c.made = StateChange.ofKind exit c.changes

/-- A change by an operation is owed under the operation lock, and one by an exit by the report that
was accepted. -/
private theorem exclusive_or_told_of_owes? {id : String} {action : Action} {s : Stage}
    {x : StateChange} (h : s.owes? = some x) (suits : s.Suits id action) :
    x.isExit = false ∧ s.isExclusive = true ∨ x.isExit = true ∧ s.told?.isSome = true := by
  cases s with
  | announcing r a payload =>
    rcases suits.2 with ⟨s, t, rfl⟩ | ⟨s, t, rfl⟩
    · cases h
      exact .inl ⟨by cases r <;> rfl, rfl⟩
    · cases h
  | recording code previous resume =>
    cases resume with
    | false => cases h; exact .inr ⟨rfl, rfl⟩
    | true => cases h
  | stopped => cases h; exact .inr ⟨rfl, rfl⟩
  | _ => cases h

/-- At most one change of each kind is owed. -/
private theorem owes_unique (hc : c.Sound) (ht : c.Trail) {f g : Frame} {x y : StateChange}
    (hf : c.Pending f) (hg : c.Pending g) (ef : f.stage.owes? = some x)
    (eg : g.stage.owes? = some y) (hk : y.isExit = x.isExit) : g.number = f.number := by
  rcases exclusive_or_told_of_owes? ef (hc.suits hf) with ⟨kx, hx⟩ | ⟨kx, hx⟩ <;>
    rcases exclusive_or_told_of_owes? eg (hc.suits hg) with ⟨ky, hy⟩ | ⟨ky, hy⟩
  · exact hc.alone hg hf hy hx
  · rw [kx, ky] at hk
    cases hk
  · rw [kx, ky] at hk
    cases hk
  · obtain ⟨a, ha⟩ := Option.isSome_iff_exists.mp hx
    obtain ⟨b, hb⟩ := Option.isSome_iff_exists.mp hy
    have hm := (ht.told hg hb).1
    rw [ht.accepted_eq (ht.told hf ha).1] at hm
    exact List.mem_singleton.mp hm

namespace Owing

open StateChange (ofKind ofKind_concat ofKind_concat_of_ne)

private theorem of_borders (ho : c.Owing) (hb : c.Borders d) : d.Owing := by
  have made := hb.made_eq
  have told := hb.changes_eq
  have fresh : ∀ action : Action, (Stage.ofAction c.id action).owes? = none ∧
      (Stage.ofAction c.id action).thawedFrom? = none := by
    intro action
    cases action with
    | query q => cases q <;> exact ⟨rfl, rfl⟩
    | _ => exact ⟨rfl, rfl⟩
  refine ⟨fun {g previous} hg eg => ?_, fun {g x} hg eg => ?_, fun exit none => ?_⟩
  · rcases hb.new hg with hg | h
    · exact ho.thawed hg eg
    · rw [h, (fresh g.action).2] at eg
      cases eg
  · rw [made, told]
    rcases hb.new hg with hg | h
    · exact ho.owed hg eg
    · rw [h, (fresh g.action).1] at eg
      cases eg
  · rw [made, told]
    refine ho.paid exit fun g x hg eg => ?_
    rcases hb.old hg with hg | ⟨reply, h⟩
    · exact none g x hg eg
    · rw [h] at eg
      cases eg

section Turn

variable {f : Frame} {stage : Stage} {slot : Slot} {holder : Option Caller} {marks : List Mark}
  (hf : c.Pending f)
  (pending : ∀ g, d.Pending g ↔ g = { f with stage } ∨ c.Pending g ∧ g.number ≠ f.number)

include hf pending

private theorem thawed_of_turn (ho : c.Owing)
    (t : Turn c u f.number f.stage stage slot holder marks) {g : Frame} {previous : State}
    (hg : d.Pending g) (eg : g.stage.thawedFrom? = some previous) : previous = .paused := by
  rcases (pending g).mp hg with rfl | ⟨hg, -⟩
  · rcases t.thawedFrom eg with ef | h
    · exact ho.thawed hf ef
    · exact h
  · exact ho.thawed hg eg

/-- Where neither the call that takes the turn owes a change of a kind nor any other call does
after the turn, nothing of that kind was owed before. -/
private theorem paid_of_turn (hc : c.Sound) (ho : c.Owing) {exit : Bool}
    (hs : ∀ x, f.stage.owes? = some x → x.isExit ≠ exit)
    (none : ∀ g x, d.Pending g → g.number ≠ f.number → g.stage.owes? = some x → x.isExit ≠ exit) :
    ofKind exit c.made = ofKind exit c.changes := by
  refine ho.paid exit fun g x hg eg => ?_
  by_cases hn : g.number = f.number
  · rw [hc.numbered.pending_eq hg hf hn] at eg
    exact hs x eg
  · exact none g x ((pending g).mpr (.inr ⟨hg, hn⟩)) hn eg

private theorem of_turn (hc : c.Sound) (ht : c.Trail) (hd : d.Sound) (ht' : d.Trail)
    (ho : c.Owing) (t : Turn c u f.number f.stage stage slot holder marks)
    (hh : d.history = c.history ++ marks) : d.Owing := by
  have new : d.Pending { f with stage } := (pending _).mpr (.inl rfl)
  have owes := t.owes (hc.suits hf) fun _ => ho.thawed hf
  have made := made_append hh
  have told := changes_append hh
  generalize hs : f.stage.owes? = o at owes
  generalize hs' : stage.owes? = o' at owes
  have thawed : ∀ {g previous}, d.Pending g → g.stage.thawedFrom? = some previous →
      previous = .paused := fun hg eg => thawed_of_turn hf pending ho t hg eg
  have before : ∀ {exit}, (∀ x, o = some x → x.isExit ≠ exit) →
      (∀ g x, d.Pending g → g.number ≠ f.number → g.stage.owes? = some x → x.isExit ≠ exit) →
      ofKind exit c.made = ofKind exit c.changes := fun ho' none =>
    paid_of_turn hf pending hc ho (hs ▸ ho') none
  cases owes with
  | @makes x m hm hmt =>
    rw [List.filterMap_cons_some hm, List.filterMap_nil] at made
    rw [List.filterMap_cons_none hmt, List.filterMap_nil, List.append_nil] at told
    refine ⟨thawed, fun {g y} hg eg => ?_, fun exit none => ?_⟩ <;> rw [made, told]
    · rcases (pending g).mp hg with rfl | ⟨hg', hne⟩
      · cases hs'.symm.trans eg
        rw [ofKind_concat, before (fun _ h => nomatch h) fun k z hk hne ek hz =>
          hne (owes_unique (f := { f with stage }) hd ht' new hk hs' ek hz)]
      · rw [ofKind_concat_of_ne _ fun hk =>
          hne (owes_unique (f := { f with stage }) hd ht' new hg hs' eg hk.symm)]
        exact ho.owed hg' eg
    · rw [ofKind_concat_of_ne _ (none _ x new hs')]
      exact before (fun _ h => nomatch h) fun k z hk _ => none k z hk
  | @tells x m hm hmt =>
    rw [List.filterMap_cons_none hm, List.filterMap_nil, List.append_nil] at made
    rw [List.filterMap_cons_some hmt, List.filterMap_nil] at told
    refine ⟨thawed, fun {g y} hg eg => ?_, fun exit none => ?_⟩ <;> rw [made, told]
    · rcases (pending g).mp hg with rfl | ⟨hg', hne⟩
      · exact nomatch hs'.symm.trans eg
      · rw [ofKind_concat_of_ne _ fun hk => hne (owes_unique hc ht hf hg' hs eg hk.symm)]
        exact ho.owed hg' eg
    · by_cases hk : x.isExit = exit
      · subst hk
        rw [ofKind_concat]
        exact ho.owed hf hs
      · rw [ofKind_concat_of_ne _ hk]
        refine before (fun y hy => ?_) fun k z hk _ => none k z hk
        cases hy
        exact hk
  | other h =>
    rw [List.filterMap_eq_nil_iff.mpr fun m hm => (h m hm).1, List.append_nil] at made
    rw [List.filterMap_eq_nil_iff.mpr fun m hm => (h m hm).2, List.append_nil] at told
    refine ⟨thawed, fun {g y} hg eg => ?_, fun exit none => ?_⟩ <;> rw [made, told]
    · rcases (pending g).mp hg with rfl | ⟨hg, -⟩
      · exact ho.owed hf (hs.trans (hs'.symm.trans eg))
      · exact ho.owed hg eg
    · exact before (fun y hy => none _ y new (hs'.trans hy)) fun k z hk _ => none k z hk

end Turn

theorem of_change (hc : c.Sound) (ht : c.Trail) (hd : d.Sound) (ht' : d.Trail) (ho : c.Owing)
    (m : c.Change d) : d.Owing := by
  rcases m.borders_or_turn hc with hb | ⟨v, f, stage, slot, holder, marks, hf, t, upd, pending⟩
  · exact ho.of_borders hb
  · exact of_turn hf pending hc ht hd ht' ho t upd.history

end Owing

theorem owing_initial {id : String} {state : State} {moments : Nat → Moment}
    (h : Reachable (initial id state moments) c) : c.Owing := by
  refine (h.invariant (P := fun c => c.Recorded ∧ c.Trail ∧ c.Owing)
    (sound_initial id state moments) ?_ fun hc ⟨hr, ht, ho⟩ m => ?_).2.2.2
  · exact ⟨recorded_initial .refl, trail_initial .refl, fun ⟨_, h⟩ => (nomatch h),
      fun ⟨_, h⟩ => (nomatch h), fun _ _ => rfl⟩
  · have change := m.change hc.numbered
    have ht' := ht.of_change hc hr change
    exact ⟨hr.of_change hc change, ht', ho.of_change hc ht (hc.of_move m) ht' change⟩

/-! ## The events of a whole run -/

/-- Whenever the run has made a change of the state, the sink had been told the earlier ones. -/
def Prompt (c : Interleaving) : Prop :=
  ∀ pre m post, c.history = pre ++ m :: post → m.change?.isSome = true →
    pre.filterMap Mark.told? = pre.filterMap Mark.change?

/-- What is told with a change made last is this change, if the earlier ones had been told. -/
private theorem changes_eq_made (prompt : c.Prompt) (perm : c.made.Perm c.changes) :
    c.changes = c.made := by
  rcases List.eq_nil_or_concat c.made with none | ⟨earlier, x, last⟩
  · rw [none] at perm ⊢
    exact perm.nil_eq.symm
  · rw [List.concat_eq_append] at last
    obtain ⟨pre, post, hh, before, after⟩ := List.filterMap_eq_append_iff.mp last
    obtain ⟨silent, m, rest, rfl, quiet, hm, done⟩ := List.filterMap_eq_cons_iff.mp after
    rw [← List.append_assoc] at hh
    have earlier_eq : (pre ++ silent).filterMap Mark.change? = earlier := by
      rw [List.filterMap_append, before, List.filterMap_eq_nil_iff.mpr quiet, List.append_nil]
    have told := prompt _ m rest hh (by rw [hm]; rfl)
    have untold : m.told? = none := by
      cases m <;> first | rfl | cases hm
    have changes : c.changes = earlier ++ rest.filterMap Mark.told? := by
      rw [changes_eq, hh, List.filterMap_append, told, earlier_eq,
        List.filterMap_cons_none untold]
    rw [last, changes] at perm
    rw [changes, last, ← List.singleton_perm.mp ((List.perm_append_left_iff _).mp perm)]

/-- Reports of exits told the sink of at most one change. -/
private theorem countP_isExit (h : c.exitStops ≤ 1) :
    c.changes.countP StateChange.isExit ≤ 1 := by
  rw [changes, List.countP_filterMap]
  refine Nat.le_trans (Nat.le_of_eq (List.countP_congr fun p _ => ?_)) h
  cases p with
  | stateChanged operation => cases operation <;> exact Iff.rfl
  | _ => exact Iff.rfl

/-- **The events are complete, and each kind is in order.** Once every call has returned, the sink
has been told each change of the state once; the changes, in the order in which they were made, are
a path from the initial state to that of the slot, and there is none only if the state is still the
initial one. What the sink has been told of the operations is in the order of the path, and besides
there is at most one change by an exit. So the furthest state that the sink was told of is the one
that the slot holds; and if no change was made before the earlier ones were told, the sink holds the
path itself. -/
theorem changes_reordered {id : String} {state : State} {moments : Nat → Moment}
    (h : Reachable (initial id state moments) c) (idle : c.Idle) :
    StateChange.Path state c.made c.slot.state ∧
    c.changes.Perm c.made ∧
    (∀ exit, StateChange.ofKind exit c.changes = StateChange.ofKind exit c.made) ∧
    c.changes.countP StateChange.isExit ≤ 1 ∧
    (c.changes = [] ↔ c.slot.state = state) ∧
    (∀ x ∈ c.changes, x.target ≤ c.slot.state) ∧
    (c.changes ≠ [] → ∃ x ∈ c.changes, x.target = c.slot.state) ∧
    (c.Prompt → c.changes = c.made) := by
  obtain ⟨path, up⟩ := h.path
  have none : ∀ f, ¬c.Pending f := fun f ⟨u, hf⟩ => by
    rw [idle u] at hf
    cases hf
  have kinds : ∀ exit, StateChange.ofKind exit c.changes = StateChange.ofKind exit c.made :=
    fun exit => ((owing_initial h).paid exit fun f _ hf => absurd hf (none f)).symm
  have perm : c.changes.Perm c.made := StateChange.perm_of_ofKind kinds
  have ht := trail_initial h
  have stops : c.exitStops ≤ 1 :=
    (ht.settled fun f hf => absurd hf (none f)).2 ▸ ht.length_accepted
  refine ⟨path, perm, kinds, countP_isExit stops, ⟨fun none => ?_, fun same => ?_⟩,
    fun x hx => path.target_le up x (perm.mem_iff.mp hx), fun some => ?_,
    fun prompt => changes_eq_made prompt perm.symm⟩
  · rw [none] at perm
    rw [perm.nil_eq.symm] at path
    cases path
    rfl
  · rw [path.eq_nil up same] at perm
    exact perm.eq_nil
  · rcases path.eq_nil_or_mem with ⟨none, -⟩ | ⟨x, hx, e⟩
    · rw [none] at perm
      exact absurd perm.eq_nil some
    · exact ⟨x, perm.mem_iff.mpr hx, e⟩

/-- A start that is told the sink after the exit that follows it. -/
def overtakenStart : List (Caller × Choice) :=
  [(0, .act (.request .start)), (0, .go), (0, .go), (0, .go), (0, .go), (0, .finish (.ok .done)),
    (0, .go), (0, .go), (1, .act (.exited 0)), (1, .go), (1, .go), (1, .go), (1, .go), (1, .go),
    (0, .go), (0, .go), (0, .go)]

private theorem follow?_overtakenStart :
    ∃ c, (initial "web" .created fun _ => Moment.ofMillis 0).follow? overtakenStart = some c ∧
      c.made = [⟨.start, .created, .running⟩, ⟨.setExited, .running, .stopped⟩] ∧
      c.changes = [⟨.setExited, .running, .stopped⟩, ⟨.start, .created, .running⟩] ∧
      c.slot.state = .stopped ∧ ∀ turn ∈ overtakenStart, c.frames turn.1 = [] := by
  refine ⟨_, rfl, rfl, rfl, rfl, ?_⟩
  decide

theorem changes_reordered_overtakenStart :
    ∃ c, Reachable (initial "web" .created fun _ => Moment.ofMillis 0) c ∧ c.Idle ∧
      c.changes = [⟨.setExited, .running, .stopped⟩, ⟨.start, .created, .running⟩] ∧
      StateChange.Path .created c.made .stopped ∧
      (∀ x ∈ c.changes, x.target ≤ .stopped) ∧ ∃ x ∈ c.changes, x.target = .stopped := by
  obtain ⟨c, hc, -, changes, stopped, hframes⟩ := follow?_overtakenStart
  have idle := idle_of_follow? hc (fun _ => rfl) hframes
  obtain ⟨path, -, -, -, -, le, last, -⟩ := changes_reordered (reachable_of_follow? hc) idle
  rw [stopped] at path le last
  exact ⟨c, reachable_of_follow? hc, idle, changes, path, le, last (by rw [changes]; decide)⟩

/-- What the sink was told is not always a path: a start may be told after the exit that follows
it. -/
theorem changes_not_path :
    ¬∀ (id : String) (state : State) (moments : Nat → Moment) (c : Interleaving),
      Reachable (initial id state moments) c → c.Idle →
        StateChange.Path state c.changes c.slot.state := by
  intro claim
  obtain ⟨c, hc, -, changes, -, hframes⟩ := follow?_overtakenStart
  have path := claim _ _ _ c (reachable_of_follow? hc)
    (idle_of_follow? hc (fun _ => rfl) hframes)
  rw [changes] at path
  exact nomatch path.source_eq

end Interleaving

end ContainerInit
