import ContainerInit.Proofs.Interleaving.Sound

/-!
# The history of a run

The marks in the history belong to calls (`Mark.number`), and agree with the calls that are pending
(`Recorded`): each call begins once, with one action, and returns once, with one reply; a pending
call has begun and has not returned. Whatever is reachable is recorded (`recorded_initial`).

A change adds at most one mark (`Change.history_eq`), so a run can be cut at every mark of its
history (`Reachable.cut`): what the history says about the time before a mark held of a
configuration, and the mark was left by the next change.
-/

namespace ContainerInit

namespace Mark

/-- The number of the call that left a mark. -/
def number : Mark → Nat
  | .began _ n _ | .dispatched n _ _ | .called n _ | .answered n _ _ | .committed n _ _
  | .claimed n _ _ | .stopped n _ | .asked n _ _ | .emitted n _ _ | .returned _ n _ => n

/-- The mark is neither the beginning nor the return of a call. -/
def isInner : Mark → Bool
  | .began .. | .returned .. => false
  | _ => true

end Mark

namespace Interleaving

variable {c d : Interleaving} {u : Caller}

/-- A turn of a call leaves marks of this call, and no beginning and no return. -/
theorem Turn.mark_inner {n : Nat} {s stage : Stage} {slot : Slot} {holder : Option Caller}
    {marks : List Mark} (t : Turn c u n s stage slot holder marks) :
    ∀ m ∈ marks, m.number = n ∧ m.isInner = true := by
  intro m hm
  cases t with
  | enter | leave => cases hm
  | _ => rw [List.mem_singleton.mp hm]; exact ⟨rfl, rfl⟩

/-! ## What a change adds -/

/-- A change on the border of a call: the call begins or returns, or waits for the slot lock no
longer. -/
structure Borders (c d : Interleaving) : Prop where
  slot : d.slot = c.slot
  history : ∃ marks, d.history = c.history ++ marks ∧ ∀ m ∈ marks, m.isInner = false
  new : ∀ {g}, d.Pending g → c.Pending g ∨ g.stage = .ofAction c.id g.action
  old : ∀ {g}, c.Pending g → d.Pending g ∨ ∃ reply, g.stage = .returning reply

/-- A change on the border of a call adds nothing to what only marks inside of calls stand for. -/
theorem Borders.filterMap_history {β : Type} {f : Mark → Option β} (hb : c.Borders d)
    (outer : ∀ m : Mark, m.isInner = false → f m = none) :
    d.history.filterMap f = c.history.filterMap f := by
  obtain ⟨marks, hh, hm⟩ := hb.history
  rw [hh, List.filterMap_append, List.filterMap_eq_nil_iff.mpr fun m h => outer m (hm m h),
    List.append_nil]

namespace Change

/-- A change adds one mark to the history, or none. -/
theorem history_eq (m : c.Change d) :
    d.history = c.history ∨ ∃ x, d.history = c.history ++ [x] := by
  cases m with
  | still upd => exact .inl (by rw [upd.history, List.append_nil])
  | begin v action upd => exact .inr ⟨_, upd.history⟩
  | @turn v f stage slot holder marks hf t upd =>
    rw [upd.history]
    generalize f.stage = s at t
    cases t with
    | enter | leave => exact .inl (List.append_nil _)
    | _ => exact .inr ⟨_, rfl⟩
  | finish hf stage upd => exact .inr ⟨_, upd.history⟩

/-- A change is a turn, or it is on the border of a call. -/
theorem borders_or_turn (hc : c.Sound) (m : c.Change d) :
    c.Borders d ∨ ∃ u f stage slot holder marks, c.Pending f ∧
      Turn c u f.number f.stage stage slot holder marks ∧
      c.Becomes d slot holder c.begun marks ∧
      ∀ g, d.Pending g ↔ g = { f with stage } ∨ c.Pending g ∧ g.number ≠ f.number := by
  cases m with
  | still upd pending =>
    exact .inl ⟨upd.slot, ⟨_, upd.history, fun m h => nomatch h⟩,
      fun hg => .inl ((pending _).mp hg), fun hg => .inl ((pending _).mpr hg)⟩
  | begin v action upd pending =>
    refine .inl ⟨upd.slot, ⟨_, upd.history, fun m h => ?_⟩, fun {g} hg => ?_,
      fun hg => .inl ((pending _).mpr (.inr hg))⟩
    · rw [List.mem_singleton.mp h]
      rfl
    · rcases (pending g).mp hg with rfl | hg
      · exact .inr rfl
      · exact .inl hg
  | turn hf t upd pending => exact .inr ⟨_, _, _, _, _, _, hf, t, upd, pending⟩
  | @finish v f reply hf stage upd pending =>
    refine .inl ⟨upd.slot, ⟨_, upd.history, fun m h => ?_⟩,
      fun hg => .inl ((pending _).mp hg).1, fun {g} hg => ?_⟩
    · rw [List.mem_singleton.mp h]
      rfl
    · by_cases hn : g.number = f.number
      · exact .inr ⟨reply, by rw [hc.numbered.pending_eq hg hf hn, stage]⟩
      · exact .inl ((pending g).mpr ⟨hg, hn⟩)

/-- A mark inside of a call is left by a turn of this call. -/
theorem turn_of_mark (m : c.Change d) {x : Mark} (hx : x.isInner = true)
    (hh : d.history = c.history ++ [x]) : ∃ u f stage slot holder, c.Pending f ∧
      f.number = x.number ∧ Turn c u f.number f.stage stage slot holder [x] := by
  cases m with
  | still upd =>
    rw [upd.history] at hh
    cases List.append_cancel_left hh
  | begin v action upd =>
    rw [upd.history] at hh
    cases List.append_cancel_left hh
    cases hx
  | turn hf t upd =>
    rw [upd.history] at hh
    cases List.append_cancel_left hh
    exact ⟨_, _, _, _, _, hf, (t.mark_inner x List.mem_cons_self).1.symm, t⟩
  | finish hf stage upd =>
    rw [upd.history] at hh
    cases List.append_cancel_left hh
    cases hx

/-- The history only grows. -/
theorem mem_history (m : c.Change d) {x : Mark} (h : x ∈ c.history) : x ∈ d.history := by
  cases m with
  | still upd | begin _ _ upd | turn _ _ upd | finish _ _ upd =>
    rw [upd.history]
    exact List.mem_append_left _ h

/-- Calls that are pending after a change were pending before, or begin with it. -/
theorem origin (m : c.Change d) {g : Frame} (hg : d.Pending g) :
    (∃ f, c.Pending f ∧ f.number = g.number ∧ f.action = g.action) ∨
      g.number = c.begun ∧ ∃ v, .began v g.number g.action ∈ d.history := by
  cases m with
  | still upd pending => exact .inl ⟨g, (pending g).mp hg, rfl, rfl⟩
  | begin v action upd pending =>
    rcases (pending g).mp hg with rfl | hg
    · refine .inr ⟨rfl, v, ?_⟩
      rw [upd.history]
      exact List.mem_append_right _ List.mem_cons_self
    · exact .inl ⟨g, hg, rfl, rfl⟩
  | turn hf t upd pending =>
    rcases (pending g).mp hg with rfl | ⟨hg, -⟩
    · exact .inl ⟨_, hf, rfl, rfl⟩
    · exact .inl ⟨g, hg, rfl, rfl⟩
  | finish hf stage upd pending => exact .inl ⟨g, ((pending g).mp hg).1, rfl, rfl⟩

/-- A beginning that was not there before is that of the next call. -/
theorem began (m : c.Change d) {n : Nat} {a : Action} (h : .began u n a ∈ d.history) :
    .began u n a ∈ c.history ∨ n = c.begun ∧ d.history = c.history ++ [.began u n a] := by
  cases m with
  | still upd =>
    rw [upd.history, List.append_nil] at h
    exact .inl h
  | begin v action upd =>
    rw [upd.history, List.mem_append, List.mem_singleton] at h
    refine h.imp_right fun h => ?_
    cases h
    exact ⟨rfl, upd.history⟩
  | turn hf t upd =>
    rw [upd.history, List.mem_append] at h
    exact .inl (h.resolve_right fun h => nomatch (t.mark_inner _ h).2)
  | finish hf stage upd =>
    rw [upd.history, List.mem_append, List.mem_singleton] at h
    exact .inl (h.resolve_right fun h => nomatch h)

/-- A return that was not there before is that of a call that was about to return. -/
theorem returned (m : c.Change d) {n : Nat} {r : Reply} (h : .returned u n r ∈ d.history) :
    .returned u n r ∈ c.history ∨ ∃ f, c.Pending f ∧ f.number = n ∧ f.stage = .returning r ∧
      ∀ g, d.Pending g → g.number ≠ n := by
  cases m with
  | still upd =>
    rw [upd.history, List.append_nil] at h
    exact .inl h
  | begin v action upd =>
    rw [upd.history, List.mem_append, List.mem_singleton] at h
    exact .inl (h.resolve_right fun h => nomatch h)
  | turn hf t upd =>
    rw [upd.history, List.mem_append] at h
    exact .inl (h.resolve_right fun h => nomatch (t.mark_inner _ h).2)
  | finish hf stage upd pending =>
    rw [upd.history, List.mem_append, List.mem_singleton] at h
    refine h.imp_right fun h => ?_
    cases h
    exact ⟨_, hf, rfl, stage, fun g hg => ((pending g).mp hg).2⟩

/-- A claim that was not there before is made by the report of an exit with its code. -/
theorem claimed (hc : c.Sound) (m : c.Change d) {n : Nat} {code : Int32} {claim : Claim}
    (h : .claimed n code claim ∈ d.history) :
    .claimed n code claim ∈ c.history ∨
      ∃ f, c.Pending f ∧ f.number = n ∧ f.action = .exited code := by
  cases m with
  | still upd =>
    rw [upd.history, List.append_nil] at h
    exact .inl h
  | begin v action upd =>
    rw [upd.history, List.mem_append, List.mem_singleton] at h
    exact .inl (h.resolve_right fun h => nomatch h)
  | @turn v f stage slot holder marks hf t upd =>
    rw [upd.history, List.mem_append] at h
    refine h.imp_right fun h => ⟨f, hf, (t.mark_inner (.claimed ..) h).1.symm, ?_⟩
    have hsuits := hc.suits hf
    generalize f.stage = s at t hsuits
    cases t with
    | enter | leave => cases h
    | ignore | claim | claimFrozen =>
      cases List.mem_singleton.mp h
      exact hsuits
    | _ => cases List.mem_singleton.mp h
  | finish hf stage upd =>
    rw [upd.history, List.mem_append, List.mem_singleton] at h
    exact .inl (h.resolve_right fun h => nomatch h)

end Change

/-! ## Agreement with the pending calls -/

/-- The history agrees with the pending calls (module doc). -/
structure Recorded (c : Interleaving) : Prop where
  began : ∀ {f}, c.Pending f → ∃ u, .began u f.number f.action ∈ c.history
  below : ∀ m ∈ c.history, m.number < c.begun
  once : ∀ {u v n a b}, .began u n a ∈ c.history → .began v n b ∈ c.history → a = b
  unreturned : ∀ {f}, c.Pending f → ∀ u r, .returned u f.number r ∉ c.history
  single : ∀ {u v n r s}, .returned u n r ∈ c.history → .returned v n s ∈ c.history → r = s
  /-- An exit is claimed with the code that it was reported with. -/
  claimed : ∀ {n code claim}, .claimed n code claim ∈ c.history →
    ∃ u, .began u n (.exited code) ∈ c.history

namespace Recorded

/-- The next call has left no mark. -/
theorem fresh (hr : c.Recorded) {m : Mark} (h : m.number = c.begun) : m ∉ c.history :=
  fun hm => Nat.lt_irrefl _ (h ▸ hr.below m hm)

private theorem below_of_change (hc : c.Sound) (hr : c.Recorded) (m : c.Change d) :
    ∀ x ∈ d.history, x.number < d.begun := by
  intro x hx
  cases m with
  | still upd =>
    rw [upd.history, List.append_nil] at hx
    rw [upd.begun]
    exact hr.below x hx
  | begin v action upd =>
    rw [upd.history, List.mem_append, List.mem_singleton] at hx
    rw [upd.begun]
    rcases hx with hx | rfl
    · exact Nat.lt_succ_of_lt (hr.below x hx)
    · exact Nat.lt_succ_self _
  | turn hf t upd =>
    rw [upd.history, List.mem_append] at hx
    rw [upd.begun]
    rcases hx with hx | hx
    · exact hr.below x hx
    · rw [(t.mark_inner x hx).1]
      exact hc.numbered.pending_lt hf
  | finish hf stage upd =>
    rw [upd.history, List.mem_append, List.mem_singleton] at hx
    rw [upd.begun]
    rcases hx with hx | rfl
    · exact hr.below x hx
    · exact hc.numbered.pending_lt hf

/-- The history stays in agreement with the pending calls. -/
theorem of_change (hc : c.Sound) (hr : c.Recorded) (m : c.Change d) : d.Recorded where
  began hg := by
    rcases m.origin hg with ⟨f, hf, hn, ha⟩ | ⟨-, h⟩
    · obtain ⟨v, hv⟩ := hr.began hf
      exact ⟨v, m.mem_history (hn ▸ ha ▸ hv)⟩
    · exact h
  below := hr.below_of_change hc m
  once ha hb := by
    rcases m.began ha with ha' | ⟨hn, hh⟩
    · rcases m.began hb with hb' | ⟨hn, -⟩
      · exact hr.once ha' hb'
      · exact absurd ha' (hr.fresh hn)
    · rw [hh, List.mem_append, List.mem_singleton] at hb
      rcases hb with hb | hb
      · exact absurd hb (hr.fresh hn)
      · cases hb; rfl
  unreturned hg v r h := by
    rcases m.returned h with h | ⟨f, -, -, -, gone⟩
    · rcases m.origin hg with ⟨f, hf, hn, -⟩ | ⟨hn, -⟩
      · exact hr.unreturned hf v r (hn ▸ h)
      · exact hr.fresh (m := .returned ..) hn h
    · exact gone _ hg rfl
  single h h' := by
    rcases m.returned h with h | ⟨f, hf, hn, hs, -⟩ <;>
      rcases m.returned h' with h' | ⟨g, hg, hn', hs', -⟩
    · exact hr.single h h'
    · exact absurd (hn' ▸ h) (hr.unreturned hg _ _)
    · exact absurd (hn ▸ h') (hr.unreturned hf _ _)
    · rw [hc.numbered.pending_eq hf hg (hn.trans hn'.symm), hs'] at hs
      exact (Stage.returning.inj hs).symm
  claimed h := by
    rcases m.claimed hc h with h | ⟨f, hf, rfl, ha⟩
    · obtain ⟨v, hv⟩ := hr.claimed h
      exact ⟨v, m.mem_history hv⟩
    · obtain ⟨v, hv⟩ := hr.began hf
      exact ⟨v, m.mem_history (ha ▸ hv)⟩

end Recorded

/-- **Runs can be cut at every mark.** Before a mark was left, the history ended right before it. -/
theorem Reachable.cut {id : String} {state : State} {moments : Nat → Moment}
    (h : Reachable (initial id state moments) c) {pre post : List Mark} {x : Mark}
    (hh : c.history = pre ++ x :: post) :
    ∃ a b, Reachable (initial id state moments) a ∧ a.Sound ∧ a.Change b ∧ Reachable b c ∧
      a.history = pre ∧ b.history = a.history ++ [x] := by
  induction h generalizing post with
  | refl => cases pre <;> cases hh
  | @step c d u choice reachable taken ih =>
    have hc := reachable.sound (sound_initial id state moments)
    have m := (hc.move taken).change hc.numbered
    have later : ∀ {post'}, c.history = pre ++ x :: post' →
        ∃ a b, Reachable (initial id state moments) a ∧ a.Sound ∧ a.Change b ∧ Reachable b d ∧
          a.history = pre ∧ b.history = a.history ++ [x] := by
      intro post' hp
      obtain ⟨a, b, ha, sound, hab, hb, e, e'⟩ := ih hp
      exact ⟨a, b, ha, sound, hab, .step u choice hb taken, e, e'⟩
    rcases m.history_eq with e | ⟨y, e⟩
    · exact later (e ▸ hh)
    · rw [e] at hh
      rcases List.eq_nil_or_concat post with rfl | ⟨post', z, rfl⟩
      · obtain ⟨rfl, hy⟩ := List.append_inj' hh rfl
        cases hy
        exact ⟨c, d, reachable, hc, m, .refl, rfl, e⟩
      · rw [List.concat_eq_append, ← List.cons_append, ← List.append_assoc] at hh
        exact later (List.append_inj' hh rfl).1

/-- The history of a run that started from scratch agrees with the pending calls. -/
theorem recorded_initial {id : String} {state : State} {moments : Nat → Moment}
    (h : Reachable (initial id state moments) c) : c.Recorded := by
  refine (h.invariant (P := Recorded) (sound_initial id state moments) ?_
    fun hc hr m => hr.of_change hc (m.change hc.numbered)).2
  exact ⟨fun ⟨_, h⟩ => (nomatch h), fun _ h => (nomatch h), fun h _ => (nomatch h),
    fun _ _ _ h => (nomatch h), fun h _ => (nomatch h), fun h => (nomatch h)⟩

end Interleaving

end ContainerInit
