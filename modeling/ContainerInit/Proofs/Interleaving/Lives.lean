import ContainerInit.Proofs.Interleaving.Exits

/-!
# State and exit go together

The state of a process and its recorded exit are two fields that different calls write at different
times. Still, at every moment, and so in every answer to a question, they fit together, and the
state only moves forward (`slot_consistent`).

- **Frozen exits** (`Reachable.compensating`): a frozen process with an exit has one call that is
  about to stop it.
- **Questions** (`seen`, `Reachable.slot_of_seen`, `Replied`): what was seen was once the slot, and
  what was replied was seen.
-/

namespace ContainerInit

/-- The slot that a question was answered from. -/
def Mark.seen? : Mark → Option Slot
  | .asked _ _ slot => some slot
  | _ => none

namespace Interleaving

variable {c d : Interleaving} {u : Caller}

/-- The slots that questions were answered from, oldest first. -/
def seen (c : Interleaving) : List Slot :=
  c.history.filterMap Mark.seen?

/-! ## Frozen exits -/

/-- A turn that ends with a frozen process and an exit began with both, or is at the recording. -/
private theorem Turn.compensating_of_paused {n : Nat} {s stage : Stage} {slot : Slot}
    {holder : Option Caller} {marks : List Mark} {action : Action}
    (t : Turn c u n s stage slot holder marks) (h : s.Suits c.id action)
    (hs : slot.state = .paused) :
    stage.isCompensating = true ∨ slot = c.slot ∧ s.isCompensating = false := by
  cases t with
  | install =>
    rcases target_of_dispatch h.2 with ⟨rfl, -⟩ | rfl <;> cases hs
  | claim | stop => cases hs
  | claimFrozen | recordFrozen | resume | resumed | resumeFail | tellResumeFailure => exact .inl rfl
  | _ => exact .inr ⟨rfl, rfl⟩

/-- A frozen exit stays on its way until the process is stopped. -/
private theorem compensating_of_change (hc : c.Sound)
    (ih : c.slot.state = .paused → c.slot.exit.isSome = true →
      ∃ f, c.Pending f ∧ f.stage.isCompensating = true)
    (m : c.Change d) (hs : d.slot.state = .paused) (hx : d.slot.exit.isSome = true) :
    ∃ f, d.Pending f ∧ f.stage.isCompensating = true := by
  cases m with
  | still upd pending =>
    rw [upd.slot] at hs hx
    obtain ⟨f, hf, ef⟩ := ih hs hx
    exact ⟨f, (pending f).mpr hf, ef⟩
  | begin v action upd pending =>
    rw [upd.slot] at hs hx
    obtain ⟨f, hf, ef⟩ := ih hs hx
    exact ⟨f, (pending f).mpr (.inr hf), ef⟩
  | @turn v f stage slot holder marks hf t upd pending =>
    rw [upd.slot] at hs hx
    rcases t.compensating_of_paused (hc.suits hf) hs with h | ⟨rfl, h⟩
    · exact ⟨_, (pending _).mpr (.inl rfl), h⟩
    · obtain ⟨g, hg, eg⟩ := ih hs hx
      refine ⟨g, (pending g).mpr (.inr ⟨hg, fun hn => ?_⟩), eg⟩
      rw [hc.numbered.pending_eq hg hf hn, h] at eg
      cases eg
  | @finish v f reply hf stage upd pending =>
    rw [upd.slot] at hs hx
    obtain ⟨g, hg, eg⟩ := ih hs hx
    refine ⟨g, (pending g).mpr ⟨hg, fun hn => ?_⟩, eg⟩
    rw [hc.numbered.pending_eq hg hf hn, stage] at eg
    cases eg

/-- **Frozen exits are on their way.** A frozen process with an exit has a call that is about to
stop it. -/
theorem Reachable.compensating {id : String} {state : State} {moments : Nat → Moment}
    (h : Reachable (initial id state moments) c) (hs : c.slot.state = .paused)
    (hx : c.slot.exit.isSome = true) : ∃ f, c.Pending f ∧ f.stage.isCompensating = true := by
  refine (h.invariant (P := fun c => c.slot.state = .paused → c.slot.exit.isSome = true →
    ∃ f, c.Pending f ∧ f.stage.isCompensating = true) (sound_initial id state moments)
    (fun _ hx => (nomatch hx)) fun hc ih m hs hx => ?_).2 hs hx
  exact compensating_of_change hc ih (m.change hc.numbered) hs hx

/-! ## Questions -/

private theorem Turn.seen {n : Nat} {s stage : Stage} {slot : Slot} {holder : Option Caller}
    {marks : List Mark} (t : Turn c u n s stage slot holder marks) :
    marks.filterMap Mark.seen? = [] ∨ marks.filterMap Mark.seen? = [c.slot] := by
  cases t with
  | answer => exact .inr rfl
  | _ => exact .inl rfl

/-- A change lets a question see the slot, or none does. -/
private theorem Change.seen (m : c.Change d) : d.seen = c.seen ∨ d.seen = c.seen ++ [c.slot] := by
  have seen_eq : ∀ {marks : List Mark}, d.history = c.history ++ marks →
      d.seen = c.seen ++ marks.filterMap Mark.seen? := by
    intro marks h
    rw [Interleaving.seen, h, List.filterMap_append]
    rfl
  cases m with
  | still upd | begin _ _ upd | finish _ _ upd =>
    exact .inl (by rw [seen_eq upd.history]; exact List.append_nil _)
  | turn _ t upd =>
    rw [seen_eq upd.history]
    rcases t.seen with h | h
    · exact .inl (by rw [h, List.append_nil])
    · exact .inr (by rw [h])

/-- **What a question sees was the slot once**, at some configuration of the run. -/
theorem Reachable.slot_of_seen {id : String} {state : State} {moments : Nat → Moment}
    (h : Reachable (initial id state moments) c) {s : Slot} (hs : s ∈ c.seen) :
    ∃ b, Reachable (initial id state moments) b ∧ Reachable b c ∧ b.slot = s := by
  induction h with
  | refl => cases hs
  | @step c d u choice reachable taken ih =>
    have hc := reachable.sound (sound_initial id state moments)
    have after : Reachable c d := .step u choice .refl taken
    have old : s ∈ c.seen →
        ∃ b, Reachable (initial id state moments) b ∧ Reachable b d ∧ b.slot = s := by
      intro hs
      obtain ⟨b, hb, hbc, e⟩ := ih hs
      exact ⟨b, hb, hbc.trans after, e⟩
    rcases ((hc.move taken).change hc.numbered).seen with he | he
    · exact old (he ▸ hs)
    · rw [he] at hs
      rcases List.mem_append.mp hs with hs | hs
      · exact old hs
      · exact ⟨c, reachable, after, (List.mem_singleton.mp hs).symm⟩

/-- Later questions see later slots. -/
private theorem Reachable.seen_pairwise {id : String} {state : State} {moments : Nat → Moment}
    (h : Reachable (initial id state moments) c) :
    c.seen.Pairwise fun s t => s.state ≤ t.state ∧ ∀ e, s.exit = some e → t.exit = some e := by
  induction h with
  | refl => exact .nil
  | @step c d u choice reachable taken ih =>
    have hc := reachable.sound (sound_initial id state moments)
    rcases ((hc.move taken).change hc.numbered).seen with he | he
    · rw [he]; exact ih
    · rw [he, List.pairwise_append]
      refine ⟨ih, List.pairwise_singleton _ _, fun s hs t ht => ?_⟩
      obtain ⟨b, hb, hbc, rfl⟩ := reachable.slot_of_seen hs
      obtain ⟨written, -, life⟩ := hbc.life (hb.sound (sound_initial id state moments))
      rw [List.mem_singleton.mp ht]
      exact ⟨life.le, fun e => life.exit_eq⟩

/-- Replies to questions come from what was seen; the identity is known without looking. -/
structure Replied (c : Interleaving) : Prop where
  pending : ∀ {f q r}, c.Pending f → f.action = .query q → f.stage = .returning r → q ≠ .id →
    ∃ s, .asked f.number q s ∈ c.history ∧ r = q.reply ⟨c.id, s.state, s.exit⟩
  returned : ∀ {u v n q r}, .began u n (.query q) ∈ c.history → .returned v n r ∈ c.history →
    q ≠ .id → ∃ s, .asked n q s ∈ c.history ∧ r = q.reply ⟨c.id, s.state, s.exit⟩

/-- A turn that settles the reply to a question sees the slot. -/
private theorem Turn.replied {n : Nat} {s stage : Stage} {slot : Slot} {holder : Option Caller}
    {marks : List Mark} {q : Query} {r : Reply} (t : Turn c u n s stage slot holder marks)
    (h : s.Suits c.id (.query q)) (hr : stage = .returning r) :
    .asked n q c.slot ∈ marks ∧ r = q.reply ⟨c.id, c.slot.state, c.slot.exit⟩ := by
  cases t with
  | answer => cases h; cases hr; exact ⟨List.mem_cons_self, rfl⟩
  | leave | ignore => cases h
  | tellStop => obtain ⟨code, h⟩ := h; cases h
  | _ => cases hr

private theorem replied_of_change (hc : c.Sound) (hr : c.Recorded) (hp : c.Replied)
    (m : c.Change d) : d.Replied := by
  have kept : ∀ {n q r},
      (∃ s, .asked n q s ∈ c.history ∧ r = Query.reply ⟨c.id, s.state, s.exit⟩ q) →
      ∃ s, .asked n q s ∈ d.history ∧ r = Query.reply ⟨d.id, s.state, s.exit⟩ q := by
    rintro n q r ⟨s, hs, e⟩
    rw [m.id_eq]
    exact ⟨s, m.mem_history hs, e⟩
  refine ⟨fun {g q r} hg ha hs hq => ?_, fun {v w n q r} hb h hq => ?_⟩
  · cases m with
    | still upd pending => exact kept (hp.pending ((pending g).mp hg) ha hs hq)
    | begin v action upd pending =>
      rcases (pending g).mp hg with rfl | hg
      · cases ha
        cases q <;> first | exact absurd rfl hq | cases hs
      · exact kept (hp.pending hg ha hs hq)
    | @turn v f stage slot holder marks hf t upd pending =>
      rcases (pending g).mp hg with rfl | ⟨hg, -⟩
      · have hsuits := hc.suits hf
        rw [show f.action = .query q from ha] at hsuits
        obtain ⟨hm, e⟩ := t.replied hsuits hs
        rw [upd.history, upd.id]
        exact ⟨c.slot, List.mem_append_right _ hm, e⟩
      · exact kept (hp.pending hg ha hs hq)
    | finish hf stage upd pending => exact kept (hp.pending ((pending g).mp hg).1 ha hs hq)
  · rcases m.returned h with h | ⟨f, hf, rfl, stage, -⟩
    · refine kept (hp.returned ((m.began hb).resolve_right fun ⟨hn, _⟩ => ?_) h hq)
      exact hr.fresh (m := .returned ..) hn h
    · have hb := (m.began hb).resolve_right fun ⟨hn, _⟩ =>
        Nat.ne_of_lt (hc.numbered.pending_lt hf) hn
      obtain ⟨w, hw⟩ := hr.began hf
      exact kept (hp.pending hf (hr.once hw hb) stage hq)

private theorem replied_initial {id : String} {state : State} {moments : Nat → Moment}
    (h : Reachable (initial id state moments) c) : c.Replied := by
  refine (h.invariant (P := fun c => c.Recorded ∧ c.Replied) (sound_initial id state moments) ?_
    fun hc ⟨hr, hp⟩ m => ?_).2.2
  · exact ⟨recorded_initial .refl, fun ⟨_, h⟩ => (nomatch h), fun h => (nomatch h)⟩
  · have m := m.change hc.numbered
    exact ⟨hr.of_change hc m, replied_of_change hc hr hp m⟩

/-! ## State and exit -/

/-- **State and exit go together**, whoever calls a process and in whatever order.

- A recorded exit belongs to a process that is stopped or deleted, or to a frozen one, and then
  exactly one call is about to stop it: the one whose report was accepted.
- A process that began as created is stopped by an exit only; once it has been running, it is also
  deleted after an exit only.
- The state moves along the edges of the transition table, forward in the order of a life, and a
  process that did not begin frozen never is.
- What a question sees was the slot at some time of the run, later questions see later slots, and
  the reply to a question is what was seen. -/
theorem slot_consistent {id : String} {state : State} {moments : Nat → Moment}
    (h : Reachable (initial id state moments) c) :
    (c.slot.exit.isSome = true → c.slot.state = .stopped ∨ c.slot.state = .deleted ∨
      c.slot.state = .paused ∧ ∃ f, c.Pending f ∧ f.stage.isCompensating = true ∧
        c.accepted = [f.number] ∧ ∀ g, c.Pending g → g.stage.isCompensating = true → g = f) ∧
    (state = .created →
      (c.slot.state = .stopped → c.slot.exit.isSome = true) ∧
      ((∃ w ∈ c.writes, w.state = .running) → c.slot.state = .deleted →
        c.slot.exit.isSome = true)) ∧
    (∀ u choice d, c.step? u choice = some d →
      d.slot.state = c.slot.state ∨ c.slot.state.mayBecome d.slot.state = true) ∧
    (∀ d, Reachable c d → c.slot.state ≤ d.slot.state) ∧
    (state ≠ .paused → c.slot.state ≠ .paused) ∧
    (∀ s ∈ c.seen, ∃ b, Reachable (initial id state moments) b ∧ Reachable b c ∧ b.slot = s) ∧
    c.seen.Pairwise (fun s t => s.state ≤ t.state ∧ ∀ e, s.exit = some e → t.exit = some e) ∧
    ∀ u v n q r, .began u n (.query q) ∈ c.history → .returned v n r ∈ c.history → q ≠ .id →
      ∃ s, .asked n q s ∈ c.history ∧ r = q.reply ⟨c.id, s.state, s.exit⟩ := by
  have hc := h.sound (sound_initial id state moments)
  have ht := trail_initial h
  have life := life_initial h
  refine ⟨fun hx => ?_, fun hs => ?_, fun u choice d taken => ?_, fun d hd => ?_, life.ne_paused,
    fun s => h.slot_of_seen, h.seen_pairwise, fun u v n q r => (replied_initial h).returned⟩
  · cases hs : c.slot.state with
    | stopped => exact .inl rfl
    | deleted => exact .inr (.inl rfl)
    | created | running =>
      rw [life.exit_none rfl (by rw [hs]; simp)] at hx
      cases hx
    | paused =>
      obtain ⟨f, hf, ef⟩ := h.compensating hs hx
      refine .inr (.inr ⟨rfl, f, hf, ef, ?_, fun g hg eg => ?_⟩)
      · have told : f.stage.told?.isSome = true := by
          generalize f.stage = s at ef
          cases s <;> first | rfl | cases ef
        obtain ⟨b, hb⟩ := Option.isSome_iff_exists.mp told
        exact ht.accepted_eq (ht.told hf hb).1
      · exact hc.numbered.pending_eq hg hf (hc.single hg hf eg ef)
  · subst hs
    obtain ⟨stopped, ran⟩ := life.exit_isSome rfl
    refine ⟨stopped, fun hw hd => (ran hw).resolve_left fun hr => ?_⟩
    rw [hd] at hr
    cases hr
  · rcases hc.write ((hc.move taken).change hc.numbered) with ⟨he, -⟩ | ⟨w, -⟩
    · exact .inl (by rw [he])
    · exact w.mayBecome
  · obtain ⟨written, -, life⟩ := hd.life hc
    exact life.le

/-- The exit of a frozen process is recorded, and another caller looks at the process before it is
resumed. -/
def watchedExit : List (Caller × Choice) :=
  [(0, .act (.exited 7)), (0, .go), (0, .go), (1, .act (.query .snapshot)), (1, .go), (1, .go),
    (0, .go), (1, .go), (0, .go)]

theorem slot_consistent_watchedExit :
    ∃ c, Reachable (initial "web" .paused fun _ => Moment.ofMillis 0) c ∧
      c.seen.map Slot.state = [.paused] ∧ (∀ s ∈ c.seen, ∃ b, Reachable b c ∧ b.slot = s) ∧
      ∃ f, c.Pending f ∧ f.stage.isCompensating = true ∧ c.accepted = [f.number] := by
  have run : ∃ c, (initial "web" .paused fun _ => Moment.ofMillis 0).follow? watchedExit = some c ∧
      c.slot.state = .paused ∧ c.slot.exit.isSome = true ∧ c.seen.map Slot.state = [.paused] :=
    ⟨_, rfl, rfl, rfl, rfl⟩
  obtain ⟨c, hc, hs, hx, hseen⟩ := run
  have reachable := reachable_of_follow? hc
  obtain ⟨frozen, -, -, -, -, past, -⟩ := slot_consistent reachable
  refine ⟨c, reachable, hseen, fun s hm => ?_, ?_⟩
  · obtain ⟨b, -, hb⟩ := past s hm
    exact ⟨b, hb⟩
  · rcases frozen hx with h | h | ⟨-, f, hf, ef, ha, -⟩
    · rw [hs] at h; cases h
    · rw [hs] at h; cases h
    · exact ⟨f, hf, ef, ha⟩

end Interleaving

end ContainerInit
