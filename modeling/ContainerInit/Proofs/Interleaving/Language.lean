import ContainerInit.Proofs.Interleaving.Calls
import ContainerInit.Proofs.Interleaving.Schedule

/-!
# The language of the calls of the controller

What the controller of a process is called for, and in what order, whoever acts on the process
(`calls_lawful`).

- **Looking back** (`Reachable.dispatched_of_called`, `Reachable.claimed_of_called`): what a call in
  the history has been made for.
- **Deletions** (`Reachable.deletion_not_superseded`, `Reachable.deletion_is_final`): the commit of
  a deletion is the end.
-/

namespace ContainerInit

namespace Interleaving

variable {c d : Interleaving}

/-! ## Looking back from a call -/

section Cut

variable {id : String} {state : State} {moments : Nat → Moment} {pre post : List Mark} {n : Nat}
  {call : Call}

/-- What the history has written before a mark, the slot held right before it. -/
private theorem Reachable.life_of_history (h : Reachable (initial id state moments) c)
    (hh : c.history = pre) : Slot.Life { state } (pre.filterMap Mark.write?) c.slot := by
  rw [← hh]
  exact life_initial h

theorem grounded_initial (h : Reachable (initial id state moments) c) : c.Grounded := by
  refine (h.invariant (P := Grounded) (sound_initial id state moments) ?_
    fun hc hg m => hg.of_change hc (m.change hc.numbered)).2
  exact ⟨fun ⟨_, h⟩ => (nomatch h), fun ⟨_, h⟩ => nomatch h⟩

/-- The identity of a process stays. -/
theorem Reachable.id_eq (h : Reachable (initial id state moments) c) : c.id = id :=
  (h.invariant (P := fun c => c.id = id) (sound_initial id state moments) rfl
    fun hc ih m => (m.change hc.numbered).id_eq.trans ih).2

/-- An operation is dispatched in the state that the slot holds. -/
private theorem Reachable.dispatched_in (h : Reachable (initial id state moments) c) {r : Request}
    {s : State} (hh : c.history = pre ++ .dispatched n r s :: post) :
    ∃ slot, Slot.Life { state } (pre.filterMap Mark.write?) slot ∧ slot.state = s := by
  obtain ⟨a, b, ha, -, hab, -, he, e⟩ := h.cut hh
  obtain ⟨u, f, stage, slot, holder, hf, -, t⟩ := hab.turn_of_mark rfl e
  refine ⟨a.slot, ha.life_of_history he, ?_⟩
  generalize f.stage = s at t
  cases t <;> rfl

/-- **Calls follow their dispatch.** A call that was made for a request carries it out, and the
state that the request was dispatched in accepts it. -/
theorem Reachable.dispatched_of_called (h : Reachable (initial id state moments) c)
    (hh : c.history = pre ++ .called n call :: post) (hr : call.isResume = false) :
    ∃ pre₁ r s pre₂ next, pre = pre₁ ++ .dispatched n r s :: pre₂ ∧ r.call? id = some call ∧
      s.dispatch r.operation = .ok (.delegate next) := by
  obtain ⟨a, b, ha, sound, hab, -, he, e⟩ := h.cut hh
  obtain ⟨u, f, stage, slot, holder, hf, hn, t⟩ := hab.turn_of_mark rfl e
  have suits := sound.suits hf
  generalize hs : f.stage = s at t suits
  cases t with
  | @call r _ source next =>
    have ground := (grounded_initial ha).dispatched hf hs
    rw [he, hn] at ground
    obtain ⟨pre₁, pre₂, hp⟩ := List.append_of_mem ground
    exact ⟨pre₁, r, source, pre₂, next, hp, ha.id_eq ▸ suits.2.2, suits.2.1⟩
  | resume => cases hr

/-- **Resumes follow the claim of an exit.** A process is resumed that was frozen from the start,
by the call that has claimed its exit. -/
theorem Reachable.claimed_of_called (h : Reachable (initial id state moments) c)
    (hh : c.history = pre ++ .called n call :: post) (hr : call.isResume = true) :
    state = .paused ∧ ∃ u code slot, .began u n (.exited code) ∈ pre ∧
      .claimed n code (.accepted .paused true slot) ∈ pre := by
  obtain ⟨a, b, ha, sound, hab, -, he, e⟩ := h.cut hh
  obtain ⟨u, f, stage, slot, holder, hf, hn, t⟩ := hab.turn_of_mark rfl e
  have suits := sound.suits hf
  generalize hs : f.stage = s at t suits
  cases t with
  | call =>
    rw [Request.not_isResume suits.2.1 suits.2.2] at hr
    cases hr
  | resume =>
    have compensating : f.stage.isCompensating = true := by rw [hs]; rfl
    refine ⟨Decidable.by_contra fun hne => ?_, ?_⟩
    · exact (life_initial ha).ne_paused hne (sound.window hf compensating).1
    · obtain ⟨code, slot, hm⟩ := (grounded_initial ha).claimed hf compensating
      rw [hn] at hm
      obtain ⟨v, hv⟩ := (recorded_initial ha).claimed hm
      rw [he] at hm hv
      exact ⟨v, code, slot, hv, hm⟩

/-- No call begins on a deleted process. -/
private theorem Sound.not_called (hc : c.Sound) (m : c.Change d)
    (hh : d.history = c.history ++ [.called n call]) : c.slot.state ≠ .deleted := by
  intro hd
  obtain ⟨u, f, stage, slot, holder, hf, -, t⟩ := m.turn_of_mark rfl hh
  have suits := hc.suits hf
  have source := @hc.source f
  have window := hc.window hf
  rw [hd] at source window
  generalize f.stage = s at t suits source window
  cases t with
  | @call r _ s next =>
    rcases source hf rfl with rfl | h
    · have hd := suits.2.1
      cases r <;> cases hd
    · cases h
  | resume => cases (window rfl).1

/-- The commit of a deletion is never superseded. -/
theorem Reachable.deletion_not_superseded (h : Reachable (initial id state moments) c)
    {current : State} : .committed n .delete (.superseded current) ∉ c.history := by
  intro mem
  obtain ⟨pre, post, hh⟩ := List.append_of_mem mem
  obtain ⟨a, b, ha, sound, hab, -, he, e⟩ := h.cut hh
  obtain ⟨u, f, stage, slot, holder, hf, -, t⟩ := hab.turn_of_mark rfl e
  have suits := sound.suits hf
  have source := @sound.source f
  generalize f.stage = s at t suits source
  cases t with
  | @supersede _ answer _ target hne hm =>
    rw [(source hf rfl).resolve_left hne] at hm
    rcases Operation.start_or_delete suits.2 with ⟨ho, -⟩ | ⟨-, rfl⟩
    · cases ho
    · cases hm

/-- The commit of a deletion deletes the process, and no call begins any more. -/
theorem Reachable.deletion_is_final (h : Reachable (initial id state moments) c)
    {previous : State} {slot : Slot}
    (hh : c.history = pre ++ .committed n .delete (.installed previous slot) :: post) :
    slot.state = .deleted ∧ ∀ m ∈ post, m.call? = none := by
  have deleted : slot.state = .deleted := by
    obtain ⟨a, b, ha, sound, hab, -, he, e⟩ := h.cut hh
    obtain ⟨u, f, stage, after, holder, hf, -, t⟩ := hab.turn_of_mark rfl e
    have suits := sound.suits hf
    generalize f.stage = s at t suits
    cases t with
    | install =>
      rcases Operation.start_or_delete suits.2 with ⟨ho, -⟩ | ⟨-, rfl⟩
      · cases ho
      · rfl
  refine ⟨deleted, fun m hm => Option.eq_none_iff_forall_ne_some.mpr fun call hcall => ?_⟩
  cases m with
  | called k call' =>
    obtain ⟨post₁, post₂, rfl⟩ := List.append_of_mem hm
    rw [← List.cons_append, ← List.append_assoc] at hh
    obtain ⟨a, b, ha, sound, hab, -, he, e⟩ := h.cut hh
    have life := ha.life_of_history he
    have written : slot ∈ (pre ++ .committed n .delete (.installed previous slot) :: post₁).filterMap
        Mark.write? :=
      List.mem_filterMap.mpr ⟨_, List.mem_append_right _ List.mem_cons_self, rfl⟩
    exact sound.not_called hab e (State.eq_deleted_of_le (deleted ▸ life.le_of_mem written))
  | _ => cases hcall

end Cut

/-! ## The language of calls -/

/-- **The calls of the controller keep to their language**, whoever acts on a process and in
whatever order.

- The calls that are made for requests begin and end in turn: at most one is in flight.
- Each of them follows the dispatch of its request in the state that the slot then held. A start
  was dispatched in `created`; what was dispatched after `stopped` had been installed is a kill or a
  deletion. No call writes a checkpoint.
- A process is resumed for an exit that was accepted, if it was frozen from the start, and at most
  once.
- At most one start succeeds, and at most one deletion. The commit of a deletion is not superseded,
  and after it no call begins. -/
theorem calls_lawful {id : String} {state : State} {moments : Nat → Moment}
    (h : Reachable (initial id state moments) c) :
    (c.opened = c.closed ∨ ∃ n, c.opened = c.closed ++ [n]) ∧
    (∀ pre n call post, c.history = pre ++ .called n call :: post → call.isResume = false →
      ∃ pre₁ r s pre₂, pre = pre₁ ++ .dispatched n r s :: pre₂ ∧ r.call? id = some call ∧
        s = ((pre₁.filterMap Mark.write?).getLastD { state }).state ∧
        (call.method = .start → s = .created) ∧
        (state = .stopped ∨ (∃ w ∈ pre₁.filterMap Mark.write?, w.state = .stopped) →
          call.method = .kill ∨ call.method = .delete)) ∧
    (∀ call ∈ c.calls, call.method ≠ .checkpoint) ∧
    (∀ pre n call post, c.history = pre ++ .called n call :: post → call.isResume = true →
      state = .paused ∧ ∃ u code slot, .began u n (.exited code) ∈ pre ∧
        .claimed n code (.accepted .paused true slot) ∈ pre) ∧
    c.resumes ≤ 1 ∧
    c.succeeded .start ≤ 1 ∧
    c.succeeded .delete ≤ 1 ∧
    (∀ n current, .committed n .delete (.superseded current) ∉ c.history) ∧
    ∀ pre n previous slot post,
      c.history = pre ++ .committed n .delete (.installed previous slot) :: post →
      slot.state = .deleted ∧ ∀ m ∈ post, m.call? = none := by
  have alternating : c.Alternating := by
    refine (h.invariant (P := Alternating) (sound_initial id state moments) ?_
      fun hc ha m => ha.of_change hc (m.change hc.numbered)).2
    exact ⟨fun ⟨_, h⟩ => (nomatch h), fun _ => rfl⟩
  have thawing : c.Thawing :=
    (h.invariant (P := Thawing) (sound_initial id state moments) (.inl rfl)
      fun hc ht m => ht.of_change hc (m.change hc.numbered)).2
  have once : ∀ o, o = .start ∨ o = .delete → c.Once o := fun o ho =>
    (h.invariant (P := Once o) (sound_initial id state moments) (.never rfl)
      fun hc h m => h.of_change hc ho (m.change hc.numbered)).2
  refine ⟨?_, fun pre n call post hh hr => ?_, fun call hm => ?_,
    fun pre n call post => h.claimed_of_called, ?_, (once _ (.inl rfl)).le_one,
    (once _ (.inr rfl)).le_one, fun n current => h.deletion_not_superseded,
    fun pre n previous slot post => h.deletion_is_final⟩
  · by_cases busy : ∃ f, c.Pending f ∧ f.stage.isAttending = true
    · obtain ⟨f, hf, ef⟩ := busy
      exact .inr ⟨_, alternating.busy hf ef⟩
    · exact .inl (alternating.free fun f hf => Bool.eq_false_iff.mpr fun ef => busy ⟨f, hf, ef⟩)
  · obtain ⟨pre₁, r, s, pre₂, next, rfl, hc, hd⟩ := h.dispatched_of_called hh hr
    rw [List.append_assoc] at hh
    obtain ⟨slot, life, rfl⟩ := h.dispatched_in hh
    refine ⟨pre₁, r, _, pre₂, rfl, hc, by rw [life.eq_getLastD], Request.eq_created_of_start hd hc,
      fun stopped => Request.method_of_stopped hd hc ?_⟩
    rcases stopped with rfl | ⟨w, hw, e⟩
    · exact life.le
    · exact e ▸ life.le_of_mem hw
  · obtain ⟨m, hm, e⟩ := List.mem_filterMap.mp hm
    cases m with
    | called n call' =>
      cases e
      obtain ⟨pre, post, hh⟩ := List.append_of_mem hm
      cases hr : call.isResume with
      | true =>
        cases call with
        | resume i => exact fun h => nomatch h
        | _ => cases hr
      | false =>
        obtain ⟨-, r, s, -, next, -, hc, hd⟩ := h.dispatched_of_called hh hr
        exact Request.method_ne_checkpoint hd hc
    | _ => cases e
  · rcases thawing with h | ⟨h, -⟩
    · rw [h]
      exact Nat.zero_le 1
    · exact Nat.le_of_eq h

/-- A start that an exit supersedes, while a kill and a deletion wait. -/
def lateDeletion : List (Caller × Choice) :=
  [(0, .act (.request .start)), (0, .go), (0, .go), (0, .go), (0, .go),
    (1, .act (.request (.kill .terminate false))), (2, .act (.request .delete)),
    (0, .act (.exited 3)), (0, .go), (0, .go), (0, .go), (0, .go), (0, .go),
    (0, .finish (.ok .done)), (0, .go), (0, .go), (0, .go), (0, .go), (0, .go),
    (1, .go), (1, .go), (1, .go), (1, .go), (1, .finish (.ok .done)), (1, .go), (1, .go),
    (2, .go), (2, .go), (2, .go), (2, .go), (2, .finish (.ok .done)), (2, .go), (2, .go), (2, .go),
    (2, .go), (2, .go), (0, .act (.request .start)), (0, .go), (0, .go), (0, .go), (0, .go),
    (0, .go), (0, .go)]

theorem calls_lawful_lateDeletion :
    ∃ c pre slot post, Reachable (initial "web" .created fun _ => Moment.ofMillis 0) c ∧
      c.calls = [.start "web", .kill "web" .terminate false, .delete "web"] ∧
      c.history = pre ++ .committed 2 .delete (.installed .stopped slot) :: post ∧
      c.succeeded .delete ≤ 1 ∧ slot.state = .deleted ∧ ∀ m ∈ post, m.call? = none := by
  have run : ∃ c slot, (initial "web" .created fun _ => Moment.ofMillis 0).follow? lateDeletion =
      some c ∧ c.calls = [.start "web", .kill "web" .terminate false, .delete "web"] ∧
      c.history[21]? = some (.committed 2 .delete (.installed .stopped slot)) :=
    ⟨_, _, rfl, rfl, rfl⟩
  obtain ⟨c, slot, hc, calls, hm⟩ := run
  have reachable := reachable_of_follow? hc
  obtain ⟨pre, post, hh⟩ := List.append_of_mem (List.mem_of_getElem? hm)
  obtain ⟨-, -, -, -, -, -, once, -, final⟩ := calls_lawful reachable
  obtain ⟨deleted, silent⟩ := final pre 2 .stopped slot post hh
  exact ⟨c, pre, slot, post, reachable, calls, hh, once, deleted, silent⟩

end Interleaving

end ContainerInit
