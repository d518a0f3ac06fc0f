import ContainerInit.Proofs.Interleaving.Sound

/-!
# What is written to the slot

- **Writes** (`Slot.Write`): the five ways in which the slot changes, whoever changes it. Every
  change of a sound configuration leaves the slot alone or is one of them (`Sound.write`), although
  a commit may come long after its dispatch.
- **Lives** (`Slot.Life`): writes one after the other. The writes in the history of a run are the
  life of its slot (`Reachable.life`).
- **What lives keep**: the order of a life (`State.precedes`, `Life.le`), the recorded exit
  (`Life.exit_eq`), and which states go with an exit (`Life.exit_none`, `Life.exit_isSome`).
-/

namespace ContainerInit

/-! ## The order of a life -/

/-- The first state comes before the second in the order of a life. A frozen process is stopped
next; whether it has been created or running before is not told. -/
def State.precedes : State → State → Bool
  | .created, .running | .created, .stopped | .created, .deleted => true
  | .running, .stopped | .running, .deleted => true
  | .paused, .stopped | .paused, .deleted => true
  | .stopped, .deleted => true
  | _, _ => false

instance : LE State := ⟨fun s t => s = t ∨ s.precedes t = true⟩

instance : Std.IsPartialOrder State where
  le_refl s := .inl rfl
  le_trans s t v h h' := by
    rcases h with rfl | h
    · exact h'
    · rcases h' with rfl | h'
      · exact .inr h
      · right
        cases s <;> cases t <;> cases v <;> simp_all [State.precedes]
  le_antisymm s t h h' := by
    rcases h with rfl | h
    · rfl
    · rcases h' with rfl | h'
      · rfl
      · cases s <;> cases t <;> simp_all [State.precedes]

/-! ## Writes -/

namespace Slot

/-- What can be written to the slot. -/
inductive Write : Slot → Slot → Prop
  /-- A start is committed. -/
  | start {exit : Option ExitStatus} : Write ⟨.created, exit⟩ ⟨.running, exit⟩
  /-- A deletion is committed. -/
  | delete {s : State} {exit : Option ExitStatus} (h : s = .created ∨ s = .stopped) :
    Write ⟨s, exit⟩ ⟨.deleted, exit⟩
  /-- The exit of a process is recorded that is not frozen. -/
  | exit {s : State} {e : ExitStatus} (h : s = .created ∨ s = .running) :
    Write ⟨s, none⟩ ⟨.stopped, some e⟩
  /-- The exit of a frozen process is recorded. -/
  | freeze {e : ExitStatus} : Write ⟨.paused, none⟩ ⟨.paused, some e⟩
  /-- A frozen process is stopped after its exit. -/
  | thaw {e : ExitStatus} : Write ⟨.paused, some e⟩ ⟨.stopped, some e⟩

namespace Write

variable {s t : Slot}

/-- A write keeps the state, or takes an edge of the transition table. -/
theorem mayBecome (h : s.Write t) : t.state = s.state ∨ s.state.mayBecome t.state = true := by
  cases h with
  | start => exact .inr rfl
  | delete h => rcases h with rfl | rfl <;> exact .inr rfl
  | exit h => rcases h with rfl | rfl <;> exact .inr rfl
  | freeze => exact .inl rfl
  | thaw => exact .inr rfl

theorem le (h : s.Write t) : s.state ≤ t.state := by
  cases h with
  | start => exact .inr rfl
  | delete h => rcases h with rfl | rfl <;> exact .inr rfl
  | exit h => rcases h with rfl | rfl <;> exact .inr rfl
  | freeze => exact .inl rfl
  | thaw => exact .inr rfl

theorem exit_eq (h : s.Write t) {e : ExitStatus} (he : s.exit = some e) : t.exit = some e := by
  cases h with
  | exit | freeze => cases he
  | _ => exact he

theorem paused_of_paused (h : s.Write t) (ht : t.state = .paused) : s.state = .paused := by
  cases h with
  | freeze => rfl
  | _ => cases ht

end Write

/-- A life of the slot: what is written to it, one after the other, and what it holds then. -/
inductive Life (start : Slot) : List Slot → Slot → Prop
  | nil : Life start [] start
  | write {written : List Slot} {s t : Slot} (life : Life start written s) (w : s.Write t) :
    Life start (written ++ [t]) t

namespace Life

variable {start s : Slot} {written : List Slot}

theorem le (h : start.Life written s) : start.state ≤ s.state := by
  induction h with
  | nil => exact Std.le_refl _
  | write _ w ih => exact Std.le_trans ih w.le

/-- What was written comes before what the slot holds, in the order of a life. -/
theorem le_of_mem (h : start.Life written s) {w : Slot} (hw : w ∈ written) :
    w.state ≤ s.state := by
  induction h with
  | nil => cases hw
  | write _ last ih =>
    rcases List.mem_append.mp hw with hw | hw
    · exact Std.le_trans (ih hw) last.le
    · rw [List.mem_singleton.mp hw]
      exact Std.le_refl _

/-- The slot holds what was written to it last. -/
theorem eq_getLastD (h : start.Life written s) : s = written.getLastD start := by
  cases h with
  | nil => rfl
  | write _ w => rw [List.getLastD_concat]

/-- A recorded exit stays. -/
theorem exit_eq (h : start.Life written s) {e : ExitStatus} (he : start.exit = some e) :
    s.exit = some e := by
  induction h with
  | nil => exact he
  | write _ w ih => exact w.exit_eq ih

/-- An exit that was written stays. -/
theorem exit_of_mem (h : start.Life written s) {w : Slot} (hw : w ∈ written) {e : ExitStatus}
    (he : w.exit = some e) : s.exit = some e := by
  induction h with
  | nil => cases hw
  | write _ last ih =>
    rcases List.mem_append.mp hw with hw | hw
    · exact last.exit_eq (ih hw)
    · rw [← List.mem_singleton.mp hw]
      exact he

theorem ne_paused (h : start.Life written s) (hs : start.state ≠ .paused) :
    s.state ≠ .paused := by
  induction h with
  | nil => exact hs
  | write _ w ih => exact fun ht => ih (w.paused_of_paused ht)

/-- Before it is frozen, stopped or deleted, a process has no recorded exit. -/
theorem exit_none (h : start.Life written s) (hx : start.exit = none)
    (hs : s.state = .created ∨ s.state = .running) : s.exit = none := by
  induction h with
  | nil => exact hx
  | write _ w ih =>
    cases w with
    | start => exact ih (.inl rfl)
    | _ => rcases hs with hs | hs <;> cases hs

/-- A process that began as created is stopped by an exit only; and once it has run, it ends by an
exit only. -/
theorem exit_isSome (h : start.Life written s) (hs : start = ⟨.created, none⟩) :
    (s.state = .stopped → s.exit.isSome = true) ∧
    ((∃ w ∈ written, w.state = .running) → s.state = .running ∨ s.exit.isSome = true) := by
  induction h with
  | nil => subst hs; exact ⟨fun h => (nomatch h), fun ⟨_, h, _⟩ => nomatch h⟩
  | @write written s t life w ih =>
    cases w with
    | start => exact ⟨fun h => (nomatch h), fun _ => .inl rfl⟩
    | @delete s exit h =>
      refine ⟨fun h => (nomatch h), fun ⟨v, hv, hr⟩ => .inr ?_⟩
      rcases h with rfl | rfl
      · have old : v ∈ written := by
          rcases List.mem_append.mp hv with hv | hv
          · exact hv
          · rw [List.mem_singleton.mp hv] at hr; cases hr
        exact (ih.2 ⟨v, old, hr⟩).resolve_left fun h => nomatch h
      · exact ih.1 rfl
    | exit | freeze | thaw => exact ⟨fun _ => rfl, fun _ => .inr rfl⟩

end Life

end Slot

/-! ## Writes in the history -/

/-- The slot that a step has written, by its mark. -/
def Mark.write? : Mark → Option Slot
  | .committed _ _ (.installed _ slot) => some slot
  | .claimed _ _ (.accepted _ _ slot) => some slot
  | .stopped _ slot => some slot
  | _ => none

namespace Interleaving

variable {c d : Interleaving} {u : Caller}

/-- What has been written to the slot in a run, oldest first. -/
def writes (c : Interleaving) : List Slot :=
  c.history.filterMap Mark.write?

/-- The successor states of operations. -/
theorem target_of_dispatch {r : Request} {source target : State}
    (h : source.dispatch r.operation = .ok (.delegate (some target))) :
    target = .running ∧ source = .created ∨ target = .deleted := by
  cases source <;> cases r <;> cases h <;> simp

/-- A successor state is installed from where its operation was dispatched, or after an exit. -/
private theorem write_install {r : Request} {source target : State} {slot : Slot}
    (hd : source.dispatch r.operation = .ok (.delegate (some target)))
    (hs : slot.state = source ∨ slot.state = .stopped) (h : slot.state.mayBecome target = true) :
    slot.Write { slot with state := target } := by
  obtain ⟨state, exit⟩ := slot
  rcases target_of_dispatch hd with ⟨rfl, rfl⟩ | rfl
  · rcases hs with rfl | rfl
    · exact .start
    · cases h
  · refine .delete ?_
    cases state with
    | created => exact .inl rfl
    | stopped => exact .inr rfl
    | _ => cases h

/-- **A change writes one of the five things to the slot, or nothing.** -/
theorem Sound.write (hc : c.Sound) (m : c.Change d) :
    d.slot = c.slot ∧ d.writes = c.writes ∨
      c.slot.Write d.slot ∧ d.writes = c.writes ++ [d.slot] := by
  have writes_eq : ∀ {marks : List Mark}, d.history = c.history ++ marks →
      d.writes = c.writes ++ marks.filterMap Mark.write? := by
    intro marks h
    rw [writes, h, List.filterMap_append]
    rfl
  cases m with
  | still upd => exact .inl ⟨upd.slot, by rw [writes_eq upd.history]; exact List.append_nil _⟩
  | begin v action upd =>
    exact .inl ⟨upd.slot, by rw [writes_eq upd.history]; exact List.append_nil _⟩
  | finish hf stage upd =>
    exact .inl ⟨upd.slot, by rw [writes_eq upd.history]; exact List.append_nil _⟩
  | @turn v f stage slot holder marks hf turn upd =>
    have hsuits := hc.suits hf
    have hsource := @hc.source f
    have hwindow := hc.window hf
    rw [upd.slot, writes_eq upd.history]
    clear upd
    generalize f.stage = s at turn hsuits hsource hwindow
    cases turn with
    | @install r a source target h =>
      exact .inr ⟨write_install hsuits.2 (hsource hf rfl) h, rfl⟩
    | claim hx h =>
      refine .inr ⟨?_, rfl⟩
      have hs : c.slot.state = .created ∨ c.slot.state = .running := by
        generalize c.slot.state = s at h
        cases s <;> first | exact .inl rfl | exact .inr rfl | cases h
      rw [show c.slot = ⟨c.slot.state, none⟩ by rw [← hx]]
      exact .exit hs
    | claimFrozen hx h =>
      refine .inr ⟨?_, rfl⟩
      rw [show c.slot = ⟨.paused, none⟩ by rw [← hx, ← h]]
      exact .freeze
    | stop h =>
      refine .inr ⟨?_, rfl⟩
      obtain ⟨hp, hx⟩ := hwindow rfl
      obtain ⟨e, he⟩ := Option.isSome_iff_exists.mp hx
      rw [show c.slot = ⟨.paused, some e⟩ by rw [← he, ← hp]]
      exact .thaw
    | _ => exact .inl ⟨rfl, List.append_nil _⟩

/-- **The writes in the history are the life of the slot.** -/
theorem Reachable.life {start : Interleaving} (sound : start.Sound) (h : Reachable start c) :
    ∃ written, c.writes = start.writes ++ written ∧ start.slot.Life written c.slot := by
  refine (h.invariant (P := fun c => ∃ written, c.writes = start.writes ++ written ∧
    start.slot.Life written c.slot) sound ⟨[], (List.append_nil _).symm, .nil⟩ ?_).2
  rintro c d u hc ⟨written, hw, life⟩ m
  rcases hc.write (m.change hc.numbered) with ⟨hs, he⟩ | ⟨w, he⟩
  · rw [hs, he]
    exact ⟨written, hw, life⟩
  · exact ⟨written ++ [d.slot], by rw [he, hw, List.append_assoc], life.write w⟩

theorem life_initial {id : String} {state : State} {moments : Nat → Moment}
    (h : Reachable (initial id state moments) c) : Slot.Life { state } c.writes c.slot := by
  obtain ⟨written, hw, life⟩ := h.life (sound_initial id state moments)
  rw [show c.writes = written from hw]
  exact life

end Interleaving

end ContainerInit
