import ContainerInit.Proofs.Interleaving.Linear
import ContainerInit.Proofs.Interleaving.Schedule

/-!
# Linearizability

Whatever callers do to a process that is never frozen, from outside or from inside the controller
and the sink, one caller could have done it (`linearizable`). A frozen process is another matter:
the report of its exit takes effect twice, at the record and at the stop.
-/

namespace ContainerInit.Interleaving

variable {c : Interleaving}

/-- What is said about a call is what has happened. -/
structure Happened (c : Interleaving) (x : Done) : Prop where
  began : ∀ action, (∃ u, .began u x.number action ∈ c.history) ↔ action = x.action
  answered : ∀ call outcome,
    .answered x.number call outcome ∈ c.history ↔ x.effect = some (call, outcome)
  returned : ∀ reply, (∃ u, .returned u x.number reply ∈ c.history) ↔ reply = x.reply

/-- Once every call has returned, what is placed has happened. -/
theorem Placed.happened {x : Done} (hx : c.Placed x) (hr : c.Recorded) (idle : c.Idle) :
    c.Happened x := by
  have began := hx.began
  have returned : ∃ u, .returned u x.number x.reply ∈ c.history :=
    hx.settled.resolve_right fun ⟨f, ⟨v, hv⟩, _⟩ => by
      rw [idle v] at hv
      cases hv
  refine ⟨fun action => ⟨?_, ?_⟩, hx.answered, fun reply => ⟨?_, ?_⟩⟩
  · rintro ⟨v, hv⟩
    obtain ⟨w, hw⟩ := began
    exact hr.once hv hw
  · rintro rfl
    exact began
  · rintro ⟨v, hv⟩
    obtain ⟨w, hw⟩ := returned
    exact hr.single hv hw
  · rintro rfl
    exact returned

/-- Once every call has returned, every call has its place. -/
theorem Linear.perm_range {start : Interleaving} {order : List Done} (hl : Linear start c order)
    (hr : c.Recorded) (idle : c.Idle) : (order.map Done.number).Perm (List.range c.begun) := by
  have nodup : (order.map Done.number).Nodup := List.pairwise_map.mpr hl.nodup
  refine (List.perm_ext_iff_of_nodup nodup List.nodup_range).mpr fun n => ?_
  rw [List.mem_map, List.mem_range]
  constructor
  · rintro ⟨x, hx, rfl⟩
    exact hl.number_lt hr hx
  · intro hn
    refine (hl.complete n hn).resolve_right ?_
    rintro ⟨f, ⟨v, hv⟩, -⟩
    rw [idle v] at hv
    cases hv

/-- **Processes that are never frozen are linearizable.** Once every call has returned, the calls
have an order, in which a call comes before those that began after it had returned. Made one after
the other in this order, on a process in the initial state whose controller answers as it did,
every call gets the reply that it got, up to the times of exits, the controller is called for the
same, and the process ends in the same state with the same exit code. -/
theorem linearizable {id : String} {state : State} {moments : Nat → Moment}
    (hs : state ≠ .paused) (h : Reachable (initial id state moments) c) (idle : c.Idle) :
    ∃ order : List Done,
      (order.map Done.number).Perm (List.range c.begun) ∧
      (∀ x ∈ order, c.Happened x) ∧
      (order.Pairwise fun x y => ¬ c.Precedes y.number x.number) ∧
      ∀ p : InitProcess Unit, p.id = id → p.slot = { state } → p.busy = false →
        ∃ replies q, Done.replay order p = .ok (replies, q) ∧
          Done.RepliesAlike replies order ∧ q.slot.Alike c.slot ∧
          q.calls = p.calls ++ order.filterMap Done.call? := by
  obtain ⟨order, hl⟩ := exists_linear hs h
  have hr := recorded_initial h
  refine ⟨order, hl.perm_range hr idle, fun x hx => (hl.placed x hx).happened hr idle, hl.realTime,
    fun p hid hslot free => ?_⟩
  have alike : p.core.slot.Alike { state } := by
    rw [← hslot]
    exact .refl _
  exact replay_of_serial hl.serial hid alike free p rfl

/-- A start that is superseded by an exit from inside the controller, while another caller asks for
the state before and after the exit. -/
def supersededStart : List (Caller × Choice) :=
  [(0, .act (.request .start)), (0, .go), (0, .go), (0, .go), (0, .go),
    (1, .act (.query .state)), (1, .go), (1, .go), (1, .go),
    (0, .act (.exited 3)), (0, .go), (0, .go), (0, .go), (0, .go), (0, .go),
    (1, .act (.query .state)), (1, .go), (1, .go), (1, .go),
    (0, .finish (.ok .done)), (0, .go), (0, .go), (0, .go), (0, .go), (0, .go)]

theorem linearizable_supersededStart :
    ∃ c order replies q, Reachable (initial "web" .created fun _ => Moment.ofMillis 0) c ∧
      .transitionSuperseded .start .running .stopped ∈ c.payloads ∧
      (order.map Done.number).Perm (List.range 4) ∧
      Done.replay order (InitProcess.create "web" () .log) = .ok (replies, q) ∧
      q.slot.state = .stopped := by
  have run : ∃ c, (initial "web" .created fun _ => Moment.ofMillis 0).follow? supersededStart =
      some c ∧ c.begun = 4 ∧ c.slot.state = .stopped ∧
      c.payloads[2]? = some (.transitionSuperseded .start .running .stopped) ∧
      ∀ turn ∈ supersededStart, c.frames turn.1 = [] := by
    refine ⟨_, rfl, rfl, rfl, rfl, ?_⟩
    decide
  obtain ⟨c, hc, hb, hs, hp, hframes⟩ := run
  have reachable := reachable_of_follow? hc
  obtain ⟨order, perm, -, -, replay⟩ := linearizable (by decide) reachable
    (idle_of_follow? hc (fun _ => rfl) hframes)
  obtain ⟨replies, q, e, -, alike, -⟩ := replay (InitProcess.create "web" () .log) rfl rfl rfl
  rw [hb] at perm
  exact ⟨c, order, replies, q, reachable, List.mem_of_getElem? hp, perm, e, alike.state.trans hs⟩

end ContainerInit.Interleaving
