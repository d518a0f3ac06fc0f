import ContainerInit.Proofs.Interleaving.Words

/-!
# Commits that race with an exit

A start or a deletion was accepted, and the controller has done it. By the time of the commit, the
process may have ended, and other calls may have come and gone. What becomes of the commit is known
from what has happened since the dispatch (`commit_races_exit`).

- **Commits** (`Reachable.commit_eq`): the successor is installed or superseded, by what the slot
  holds right before.
- **Landings** (`Landing`, `Reachable.landing`): a deletion always deletes; a start leads to
  `running`, or leaves the process alone if an exit was accepted meanwhile.
- **Superseded events** (`Word.of_superseded`, `Traced.word_of_superseded`): they have no other
  origin.
-/

namespace ContainerInit

/-- What becomes of an operation by what has happened since its dispatch, in the window: the slot
before the commit and after it, and the event. -/
inductive Landing (moments : Nat → Moment) (window : List Mark) (before : Slot) :
    Request → Slot → Payload → Prop
  | deleted : Landing moments window before .delete { before with state := .deleted }
      (.stateChanged .delete before.state .deleted)
  | started (quiet : ∀ m ∈ window, m.accepts? = none) (fresh : before = ⟨.created, none⟩) :
    Landing moments window before .start ⟨.running, none⟩ (.stateChanged .start .created .running)
  | superseded {k : Nat} {code : Int32} {previous : State} {resume : Bool} {slot : Slot}
    (won : .claimed k code (.accepted previous resume slot) ∈ window)
    (ended : before = ⟨.stopped, some ⟨code, moments k⟩⟩) :
    Landing moments window before .start before (.transitionSuperseded .start .running .stopped)

/-- Only a start is superseded, by an exit that was accepted in the window. -/
theorem Landing.of_superseded {moments : Nat → Moment} {window : List Mark} {before after : Slot}
    {r : Request} {o : Operation} {target current : State}
    (h : Landing moments window before r after (.transitionSuperseded o target current)) :
    r = .start ∧ target = .running ∧ current = .stopped ∧
      ∃ k code previous resume slot, .claimed k code (.accepted previous resume slot) ∈ window := by
  cases h with
  | superseded won => exact ⟨rfl, rfl, rfl, _, _, _, _, _, won⟩

/-- A request that leads to another state is a start or a deletion. -/
theorem Request.start_or_delete {r : Request} {source target : State}
    (h : source.dispatch r.operation = .ok (.delegate (some target))) :
    r = .start ∧ source = .created ∧ target = .running ∨ r = .delete ∧ target = .deleted := by
  cases source <;> cases r <;> cases h <;> simp

/-- A word tells of a superseded transition only after its commit was superseded. -/
theorem Word.of_superseded {id : String} {n : Nat} {action : Action} {reply : Reply}
    {marks : List Mark} (h : Word id n action reply marks) {severity : Severity} {o : Operation}
    {target current : State}
    (mem : .emitted n severity (.transitionSuperseded o target current) ∈ marks) :
    ∃ r source call a, source.dispatch r.operation = .ok (.delegate (some target)) ∧
      severity = .info ∧ o = r.operation ∧
      marks = [.dispatched n r source, .called n call, .answered n call (.ok a),
        .committed n r (.superseded current),
        .emitted n .info (.transitionSuperseded r.operation target current)] := by
  cases h with
  | @committed r source next call a commit hd hc =>
    cases commit with
    | superseded =>
      obtain ⟨rfl, rfl, rfl, rfl⟩ : severity = .info ∧ o = r.operation ∧ target = next ∧
          current = _ := by simpa [Commit.payload] using mem
      exact ⟨r, source, call, a, hd, rfl, rfl, rfl⟩
    | installed => simp [Commit.payload] at mem
  | thawed outcome => cases outcome <;> simp [resumeFailure] at mem
  | _ => simp at mem

/-- A call that has told of a superseded transition has said its word. -/
theorem Stage.Said.word_of_superseded {id : String} {n : Nat} {action : Action} {marks : List Mark}
    {s : Stage} (h : s.Said id n action marks) (suits : s.Suits id action) {severity : Severity}
    {o : Operation} {target current : State}
    (mem : .emitted n severity (.transitionSuperseded o target current) ∈ marks) :
    ∃ reply, Word id n action reply marks := by
  cases s with
  | leaving r result => cases suits; exact ⟨_, h⟩
  | returning reply => exact ⟨_, h⟩
  | stopped previous =>
    obtain ⟨r, source, call, a, -, -, -, eq⟩ := h.of_superseded (List.mem_append_left _ mem)
    have last := congrArg List.getLast? eq
    simp at last
  | queued | dispatching | claiming | asking => cases h; cases mem
  | rejecting => obtain ⟨_, rfl, -⟩ := h; simp at mem
  | calling | performing => cases h; simp at mem
  | failing => obtain ⟨_, _, _, rfl, -⟩ := h; simp at mem
  | committing => obtain ⟨_, rfl, -⟩ := h; simp at mem
  | announcing => obtain ⟨_, _, _, _, rfl, -⟩ := h; simp at mem
  | recording => obtain ⟨-, _, rfl⟩ := h; simp at mem
  | resumeCalling | resuming | resumeFailing => obtain ⟨-, _, _, -, rfl⟩ := h; simp at mem
  | stopping =>
    obtain ⟨-, _, _, outcome, -, rfl⟩ := h
    cases outcome <;> simp [resumeFailure] at mem
  | crashed => cases h

namespace Interleaving

variable {c : Interleaving} {id : String} {state : State} {moments : Nat → Moment}
  {pre window post : List Mark} {n : Nat} {r : Request} {source : State} {commit : Commit}

/-! ## What becomes of a commit -/

/-- A commit is that of an operation that was dispatched before, and installs or supersedes by what
the slot holds right before it. -/
theorem Reachable.commit_eq (h : Reachable (initial id state moments) c)
    (hh : c.history = pre ++ .committed n r commit :: post)
    (dispatched : .dispatched n r source ∈ pre) :
    ∃ target, source.dispatch r.operation = .ok (.delegate (some target)) ∧
      ((held state pre).state = source ∨ (held state pre).state = .stopped) ∧
      ((held state pre).state.mayBecome target = true ∧
          commit = .installed (held state pre).state { held state pre with state := target } ∨
        (held state pre).state.mayBecome target = false ∧ (held state pre).state ≠ source ∧
          commit = .superseded (held state pre).state) := by
  obtain ⟨a, b, ha, sound, hab, -, he, e⟩ := h.cut hh
  obtain ⟨u, f, stage, slot, holder, hf, hn, t⟩ := hab.turn_of_mark rfl e
  obtain ⟨v, marks, begun, said⟩ := (traced_initial ha).pending hf
  have mem : .dispatched n r source ∈ a.trace f.number := by
    rw [hn]
    exact mem_trace.mpr ⟨he ▸ dispatched, rfl⟩
  have suits := sound.suits hf
  have from_source := @sound.source f
  have holds := ha.slot_eq_held
  rw [he] at holds
  rw [begun] at mem
  generalize f.stage = s at t said suits from_source
  cases t with
  | install edge =>
    obtain ⟨call, rfl, -⟩ := said
    obtain rfl : source = _ := by simpa using mem
    rw [← holds]
    exact ⟨_, suits.2, from_source hf rfl, .inl ⟨edge, rfl⟩⟩
  | supersede stale edge =>
    obtain ⟨call, rfl, -⟩ := said
    obtain rfl : source = _ := by simpa using mem
    rw [← holds]
    exact ⟨_, suits.2, from_source hf rfl, .inr ⟨edge, stale, rfl⟩⟩

/-- As long as the process is created, no report of an exit has been accepted. -/
theorem Reachable.unended (h : Reachable (initial id state moments) c)
    (hs : c.slot.state = .created) : c.slot.exit = none ∧ ∀ m ∈ c.history, m.accepts? = none := by
  have unrecorded := (life_initial h).exit_none rfl (.inl hs)
  have none := ((trail_initial h).of_exit_none unrecorded).2
  exact ⟨unrecorded, List.filterMap_eq_nil_iff.mp none⟩

/-- A process that began as created and has stopped was stopped by a report that was accepted. -/
theorem Reachable.exists_claimed (h : Reachable (initial id .created moments) c)
    (hs : c.slot.state = .stopped) : ∃ k code previous resume slot,
      .claimed k code (.accepted previous resume slot) ∈ c.history ∧
      c.slot = ⟨.stopped, some ⟨code, moments k⟩⟩ := by
  have ended := ((life_initial h).exit_isSome rfl).1 hs
  have report := (trail_initial h).code
  cases accepted : c.firstReport? with
  | none =>
    rw [accepted] at report
    rw [Option.map_eq_none_iff.mp report] at ended
    cases ended
  | some first =>
    have mem : first.1 ∈ c.accepted := by
      rw [(trail_initial h).accepted, accepted]
      exact List.mem_singleton_self _
    obtain ⟨m, hm, accepts⟩ := List.mem_filterMap.mp mem
    cases m with
    | claimed k code claim =>
      cases claim with
      | accepted previous resume slot =>
        have exit := (h.exit_of_claimed hm).2
        exact ⟨k, code, previous, resume, slot, hm, by rw [← hs, ← exit]⟩
      | ignored => cases accepts
    | _ => cases accepts

/-- **What becomes of a commit** is known from what has happened since the dispatch. -/
theorem Reachable.landing (h : Reachable (initial id state moments) c) {target : State}
    (hd : source.dispatch r.operation = .ok (.delegate (some target)))
    (hh : c.history = pre ++ .dispatched n r source :: window ++ .committed n r commit :: post) :
    Landing moments window (held state (pre ++ .dispatched n r source :: window)) r
      (held state (pre ++ .dispatched n r source :: window ++ [.committed n r commit]))
      (commit.payload r.operation target) := by
  obtain ⟨next, hn, hs, landed⟩ := h.commit_eq hh (List.mem_append_right _ List.mem_cons_self)
  obtain rfl : target = next := by
    rw [hd] at hn
    cases hn
    rfl
  obtain ⟨a, ha, ea⟩ := h.exists_of_history hh
  rw [held_concat]
  rw [← ea, ← ha.slot_eq_held] at hs landed ⊢
  rcases Request.start_or_delete hd with ⟨rfl, rfl, rfl⟩ | ⟨rfl, rfl⟩
  · have split : c.history = pre ++ .dispatched n .start .created ::
        (window ++ .committed n .start commit :: post) := by rw [hh]; simp
    obtain ⟨b, hb, eb⟩ := h.exists_of_history split
    have created : b.slot.state = .created := by
      rw [hb.slot_eq_held, eb]
      exact h.state_of_dispatched split
    rcases landed with ⟨edge, rfl⟩ | ⟨-, stale, rfl⟩
    · have still : a.slot.state = .created := hs.resolve_right fun stopped => by
        rw [stopped] at edge
        cases edge
      obtain ⟨unrecorded, silent⟩ := ha.unended still
      have fresh : a.slot = ⟨.created, none⟩ := by rw [← still, ← unrecorded]
      have quiet : ∀ m ∈ window, m.accepts? = none := fun m hm =>
        silent m (by rw [ea]; exact List.mem_append_right _ (List.mem_cons_of_mem _ hm))
      rw [fresh]
      exact .started quiet rfl
    · have stopped := hs.resolve_left stale
      obtain rfl : state = .created := by
        have le := (life_initial hb).le
        rw [created] at le
        exact le.resolve_right (by cases state <;> decide)
      obtain ⟨k, code, previous, resume, slot, hm, ended⟩ := ha.exists_claimed stopped
      have won : .claimed k code (.accepted previous resume slot) ∈ window := by
        rw [ea, List.mem_append, List.mem_cons] at hm
        rcases hm with hm | hm | hm
        · have silent := (hb.unended created).2 _ (eb ▸ hm)
          cases silent
        · cases hm
        · exact hm
      rw [stopped]
      exact .superseded won ended
  · have edge : a.slot.state.mayBecome .deleted = true := by
      rcases hs with hs | hs
      · rw [hs]
        exact State.mayBecome_of_dispatch hd
      · rw [hs]
        rfl
    rcases landed with ⟨-, rfl⟩ | ⟨refused, -⟩
    · exact .deleted
    · rw [edge] at refused
      cases refused

/-! ## Where events of superseded transitions come from -/

/-- A call that has told of a superseded transition has said its word, and has returned or not. -/
theorem Traced.word_of_superseded (h : c.Traced) (hc : c.Sound) (hr : c.Recorded)
    {severity : Severity} {o : Operation} {target current : State}
    (mem : .emitted n severity (.transitionSuperseded o target current) ∈ c.history) :
    ∃ v action reply marks more, c.trace n = .began v n action :: (marks ++ more) ∧
      (more = [] ∨ ∃ u, more = [.returned u n reply]) ∧ Word c.id n action reply marks ∧
      .emitted n severity (.transitionSuperseded o target current) ∈ marks := by
  have traced : .emitted n severity (.transitionSuperseded o target current) ∈ c.trace n :=
    mem_trace.mpr ⟨mem, rfl⟩
  rcases h.begun n (hr.below _ mem) with ⟨f, hf, rfl⟩ | ⟨u, reply, returned⟩
  · obtain ⟨v, marks, begun, said⟩ := h.pending hf
    rw [begun] at traced
    have told : .emitted f.number severity (.transitionSuperseded o target current) ∈ marks := by
      simpa using traced
    obtain ⟨reply, word⟩ := said.word_of_superseded (hc.suits hf) told
    exact ⟨v, f.action, reply, marks, [], by rw [begun, List.append_nil], .inl rfl, word, told⟩
  · obtain ⟨v, action, marks, begun, word⟩ := h.returned returned
    rw [begun] at traced
    exact ⟨v, action, reply, marks, _, begun, .inr ⟨u, rfl⟩, word, by simpa using traced⟩

/-! ## The race -/

/-- The trace of an operation that was committed is a split of the history at its dispatch and at
its commit. -/
theorem exists_window {v : Caller} {action : Action} {call : Call} {a : Answer} {rest : List Mark}
    (h : c.trace n = .began v n action :: .dispatched n r source :: .called n call ::
      .answered n call (.ok a) :: .committed n r commit :: rest) : ∃ pre window post,
      c.history = pre ++ .dispatched n r source :: window ++ .committed n r commit :: post := by
  have first : c.history.filter (fun m => m.number = n) =
      [.began v n action] ++ .dispatched n r source :: _ := h
  obtain ⟨pre, later, hh, -, after⟩ := exists_cut_of_filter first
  have second : later.filter (fun m => m.number = n) =
      [.called n call, .answered n call (.ok a)] ++ .committed n r commit :: rest := after
  obtain ⟨window, post, rfl, -, -⟩ := exists_cut_of_filter second
  exact ⟨pre, window, post, by rw [hh]; simp⟩

/-- A start or a deletion that was accepted, that the controller has done, and that has returned,
was committed and has succeeded. -/
theorem Traced.committed_of_returned (h : c.Traced) (hr : r = .start ∨ r = .delete) {call : Call}
    {a : Answer} (dispatched : .dispatched n r source ∈ c.history)
    (answered : .answered n call (.ok a) ∈ c.history) {u : Caller} {reply : Reply}
    (returned : .returned u n reply ∈ c.history) :
    reply = .answer a ∧ ∃ v target commit,
      source.dispatch r.operation = .ok (.delegate (some target)) ∧
      c.trace n = [.began v n (.request r), .dispatched n r source, .called n call,
        .answered n call (.ok a), .committed n r commit,
        .emitted n .info (commit.payload r.operation target), .returned u n reply] := by
  obtain ⟨v, action, marks, begun, word, inside⟩ := h.word_of_returned returned
  have dispatched := inside _ dispatched rfl rfl
  have answered := inside _ answered rfl rfl
  cases word with
  | refused | failed => simp at answered
  | performed hd hc =>
    obtain ⟨rfl, rfl⟩ : r = _ ∧ source = _ := by simpa using dispatched
    rcases hr with rfl | rfl <;> cases source <;> cases hd
  | committed hd hc =>
    obtain ⟨rfl, rfl⟩ : r = _ ∧ source = _ := by simpa using dispatched
    obtain ⟨rfl, rfl⟩ : call = _ ∧ a = _ := by simpa using answered
    exact ⟨rfl, v, _, _, hd, begun⟩
  | thawed outcome => cases outcome <;> simp [resumeFailure] at dispatched
  | _ => simp at dispatched

/-- **Commits and exits race**, whoever acts on a process between the dispatch of an operation and
its commit, and whatever is done.

- A start or a deletion that was accepted, and that the controller has done, does not crash, and
  returns what the controller gave. It emits one event, and what becomes of the state is known: a
  deletion deletes the process, from whatever state it was in right before; a start leads from
  `created` to `running` if no report of an exit was accepted in the window, and otherwise the
  process stays stopped with this exit, and the event tells that the start was superseded.
- No event tells of a superseded transition but this one. -/
theorem commit_races_exit {id : String} {state : State} {moments : Nat → Moment}
    (h : Reachable (initial id state moments) c) :
    (∀ n r source call a, r = .start ∨ r = .delete → .dispatched n r source ∈ c.history →
      .answered n call (.ok a) ∈ c.history →
      (∀ f v, c.Pending f → f.number = n → f.stage ≠ .crashed v) ∧
      (c.Idle → ∃ u, .returned u n (.answer a) ∈ c.history) ∧
      ∀ u reply, .returned u n reply ∈ c.history → reply = .answer a ∧
        ∃ pre window commit post payload,
          c.history = pre ++ .dispatched n r source :: window ++ .committed n r commit :: post ∧
          Landing moments window (held state (pre ++ .dispatched n r source :: window)) r
            (held state (pre ++ .dispatched n r source :: window ++ [.committed n r commit]))
            payload ∧
          c.events n = [(.info, payload)]) ∧
    ∀ n severity o target current,
      .emitted n severity (.transitionSuperseded o target current) ∈ c.history →
      c.events n = [(.info, .transitionSuperseded .start .running .stopped)] ∧
        ∃ call a pre window post k code previous resume slot,
          .answered n call (.ok a) ∈ c.history ∧
          c.history = pre ++ .dispatched n .start .created :: window ++
            .committed n .start (.superseded .stopped) :: post ∧
          .claimed k code (.accepted previous resume slot) ∈ window := by
  have hc := h.sound (sound_initial id state moments)
  have hr := recorded_initial h
  have ht := traced_initial h
  refine ⟨fun n r source call a operation dispatched answered => ?_,
    fun n severity o target current mem => ?_⟩
  · refine ⟨fun f v hf _ => hc.ne_crashed hf v, fun idle => ?_, fun u reply returned => ?_⟩
    · obtain ⟨u, reply, returned⟩ := ht.exists_returned idle (hr.below _ dispatched)
      obtain ⟨rfl, -⟩ := ht.committed_of_returned operation dispatched answered returned
      exact ⟨u, returned⟩
    · obtain ⟨rfl, v, target, commit, hd, traced⟩ :=
        ht.committed_of_returned operation dispatched answered returned
      obtain ⟨pre, window, post, hh⟩ := exists_window traced
      have emitted : c.events n = [(.info, commit.payload r.operation target)] := by
        rw [events, traced]
        rfl
      exact ⟨rfl, pre, window, commit, post, _, hh, h.landing hd hh, emitted⟩
  · obtain ⟨v, action, reply, marks, more, traced, last, word, told⟩ :=
      ht.word_of_superseded hc hr mem
    obtain ⟨r, source, call, a, hd, -, rfl, rfl⟩ := word.of_superseded told
    obtain ⟨pre, window, post, hh⟩ := exists_window traced
    have answered : .answered n call (.ok a) ∈ c.history := by
      refine (mem_trace.mp (?_ : _ ∈ c.trace n)).1
      rw [traced]
      simp
    have emitted : c.events n = [(.info, .transitionSuperseded r.operation target current)] := by
      rw [events, traced]
      rcases last with rfl | ⟨u, rfl⟩ <;> rfl
    obtain ⟨rfl, rfl, rfl, k, code, previous, resume, slot, won⟩ := (h.landing hd hh).of_superseded
    obtain rfl : source = .created := by
      cases source <;> cases hd
      rfl
    exact ⟨emitted, call, a, pre, window, post, k, code, previous, resume, slot, answered, hh, won⟩

theorem commit_races_exit_lateDeletion :
    ∃ c slot pre window commit post,
      Reachable (initial "web" .created fun _ => Moment.ofMillis 0) c ∧
      c.events 0 = [(.info, .transitionSuperseded .start .running .stopped)] ∧
      c.history = pre ++ .dispatched 2 .delete .stopped :: window ++
        .committed 2 .delete commit :: post ∧
      Landing (fun _ => Moment.ofMillis 0) window slot .delete { slot with state := .deleted }
        (.stateChanged .delete slot.state .deleted) ∧
      c.events 2 = [(.info, .stateChanged .delete slot.state .deleted)] := by
  have run : ∃ c, (initial "web" .created fun _ => Moment.ofMillis 0).follow? lateDeletion =
      some c ∧ c.history[12]? =
        some (.emitted 0 .info (.transitionSuperseded .start .running .stopped)) ∧
      c.history[18]? = some (.dispatched 2 .delete .stopped) ∧
      c.history[20]? = some (.answered 2 (.delete "web") (.ok .done)) ∧
      ∀ turn ∈ lateDeletion, c.frames turn.1 = [] := by
    refine ⟨_, rfl, rfl, rfl, rfl, ?_⟩
    decide
  obtain ⟨c, hc, superseded, dispatched, answered, hframes⟩ := run
  have reachable := reachable_of_follow? hc
  obtain ⟨races, others⟩ := commit_races_exit reachable
  obtain ⟨-, returns, lands⟩ := races 2 .delete .stopped (.delete "web") .done (.inr rfl)
    (List.mem_of_getElem? dispatched) (List.mem_of_getElem? answered)
  obtain ⟨u, returned⟩ := returns (idle_of_follow? hc (fun _ => rfl) hframes)
  obtain ⟨-, pre, window, commit, post, payload, hh, landing, events⟩ := lands u _ returned
  generalize held .created (pre ++ .dispatched 2 .delete .stopped :: window) = slot at landing
  generalize held .created (pre ++ .dispatched 2 .delete .stopped :: window ++ _) = after at landing
  cases landing with
  | deleted =>
    exact ⟨c, slot, pre, window, commit, post, reachable,
      (others 0 _ _ _ _ (List.mem_of_getElem? superseded)).1, hh, .deleted, events⟩

end Interleaving

end ContainerInit
