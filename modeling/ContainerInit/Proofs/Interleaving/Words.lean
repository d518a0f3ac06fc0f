import ContainerInit.Proofs.Interleaving.Language

/-!
# What one call leaves in the history

The marks of one call, with those of all other calls left out (`trace`), are known from its action
and its reply: the call has said one of nine words (`Word`). Of a call that has not returned, it is
known from the stage that it is at how far it has come (`Stage.Said`), so a call that may be
interrupted between any two of its steps still does the same steps in the same order (`Traced`,
`traced_initial`).

- **Cutting** (`exists_cut_of_filter`): a split of the trace of a call is a split of the history.
- **Slots** (`held`, `Reachable.slot_eq_held`): what the slot holds after a piece of the history.
- **Accepted reports** (`Reachable.exit_of_claimed`): the exit that a report has recorded stays.
-/

namespace ContainerInit

/-- What is emitted of a commit. -/
def Commit.payload (operation : Operation) (target : State) : Commit → Payload
  | .superseded current => .transitionSuperseded operation target current
  | .installed previous _ => .stateChanged operation previous target

/-- The marks of a failed resume that an exit has brought about. -/
def resumeFailure (n : Nat) : Except ControllerError Answer → List Mark
  | .error e => [.emitted n .error (.compensatingResumeFailed e.message)]
  | .ok _ => []

/-! ## Words -/

/-- What a call of number `n` to the process `id` leaves between its beginning and its return. -/
inductive Word (id : String) (n : Nat) : Action → Reply → List Mark → Prop
  | refused {r : Request} {s : State} {rejection : Rejection}
    (h : s.dispatch r.operation = .error rejection) :
    Word id n (.request r) (.failed (.rejected rejection))
      [.dispatched n r s, .emitted n .info (.operationRejected r.operation rejection.state)]
  | failed {r : Request} {s : State} {call : Call} {next : Option State} {e : ControllerError}
    (h : s.dispatch r.operation = .ok (.delegate next)) (hc : r.call? id = some call) :
    Word id n (.request r) (.failed (.controller e))
      [.dispatched n r s, .called n call, .answered n call (.error e),
        .emitted n .error (.controllerFailed r.operation e.message)]
  | performed {r : Request} {s : State} {call : Call} {a : Answer}
    (h : s.dispatch r.operation = .ok (.delegate none)) (hc : r.call? id = some call) :
    Word id n (.request r) (.answer a)
      [.dispatched n r s, .called n call, .answered n call (.ok a)]
  | committed {r : Request} {s target : State} {call : Call} {a : Answer} {commit : Commit}
    (h : s.dispatch r.operation = .ok (.delegate (some target))) (hc : r.call? id = some call) :
    Word id n (.request r) (.answer a)
      [.dispatched n r s, .called n call, .answered n call (.ok a), .committed n r commit,
        .emitted n .info (commit.payload r.operation target)]
  | ignored {code : Int32} {state : State} :
    Word id n (.exited code) (.answer .done) [.claimed n code (.ignored state)]
  | stopped {code : Int32} {previous : State} {slot : Slot} :
    Word id n (.exited code) (.answer .done)
      [.claimed n code (.accepted previous false slot), .emitted n .info (.exitRecorded code previous),
        .emitted n .info (.stateChanged .setExited previous .stopped)]
  | thawed {code : Int32} {slot installed : Slot} (outcome : Except ControllerError Answer) :
    Word id n (.exited code) (.answer .done)
      ([.claimed n code (.accepted .paused true slot), .emitted n .info (.exitRecorded code .paused),
        .called n (.resume id), .answered n (.resume id) outcome] ++ resumeFailure n outcome ++
        [.stopped n installed, .emitted n .info (.stateChanged .setExited .paused .stopped)])
  | asked {q : Query} {s : Slot} :
    Word id n (.query q) (q.reply ⟨id, s.state, s.exit⟩) [.asked n q s]
  | named : Word id n (.query .id) (.text id) []

/-- What a call of number `n` that does `action` has left when it is at a stage. -/
def Stage.Said (id : String) (n : Nat) (action : Action) : Stage → List Mark → Prop
  | .queued _, marks | .dispatching _, marks | .claiming _, marks | .asking _, marks => marks = []
  | .rejecting r rejection, marks => ∃ s : State,
    marks = [.dispatched n r s] ∧ s.dispatch r.operation = .error rejection
  | .calling r _ source _, marks => marks = [.dispatched n r source]
  | .performing r call source _, marks => marks = [.dispatched n r source, .called n call]
  | .failing r e, marks => ∃ (source : State) (next : Option State) (call : Call),
    marks = [.dispatched n r source, .called n call, .answered n call (.error e)] ∧
      source.dispatch r.operation = .ok (.delegate next) ∧ r.call? id = some call
  | .committing r a source _, marks => ∃ call : Call,
    marks = [.dispatched n r source, .called n call, .answered n call (.ok a)] ∧
      r.call? id = some call
  | .announcing r a payload, marks =>
    ∃ (source target : State) (call : Call) (commit : Commit),
      marks = [.dispatched n r source, .called n call, .answered n call (.ok a),
        .committed n r commit] ∧
      payload = commit.payload r.operation target ∧
      source.dispatch r.operation = .ok (.delegate (some target)) ∧ r.call? id = some call
  | .leaving r result, marks => Word id n (.request r) (.ofResult result) marks
  | .recording code previous resume, marks => (resume = true → previous = .paused) ∧
    ∃ slot : Slot, marks = [.claimed n code (.accepted previous resume slot)]
  | .resumeCalling previous, marks => previous = .paused ∧ ∃ (code : Int32) (slot : Slot),
    action = .exited code ∧ marks = [.claimed n code (.accepted .paused true slot),
      .emitted n .info (.exitRecorded code .paused)]
  | .resuming previous, marks => previous = .paused ∧ ∃ (code : Int32) (slot : Slot),
    action = .exited code ∧ marks = [.claimed n code (.accepted .paused true slot),
      .emitted n .info (.exitRecorded code .paused), .called n (.resume id)]
  | .resumeFailing previous e, marks => previous = .paused ∧ ∃ (code : Int32) (slot : Slot),
    action = .exited code ∧ marks = [.claimed n code (.accepted .paused true slot),
      .emitted n .info (.exitRecorded code .paused), .called n (.resume id),
      .answered n (.resume id) (.error e)]
  | .stopping previous, marks => previous = .paused ∧
    ∃ (code : Int32) (slot : Slot) (outcome : Except ControllerError Answer),
      action = .exited code ∧ marks = [.claimed n code (.accepted .paused true slot),
        .emitted n .info (.exitRecorded code .paused), .called n (.resume id),
        .answered n (.resume id) outcome] ++ resumeFailure n outcome
  | .stopped previous, marks =>
    Word id n action (.answer .done)
      (marks ++ [.emitted n .info (.stateChanged .setExited previous .stopped)])
  | .returning reply, marks => Word id n action reply marks
  | .crashed _, _ => False

/-- What begins has left nothing. -/
theorem Stage.said_ofAction (id : String) (n : Nat) (action : Action) :
    (Stage.ofAction id action).Said id n action [] := by
  cases action with
  | request r => exact rfl
  | exited code => exact rfl
  | query q => cases q <;> first | exact rfl | exact .named

namespace Interleaving

variable {c d : Interleaving} {u : Caller}

/-- A turn goes on with the word. -/
theorem Turn.said {n : Nat} {s stage : Stage} {slot : Slot} {holder : Option Caller}
    {marks new : List Mark} {action : Action} (t : Turn c u n s stage slot holder new)
    (suits : s.Suits c.id action) (h : s.Said c.id n action marks) :
    stage.Said c.id n action (marks ++ new) := by
  cases t with
  | enter => exact (List.append_nil _).trans h
  | reject hd => cases h; exact ⟨_, rfl, hd⟩
  | accept => cases h; rfl
  | refuse =>
    obtain ⟨s, rfl, hd⟩ := h
    exact .refused hd
  | call => cases h; rfl
  | fail => cases h; exact ⟨_, _, _, rfl, suits.2.1, suits.2.2⟩
  | succeed => cases h; exact .performed suits.2.1 suits.2.2
  | succeedTo => cases h; exact ⟨_, rfl, suits.2.2⟩
  | tellFailure =>
    obtain ⟨source, next, call, rfl, hd, hc⟩ := h
    exact .failed hd hc
  | install =>
    obtain ⟨call, rfl, hc⟩ := h
    exact ⟨_, _, _, _, rfl, rfl, suits.2, hc⟩
  | supersede =>
    obtain ⟨call, rfl, hc⟩ := h
    exact ⟨_, _, _, _, rfl, rfl, suits.2, hc⟩
  | announce =>
    obtain ⟨source, target, call, commit, rfl, rfl, hd, hc⟩ := h
    exact .committed hd hc
  | leave =>
    cases suits
    rw [List.append_nil]
    exact h
  | ignore => cases h; cases suits; exact .ignored
  | claim => cases h; exact ⟨nofun, _, rfl⟩
  | claimFrozen => cases h; exact ⟨fun _ => rfl, _, rfl⟩
  | record =>
    obtain ⟨-, slot, rfl⟩ := h
    cases suits
    exact .stopped
  | recordFrozen =>
    obtain ⟨frozen, slot, rfl⟩ := h
    cases frozen rfl
    exact ⟨rfl, _, slot, suits, rfl⟩
  | resume =>
    obtain ⟨rfl, code, slot, ha, rfl⟩ := h
    exact ⟨rfl, code, slot, ha, rfl⟩
  | resumed =>
    obtain ⟨rfl, code, slot, ha, rfl⟩ := h
    exact ⟨rfl, code, slot, _, ha, rfl⟩
  | resumeFail =>
    obtain ⟨rfl, code, slot, ha, rfl⟩ := h
    exact ⟨rfl, code, slot, ha, rfl⟩
  | tellResumeFailure =>
    obtain ⟨rfl, code, slot, ha, rfl⟩ := h
    exact ⟨rfl, code, slot, _, ha, rfl⟩
  | stop =>
    obtain ⟨rfl, code, slot, outcome, rfl, rfl⟩ := h
    rw [Stage.Said, List.append_assoc]
    exact .thawed outcome
  | tellStop => exact h
  | answer => cases h; cases suits; exact .asked

/-! ## Traces -/

/-- The marks of one call, oldest first. -/
def trace (c : Interleaving) (n : Nat) : List Mark :=
  c.history.filter fun m => m.number = n

theorem mem_trace {n : Nat} {m : Mark} : m ∈ c.trace n ↔ m ∈ c.history ∧ m.number = n := by
  simp [trace]

theorem trace_append {marks : List Mark} (h : d.history = c.history ++ marks) (n : Nat) :
    d.trace n = c.trace n ++ marks.filter fun m => m.number = n := by
  rw [trace, h, List.filter_append]
  rfl

/-- Marks of a call are added to its trace. -/
theorem trace_append_of_eq {marks : List Mark} {n : Nat} (h : d.history = c.history ++ marks)
    (same : ∀ m ∈ marks, m.number = n) : d.trace n = c.trace n ++ marks := by
  rw [trace_append h, List.filter_eq_self.mpr fun m hm => decide_eq_true (same m hm)]

/-- Marks of a call are not added to the traces of others. -/
theorem trace_append_of_ne {marks : List Mark} {n k : Nat} (h : d.history = c.history ++ marks)
    (other : ∀ m ∈ marks, m.number = k) (hn : n ≠ k) : d.trace n = c.trace n := by
  have none : marks.filter (fun m => m.number = n) = [] := by
    refine List.filter_eq_nil_iff.mpr fun m hm => ?_
    rw [other m hm]
    simpa using hn.symm
  rw [trace_append h, none, List.append_nil]

/-- Every call says its word, as far as it has come. -/
structure Traced (c : Interleaving) : Prop where
  pending : ∀ {f}, c.Pending f → ∃ u marks,
    c.trace f.number = .began u f.number f.action :: marks ∧
      f.stage.Said c.id f.number f.action marks
  returned : ∀ {u n reply}, .returned u n reply ∈ c.history → ∃ v action marks,
    c.trace n = .began v n action :: (marks ++ [.returned u n reply]) ∧
      Word c.id n action reply marks
  begun : ∀ n < c.begun, (∃ f, c.Pending f ∧ f.number = n) ∨
    ∃ u reply, .returned u n reply ∈ c.history

namespace Traced

/-- The next call has left nothing. -/
private theorem trace_begun (hr : c.Recorded) : c.trace c.begun = [] := by
  refine List.filter_eq_nil_iff.mpr fun m hm => ?_
  have := hr.below m hm
  simp
  omega

/-- Where only one call that has not returned leaves marks, the others have said what they had
said. -/
private theorem kept (h : c.Traced) (id : d.id = c.id) {n : Nat}
    (same : ∀ k, k ≠ n → d.trace k = c.trace k) :
    (∀ {f}, c.Pending f → f.number ≠ n → ∃ u marks,
      d.trace f.number = .began u f.number f.action :: marks ∧
        f.stage.Said d.id f.number f.action marks) ∧
    ∀ {u k reply}, .returned u k reply ∈ c.history → k ≠ n → ∃ v action marks,
      d.trace k = .began v k action :: (marks ++ [.returned u k reply]) ∧
        Word d.id k action reply marks := by
  constructor
  · intro f hf hn
    rw [same _ hn, id]
    exact h.pending hf
  · intro u k reply hk hn
    rw [same _ hn, id]
    exact h.returned hk

theorem of_change (hc : c.Sound) (hr : c.Recorded) (h : c.Traced) (m : c.Change d) : d.Traced := by
  cases m with
  | still upd pending =>
    have hh : d.history = c.history := by rw [upd.history, List.append_nil]
    have same : ∀ n, d.trace n = c.trace n := fun n => by rw [trace, trace, hh]
    refine ⟨fun {f} hf => ?_, fun {u n reply} hn => ?_, fun n hn => ?_⟩
    · rw [same, upd.id]
      exact h.pending ((pending f).mp hf)
    · rw [same, upd.id]
      exact h.returned (hh ▸ hn)
    · rw [upd.begun] at hn
      rw [hh]
      exact (h.begun n hn).imp_left fun ⟨f, hf, e⟩ => ⟨f, (pending f).mpr hf, e⟩
  | begin v action upd pending =>
    have other : ∀ m ∈ [Mark.began v c.begun action], m.number = c.begun := by simp [Mark.number]
    obtain ⟨keptPending, keptReturned⟩ := h.kept upd.id
      fun k hk => trace_append_of_ne upd.history other hk
    refine ⟨fun {f} hf => ?_, fun {u n reply} hn => ?_, fun n hn => ?_⟩
    · rcases (pending f).mp hf with rfl | hf
      · refine ⟨v, [], ?_, ?_⟩
        · rw [trace_append_of_eq upd.history other, trace_begun hr, List.nil_append]
        · rw [upd.id]
          exact Stage.said_ofAction _ _ _
      · exact keptPending hf (Nat.ne_of_lt (hc.numbered.pending_lt hf))
    · rw [upd.history, List.mem_append, List.mem_singleton] at hn
      have old := hn.resolve_right nofun
      exact keptReturned old (Nat.ne_of_lt (hr.below _ old))
    · rw [upd.begun] at hn
      rw [upd.history]
      rcases Nat.lt_succ_iff_lt_or_eq.mp hn with hn | rfl
      · rcases h.begun n hn with ⟨f, hf, e⟩ | ⟨u, reply, hm⟩
        · exact .inl ⟨f, (pending f).mpr (.inr hf), e⟩
        · exact .inr ⟨u, reply, List.mem_append_left _ hm⟩
      · exact .inl ⟨_, (pending _).mpr (.inl rfl), rfl⟩
  | @turn v f stage slot holder marks hf t upd pending =>
    have other : ∀ m ∈ marks, m.number = f.number := fun m hm => (t.mark_inner m hm).1
    obtain ⟨keptPending, keptReturned⟩ := h.kept upd.id
      fun k hk => trace_append_of_ne upd.history other hk
    refine ⟨fun {g} hg => ?_, fun {u n reply} hn => ?_, fun n hn => ?_⟩
    · rcases (pending g).mp hg with rfl | ⟨hg, hne⟩
      · obtain ⟨u, before, begun, said⟩ := h.pending hf
        refine ⟨u, before ++ marks, ?_, ?_⟩
        · rw [trace_append_of_eq upd.history other, begun, List.cons_append]
        · rw [upd.id]
          exact t.said (hc.suits hf) said
      · exact keptPending hg hne
    · rw [upd.history, List.mem_append] at hn
      have old := hn.resolve_right fun hm => nomatch (t.mark_inner _ hm).2
      refine keptReturned old fun e => ?_
      exact hr.unreturned hf u reply (e ▸ old)
    · rw [upd.begun] at hn
      rw [upd.history]
      rcases h.begun n hn with ⟨g, hg, e⟩ | ⟨u, reply, hm⟩
      · by_cases hgf : g.number = f.number
        · exact .inl ⟨_, (pending _).mpr (.inl rfl), hgf.symm.trans e⟩
        · exact .inl ⟨g, (pending g).mpr (.inr ⟨hg, hgf⟩), e⟩
      · exact .inr ⟨u, reply, List.mem_append_left _ hm⟩
  | @finish v f reply hf stage upd pending =>
    have other : ∀ m ∈ [Mark.returned v f.number reply], m.number = f.number := by
      simp [Mark.number]
    obtain ⟨keptPending, keptReturned⟩ := h.kept upd.id
      fun k hk => trace_append_of_ne upd.history other hk
    refine ⟨fun {g} hg => ?_, fun {u n r} hn => ?_, fun n hn => ?_⟩
    · obtain ⟨hg, hne⟩ := (pending g).mp hg
      exact keptPending hg hne
    · rw [upd.history, List.mem_append, List.mem_singleton] at hn
      rcases hn with old | new
      · refine keptReturned old fun e => ?_
        exact hr.unreturned hf u r (e ▸ old)
      · cases new
        obtain ⟨w, marks, begun, said⟩ := h.pending hf
        rw [stage] at said
        refine ⟨w, f.action, marks, ?_, upd.id ▸ said⟩
        rw [trace_append_of_eq upd.history other, begun, List.cons_append]
    · rw [upd.begun] at hn
      rw [upd.history]
      rcases h.begun n hn with ⟨g, hg, e⟩ | ⟨u, r, hm⟩
      · by_cases hgf : g.number = f.number
        · rw [← e, hgf]
          exact .inr ⟨v, reply, List.mem_append_right _ List.mem_cons_self⟩
        · exact .inl ⟨g, (pending g).mpr ⟨hg, hgf⟩, e⟩
      · exact .inr ⟨u, r, List.mem_append_left _ hm⟩

/-- Where nothing is pending, every call has returned. -/
theorem exists_returned (h : c.Traced) (idle : c.Idle) {n : Nat} (hn : n < c.begun) :
    ∃ u reply, .returned u n reply ∈ c.history := by
  rcases h.begun n hn with ⟨f, ⟨u, hf⟩, -⟩ | returned
  · rw [idle u] at hf
    cases hf
  · exact returned

/-- A call that has returned has said its word, and left nothing else inside. -/
theorem word_of_returned (h : c.Traced) {n : Nat} {reply : Reply}
    (returned : .returned u n reply ∈ c.history) : ∃ v action marks,
      c.trace n = .began v n action :: (marks ++ [.returned u n reply]) ∧
      Word c.id n action reply marks ∧
      ∀ m ∈ c.history, m.number = n → m.isInner = true → m ∈ marks := by
  obtain ⟨v, action, marks, begun, word⟩ := h.returned returned
  refine ⟨v, action, marks, begun, word, fun m hm hn inner => ?_⟩
  have mem := mem_trace.mpr ⟨hm, hn⟩
  rw [begun, List.mem_cons, List.mem_append, List.mem_singleton] at mem
  rcases mem with rfl | mem | rfl
  · cases inner
  · exact mem
  · cases inner

end Traced

/-- Whatever is reachable, every call says its word. -/
theorem traced_initial {id : String} {state : State} {moments : Nat → Moment}
    (h : Reachable (initial id state moments) c) : c.Traced := by
  refine (h.invariant (P := fun c => c.Recorded ∧ c.Traced) (sound_initial id state moments) ?_
    fun hc ⟨hr, ht⟩ m => ?_).2.2
  · exact ⟨recorded_initial .refl, fun ⟨_, h⟩ => (nomatch h), fun h => (nomatch h),
      fun _ hn => nomatch hn⟩
  · have m := m.change hc.numbered
    exact ⟨hr.of_change hc m, ht.of_change hc hr m⟩

/-! ## Pieces of the history -/

/-- A split of what is left of a piece of the history is a split of the piece. -/
theorem exists_cut_of_filter {marks before after : List Mark} {x : Mark} {p : Mark → Bool}
    (h : marks.filter p = before ++ x :: after) : ∃ pre post, marks = pre ++ x :: post ∧
      pre.filter p = before ∧ post.filter p = after := by
  obtain ⟨first, rest, hh, hb, hr⟩ := List.filter_eq_append_iff.mp h
  obtain ⟨skipped, post, rfl, none, -, hp⟩ := List.filter_eq_cons_iff.mp hr
  refine ⟨first ++ skipped, post, by rw [hh, List.append_assoc], ?_, hp⟩
  rw [List.filter_append, hb, List.filter_eq_nil_iff.mpr none, List.append_nil]

/-- What the slot of a process that was found in some state holds after a piece of the history. -/
def held (state : State) (marks : List Mark) : Slot :=
  (marks.filterMap Mark.write?).getLastD { state }

theorem held_concat (state : State) (marks : List Mark) (m : Mark) :
    held state (marks ++ [m]) = m.write?.getD (held state marks) := by
  rw [held, List.filterMap_append]
  cases written : m.write? with
  | none => simp [written, held]
  | some slot => simp [written]

/-- The events of one call, oldest first. -/
def events (c : Interleaving) (n : Nat) : List (Severity × Payload) :=
  (c.trace n).filterMap fun
    | .emitted _ severity payload => some (severity, payload)
    | _ => none

section Reachable

variable {id : String} {state : State} {moments : Nat → Moment}

/-- Every piece of the history up to some mark was all of it once. -/
theorem Reachable.exists_of_history (h : Reachable (initial id state moments) c)
    {pre post : List Mark} {x : Mark} (hh : c.history = pre ++ x :: post) :
    ∃ a, Reachable (initial id state moments) a ∧ a.history = pre := by
  obtain ⟨a, -, ha, -, -, -, he, -⟩ := h.cut hh
  exact ⟨a, ha, he⟩

theorem Reachable.slot_eq_held (h : Reachable (initial id state moments) c) :
    c.slot = held state c.history :=
  (life_initial h).eq_getLastD

/-- The clock stays. -/
theorem Reachable.moments_eq (h : Reachable (initial id state moments) c) : c.moments = moments := by
  refine (h.invariant (P := fun c => c.moments = moments) (sound_initial id state moments) rfl
    fun hc ih m => ?_).2
  cases m.change hc.numbered with
  | still upd | begin _ _ upd | turn _ _ upd | finish _ _ upd => exact upd.moments.trans ih

/-- The exit that a report has recorded has the code of the report, and stays. -/
theorem Reachable.exit_of_claimed (h : Reachable (initial id state moments) c) {n : Nat}
    {code : Int32} {previous : State} {resume : Bool} {slot : Slot}
    (mem : .claimed n code (.accepted previous resume slot) ∈ c.history) :
    slot.exit = some ⟨code, moments n⟩ ∧ c.slot.exit = some ⟨code, moments n⟩ := by
  obtain ⟨pre, post, hh⟩ := List.append_of_mem mem
  obtain ⟨a, b, ha, -, hab, -, -, e⟩ := h.cut hh
  obtain ⟨u, f, stage, after, holder, -, hn, t⟩ := hab.turn_of_mark rfl e
  have written : slot ∈ c.writes := List.mem_filterMap.mpr ⟨_, mem, rfl⟩
  have exit : slot.exit = some ⟨code, moments n⟩ := by
    rw [← ha.moments_eq]
    generalize f.stage = s at t
    cases hn
    cases t <;> rfl
  exact ⟨exit, (life_initial h).exit_of_mem written exit⟩

/-- An operation is dispatched in the state that the slot holds. -/
theorem Reachable.state_of_dispatched (h : Reachable (initial id state moments) c) {n : Nat}
    {r : Request} {s : State} {pre post : List Mark}
    (hh : c.history = pre ++ .dispatched n r s :: post) : (held state pre).state = s := by
  obtain ⟨a, b, ha, -, hab, -, he, e⟩ := h.cut hh
  obtain ⟨u, f, stage, slot, holder, hf, -, t⟩ := hab.turn_of_mark rfl e
  rw [← he, ← ha.slot_eq_held]
  generalize f.stage = s at t
  cases t <;> rfl

end Reachable

end Interleaving

end ContainerInit
