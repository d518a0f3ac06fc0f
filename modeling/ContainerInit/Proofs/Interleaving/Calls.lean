import ContainerInit.Proofs.Interleaving.Exits

/-!
# The calls of the controller

What holds of the calls that the controller of a process has got, at every time of a run.

- **One at a time** (`opened`, `closed`, `Alternating`): between the beginning and the end of a call
  that was made for a request, no other one begins.
- **Grounds** (`Grounded`): a call made for a request has been dispatched, and the resume of a
  frozen process has been claimed.
- **Once** (`Spent`, `Once`): a start succeeds at most once and so does a deletion, because no state
  that may follow the commit dispatches the operation again. The resume is made once (`Thawing`).
-/

namespace ContainerInit

/-! ## What dispatch says about calls -/

/-- The operation that a method performs. -/
def Method.operation : Method → Operation
  | .start => .start
  | .kill => .kill
  | .delete => .delete
  | .update => .update
  | .exec => .exec
  | .resume => .resume
  | .checkpoint => .checkpoint

/-- The call resumes a frozen process. -/
def Call.isResume : Call → Bool
  | .resume _ => true
  | _ => false

namespace Request

variable {id : String} {r : Request} {call : Call} {s : State} {next : Option State}

theorem operation_of_call? (hc : r.call? id = some call) :
    call.method.operation = r.operation := by
  cases r <;> cases hc <;> rfl

/-- No state resumes a process because a caller asks for it. -/
theorem not_isResume (h : s.dispatch r.operation = .ok (.delegate next))
    (hc : r.call? id = some call) : call.isResume = false := by
  cases r <;> cases hc <;> first | rfl | (cases s <;> cases h)

/-- No state writes a checkpoint. -/
theorem method_ne_checkpoint (h : s.dispatch r.operation = .ok (.delegate next))
    (hc : r.call? id = some call) : call.method ≠ .checkpoint := by
  cases r with
  | checkpoint => cases s <;> cases h
  | _ => cases hc <;> exact fun hm => nomatch hm

theorem eq_created_of_start (h : s.dispatch r.operation = .ok (.delegate next))
    (hc : r.call? id = some call) (hm : call.method = .start) : s = .created := by
  cases r <;> cases hc <;> cases hm
  cases s <;> first | rfl | cases h

/-- A process that has been stopped is killed and deleted, and no more. -/
theorem method_of_stopped (h : s.dispatch r.operation = .ok (.delegate next))
    (hc : r.call? id = some call) (hs : State.stopped ≤ s) :
    call.method = .kill ∨ call.method = .delete := by
  have ended : s = .stopped ∨ s = .deleted := by
    cases s <;> first | exact .inl rfl | exact .inr rfl | (rcases hs with hs | hs <;> cases hs)
  cases r with
  | kill => cases hc; exact .inl rfl
  | delete => cases hc; exact .inr rfl
  | _ => rcases ended with rfl | rfl <;> cases h

end Request

/-! ## Operations that are over -/

/-- Nothing is created again. -/
theorem State.ne_created_of_le {s t : State} (h : s ≤ t) (hs : s ≠ .created) : t ≠ .created := by
  rcases h with rfl | h
  · exact hs
  · rintro rfl
    cases s <;> cases h

/-- Nothing comes after the deletion. -/
theorem State.eq_deleted_of_le {s : State} (h : State.deleted ≤ s) : s = .deleted := by
  rcases h with rfl | h
  · rfl
  · cases s <;> cases h

/-- An operation that leads to another state is a start or a deletion. -/
theorem Operation.start_or_delete {o : Operation} {source target : State}
    (h : source.dispatch o = .ok (.delegate (some target))) :
    o = .start ∧ source = .created ∧ target = .running ∨ o = .delete ∧ target = .deleted := by
  cases source <;> cases o <;> cases h <;> simp

/-- No state dispatches the operation any more that may follow `s` in the order of a life. -/
def Spent (o : Operation) (s : State) : Prop :=
  ∀ t, s ≤ t → ∀ next, t.dispatch o ≠ .ok (.delegate next)

namespace Spent

variable {o : Operation} {s t : State}

theorem mono (h : Spent o s) (hst : s ≤ t) : Spent o t :=
  fun v hv => h v (Std.le_trans hst hv)

theorem start (hs : s ≠ .created) : Spent .start s := by
  intro v hv next h
  have hv := State.ne_created_of_le hv hs
  cases v <;> first | exact hv rfl | cases h

theorem delete : Spent .delete .deleted := by
  intro v hv next h
  cases State.eq_deleted_of_le hv
  cases h

/-- An operation is spent by a commit that leads to another state. -/
theorem of_commit {source target : State}
    (hd : source.dispatch o = .ok (.delegate (some target))) : Spent o target := by
  rcases Operation.start_or_delete hd with ⟨rfl, -, rfl⟩ | ⟨rfl, rfl⟩
  · exact .start (by decide)
  · exact .delete

/-- It is a start that an exit supersedes, and this is spent as well. -/
theorem of_superseded {source target : State}
    (hd : source.dispatch o = .ok (.delegate (some target)))
    (h : State.stopped.mayBecome target = false) : Spent o .stopped := by
  rcases Operation.start_or_delete hd with ⟨rfl, -, rfl⟩ | ⟨rfl, rfl⟩
  · exact .start (by decide)
  · cases h

end Spent

/-! ## Marks and stages -/

namespace Mark

/-- The number of the call for which the controller is called, if that is a request. -/
def opens? : Mark → Option Nat
  | .called n call => if call.isResume then none else some n
  | _ => none

/-- The number of the call for which the controller returns, if that is a request. -/
def closes? : Mark → Option Nat
  | .answered n call _ => if call.isResume then none else some n
  | _ => none

/-- The controller has succeeded with an operation. -/
def succeeds (o : Operation) : Mark → Bool
  | .answered _ call (.ok _) => call.method.operation = o
  | _ => false

end Mark

namespace Stage

/-- The controller is at work for a request. -/
def isAttending : Stage → Bool
  | .performing .. => true
  | _ => false

/-- The controller is to be called to resume the process. -/
def isThawing : Stage → Bool
  | .recording _ _ resume => resume
  | .resumeCalling _ => true
  | _ => false

/-- The request that the controller is to perform, or is performing. -/
def request? : Stage → Option Request
  | .calling r .. | .performing r .. => some r
  | _ => none

theorem isExclusive_of_request? {s : Stage} {r : Request} (h : s.request? = some r) :
    s.isExclusive = true := by
  cases s <;> first | rfl | cases h

theorem isExclusive_of_isAttending {s : Stage} (h : s.isAttending = true) :
    s.isExclusive = true := by
  cases s <;> first | rfl | cases h

end Stage

namespace Interleaving

variable {c d : Interleaving} {u : Caller}

/-- The requests for which the controller has been called, by number. -/
def opened (c : Interleaving) : List Nat :=
  c.history.filterMap Mark.opens?

/-- The requests for which the controller has returned, by number. -/
def closed (c : Interleaving) : List Nat :=
  c.history.filterMap Mark.closes?

/-- How often the controller has been called to resume the process. -/
def resumes (c : Interleaving) : Nat :=
  c.calls.countP Call.isResume

/-- How often the controller has succeeded with an operation. -/
def succeeded (c : Interleaving) (o : Operation) : Nat :=
  c.history.countP (Mark.succeeds o)

section Append

variable {marks : List Mark}

private theorem opened_append (h : d.history = c.history ++ marks) :
    d.opened = c.opened ++ marks.filterMap Mark.opens? := by
  rw [opened, h, List.filterMap_append]
  rfl

private theorem closed_append (h : d.history = c.history ++ marks) :
    d.closed = c.closed ++ marks.filterMap Mark.closes? := by
  rw [closed, h, List.filterMap_append]
  rfl

private theorem resumes_append (h : d.history = c.history ++ marks) :
    d.resumes = c.resumes + (marks.filterMap Mark.call?).countP Call.isResume := by
  rw [resumes, calls, h, List.filterMap_append, List.countP_append]
  rfl

private theorem succeeded_append (h : d.history = c.history ++ marks) (o : Operation) :
    d.succeeded o = c.succeeded o + marks.countP (Mark.succeeds o) := by
  rw [succeeded, h, List.countP_append]
  rfl

end Append

/-! ## One at a time -/

/-- What a turn of call `n` is for the calls that are made for requests, by whether the controller
is at work for `n` before and after. -/
inductive Attends (n : Nat) : Bool → Bool → List Mark → Prop
  | opens {m : Mark} (ho : m.opens? = some n) (hc : m.closes? = none) : Attends n false true [m]
  | closes {m : Mark} (ho : m.opens? = none) (hc : m.closes? = some n) : Attends n true false [m]
  | other {b : Bool} {marks : List Mark} (h : ∀ m ∈ marks, m.opens? = none ∧ m.closes? = none) :
    Attends n b b marks

theorem Turn.attends {n : Nat} {s stage : Stage} {slot : Slot} {holder : Option Caller}
    {marks : List Mark} {action : Action} (t : Turn c u n s stage slot holder marks)
    (h : s.Suits c.id action) : Attends n s.isAttending stage.isAttending marks := by
  cases t with
  | call =>
    exact .opens (by rw [Mark.opens?, Request.not_isResume h.2.1 h.2.2]; rfl) rfl
  | fail | succeed | succeedTo =>
    exact .closes rfl (by rw [Mark.closes?, Request.not_isResume h.2.1 h.2.2]; rfl)
  | enter | leave => exact .other fun m hm => nomatch hm
  | _ =>
    refine .other fun m hm => ?_
    rw [List.mem_singleton.mp hm]
    exact ⟨rfl, rfl⟩

/-- The controller is called for one request at a time. -/
structure Alternating (c : Interleaving) : Prop where
  busy : ∀ {f}, c.Pending f → f.stage.isAttending = true → c.opened = c.closed ++ [f.number]
  free : (∀ f, c.Pending f → f.stage.isAttending = false) → c.opened = c.closed

namespace Alternating

/-- Where marks open and close nothing and the controller stays at work for the same requests, the
calls alternate as before. -/
private theorem of_silent (ha : c.Alternating) {marks : List Mark}
    (hh : d.history = c.history ++ marks)
    (hm : ∀ m ∈ marks, m.opens? = none ∧ m.closes? = none)
    (new : ∀ g, d.Pending g → g.stage.isAttending = true →
      ∃ f, c.Pending f ∧ f.stage.isAttending = true ∧ f.number = g.number)
    (old : ∀ f, c.Pending f → f.stage.isAttending = true →
      ∃ g, d.Pending g ∧ g.stage.isAttending = true) : d.Alternating := by
  have ho : d.opened = c.opened := by
    rw [opened_append hh, List.filterMap_eq_nil_iff.mpr fun m h => (hm m h).1, List.append_nil]
  have hc : d.closed = c.closed := by
    rw [closed_append hh, List.filterMap_eq_nil_iff.mpr fun m h => (hm m h).2, List.append_nil]
  refine ⟨fun {g} hg eg => ?_, fun none => ?_⟩
  · obtain ⟨f, hf, ef, hn⟩ := new g hg eg
    rw [ho, hc, ← hn]
    exact ha.busy hf ef
  · rw [ho, hc]
    refine ha.free fun f hf => Bool.eq_false_iff.mpr fun ef => ?_
    obtain ⟨g, hg, eg⟩ := old f hf ef
    exact Bool.eq_false_iff.mp (none g hg) eg

private theorem of_turn (hc : c.Sound) (ha : c.Alternating) {f : Frame} {stage : Stage}
    {slot : Slot} {holder : Option Caller} {marks : List Mark} (hf : c.Pending f)
    (t : Turn c u f.number f.stage stage slot holder marks) (hh : d.history = c.history ++ marks)
    (pending : ∀ g, d.Pending g ↔ g = { f with stage } ∨ c.Pending g ∧ g.number ≠ f.number) :
    d.Alternating := by
  have attends := t.attends (hc.suits hf)
  have new : d.Pending { f with stage } := (pending _).mpr (.inl rfl)
  -- If the controller is at work for `f` before or after the turn, it is for no other call.
  have other : f.stage.isExclusive = true → ∀ g, c.Pending g → g.number ≠ f.number →
      g.stage.isAttending = false := fun ef g hg hne => Bool.eq_false_iff.mpr fun eg =>
    hne (hc.alone hg hf (Stage.isExclusive_of_isAttending eg) ef)
  have exclusive : f.stage.isAttending ≠ stage.isAttending → f.stage.isExclusive = true := by
    intro hne
    generalize f.stage = s at t hne
    cases t with
    | call | fail | succeed | succeedTo => rfl
    | _ => exact absurd rfl hne
  generalize hs : f.stage.isAttending = a at attends exclusive
  generalize hs' : stage.isAttending = b at attends exclusive
  cases attends with
  | @opens m ho hcl =>
    have alone := other (exclusive (by decide))
    have before : c.opened = c.closed := by
      refine ha.free fun g hg => ?_
      by_cases hn : g.number = f.number
      · rw [hc.numbered.pending_eq hg hf hn, hs]
      · exact alone g hg hn
    refine ⟨fun {g} hg eg => ?_, fun none => nomatch (none _ new).symm.trans hs'⟩
    rw [opened_append hh, closed_append hh, List.filterMap_cons_some ho,
      List.filterMap_cons_none hcl, before]
    rcases (pending g).mp hg with rfl | ⟨hg, hne⟩
    · simp
    · rw [alone g hg hne] at eg
      cases eg
  | @closes m ho hcl =>
    have alone := other (exclusive (by decide))
    refine ⟨fun {g} hg eg => ?_, fun _ => ?_⟩
    · rcases (pending g).mp hg with rfl | ⟨hg, hne⟩
      · rw [hs'] at eg
        cases eg
      · rw [alone g hg hne] at eg
        cases eg
    · rw [opened_append hh, closed_append hh, List.filterMap_cons_none ho,
        List.filterMap_cons_some hcl, ha.busy hf hs]
      simp
  | other h =>
    refine ha.of_silent hh h (fun g hg eg => ?_) fun g hg eg => ?_
    · rcases (pending g).mp hg with rfl | ⟨hg, -⟩
      · exact ⟨f, hf, hs.trans (hs'.symm.trans eg), rfl⟩
      · exact ⟨g, hg, eg, rfl⟩
    · by_cases hn : g.number = f.number
      · rw [hc.numbered.pending_eq hg hf hn] at eg
        exact ⟨_, new, hs'.trans (hs.symm.trans eg)⟩
      · exact ⟨g, (pending g).mpr (.inr ⟨hg, hn⟩), eg⟩

theorem of_change (hc : c.Sound) (ha : c.Alternating) (m : c.Change d) : d.Alternating := by
  rcases m.borders_or_turn hc with hb | ⟨v, f, stage, slot, holder, marks, hf, t, upd, pending⟩
  · obtain ⟨marks, hh, hm⟩ := hb.history
    refine ha.of_silent hh (fun m h => ?_) (fun g hg eg => ?_) fun g hg eg => ?_
    · cases m <;> first | exact ⟨rfl, rfl⟩ | cases hm _ h
    · rcases hb.new hg with hg | h
      · exact ⟨g, hg, eg, rfl⟩
      · have fresh := (ofAction_fresh c.id g.action).2.1
        rw [← h, Stage.isExclusive_of_isAttending eg] at fresh
        cases fresh
    · rcases hb.old hg with hg | ⟨reply, h⟩
      · exact ⟨g, hg, eg⟩
      · rw [h] at eg
        cases eg
  · exact ha.of_turn hc hf t upd.history pending

end Alternating

/-! ## Grounds -/

/-- What the controller is about to be called for has its ground in the history: the dispatch of the
request, or the claim of the exit of a frozen process. -/
structure Grounded (c : Interleaving) : Prop where
  dispatched : ∀ {f r call s next}, c.Pending f → f.stage = .calling r call s next →
    .dispatched f.number r s ∈ c.history
  claimed : ∀ {f}, c.Pending f → f.stage.isCompensating = true →
    ∃ code slot, .claimed f.number code (.accepted .paused true slot) ∈ c.history

/-- A turn that ends before a call of the controller leaves its ground. -/
private theorem Turn.dispatched {n : Nat} {s stage : Stage} {slot : Slot}
    {holder : Option Caller} {marks : List Mark} {r : Request} {call : Call} {source : State}
    {next : Option State} (t : Turn c u n s stage slot holder marks)
    (h : stage = .calling r call source next) : marks = [.dispatched n r source] := by
  cases t with
  | accept => cases h; rfl
  | _ => cases h

private theorem Turn.claimed {n : Nat} {s stage : Stage} {slot : Slot}
    {holder : Option Caller} {marks : List Mark} (t : Turn c u n s stage slot holder marks)
    (h : stage.isCompensating = true) : s.isCompensating = true ∨
      ∃ code slot, marks = [.claimed n code (.accepted .paused true slot)] := by
  cases t with
  | claimFrozen => exact .inr ⟨_, _, rfl⟩
  | recordFrozen | resume | resumed | resumeFail | tellResumeFailure => exact .inl rfl
  | _ => cases h

theorem Grounded.of_change (hc : c.Sound) (hg : c.Grounded) (m : c.Change d) : d.Grounded := by
  rcases m.borders_or_turn hc with hb | ⟨v, f, stage, slot, holder, marks, hf, t, upd, pending⟩
  · refine ⟨fun {g r call s next} hp hs => ?_, fun {g} hp hs => ?_⟩
    · rcases hb.new hp with hp | h
      · exact m.mem_history (hg.dispatched hp hs)
      · have fresh := (ofAction_fresh c.id g.action).2.1
        rw [← h, hs] at fresh
        cases fresh
    · rcases hb.new hp with hp | h
      · obtain ⟨code, slot, hm⟩ := hg.claimed hp hs
        exact ⟨code, slot, m.mem_history hm⟩
      · rw [h, (ofAction_fresh c.id g.action).2.2] at hs
        cases hs
  · have added : ∀ x ∈ marks, x ∈ d.history := fun x hx => by
      rw [upd.history]
      exact List.mem_append_right _ hx
    refine ⟨fun {g r call s next} hp hs => ?_, fun {g} hp hs => ?_⟩
    · rcases (pending g).mp hp with rfl | ⟨hp, -⟩
      · exact added _ (by rw [t.dispatched hs]; exact List.mem_cons_self)
      · exact m.mem_history (hg.dispatched hp hs)
    · have old : ∀ {f}, c.Pending f → f.stage.isCompensating = true →
          ∃ code slot, .claimed f.number code (.accepted .paused true slot) ∈ d.history := by
        intro f hf ef
        obtain ⟨code, slot, hm⟩ := hg.claimed hf ef
        exact ⟨code, slot, m.mem_history hm⟩
      rcases (pending g).mp hp with rfl | ⟨hp, -⟩
      · rcases t.claimed hs with ef | ⟨code, slot, hm⟩
        · exact old (f := f) hf ef
        · exact ⟨code, slot, added _ (by rw [hm]; exact List.mem_cons_self)⟩
      · exact old hp hs

/-! ## One resume -/

/-- The frozen process has not been resumed; or it has been, once, and this was for the recorded
exit, so that no call is about to do it again. -/
def Thawing (c : Interleaving) : Prop :=
  c.resumes = 0 ∨ c.resumes = 1 ∧ c.slot.exit.isSome = true ∧
    ∀ f, c.Pending f → f.stage.isThawing = false

theorem Stage.isCompensating_of_isThawing {s : Stage} (h : s.isThawing = true) :
    s.isCompensating = true := by
  cases s <;> first | exact h | rfl

/-- A turn makes the call that resumes the process, or leaves things as they are, unless it claims
an exit. -/
private theorem Turn.thaws {n : Nat} {s stage : Stage} {slot : Slot}
    {holder : Option Caller} {marks : List Mark} {action : Action}
    (t : Turn c u n s stage slot holder marks) (h : s.Suits c.id action) :
    s.isThawing = true ∧ stage.isThawing = false ∧
        (marks.filterMap Mark.call?).countP Call.isResume = 1 ∨
      (marks.filterMap Mark.call?).countP Call.isResume = 0 ∧
        (stage.isThawing = true → s.isThawing = true ∨ c.slot.exit = none) := by
  cases t with
  | call =>
    refine .inr ⟨?_, fun h => nomatch h⟩
    exact List.countP_eq_zero.mpr fun call hm => by
      rw [List.mem_singleton.mp hm, Request.not_isResume h.2.1 h.2.2]
      decide
  | resume => exact .inl ⟨rfl, rfl, rfl⟩
  | claimFrozen hx => exact .inr ⟨rfl, fun _ => .inr hx⟩
  | recordFrozen => exact .inr ⟨rfl, fun _ => .inl rfl⟩
  | _ => exact .inr ⟨rfl, fun h => nomatch h⟩

/-- A recorded exit stays. -/
theorem Sound.exit_isSome (hc : c.Sound) (m : c.Change d) (h : c.slot.exit.isSome = true) :
    d.slot.exit.isSome = true := by
  obtain ⟨e, he⟩ := Option.isSome_iff_exists.mp h
  rcases hc.write m with ⟨hs, -⟩ | ⟨w, -⟩
  · rw [hs, he]
    rfl
  · rw [w.exit_eq he]
    rfl

theorem Thawing.of_change (hc : c.Sound) (ht : c.Thawing) (m : c.Change d) : d.Thawing := by
  rcases m.borders_or_turn hc with hb | ⟨v, f, stage, slot, holder, marks, hf, t, upd, pending⟩
  · have hr : d.resumes = c.resumes := by
      unfold resumes calls
      rw [hb.filterMap_history fun m h => by cases m <;> first | rfl | cases h]
    rcases ht with h | ⟨h, hx, none⟩
    · exact .inl (hr.trans h)
    · refine .inr ⟨hr.trans h, hc.exit_isSome m hx, fun g hg => ?_⟩
      rcases hb.new hg with hg | h
      · exact none g hg
      · refine Bool.eq_false_iff.mpr fun eg => ?_
        have fresh := (ofAction_fresh c.id g.action).2.2
        rw [← h, Stage.isCompensating_of_isThawing eg] at fresh
        cases fresh
  · have hr := resumes_append upd.history
    rcases t.thaws (hc.suits hf) with ⟨ef, ef', one⟩ | ⟨zero, kept⟩
    · have ec := Stage.isCompensating_of_isThawing ef
      refine .inr ⟨?_, hc.exit_isSome m (hc.window hf ec).2, fun g hg => ?_⟩
      · rcases ht with h | ⟨-, -, none⟩
        · rw [hr, h, one]
        · exact nomatch (none f hf).symm.trans ef
      · rcases (pending g).mp hg with rfl | ⟨hg, hne⟩
        · exact ef'
        · exact Bool.eq_false_iff.mpr fun eg =>
            hne (hc.single hg hf (Stage.isCompensating_of_isThawing eg) ec)
    · rw [zero, Nat.add_zero] at hr
      rcases ht with h | ⟨h, hx, none⟩
      · exact .inl (hr.trans h)
      · refine .inr ⟨hr.trans h, hc.exit_isSome m hx, fun g hg => ?_⟩
        rcases (pending g).mp hg with rfl | ⟨hg, -⟩
        · refine Bool.eq_false_iff.mpr fun eg => ?_
          rcases kept eg with ef | hn
          · exact nomatch (none f hf).symm.trans ef
          · rw [hn] at hx
            cases hx
        · exact none g hg

/-! ## One success -/

/-- The operation has not succeeded; or it has, once, and either its call is about to commit it, or
it is spent, and the controller is not called for it any more. -/
inductive Once (o : Operation) (c : Interleaving) : Prop
  | never (h : c.succeeded o = 0)
  | committing {f : Frame} {r : Request} {a : Answer} {source target : State}
    (h : c.succeeded o = 1) (hf : c.Pending f) (stage : f.stage = .committing r a source target)
    (hr : r.operation = o)
  | spent (h : c.succeeded o = 1) (hs : Spent o c.slot.state)
    (none : ∀ {g r}, c.Pending g → g.stage.request? = some r → r.operation ≠ o)

section Turn

variable {n : Nat} {s stage : Stage} {slot : Slot} {holder : Option Caller} {marks : List Mark}
  {action : Action} {o : Operation}

/-- A turn that lets an operation succeed goes on to commit it. -/
private theorem Turn.succeeds (t : Turn c u n s stage slot holder marks) (h : s.Suits c.id action)
    (ho : o = .start ∨ o = .delete) : marks.countP (Mark.succeeds o) = 0 ∨
      marks.countP (Mark.succeeds o) = 1 ∧ ∃ r a source target, s.request? = some r ∧
        stage = .committing r a source target ∧ r.operation = o := by
  cases t with
  | @succeed r call source a =>
    refine .inl (List.countP_eq_zero.mpr fun m hm => ?_)
    rw [List.mem_singleton.mp hm, Mark.succeeds, Request.operation_of_call? h.2.2,
      decide_eq_true_eq]
    intro hr
    have hd := h.2.1
    rw [hr] at hd
    rcases ho with rfl | rfl <;> cases source <;> cases hd
  | @succeedTo r call source target a =>
    have hm : Mark.succeeds o (.answered n call (.ok a)) = decide (r.operation = o) := by
      rw [Mark.succeeds, Request.operation_of_call? h.2.2]
    rw [List.countP_singleton, hm]
    by_cases hr : r.operation = o
    · rw [decide_eq_true hr]
      exact .inr ⟨rfl, r, a, source, target, rfl, rfl, hr⟩
    · rw [decide_eq_false hr]
      exact .inl rfl
  | resumed => rcases ho with rfl | rfl <;> exact .inl rfl
  | _ => exact .inl rfl

/-- What the controller is called for has been dispatched. -/
private theorem Turn.request? {r : Request} (t : Turn c u n s stage slot holder marks)
    (h : stage.request? = some r) : s.request? = some r ∨
      ∃ next, c.slot.state.dispatch r.operation = .ok (.delegate next) := by
  cases t with
  | accept hd => cases h; exact .inr ⟨_, hd⟩
  | call => exact .inl h
  | _ => cases h

/-- A commit leaves its operation spent. -/
private theorem Turn.spent {r : Request} {a : Answer} {source target : State}
    (t : Turn c u n s stage slot holder marks) (hs : s = .committing r a source target)
    (h : s.Suits c.id action) (moved : c.slot.state = source ∨ c.slot.state = .stopped) :
    Spent r.operation slot.state ∧ stage.request? = none := by
  cases t with
  | install => cases hs; exact ⟨.of_commit h.2, rfl⟩
  | supersede hne hm =>
    cases hs
    have stopped := moved.resolve_left hne
    rw [stopped] at hm
    rw [stopped]
    exact ⟨.of_superseded h.2 hm, rfl⟩
  | _ => cases hs

end Turn

/-- The state moves forward in the order of a life. -/
theorem Sound.state_le (hc : c.Sound) (m : c.Change d) : c.slot.state ≤ d.slot.state := by
  rcases hc.write m with ⟨hs, -⟩ | ⟨w, -⟩
  · rw [hs]
    exact Std.le_refl _
  · exact w.le

namespace Once

variable {o : Operation}

private theorem of_borders (h : c.Once o) (hb : c.Borders d) : d.Once o := by
  obtain ⟨marks, hh, hm⟩ := hb.history
  have hn : d.succeeded o = c.succeeded o := by
    rw [succeeded_append hh, List.countP_eq_zero.mpr fun m h => ?_, Nat.add_zero]
    cases m <;> first | exact Bool.false_ne_true | cases hm _ h
  cases h with
  | never h => exact .never (hn.trans h)
  | committing h hf stage hr =>
    rcases hb.old hf with hf | ⟨reply, hs⟩
    · exact .committing (hn.trans h) hf stage hr
    · rw [stage] at hs
      cases hs
  | spent h hs none =>
    refine .spent (hn.trans h) (by rw [hb.slot]; exact hs) fun {g r} hg eg => ?_
    rcases hb.new hg with hg | hs
    · exact none hg eg
    · have fresh := (ofAction_fresh c.id g.action).2.1
      rw [← hs, Stage.isExclusive_of_request? eg] at fresh
      cases fresh

private theorem of_turn (hc : c.Sound) (h : c.Once o) (ho : o = .start ∨ o = .delete) {f : Frame}
    {stage : Stage} {slot : Slot} {holder : Option Caller} {marks : List Mark} (hf : c.Pending f)
    (t : Turn c u f.number f.stage stage slot holder marks)
    (upd : c.Becomes d slot holder c.begun marks) (le : c.slot.state ≤ d.slot.state)
    (pending : ∀ g, d.Pending g ↔ g = { f with stage } ∨ c.Pending g ∧ g.number ≠ f.number) :
    d.Once o := by
  have hn := succeeded_append upd.history o
  have succeeds := t.succeeds (hc.suits hf) ho
  cases h with
  | never h =>
    rcases succeeds with zero | ⟨one, r, a, source, target, -, hs, hr⟩
    · exact .never (by rw [hn, h, zero])
    · exact .committing (by rw [hn, h, one]) ((pending _).mpr (.inl rfl)) hs hr
  | @committing f' r a source target h hf' stage' hr =>
    have ef' : f'.stage.isExclusive = true := by rw [stage']; rfl
    -- The call that is about to commit has the operation lock, so no other success comes before.
    have zero : marks.countP (Mark.succeeds o) = 0 := by
      refine succeeds.resolve_right fun ⟨_, r', _, _, _, hs, _⟩ => ?_
      have same := hc.alone hf hf' (Stage.isExclusive_of_request? hs) ef'
      rw [hc.numbered.pending_eq hf hf' same, stage'] at hs
      cases hs
    rw [zero, Nat.add_zero] at hn
    by_cases same : f'.number = f.number
    · cases hc.numbered.pending_eq hf' hf same
      obtain ⟨spent, none⟩ := t.spent stage' (hc.suits hf) (hc.source hf (by rw [stage']; rfl))
      refine .spent (hn.trans h) (by rw [upd.slot, ← hr]; exact spent) fun {g r'} hg eg => ?_
      rcases (pending g).mp hg with rfl | ⟨hg, hne⟩
      · exact nomatch none.symm.trans eg
      · exact absurd (hc.alone hg hf (Stage.isExclusive_of_request? eg) ef') hne
    · exact .committing (hn.trans h) ((pending f').mpr (.inr ⟨hf', same⟩)) stage' hr
  | spent h hs none =>
    have zero : marks.countP (Mark.succeeds o) = 0 :=
      succeeds.resolve_right fun ⟨_, _, _, _, _, hs, _, hr⟩ => none hf hs hr
    refine .spent (by rw [hn, h, zero]) (hs.mono le) fun {g r} hg eg hr => ?_
    rcases (pending g).mp hg with rfl | ⟨hg, -⟩
    · rcases t.request? eg with eg | ⟨next, hd⟩
      · exact none hf eg hr
      · rw [hr] at hd
        exact hs _ (Std.le_refl _) _ hd
    · exact none hg eg hr

theorem of_change (hc : c.Sound) (h : c.Once o) (ho : o = .start ∨ o = .delete)
    (m : c.Change d) : d.Once o := by
  rcases m.borders_or_turn hc with hb | ⟨v, f, stage, slot, holder, marks, hf, t, upd, pending⟩
  · exact h.of_borders hb
  · exact h.of_turn hc ho hf t upd (hc.state_le m) pending

theorem le_one (h : c.Once o) : c.succeeded o ≤ 1 := by
  cases h with
  | never h => rw [h]; exact Nat.zero_le 1
  | committing h | spent h => exact Nat.le_of_eq h

end Once

end Interleaving

end ContainerInit
