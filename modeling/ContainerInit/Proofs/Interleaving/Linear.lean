import ContainerInit.Proofs.Interleaving.History
import ContainerInit.Proofs.Interleaving.Serial
import ContainerInit.Proofs.Interleaving.Writes

/-!
# Calls at once as calls in an order

Of a process that is never frozen, all that its calls do at once they could have done one after the
other. The order is built up along the run (`Linear`): a call gets its place in it when its reply is
settled (`Stage.settled?`).

- Rejections, reports of exits, questions and commits that install a state come last.
- A side effect that fails, or that has no successor state, comes where its operation was
  dispatched: exits may have come since, and they do not mind (`Flight.after`).
- A start that is superseded comes right before the exit that superseded it, as a start that was
  committed (`Flight.window`).

Calls that returned before another one began come before it (`Precedes`, `Linear.realTime`).
-/

namespace ContainerInit

namespace Stage

/-- The reply that a call is going to give, once nothing can change it any more. -/
def settled? : Stage → Option Reply
  | .rejecting _ rejection => some (.failed (.rejected rejection))
  | .failing _ e => some (.failed (.controller e))
  | .announcing _ a _ => some (.answer a)
  | .leaving _ result => some (.ofResult result)
  | .recording .. | .resumeCalling _ | .resuming _ | .resumeFailing .. | .stopping _
  | .stopped _ => some (.answer .done)
  | .returning reply => some reply
  | _ => none

/-- What the controller has answered to a call whose reply is not settled. -/
def answer? (id : String) : Stage → Option (Call × Except ControllerError Answer)
  | .committing r a _ _ => (r.call? id).map fun call => (call, .ok a)
  | _ => none

/-- Nothing is under way any more for a call whose reply is settled. -/
theorem source?_of_settled? {s : Stage} {r : Reply} (h : s.settled? = some r) :
    s.source? = none := by
  cases s <;> first | rfl | cases h

end Stage

namespace Interleaving

variable {start c d : Interleaving} {u : Caller}

/-! ## Real time -/

/-- The call `i` returned before the call `j` began. -/
def Precedes (c : Interleaving) (i j : Nat) : Prop :=
  ∃ u r v a, [.returned u i r, .began v j a].Sublist c.history

namespace Precedes

variable {i j : Nat}

theorem returned (h : c.Precedes i j) : ∃ u r, .returned u i r ∈ c.history := by
  obtain ⟨u, r, v, a, hs⟩ := h
  exact ⟨u, r, hs.subset List.mem_cons_self⟩

/-- Only the beginning of a call can put another call before it. -/
theorem of_append {marks : List Mark} (hh : d.history = c.history ++ marks)
    (hm : ∀ m ∈ marks, ∀ v a, m ≠ .began v j a) (h : d.Precedes i j) : c.Precedes i j := by
  obtain ⟨u, r, v, a, hs⟩ := h
  rw [hh, List.sublist_append_iff] at hs
  obtain ⟨l₁, l₂, he, h₁, h₂⟩ := hs
  refine ⟨u, r, v, a, ?_⟩
  cases l₂ with
  | nil => rw [he, List.append_nil]; exact h₁
  | cons m l₂ =>
    have last : .began v j a ∈ m :: l₂ := by
      have hl : (l₁ ++ m :: l₂).getLast? = some (.began v j a) := by rw [← he]; rfl
      rw [List.getLast?_append, List.getLast?_cons, Option.some_or, ← List.getLast?_cons] at hl
      exact List.mem_of_getLast? hl
    exact absurd rfl (hm _ (h₂.subset last) v a)

/-- A change puts no call before one that has begun. -/
theorem of_change (m : c.Change d) (hj : j < c.begun) (h : d.Precedes i j) : c.Precedes i j := by
  cases m with
  | still upd => exact h.of_append upd.history fun _ hm => nomatch hm
  | begin v action upd =>
    refine h.of_append upd.history fun m hm w a he => ?_
    rw [List.mem_singleton.mp hm] at he
    cases he
    exact Nat.lt_irrefl _ hj
  | turn hf t upd =>
    refine h.of_append upd.history fun m hm w a he => ?_
    have hi := (t.mark_inner m hm).2
    rw [he] at hi
    cases hi
  | finish hf stage upd =>
    refine h.of_append upd.history fun m hm w a he => ?_
    rw [List.mem_singleton.mp hm] at he
    cases he

end Precedes

/-! ## The invariant -/

/-- What is said about a call is what has happened, as far as it has. -/
structure Placed (c : Interleaving) (x : Done) : Prop where
  began : ∃ u, .began u x.number x.action ∈ c.history
  answered : ∀ call outcome,
    .answered x.number call outcome ∈ c.history ↔ x.effect = some (call, outcome)
  settled : (∃ u, .returned u x.number x.reply ∈ c.history) ∨
    ∃ f, c.Pending f ∧ f.number = x.number ∧ f.stage.settled? = some x.reply

/-- The operation `n` is under way, which was dispatched in the state `source`, when `pre` had been
done and the slot was `s`; `post` has been done since. -/
structure Flight (start c : Interleaving) (pre post : List Done) (s : Slot) (n : Nat)
    (source : State) : Prop where
  before : Serial start.id start.moments start.slot pre s
  after : Serial start.id start.moments s post c.slot
  state : s.state = source
  later : ∀ x ∈ post, ¬ c.Precedes x.number n
  /-- A start can still be done: now, or right before the exit that has come in between. -/
  window : source = .created → c.slot = s ∨ ∃ a b, post = a ++ b ∧
    Serial start.id start.moments s a s ∧
    Serial start.id start.moments { s with state := .running } b c.slot

/-- The calls in `order` are those whose replies are settled, and could have been made one after the
other (module doc). -/
structure Linear (start c : Interleaving) (order : List Done) : Prop where
  id : c.id = start.id
  moments : c.moments = start.moments
  serial : Serial start.id start.moments start.slot order c.slot
  placed : ∀ x ∈ order, c.Placed x
  nodup : order.Pairwise fun x y => x.number ≠ y.number
  realTime : order.Pairwise fun x y => ¬ c.Precedes y.number x.number
  complete : ∀ n, n < c.begun → (∃ x ∈ order, x.number = n) ∨
    ∃ f, c.Pending f ∧ f.number = n ∧ f.stage.settled? = none
  asked : ∀ {f}, c.Pending f → f.stage.settled? = none → ∀ call outcome,
    .answered f.number call outcome ∈ c.history ↔ f.stage.answer? c.id = some (call, outcome)
  flight : ∀ {f source}, c.Pending f → f.stage.source? = some source →
    ∃ pre post s, order = pre ++ post ∧ Flight start c pre post s f.number source

theorem linear_initial (id : String) (state : State) (moments : Nat → Moment) :
    Linear (initial id state moments) (initial id state moments) [] where
  id := rfl
  moments := rfl
  serial := .nil
  placed _ h := nomatch h
  nodup := .nil
  realTime := .nil
  complete n h := absurd h (Nat.not_lt_zero n)
  asked := fun ⟨_, h⟩ => nomatch h
  flight := fun ⟨_, h⟩ => nomatch h

namespace Flight

variable {pre post : List Done} {s : Slot} {n : Nat} {source : State} {x : Done}

/-- What leaves the slot alone changes no flight. -/
theorem congr (h : Flight start c pre post s n source) (slot : d.slot = c.slot)
    (m : c.Change d) (hn : n < c.begun) : Flight start d pre post s n source where
  before := h.before
  after := by rw [slot]; exact h.after
  state := h.state
  later y hy hd := h.later y hy (hd.of_change m hn)
  window := by rw [slot]; exact h.window

/-- A call that has no operation lock comes last. A start that is under way could have been
committed before it. -/
theorem snoc (h : Flight start c pre post s n source)
    (serves : Serves start.id start.moments c.slot x d.slot) (hx : ∀ r, x.action ≠ .request r)
    (later : ¬ d.Precedes x.number n) (m : c.Change d) (hn : n < c.begun) :
    Flight start d pre (post ++ [x]) s n source where
  before := h.before
  after := h.after.snoc serves
  state := h.state
  later y hy hd := by
    rcases List.mem_append.mp hy with hy | hy
    · exact h.later y hy (hd.of_change m hn)
    · rw [List.mem_singleton.mp hy] at hd
      exact later hd
  window hs := by
    rcases h.window hs with he | ⟨a, b, rfl, ha, hb⟩
    · have after := h.after
      rw [he] at serves after
      rcases serves.of_created _ _ hx with hd | hd
      · exact .inl hd
      · exact .inr ⟨post, [x], rfl, after, .cons hd .nil⟩
    · exact .inr ⟨a, b ++ [x], List.append_assoc .., ha, hb.snoc serves⟩

end Flight

/-! ## How calls keep their places -/

/-- A call keeps its place while nothing more is answered to it and it goes on, or returns. -/
theorem Placed.append {x : Done} {marks : List Mark} (hx : c.Placed x)
    (hh : d.history = c.history ++ marks)
    (hm : ∀ call outcome, .answered x.number call outcome ∉ marks)
    (onward : ∀ f, c.Pending f → f.number = x.number → f.stage.settled? = some x.reply →
      (∃ u, .returned u x.number x.reply ∈ marks) ∨
      ∃ g, d.Pending g ∧ g.number = x.number ∧ g.stage.settled? = some x.reply) : d.Placed x where
  began := by
    obtain ⟨v, hv⟩ := hx.began
    exact ⟨v, by rw [hh]; exact List.mem_append_left _ hv⟩
  answered call outcome := by
    rw [hh, List.mem_append, or_iff_left (hm call outcome)]
    exact hx.answered call outcome
  settled := by
    rw [hh]
    rcases hx.settled with ⟨v, hv⟩ | ⟨f, hf, hn, hs⟩
    · exact .inl ⟨v, List.mem_append_left _ hv⟩
    · exact (onward f hf hn hs).imp_left fun ⟨v, hv⟩ => ⟨v, List.mem_append_right _ hv⟩

/-- What may be installed now was dispatched now, or might have been. -/
private theorem dispatch_of_mayBecome {r : Request} {s source target : State}
    (hd : source.dispatch r.operation = .ok (.delegate (some target)))
    (hs : s = source ∨ s = .stopped) (h : s.mayBecome target = true) :
    s.dispatch r.operation = .ok (.delegate (some target)) := by
  rcases hs with rfl | rfl
  · exact hd
  · cases source <;> cases r <;> cases hd <;> first | rfl | cases h

private theorem pairwise_insert {R : Done → Done → Prop} {pre post : List Done} {x : Done}
    (h : (pre ++ post).Pairwise R) (before : ∀ y ∈ pre, R y x) (after : ∀ y ∈ post, R x y) :
    (pre ++ x :: post).Pairwise R := by
  obtain ⟨hpre, hpost, hcross⟩ := List.pairwise_append.mp h
  refine List.pairwise_append.mpr ⟨hpre, List.pairwise_cons.mpr ⟨after, hpost⟩, fun y hy z hz => ?_⟩
  rcases List.mem_cons.mp hz with rfl | hz
  · exact before y hy
  · exact hcross y hy z hz

namespace Linear

variable {order pre post : List Done} {x : Done}

theorem number_lt (hl : Linear start c order) (hr : c.Recorded) (hx : x ∈ order) :
    x.number < c.begun := by
  obtain ⟨v, hv⟩ := (hl.placed x hx).began
  exact hr.below _ hv

theorem realTime_of_change (hl : Linear start c order) (hr : c.Recorded) (m : c.Change d) :
    order.Pairwise fun x y => ¬ d.Precedes y.number x.number :=
  hl.realTime.imp_of_mem fun hx _ h hd => h (hd.of_change m (hl.number_lt hr hx))

/-- A call whose reply is not settled has no place yet. -/
theorem number_ne (hl : Linear start c order) (hc : c.Sound) (hr : c.Recorded) {f : Frame}
    (hf : c.Pending f) (hs : f.stage.settled? = none) : ∀ x ∈ order, x.number ≠ f.number := by
  intro x hx he
  rcases (hl.placed x hx).settled with ⟨v, hv⟩ | ⟨g, hg, hn, hsettled⟩
  · rw [he] at hv
    exact hr.unreturned hf v _ hv
  · rw [hc.numbered.pending_eq hg hf (hn.trans he), hs] at hsettled
    cases hsettled

/-- A call at its old stage has been answered what it had been. -/
theorem asked_of_append (hl : Linear start c order) {marks : List Mark} {f : Frame}
    (hid : d.id = c.id) (hh : d.history = c.history ++ marks) (hf : c.Pending f)
    (hs : f.stage.settled? = none) {call : Call} {outcome : Except ControllerError Answer}
    (quiet : .answered f.number call outcome ∉ marks) :
    .answered f.number call outcome ∈ d.history ↔ f.stage.answer? d.id = some (call, outcome) := by
  rw [hid, hh, List.mem_append, or_iff_left quiet]
  exact hl.asked hf hs call outcome

/-- What leaves the slot alone leaves an operation under way. -/
theorem flight_of_change (hl : Linear start c order) (hc : c.Sound) (m : c.Change d)
    (slot : d.slot = c.slot) {f : Frame} {source : State} (hf : c.Pending f)
    (hs : f.stage.source? = some source) :
    ∃ pre post s, order = pre ++ post ∧ Flight start d pre post s f.number source := by
  obtain ⟨pre, post, s, he, h⟩ := hl.flight hf hs
  exact ⟨pre, post, s, he, h.congr slot m (hc.numbered.pending_lt hf)⟩

/-- No pending call comes before another in real time. -/
theorem not_precedes (hr : c.Recorded) {f : Frame} (hf : c.Pending f) (j : Nat) :
    ¬ c.Precedes f.number j := by
  intro h
  obtain ⟨v, r, hv⟩ := h.returned
  exact hr.unreturned hf v r hv

theorem of_still (hl : Linear start c order) (hc : c.Sound) (hr : c.Recorded)
    (upd : c.Becomes d c.slot c.holder c.begun []) (pending : ∀ g, d.Pending g ↔ c.Pending g) :
    Linear start d order := by
  have m : c.Change d := .still upd pending
  have placed : ∀ x ∈ order, d.Placed x := fun x hx =>
    (hl.placed x hx).append upd.history (fun _ _ h => nomatch h)
      fun g hg h hs => .inr ⟨g, (pending g).mpr hg, h, hs⟩
  refine ⟨upd.id.trans hl.id, upd.moments.trans hl.moments, by rw [upd.slot]; exact hl.serial,
    placed, hl.nodup, hl.realTime_of_change hr m, fun n hn => ?_, fun {f} hf hs call o => ?_,
    fun {f source} hf hs => ?_⟩
  · rw [upd.begun] at hn
    exact (hl.complete n hn).imp_right fun ⟨f, hf, h⟩ => ⟨f, (pending f).mpr hf, h⟩
  · exact hl.asked_of_append upd.id upd.history ((pending f).mp hf) hs fun h => nomatch h
  · exact hl.flight_of_change hc m upd.slot ((pending f).mp hf) hs

section Turn

variable {f : Frame} {stage : Stage} {slot : Slot} {holder : Option Caller} {marks : List Mark}

/-- A turn that settles no reply and leaves the slot alone leaves the order as it is. -/
theorem of_silent (hl : Linear start c order) (hc : c.Sound) (hr : c.Recorded) (hf : c.Pending f)
    (t : Turn c u f.number f.stage stage c.slot holder marks)
    (upd : c.Becomes d c.slot holder c.begun marks)
    (pending : ∀ g, d.Pending g ↔ g = { f with stage } ∨ c.Pending g ∧ g.number ≠ f.number)
    (same : stage.settled? = f.stage.settled?)
    (kept : f.stage.settled?.isSome = true → ∀ call outcome,
      .answered f.number call outcome ∉ marks)
    (asked : f.stage.settled? = none → ∀ call outcome,
      .answered f.number call outcome ∈ d.history ↔ stage.answer? c.id = some (call, outcome)) :
    Linear start d order := by
  have m : c.Change d := .turn hf t upd pending
  have new : d.Pending { f with stage } := (pending _).mpr (.inl rfl)
  have placed : ∀ x ∈ order, d.Placed x := by
    intro x hx
    refine (hl.placed x hx).append upd.history (fun call o h => ?_) fun g hg hn hs => ?_
    · have hn : x.number = f.number := (t.mark_inner _ h).1
      cases hs : f.stage.settled? with
      | none => exact hl.number_ne hc hr hf hs x hx hn
      | some r => exact kept (by rw [hs]; rfl) call o (hn ▸ h)
    · by_cases hgf : g.number = f.number
      · rw [hc.numbered.pending_eq hg hf hgf] at hn hs
        exact .inr ⟨_, new, hn, same.trans hs⟩
      · exact .inr ⟨g, (pending g).mpr (.inr ⟨hg, hgf⟩), hn, hs⟩
  refine ⟨upd.id.trans hl.id, upd.moments.trans hl.moments, by rw [upd.slot]; exact hl.serial,
    placed, hl.nodup, hl.realTime_of_change hr m, fun n hn => ?_,
    fun {g} hg hs call o => ?_, fun {g source} hg hs => ?_⟩
  · rw [upd.begun] at hn
    refine (hl.complete n hn).imp_right fun ⟨g, hg, hgn, hs⟩ => ?_
    by_cases hgf : g.number = f.number
    · rw [hc.numbered.pending_eq hg hf hgf] at hs
      exact ⟨_, new, hgf.symm.trans hgn, same.trans hs⟩
    · exact ⟨g, (pending g).mpr (.inr ⟨hg, hgf⟩), hgn, hs⟩
  · rcases (pending g).mp hg with rfl | ⟨hg, hgf⟩
    · rw [upd.id]
      exact asked (same.symm.trans hs) call o
    · exact hl.asked_of_append upd.id upd.history hg hs fun h =>
        hgf (t.mark_inner (.answered ..) h).1
  · rcases (pending g).mp hg with rfl | ⟨hg, -⟩
    · rcases (t.source_eq hs).2 with hs | rfl
      · exact hl.flight_of_change (f := f) hc m upd.slot hf hs
      · exact ⟨order, [], c.slot, (List.append_nil _).symm, hl.serial,
          by rw [upd.slot]; exact .nil, rfl, fun _ h => (nomatch h), fun _ => .inl upd.slot⟩
    · exact hl.flight_of_change hc m upd.slot hg hs

/-- A turn that settles the reply of a call gives the call its place. -/
theorem of_settle (hl : Linear start c (pre ++ post)) (hc : c.Sound) (hr : c.Recorded)
    (hf : c.Pending f) (t : Turn c u f.number f.stage stage slot holder marks)
    (upd : c.Becomes d slot holder c.begun marks)
    (pending : ∀ g, d.Pending g ↔ g = { f with stage } ∨ c.Pending g ∧ g.number ≠ f.number)
    (unsettled : f.stage.settled? = none) (settled : stage.settled? = some x.reply)
    (number : x.number = f.number) (action : x.action = f.action)
    (effect : ∀ call outcome,
      .answered f.number call outcome ∈ d.history ↔ x.effect = some (call, outcome))
    (serial : Serial start.id start.moments start.slot (pre ++ x :: post) slot)
    (later : ∀ y ∈ post, ¬ c.Precedes y.number f.number)
    (flight : ∀ {g source}, c.Pending g → g.number ≠ f.number → g.stage.source? = some source →
      ∃ pre' post' s, pre ++ x :: post = pre' ++ post' ∧
        Flight start d pre' post' s g.number source) :
    Linear start d (pre ++ x :: post) := by
  have m : c.Change d := .turn hf t upd pending
  have fresh := hl.number_ne hc hr hf unsettled
  have new : d.Pending { f with stage } := (pending _).mpr (.inl rfl)
  have mem : ∀ y, y ∈ pre ++ x :: post ↔ y = x ∨ y ∈ pre ++ post := by
    intro y
    rw [List.mem_append, List.mem_cons, List.mem_append]
    exact or_left_comm
  have placed : ∀ y ∈ pre ++ x :: post, d.Placed y := by
    intro y hy
    rcases (mem y).mp hy with rfl | hy
    · obtain ⟨v, hv⟩ := hr.began hf
      refine ⟨⟨v, ?_⟩, by rw [number]; exact effect, .inr ⟨_, new, number.symm, settled⟩⟩
      rw [number, action, upd.history]
      exact List.mem_append_left _ hv
    · refine (hl.placed y hy).append upd.history (fun call o h => ?_) fun g hg hn hs => ?_
      · exact fresh y hy (t.mark_inner _ h).1
      · exact .inr ⟨g, (pending g).mpr (.inr ⟨hg, hn ▸ fresh y hy⟩), hn, hs⟩
  refine ⟨upd.id.trans hl.id, upd.moments.trans hl.moments, by rw [upd.slot]; exact serial,
    placed, ?_, ?_, fun n hn => ?_, fun {g} hg hs call o => ?_, fun {g source} hg hs => ?_⟩
  · refine pairwise_insert hl.nodup (fun y hy => ?_) fun y hy => ?_
    · rw [number]; exact fresh y (List.mem_append_left _ hy)
    · rw [number]; exact (fresh y (List.mem_append_right _ hy)).symm
  · refine pairwise_insert (hl.realTime_of_change hr m) (fun y hy hd => ?_) fun y hy hd => ?_
    · rw [number] at hd
      exact not_precedes hr hf _ (hd.of_change m (hl.number_lt hr (List.mem_append_left _ hy)))
    · rw [number] at hd
      exact later y hy (hd.of_change m (hc.numbered.pending_lt hf))
  · rw [upd.begun] at hn
    rcases hl.complete n hn with ⟨y, hy, hyn⟩ | ⟨g, hg, hgn, hs⟩
    · exact .inl ⟨y, (mem y).mpr (.inr hy), hyn⟩
    · by_cases hgf : g.number = f.number
      · exact .inl ⟨x, (mem x).mpr (.inl rfl), number.trans (hgf.symm.trans hgn)⟩
      · exact .inr ⟨g, (pending g).mpr (.inr ⟨hg, hgf⟩), hgn, hs⟩
  · rcases (pending g).mp hg with rfl | ⟨hg, hgf⟩
    · rw [show stage.settled? = none from hs] at settled
      cases settled
    · exact hl.asked_of_append upd.id upd.history hg hs fun h =>
        hgf (t.mark_inner (.answered ..) h).1
  · rcases (pending g).mp hg with rfl | ⟨hg, hgf⟩
    · rw [Stage.source?_of_settled? settled] at hs
      cases hs
    · exact flight hg hgf hs

/-- A turn at which nothing is answered and nothing is settled. -/
theorem of_quiet (hl : Linear start c order) (hc : c.Sound) (hr : c.Recorded) (hf : c.Pending f)
    (t : Turn c u f.number f.stage stage c.slot holder marks)
    (upd : c.Becomes d c.slot holder c.begun marks)
    (pending : ∀ g, d.Pending g ↔ g = { f with stage } ∨ c.Pending g ∧ g.number ≠ f.number)
    (same : stage.settled? = f.stage.settled?)
    (answer : f.stage.settled? = none → stage.answer? c.id = f.stage.answer? c.id)
    (quiet : ∀ call outcome, .answered f.number call outcome ∉ marks) : Linear start d order := by
  refine hl.of_silent hc hr hf t upd pending same (fun _ => quiet) fun hs call o => ?_
  rw [upd.history, List.mem_append, or_iff_left (quiet call o), answer hs]
  exact hl.asked hf hs call o

/-- A call whose reply is settled by the slot that it finds comes last. -/
theorem settle_last (hl : Linear start c order) (hc : c.Sound) (hr : c.Recorded)
    (hf : c.Pending f) (t : Turn c u f.number f.stage stage slot holder marks)
    (upd : c.Becomes d slot holder c.begun marks)
    (pending : ∀ g, d.Pending g ↔ g = { f with stage } ∨ c.Pending g ∧ g.number ≠ f.number)
    (unsettled : f.stage.settled? = none) (settled : stage.settled? = some x.reply)
    (number : x.number = f.number) (action : x.action = f.action)
    (effect : x.effect = f.stage.answer? c.id)
    (quiet : ∀ call outcome, .answered f.number call outcome ∉ marks)
    (serves : Serves start.id start.moments c.slot x slot)
    (lone : f.stage.isExclusive = true ∨ ∀ r, x.action ≠ .request r) :
    Linear start d (order ++ [x]) := by
  have hl' : Linear start c (order ++ []) := by rwa [List.append_nil]
  refine hl'.of_settle hc hr hf t upd pending unsettled settled number action (fun call o => ?_)
    (hl.serial.snoc serves) (fun _ h => nomatch h) fun {g source} hg hgf hs => ?_
  · rw [upd.history, List.mem_append, or_iff_left (quiet call o), effect]
    exact hl.asked hf unsettled call o
  · rcases lone with ef | hx
    · exact absurd (hc.alone hg hf (Stage.isExclusive_of_source? hs) ef) hgf
    · have m : c.Change d := .turn hf t upd pending
      have hlt := hc.numbered.pending_lt hg
      obtain ⟨pre, post, s, rfl, h⟩ := hl.flight hg hs
      refine ⟨pre, post ++ [x], s, List.append_assoc .., h.snoc ?_ hx ?_ m hlt⟩
      · rw [upd.slot]; exact serves
      · rw [number]
        exact fun hd => not_precedes hr hf _ (hd.of_change m hlt)

/-- A side effect after which no state is installed comes where its operation was dispatched. -/
theorem settle_dispatched (hl : Linear start c order) (hc : c.Sound) (hr : c.Recorded)
    (hf : c.Pending f) (t : Turn c u f.number f.stage stage c.slot holder marks)
    (upd : c.Becomes d c.slot holder c.begun marks)
    (pending : ∀ g, d.Pending g ↔ g = { f with stage } ∨ c.Pending g ∧ g.number ≠ f.number)
    {r : Request} {call : Call} {source : State} {next : Option State}
    {outcome : Except ControllerError Answer} (hs : f.stage = .performing r call source next)
    (settled : stage.settled? = some (.ofResult (outcome.mapError .controller)))
    (hm : marks = [.answered f.number call outcome])
    (stays : ∀ s : Slot, s.afterEffect outcome next = s) : ∃ order', Linear start d order' := by
  have hsuits := hc.suits hf
  rw [hs] at hsuits
  obtain ⟨ha, hd, hcall⟩ := hsuits
  have hsource : f.stage.source? = some source := by rw [hs]; rfl
  obtain ⟨pre, post, s, rfl, h⟩ := hl.flight hf hsource
  have serves : Serves start.id start.moments s
      ⟨f.number, .request r, some (call, outcome), .ofResult (outcome.mapError .controller)⟩ s := by
    have perform : Serves start.id start.moments s ⟨f.number, .request r, some (call, outcome),
        .ofResult (outcome.mapError .controller)⟩ (s.afterEffect outcome next) :=
      .perform (h.state ▸ hd) (hl.id ▸ hcall)
    rwa [stays] at perform
  refine ⟨_, hl.of_settle hc hr hf t upd pending (by rw [hs]; rfl) settled rfl ha.symm
    (fun call' o => ?_) (h.before.append (.cons serves h.after)) h.later
    fun {g source} hg hgf hg' => ?_⟩
  · have asked := hl.asked hf (by rw [hs]; rfl) call' o
    rw [hs] at asked
    rw [upd.history, hm, List.mem_append, asked, List.mem_singleton]
    constructor
    · rintro (h | h)
      · cases h
      · cases h; rfl
    · intro h
      cases h
      exact .inr rfl
  · exact absurd (hc.alone hg hf (Stage.isExclusive_of_source? hg') (by rw [hs]; rfl)) hgf

/-- A start that is superseded comes right before the exit that has superseded it. -/
theorem settle_superseded (hl : Linear start c order) (hc : c.Sound) (hr : c.Recorded)
    (hf : c.Pending f) (t : Turn c u f.number f.stage stage c.slot holder marks)
    (upd : c.Becomes d c.slot holder c.begun marks)
    (pending : ∀ g, d.Pending g ↔ g = { f with stage } ∨ c.Pending g ∧ g.number ≠ f.number)
    {r : Request} {answer : Answer} {source target : State}
    (hs : f.stage = .committing r answer source target)
    (settled : stage.settled? = some (.answer answer))
    (quiet : ∀ call outcome, .answered f.number call outcome ∉ marks)
    (hne : c.slot.state ≠ source) (hm : c.slot.state.mayBecome target = false) :
    ∃ order', Linear start d order' := by
  have hsuits := hc.suits hf
  rw [hs] at hsuits
  obtain ⟨ha, hd⟩ := hsuits
  have hstopped : c.slot.state = .stopped :=
    (hc.source hf (s := source) (by rw [hs]; rfl)).resolve_left hne
  obtain ⟨rfl, rfl⟩ : target = .running ∧ source = .created := by
    refine (target_of_dispatch hd).resolve_right fun h => ?_
    rw [h, hstopped] at hm
    cases hm
  have hcall : r.call? c.id ≠ none := r.call?_ne_none hd
  obtain ⟨call, hcall⟩ := Option.ne_none_iff_exists'.mp hcall
  have hsource : f.stage.source? = some .created := by rw [hs]; rfl
  obtain ⟨pre, post, s, rfl, h⟩ := hl.flight hf hsource
  obtain ⟨a, b, rfl, hbefore, hafter⟩ : ∃ a b, post = a ++ b ∧
      Serial start.id start.moments s a s ∧
      Serial start.id start.moments { s with state := .running } b c.slot := by
    refine (h.window rfl).resolve_left fun he => hne ?_
    rw [he, h.state]
  have serves : Serves start.id start.moments s
      ⟨f.number, .request r, some (call, .ok answer), .answer answer⟩
      { s with state := .running } :=
    .perform (h.state ▸ hd) (hl.id ▸ hcall)
  rw [← List.append_assoc] at hl
  refine ⟨_, hl.of_settle hc hr hf t upd pending (by rw [hs]; rfl) settled rfl ha.symm
    (fun call' o => ?_) ((h.before.append hbefore).append (.cons serves hafter))
    (fun y hy => h.later y (List.mem_append_right _ hy)) fun {g source} hg hgf hg' => ?_⟩
  · have asked := hl.asked hf (by rw [hs]; rfl) call' o
    rw [hs, Stage.answer?, hcall] at asked
    rw [upd.history, List.mem_append, or_iff_left (quiet call' o)]
    exact asked
  · exact absurd (hc.alone hg hf (Stage.isExclusive_of_source? hg') (by rw [hs]; rfl)) hgf

/-- A commit that installs a state comes last. -/
theorem settle_installed (hl : Linear start c order) (hc : c.Sound) (hr : c.Recorded)
    (hf : c.Pending f) {r : Request} {answer : Answer} {source target : State}
    (t : Turn c u f.number f.stage stage { c.slot with state := target } holder marks)
    (upd : c.Becomes d { c.slot with state := target } holder c.begun marks)
    (pending : ∀ g, d.Pending g ↔ g = { f with stage } ∨ c.Pending g ∧ g.number ≠ f.number)
    (hs : f.stage = .committing r answer source target)
    (settled : stage.settled? = some (.answer answer))
    (quiet : ∀ call outcome, .answered f.number call outcome ∉ marks)
    (hm : c.slot.state.mayBecome target = true) : ∃ order', Linear start d order' := by
  have hsuits := hc.suits hf
  rw [hs] at hsuits
  obtain ⟨ha, hd⟩ := hsuits
  have hcall : r.call? c.id ≠ none := r.call?_ne_none hd
  obtain ⟨call, hcall⟩ := Option.ne_none_iff_exists'.mp hcall
  have hnow := dispatch_of_mayBecome hd (hc.source hf (s := source) (by rw [hs]; rfl)) hm
  refine ⟨_, hl.settle_last (x := ⟨f.number, .request r, some (call, .ok answer), .answer answer⟩)
    hc hr hf t upd pending (by rw [hs]; rfl) settled rfl ha.symm ?_ quiet
    (.perform hnow (hl.id ▸ hcall)) (.inl (by rw [hs]; rfl))⟩
  rw [hs, Stage.answer?, hcall]
  rfl

/-- **Every turn keeps the order, or gives the call its place in it.** -/
theorem of_turn (hl : Linear start c order) (hc : c.Sound) (hr : c.Recorded)
    (hp : c.slot.state ≠ .paused) (hf : c.Pending f)
    (t : Turn c u f.number f.stage stage slot holder marks)
    (upd : c.Becomes d slot holder c.begun marks)
    (pending : ∀ g, d.Pending g ↔ g = { f with stage } ∨ c.Pending g ∧ g.number ≠ f.number) :
    ∃ order', Linear start d order' := by
  have hsuits := hc.suits hf
  have hwindow := hc.window hf
  obtain ⟨n, action, s⟩ := f
  have turn := t
  cases t with
  | enter | accept | refuse | call | tellFailure | announce | leave | record | recordFrozen
  | resume | tellResumeFailure | tellStop =>
    exact ⟨order, hl.of_quiet hc hr hf turn upd pending rfl (fun _ => rfl) (by simp)⟩
  | @succeedTo r call source target a =>
    refine ⟨order, hl.of_silent hc hr hf turn upd pending rfl (fun h => nomatch h)
      fun _ call' o => ?_⟩
    have asked := hl.asked hf rfl call' o
    rw [upd.history, List.mem_append, asked, Stage.answer?, hsuits.2.2]
    simp [Stage.answer?, eq_comm]
  | reject h =>
    cases hsuits
    exact ⟨_, hl.settle_last hc hr hf turn upd pending rfl rfl rfl rfl rfl (by simp) (.reject h)
      (.inl rfl)⟩
  | fail =>
    exact hl.settle_dispatched hc hr hf turn upd pending rfl rfl rfl fun s => rfl
  | succeed =>
    exact hl.settle_dispatched hc hr hf turn upd pending rfl rfl rfl fun s => rfl
  | install h => exact hl.settle_installed hc hr hf turn upd pending rfl rfl (by simp) h
  | supersede hne h =>
    exact hl.settle_superseded hc hr hf turn upd pending rfl rfl (by simp) hne h
  | ignore h =>
    cases hsuits
    exact ⟨_, hl.settle_last hc hr hf turn upd pending rfl rfl rfl rfl rfl (by simp) (.ignore h)
      (.inr fun r h => nomatch h)⟩
  | @claim code hx h =>
    cases hsuits
    have serves : Serves start.id start.moments c.slot ⟨n, .exited code, none, .answer .done⟩
        ⟨.stopped, some ⟨code, c.moments n⟩⟩ := by
      rw [hl.moments]
      exact .exit hx h
    exact ⟨_, hl.settle_last hc hr hf turn upd pending rfl rfl rfl rfl rfl (by simp) serves
      (.inr fun r h => nomatch h)⟩
  | @answer q =>
    cases hsuits
    have serves : Serves start.id start.moments c.slot ⟨n, .query q, none, q.reply c.snapshot⟩
        c.slot := by
      rw [snapshot, hl.id]
      exact .query
    exact ⟨_, hl.settle_last hc hr hf turn upd pending rfl rfl rfl rfl rfl (by simp) serves
      (.inr fun r h => nomatch h)⟩
  | claimFrozen _ h => exact absurd h hp
  | resumed | resumeFail | stop => exact absurd (hwindow rfl).1 hp

end Turn

/-- A call that returns keeps its place. -/
theorem of_finish (hl : Linear start c order) (hc : c.Sound) (hr : c.Recorded) {f : Frame}
    {reply : Reply} (hf : c.Pending f) (stage : f.stage = .returning reply)
    (upd : c.Becomes d c.slot c.holder c.begun [.returned u f.number reply])
    (pending : ∀ g, d.Pending g ↔ c.Pending g ∧ g.number ≠ f.number) : Linear start d order := by
  have m : c.Change d := .finish hf stage upd pending
  have settled : f.stage.settled? = some reply := by rw [stage]; rfl
  have placed : ∀ x ∈ order, d.Placed x := by
    intro x hx
    refine (hl.placed x hx).append upd.history (by simp) fun g hg hn hs => ?_
    by_cases hgf : g.number = f.number
    · rw [hc.numbered.pending_eq hg hf hgf] at hn hs
      have hreply : x.reply = reply := Option.some.inj (hs.symm.trans settled)
      rw [← hn, hreply]
      exact .inl ⟨u, List.mem_cons_self⟩
    · exact .inr ⟨g, (pending g).mpr ⟨hg, hgf⟩, hn, hs⟩
  refine ⟨upd.id.trans hl.id, upd.moments.trans hl.moments, by rw [upd.slot]; exact hl.serial,
    placed, hl.nodup, hl.realTime_of_change hr m, fun n hn => ?_,
    fun {g} hg hs call o => ?_, fun {g source} hg hs => ?_⟩
  · rw [upd.begun] at hn
    refine (hl.complete n hn).imp_right fun ⟨g, hg, hgn, hs⟩ => ?_
    refine ⟨g, (pending g).mpr ⟨hg, fun hgf => ?_⟩, hgn, hs⟩
    rw [hc.numbered.pending_eq hg hf hgf, settled] at hs
    cases hs
  · exact hl.asked_of_append upd.id upd.history ((pending g).mp hg).1 hs (by simp)
  · exact hl.flight_of_change hc m upd.slot ((pending g).mp hg).1 hs

section Begin

variable {action : Action}

private theorem placed_of_begin (hl : Linear start c order)
    (hh : d.history = c.history ++ [.began u c.begun action])
    (pending : ∀ g, c.Pending g → d.Pending g) (hx : x ∈ order) : d.Placed x :=
  (hl.placed x hx).append hh (by simp) fun g hg hn hs => .inr ⟨g, pending g hg, hn, hs⟩

/-- Nothing has been answered to a call that begins. -/
private theorem answered_of_begin (hr : c.Recorded)
    (hh : d.history = c.history ++ [.began u c.begun action]) (call : Call)
    (outcome : Except ControllerError Answer) : .answered c.begun call outcome ∉ d.history := by
  rw [hh, List.mem_append, or_iff_left (by simp)]
  exact hr.fresh rfl

/-- A call that begins has no place yet. -/
private theorem of_begin_unsettled (hl : Linear start c order) (hc : c.Sound) (hr : c.Recorded)
    (upd : c.Becomes d c.slot c.holder (c.begun + 1) [.began u c.begun action])
    (pending : ∀ g, d.Pending g ↔
      g = ⟨c.begun, action, .ofAction c.id action⟩ ∨ c.Pending g)
    (settled : (Stage.ofAction c.id action).settled? = none)
    (answer : (Stage.ofAction c.id action).answer? c.id = none)
    (source : (Stage.ofAction c.id action).source? = none) : Linear start d order := by
  have m : c.Change d := .begin u action upd pending
  refine ⟨upd.id.trans hl.id, upd.moments.trans hl.moments, by rw [upd.slot]; exact hl.serial,
    fun x => hl.placed_of_begin upd.history fun g hg => (pending g).mpr (.inr hg), hl.nodup,
    hl.realTime_of_change hr m, fun n hn => ?_, fun {g} hg hs call o => ?_,
    fun {g s} hg hs => ?_⟩
  · rw [upd.begun] at hn
    rcases Nat.lt_succ_iff_lt_or_eq.mp hn with hn | rfl
    · exact (hl.complete n hn).imp_right fun ⟨g, hg, h⟩ => ⟨g, (pending g).mpr (.inr hg), h⟩
    · exact .inr ⟨_, (pending _).mpr (.inl rfl), rfl, settled⟩
  · rcases (pending g).mp hg with rfl | hg
    · rw [upd.id, answer]
      exact ⟨fun h => absurd h (answered_of_begin hr upd.history call o), fun h => nomatch h⟩
    · exact hl.asked_of_append upd.id upd.history hg hs (by simp)
  · rcases (pending g).mp hg with rfl | hg
    · rw [source] at hs
      cases hs
    · exact hl.flight_of_change hc m upd.slot hg hs

/-- The question for the identity is settled as it begins. -/
private theorem of_begin_identity (hl : Linear start c order) (hc : c.Sound) (hr : c.Recorded)
    (upd : c.Becomes d c.slot c.holder (c.begun + 1) [.began u c.begun (.query .id)])
    (pending : ∀ g, d.Pending g ↔
      g = ⟨c.begun, .query .id, .returning (.text c.id)⟩ ∨ c.Pending g) :
    Linear start d (order ++ [⟨c.begun, .query .id, none, .text c.id⟩]) := by
  have m : c.Change d := .begin u (.query .id) upd pending
  have new : d.Pending ⟨c.begun, .query .id, .returning (.text c.id)⟩ := (pending _).mpr (.inl rfl)
  have serves : Serves start.id start.moments c.slot ⟨c.begun, .query .id, none, .text c.id⟩
      d.slot := by
    rw [upd.slot, hl.id]
    exact .query
  -- The call has not returned, for its number is new.
  have unreturned : ∀ j, ¬ d.Precedes c.begun j := by
    intro j h
    obtain ⟨v, r, hv⟩ := h.returned
    rw [upd.history, List.mem_append, or_iff_left (by simp)] at hv
    exact hr.fresh rfl hv
  refine ⟨upd.id.trans hl.id, upd.moments.trans hl.moments, hl.serial.snoc serves, fun x hx => ?_,
    ?_, ?_, fun n hn => ?_, fun {g} hg hs call o => ?_, fun {g s} hg hs => ?_⟩
  · rcases List.mem_append.mp hx with hx | hx
    · exact hl.placed_of_begin upd.history (fun g hg => (pending g).mpr (.inr hg)) hx
    · rw [List.mem_singleton.mp hx]
      refine ⟨⟨u, ?_⟩, fun call o => ⟨fun h => absurd h (answered_of_begin hr upd.history call o),
        fun h => nomatch h⟩, .inr ⟨_, new, rfl, rfl⟩⟩
      rw [upd.history]
      exact List.mem_append_right _ List.mem_cons_self
  · refine List.pairwise_append.mpr ⟨hl.nodup, List.pairwise_singleton _ _, fun x hx y hy => ?_⟩
    rw [List.mem_singleton.mp hy]
    exact Nat.ne_of_lt (hl.number_lt hr hx)
  · refine List.pairwise_append.mpr ⟨hl.realTime_of_change hr m,
      List.pairwise_singleton _ _, fun x _ y hy => ?_⟩
    rw [List.mem_singleton.mp hy]
    exact unreturned _
  · rw [upd.begun] at hn
    rcases Nat.lt_succ_iff_lt_or_eq.mp hn with hn | rfl
    · exact (hl.complete n hn).imp (fun ⟨x, hx, h⟩ => ⟨x, List.mem_append_left _ hx, h⟩)
        fun ⟨g, hg, h⟩ => ⟨g, (pending g).mpr (.inr hg), h⟩
    · exact .inl ⟨_, List.mem_append_right _ List.mem_cons_self, rfl⟩
  · rcases (pending g).mp hg with rfl | hg
    · cases hs
    · exact hl.asked_of_append upd.id upd.history hg hs (by simp)
  · rcases (pending g).mp hg with rfl | hg
    · cases hs
    · obtain ⟨pre, post, s, rfl, h⟩ := hl.flight hg hs
      refine ⟨pre, post ++ [_], s, List.append_assoc .., h.snoc serves (fun r h => nomatch h)
        (unreturned _) m (hc.numbered.pending_lt hg)⟩

theorem of_begin (hl : Linear start c order) (hc : c.Sound) (hr : c.Recorded)
    (upd : c.Becomes d c.slot c.holder (c.begun + 1) [.began u c.begun action])
    (pending : ∀ g, d.Pending g ↔
      g = ⟨c.begun, action, .ofAction c.id action⟩ ∨ c.Pending g) :
    ∃ order', Linear start d order' := by
  cases action with
  | request | exited => exact ⟨order, hl.of_begin_unsettled hc hr upd pending rfl rfl rfl⟩
  | query q =>
    cases q with
    | id => exact ⟨_, hl.of_begin_identity hc hr upd pending⟩
    | _ => exact ⟨order, hl.of_begin_unsettled hc hr upd pending rfl rfl rfl⟩

end Begin

/-- **Every change keeps the order, or gives a call its place in it.** -/
theorem of_change (hl : Linear start c order) (hc : c.Sound) (hr : c.Recorded)
    (hp : c.slot.state ≠ .paused) (m : c.Change d) : ∃ order', Linear start d order' := by
  cases m with
  | still upd pending => exact ⟨order, hl.of_still hc hr upd pending⟩
  | begin v action upd pending => exact hl.of_begin hc hr upd pending
  | turn hf t upd pending => exact hl.of_turn hc hr hp hf t upd pending
  | finish hf stage upd pending => exact ⟨order, hl.of_finish hc hr hf stage upd pending⟩

end Linear

/-- **The calls of a process that is never frozen have an order**, at every moment of a run. -/
theorem exists_linear {id : String} {state : State} {moments : Nat → Moment}
    (hs : state ≠ .paused) (h : Reachable (initial id state moments) c) :
    ∃ order, Linear (initial id state moments) c order := by
  induction h with
  | refl => exact ⟨[], linear_initial id state moments⟩
  | step u choice reachable taken ih =>
    obtain ⟨order, hl⟩ := ih
    have hc := reachable.sound (sound_initial id state moments)
    exact hl.of_change hc (recorded_initial reachable) ((life_initial reachable).ne_paused hs)
      ((hc.move taken).change hc.numbered)

end Interleaving

end ContainerInit
