import ContainerInit.InitProcess

/-!
# Computations that have returned

What is known of a computation on an init process from the fact that it has returned.

- **Frames** (`Run.Keeps`): computations that call nobody leave the controller as it is. They are
  put together from the steps of a process (`keeps_record`, `keeps_emit`, `keeps_commit`).
- **Consultations** (`operate_eq_ok`, `setExited_eq_ok`): an operation calls the controller once, or
  was rejected without it; the report of an exit makes it resume a process at most.
-/

namespace ContainerInit

variable {κ α β : Type}

/-! ## Frames -/

/-- The same process with the same controller, whatever else happened to it. -/
structure InitProcess.Same (p q : InitProcess κ) : Prop where
  id : q.id = p.id
  controller : q.controller = p.controller

theorem InitProcess.Same.refl (p : InitProcess κ) : p.Same p := ⟨rfl, rfl⟩

theorem InitProcess.Same.trans {p q r : InitProcess κ} (first : p.Same q) (second : q.Same r) :
    p.Same r :=
  ⟨second.id.trans first.id, second.controller.trans first.controller⟩

namespace Run

/-- The parts of a computation that has returned. -/
theorem bind_eq_ok {m : Run κ α} {f : α → Run κ β} {p r : InitProcess κ} {b : β}
    (h : (m >>= f) p = .ok (b, r)) : ∃ a q, m p = .ok (a, q) ∧ f a q = .ok (b, r) := by
  change (m p >>= fun s => f s.1 s.2) = _ at h
  cases first : m p with
  | error e => rw [first] at h; cases h
  | ok s => rw [first] at h; exact ⟨s.1, s.2, rfl, h⟩

/-- The computation leaves process and controller the same. -/
def Keeps (m : Run κ α) : Prop := ∀ (p : InitProcess κ) a q, m p = .ok (a, q) → p.Same q

namespace Keeps

theorem ret (a : α) : Keeps (pure a : Run κ α) := by
  rintro p _ _ ⟨⟩
  exact .refl p

theorem halt (e : Halt) : Keeps (throw e : Run κ α) := fun _ _ _ h => nomatch h

theorem read : Keeps (get : Run κ (InitProcess κ)) := by
  rintro p _ _ ⟨⟩
  exact .refl p

theorem write {f : InitProcess κ → InitProcess κ} (same : ∀ p : InitProcess κ, p.Same (f p)) :
    Keeps (modify f : Run κ Unit) := by
  rintro p _ _ ⟨⟩
  exact same p

theorem bind {m : Run κ α} {f : α → Run κ β} (first : Keeps m) (rest : ∀ a, Keeps (f a)) :
    Keeps (m >>= f) := by
  intro p b r h
  obtain ⟨a, q, taken, left⟩ := bind_eq_ok h
  exact (first p a q taken).trans (rest a q b r left)

end Keeps

end Run

namespace InitProcess

open Run

theorem keeps_record (entries : Log) : Keeps (record entries : Run κ Unit) :=
  .write fun _ => ⟨rfl, rfl⟩

theorem keeps_emit (severity : Severity) (payload : Payload) :
    Keeps (emit severity payload : Run κ Unit) := by
  refine .write fun p => ?_
  cases sink : p.sink <;> exact ⟨rfl, rfl⟩

theorem keeps_sleep (millis : Nat) : Keeps (sleep millis : Run κ Unit) :=
  .write fun _ => ⟨rfl, rfl⟩

theorem keeps_checked (r : Except Violation α) : Keeps (checked r : Run κ α) := by
  cases r with
  | ok a => exact .ret a
  | error v => exact .halt _

theorem keeps_commit (operation : Operation) (source next : State) :
    Keeps (commit operation source next : Run κ Unit) := by
  refine .bind .read fun p => .bind (keeps_checked _) fun commit => ?_
  cases commit with
  | superseded current => exact keeps_emit _ _
  | installed previous slot => exact .bind (.write fun _ => ⟨rfl, rfl⟩) fun _ => keeps_emit _ _

/-! ## Consultations -/

variable {controller : Controller κ} {p q : InitProcess κ} {a : α}

theorem withSpan_eq_ok {operation : Operation} {body : Run κ α}
    (h : withSpan operation body p = .ok (a, q)) :
    ∃ p' q', p.Same p' ∧ body p' = .ok (a, q') ∧ q'.Same q := by
  obtain ⟨opened, p₁, read, h⟩ := bind_eq_ok h
  obtain ⟨_, p', told, h⟩ := bind_eq_ok h
  obtain ⟨b, q', ran, h⟩ := bind_eq_ok h
  obtain ⟨closed, q₁, read', h⟩ := bind_eq_ok h
  obtain ⟨_, q₂, told', h⟩ := bind_eq_ok h
  cases h
  exact ⟨p', q', (Keeps.read _ _ _ read).trans (keeps_record _ _ _ _ told), ran,
    (Keeps.read _ _ _ read').trans (keeps_record _ _ _ _ told')⟩

theorem exclusively_eq_ok {body : Run κ α} (h : exclusively body p = .ok (a, q)) :
    ∃ p' q', p.Same p' ∧ body p' = .ok (a, q') ∧ q'.Same q := by
  obtain ⟨before, p₁, read, h⟩ := bind_eq_ok h
  split at h
  · cases h
  · obtain ⟨_, p', taken, h⟩ := bind_eq_ok h
    obtain ⟨b, q', ran, h⟩ := bind_eq_ok h
    obtain ⟨_, q₁, given, h⟩ := bind_eq_ok h
    cases h
    have locked : p₁.Same p' := by cases taken; exact ⟨rfl, rfl⟩
    have unlocked : q'.Same q := by cases given; exact ⟨rfl, rfl⟩
    exact ⟨p', q', (Keeps.read _ _ _ read).trans locked, ran, unlocked⟩

theorem consult_eq_ok {call : Call} {outcome : Except ControllerError Answer}
    (h : consult controller call p = .ok (outcome, q)) :
    ∃ p', p.Same p' ∧ controller call p' = .ok (outcome, q) := by
  obtain ⟨_, p', noted, h⟩ := bind_eq_ok h
  have same : p.Same p' := by cases noted; exact ⟨rfl, rfl⟩
  exact ⟨p', same, h⟩

theorem carryOut_eq_ok {r : Request} {source : State} {next : Option State}
    {a : Except LifecycleError Answer} (h : carryOut controller r source next p = .ok (a, q)) :
    ∃ call p' outcome q', r.call? p.id = some call ∧ p.Same p' ∧
      controller call p' = .ok (outcome, q') ∧ q'.Same q ∧ a = outcome.mapError .controller := by
  obtain ⟨before, p₁, read, h⟩ := bind_eq_ok h
  cases read
  cases asks : r.call? p.id with
  | none =>
    simp only [asks] at h
    cases h
  | some call =>
    simp only [asks] at h
    obtain ⟨outcome, q', consulted, h⟩ := bind_eq_ok h
    obtain ⟨p', same, answered⟩ := consult_eq_ok consulted
    refine ⟨call, p', outcome, q', rfl, same, answered, ?_⟩
    cases outcome with
    | error e =>
      obtain ⟨_, q₁, told, h⟩ := bind_eq_ok h
      obtain ⟨_, q₂, emitted, h⟩ := bind_eq_ok h
      cases h
      exact ⟨(keeps_record _ _ _ _ told).trans (keeps_emit _ _ _ _ _ emitted), rfl⟩
    | ok answer =>
      cases next with
      | none =>
        obtain ⟨_, q₁, told, h⟩ := bind_eq_ok h
        cases h
        exact ⟨keeps_record _ _ _ _ told, rfl⟩
      | some target =>
        obtain ⟨_, q₁, committed, h⟩ := bind_eq_ok h
        obtain ⟨_, q₂, told, h⟩ := bind_eq_ok h
        cases h
        exact ⟨(keeps_commit _ _ _ _ _ _ committed).trans (keeps_record _ _ _ _ told), rfl⟩

/-- An operation that returns was rejected without the controller, or called it once, and gives what
the controller gave. -/
theorem operate_eq_ok {r : Request} {a : Except LifecycleError Answer}
    (h : operate controller r p = .ok (a, q)) :
    (p.Same q ∧ ∃ rejection, a = .error (.rejected rejection)) ∨
    ∃ call p' outcome q', r.call? p.id = some call ∧ p.Same p' ∧
      controller call p' = .ok (outcome, q') ∧ q'.Same q ∧ a = outcome.mapError .controller := by
  obtain ⟨p₁, q₁, opened, h, closed⟩ := withSpan_eq_ok h
  obtain ⟨p₂, q₂, taken, h, given⟩ := exclusively_eq_ok h
  have before := opened.trans taken
  have after := given.trans closed
  obtain ⟨looked, p₃, read, h⟩ := bind_eq_ok h
  cases read
  cases dispatched : p₂.slot.state.dispatch r.operation with
  | error rejection =>
    simp only [dispatched] at h
    obtain ⟨_, p₄, told, h⟩ := bind_eq_ok h
    obtain ⟨_, p₅, emitted, h⟩ := bind_eq_ok h
    cases h
    exact .inl ⟨((before.trans (keeps_record _ _ _ _ told)).trans
      (keeps_emit _ _ _ _ _ emitted)).trans after, rejection, rfl⟩
  | ok way =>
    simp only [dispatched] at h
    cases way with
    | observe => cases h
    | delegate next =>
    obtain ⟨call, p', outcome, q', asks, same, answered, kept, result⟩ := carryOut_eq_ok h
    exact .inr ⟨call, p', outcome, q', before.id ▸ asks, before.trans same, answered,
      kept.trans after, result⟩

theorem compensate_eq_ok {u : Unit} (h : compensate controller p = .ok (u, q)) :
    ∃ p' outcome q', p.Same p' ∧ controller (.resume p.id) p' = .ok (outcome, q') ∧
      q'.Same q := by
  obtain ⟨before, p₁, read, h⟩ := bind_eq_ok h
  cases read
  obtain ⟨outcome, q', consulted, h⟩ := bind_eq_ok h
  obtain ⟨p', same, answered⟩ := consult_eq_ok consulted
  refine ⟨p', outcome, q', same, answered, ?_⟩
  have stop : Keeps (do
      let slot ← checked (← get).slot.stop
      modify fun p => { p with slot } : Run κ Unit) :=
    .bind .read fun _ => .bind (keeps_checked _) fun _ => .write fun _ => ⟨rfl, rfl⟩
  cases outcome with
  | error e =>
    obtain ⟨_, q₁, emitted, h⟩ := bind_eq_ok h
    exact (keeps_emit _ _ _ _ _ emitted).trans (stop _ _ _ h)
  | ok a => exact stop _ _ _ h

/-- The report of an exit that returns has called nobody, or has had the process resumed. -/
theorem setExited_eq_ok {code : Int32} {u : Unit}
    (h : setExited controller code p = .ok (u, q)) :
    p.Same q ∨ ∃ p' outcome q', p.Same p' ∧ controller (.resume p.id) p' = .ok (outcome, q') ∧
      q'.Same q := by
  obtain ⟨p₁, q₁, opened, h, closed⟩ := withSpan_eq_ok h
  obtain ⟨looked, p₂, read, h⟩ := bind_eq_ok h
  cases read
  obtain ⟨claim, p₃, claimed, h⟩ := bind_eq_ok h
  have before := opened.trans (keeps_checked _ _ _ _ claimed)
  split at h
  · exact .inl ((before.trans (keeps_record _ _ _ _ h)).trans closed)
  · obtain ⟨_, p₄, written, h⟩ := bind_eq_ok h
    cases written
    obtain ⟨_, p₅, emitted, h⟩ := bind_eq_ok h
    have same : p₃.Same p₅ := ⟨(keeps_emit _ _ _ _ _ emitted).id, (keeps_emit _ _ _ _ _ emitted).controller⟩
    have before := before.trans same
    split at h
    · obtain ⟨_, p₆, compensated, h⟩ := bind_eq_ok h
      obtain ⟨p', outcome, q', consulted, answered, kept⟩ := compensate_eq_ok compensated
      refine .inr ⟨p', outcome, q', before.trans consulted, before.id ▸ answered, ?_⟩
      exact (kept.trans (keeps_emit _ _ _ _ _ h)).trans closed
    · exact .inl ((before.trans (keeps_emit _ _ _ _ _ h)).trans closed)

end InitProcess

end ContainerInit
