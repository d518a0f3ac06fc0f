import ContainerInit.Proofs.InitProcess.Ends
import ContainerInit.Proofs.InitProcess.Frames

/-!
# Two runs side by side

Two computations are begun in two processes that are related in some way. Either both return, what
they return and the slots that they leave behind are known, and the processes are still related; or
both halt, for the same reason.

- **Bonds** (`Bond`): a relation between processes that no step of a call can break. The slots are
  left to the pair of them (`Pair`), on which it depends what a call does.
- **Likeness** (`Run.Alike`): the judgement, with one rule for each way to put computations together
  (`Alike.ret`, `Alike.bind`, `Alike.read`, `Alike.write`), and for each step of a process. The
  first run may have spoilt its controller, for good (`Run.Stays`); then nothing is claimed of the
  second one.
- **Calls** (`alike_operate`, `alike_setExited`, `alike_perform`): a call is alike in two processes
  if the controller is. What a call needs of two slots is that they cannot be told apart by their
  states and by whether an exit comes too late (`Slot.Twins`).
-/

namespace ContainerInit

variable {κ κ' α β γ δ : Type}

/-- The report of an exit comes too late. -/
def Slot.Late (s : Slot) : Prop := s.exit.isSome = true ∨ s.state.onExit = .ignore

/-- A report that does not come too late finds no exit, and the process alive. -/
theorem Slot.of_not_late {s : Slot} (live : ¬ s.Late) : s.exit = none ∧ s.state.onExit ≠ .ignore := by
  obtain ⟨unrecorded, alive⟩ := not_or.mp live
  exact ⟨by simpa using unrecorded, alive⟩

/-- A relation between two slots that cannot be told apart by calls, and that no call can break. -/
structure Slot.Twins (I : Slot → Slot → Prop) : Prop where
  state {s s'} : I s s' → s'.state = s.state
  late {s s'} : I s s' → (s'.Late ↔ s.Late)
  install {s s'} {next : State} : s.state.mayBecome next = true → I s s' →
    I { s with state := next } { s' with state := next }
  record {s s'} {exit : ExitStatus} : ¬ s.Late → I s s' →
    I { s with exit := some exit } { s' with exit := some exit }

/-- Slots that are the same. -/
theorem Slot.Twins.eq : Slot.Twins Eq where
  state h := h ▸ rfl
  late h := h ▸ Iff.rfl
  install _ h := h ▸ rfl
  record _ h := h ▸ rfl

/-- An event of a process that happens now. -/
def InitProcess.event (p : InitProcess κ) (severity : Severity) (payload : Payload) : Event :=
  ⟨UInt64.ofNat (p.clock * 1000000), severity, p.id, payload⟩

/-- A process after an event. -/
def InitProcess.emitted (p : InitProcess κ) (severity : Severity) (payload : Payload) :
    InitProcess κ :=
  match p.sink with
  | .memory => { p with events := p.events.emit (p.event severity payload) }
  | .log => { p with log := p.log ++ Sink.log.entries (p.event severity payload) }

theorem InitProcess.emitted_memory {p : InitProcess κ} (h : p.sink = .memory) (severity : Severity)
    (payload : Payload) : p.emitted severity payload =
      { p with events := p.events.emit (p.event severity payload) } := by
  rw [emitted, h]

theorem InitProcess.emitted_log {p : InitProcess κ} (h : p.sink = .log) (severity : Severity)
    (payload : Payload) : p.emitted severity payload =
      { p with log := p.log ++ Sink.log.entries (p.event severity payload) } := by
  rw [emitted, h]

/-- The part of two processes on which their calls depend. -/
structure Pair where
  id : String
  busy : Bool
  left : Slot
  right : Slot

namespace Pair

/-- The pair of two processes that have the same name, and are busy at the same times. -/
def of (p : InitProcess κ) (p' : InitProcess κ') : Pair := ⟨p.id, p.busy, p.slot, p'.slot⟩

/-- A state is installed in both slots. -/
def install (k : Pair) (state : State) : Pair :=
  { k with left := { k.left with state }, right := { k.right with state } }

/-- An exit is recorded in both slots. -/
def recorded (k : Pair) (exit : ExitStatus) : Pair :=
  { k with left := { k.left with exit := some exit }, right := { k.right with exit := some exit } }

theorem slot_eq {p : InitProcess κ} {p' : InitProcess κ'} {k : Pair} (pair : of p p' = k)
    (slots : k.left = k.right) : p.slot = p'.slot := by
  subst pair
  exact slots

end Pair

/-- Two processes with the pair `k` give the replies `a` and `b` to an action. -/
def Action.Replies (k : Pair) : Action → Reply → Reply → Prop
  | .query q, a, b => a = q.reply ⟨k.id, k.left.state, k.left.exit⟩ ∧
    b = q.reply ⟨k.id, k.right.state, k.right.exit⟩
  | _, a, b => b = a

theorem Action.Replies.eq {k : Pair} {action : Action} {a b : Reply} (h : action.Replies k a b)
    (slots : k.left = k.right) : b = a := by
  cases action with
  | query q => rw [h.1, h.2, slots]
  | _ => exact h

/-- A relation between two processes that stays, whatever a call does to both of them. -/
structure Bond (rel : InitProcess κ → InitProcess κ' → Prop) : Prop where
  id {p p'} : rel p p' → p'.id = p.id
  busy {p p'} : rel p p' → p'.busy = p.busy
  clock {p p'} : rel p p' → p'.clock = p.clock
  record {p p'} {entries : Log} : entries.filterMap LogEntry.message? = [] → rel p p' →
    rel { p with log := p.log ++ entries } { p' with log := p'.log ++ entries }
  emit {p p'} (severity : Severity) (payload : Payload) : rel p p' →
    rel (p.emitted severity payload) (p'.emitted severity payload)
  sleep {p p'} (millis : Nat) : rel p p' →
    rel { p with clock := p.clock + millis } { p' with clock := p'.clock + millis }
  hold {p p'} (busy : Bool) : rel p p' → rel { p with busy } { p' with busy }
  call {p p'} (call : Call) : rel p p' →
    rel { p with calls := p.calls ++ [call] } { p' with calls := p'.calls ++ [call] }
  write {p p'} (slot slot' : Slot) : rel p p' → rel { p with slot } { p' with slot := slot' }

namespace Run

/-! ## Likeness -/

/-- A controller that is spoilt stays so. -/
def Stays (spoilt : κ → Prop) (m : Run κ α) : Prop :=
  ∀ (p : InitProcess κ) a q, m p = .ok (a, q) → spoilt p.controller → spoilt q.controller

theorem Keeps.stays {m : Run κ α} (h : Keeps m) (spoilt : κ → Prop) : Stays spoilt m :=
  fun p a q ran hs => (h p a q ran).controller ▸ hs

namespace Stays

variable {spoilt : κ → Prop}

theorem ret (a : α) : Stays spoilt (pure a : Run κ α) := (Keeps.ret a).stays spoilt

theorem bind {m : Run κ α} {f : α → Run κ β} (first : Stays spoilt m)
    (rest : ∀ a, Stays spoilt (f a)) : Stays spoilt (m >>= f) := by
  intro p b r ran bad
  obtain ⟨a, q, taken, left⟩ := bind_eq_ok ran
  exact rest a q b r left (first p a q taken bad)

/-- A call leaves the controller spoilt, if what it has the controller do does. -/
theorem perform {controller : Controller κ} (effect : ∀ call, Stays spoilt (controller call))
    (action : Action) : Stays spoilt (InitProcess.perform controller action) := by
  intro p a q ran bad
  cases action with
  | request r =>
    obtain ⟨a, q', operated, ⟨⟩⟩ := bind_eq_ok ran
    rcases InitProcess.operate_eq_ok operated with ⟨same, -⟩ |
      ⟨call, p', outcome, q', -, before, answered, after, -⟩
    · exact same.controller ▸ bad
    · exact after.controller ▸ effect call p' outcome q' answered (before.controller ▸ bad)
  | exited code =>
    obtain ⟨a, q', reported, ⟨⟩⟩ := bind_eq_ok ran
    rcases InitProcess.setExited_eq_ok reported with same |
      ⟨p', outcome, q', before, answered, after⟩
    · exact same.controller ▸ bad
    · exact after.controller ▸ effect _ p' outcome q' answered (before.controller ▸ bad)
  | query q =>
    cases ran
    exact bad

end Stays

/-- How two runs end. -/
inductive Agree (rel : InitProcess κ → InitProcess κ' → Prop) (spoilt : κ → Prop)
    (Q : α → β → Pair → Prop) :
    Except Halt (α × InitProcess κ) → Except Halt (β × InitProcess κ') → Prop
  | returned {a : α} {b : β} {q : InitProcess κ} {r : InitProcess κ'} (related : rel q r)
    (post : Q a b (.of q r)) : Agree rel spoilt Q (.ok (a, q)) (.ok (b, r))
  | halted (halt : Halt) : Agree rel spoilt Q (.error halt) (.error halt)
  | spoilt {a : α} {q : InitProcess κ} {x : Except Halt (β × InitProcess κ')}
    (bad : spoilt q.controller) : Agree rel spoilt Q (.ok (a, q)) x
  /-- It halts, and perhaps because its controller was spoilt before. -/
  | lost {halt : Halt} {c : κ} {x : Except Halt (β × InitProcess κ')} (bad : spoilt c) :
    Agree rel spoilt Q (.error halt) x

theorem Agree.mono {rel : InitProcess κ → InitProcess κ' → Prop} {spoilt : κ → Prop}
    {Q R : α → β → Pair → Prop} {x : Except Halt (α × InitProcess κ)}
    {x' : Except Halt (β × InitProcess κ')} (h : Agree rel spoilt Q x x')
    (hq : ∀ a b k', Q a b k' → R a b k') : Agree rel spoilt R x x' := by
  cases h with
  | returned related post => exact .returned related (hq _ _ _ post)
  | halted halt => exact .halted halt
  | spoilt bad => exact .spoilt bad
  | lost bad => exact .lost bad

/-- Begun in two related processes with the pair `k`, the computations end alike, and `Q` holds of
what they return and of the pair of processes that they leave behind. -/
def Alike (rel : InitProcess κ → InitProcess κ' → Prop) (spoilt : κ → Prop) (k : Pair)
    (m : Run κ α) (m' : Run κ' β) (Q : α → β → Pair → Prop) : Prop :=
  ∀ p p', rel p p' → Pair.of p p' = k → Agree rel spoilt Q (m p) (m' p')

namespace Alike

variable {rel : InitProcess κ → InitProcess κ' → Prop} {spoilt : κ → Prop} {k k' : Pair}
  {m : Run κ α} {m' : Run κ' β} {Q R : α → β → Pair → Prop} {S : γ → δ → Pair → Prop}

theorem mono (h : Alike rel spoilt k m m' Q) (hq : ∀ a b k', Q a b k' → R a b k') :
    Alike rel spoilt k m m' R :=
  fun p p' related pair => (h p p' related pair).mono hq

theorem ret {a : α} {b : β} (h : Q a b k) : Alike rel spoilt k (pure a) (pure b) Q := by
  rintro p p' related rfl
  exact .returned related h

theorem halt (e : Halt) : Alike rel spoilt k (throw e : Run κ α) (throw e : Run κ' β) Q :=
  fun _ _ _ _ => .halted e

theorem bind {f : α → Run κ γ} {f' : β → Run κ' δ} (stays : ∀ a, Stays spoilt (f a))
    (h : Alike rel spoilt k m m' fun a b k' => Alike rel spoilt k' (f a) (f' b) S) :
    Alike rel spoilt k (m >>= f) (m' >>= f') S := by
  intro p p' related pair
  have first := h p p' related pair
  change Agree rel spoilt S (m p >>= fun s => f s.1 s.2) (m' p' >>= fun s => f' s.1 s.2)
  revert first
  generalize m p = x, m' p' = x'
  rintro (⟨related, post⟩ | halt | bad | bad)
  · exact post _ _ related rfl
  · exact .halted halt
  · rename_i a q
    change Agree rel spoilt S (f a q) _
    cases rest : f a q with
    | error e => exact .lost bad
    | ok s => exact .spoilt (stays a q s.1 s.2 rest bad)
  · exact .lost bad

/-- A computation that cannot spoil the controller comes first. -/
theorem step {f : α → Run κ γ} {f' : β → Run κ' δ}
    (h : Alike rel (fun _ => False) k m m' fun a b k' => Alike rel spoilt k' (f a) (f' b) S) :
    Alike rel spoilt k (m >>= f) (m' >>= f') S := by
  intro p p' related pair
  have first := h p p' related pair
  change Agree rel spoilt S (m p >>= fun s => f s.1 s.2) (m' p' >>= fun s => f' s.1 s.2)
  revert first
  generalize m p = x, m' p' = x'
  rintro (⟨related, post⟩ | halt | ⟨⟨⟩⟩ | ⟨⟨⟩⟩)
  · exact post _ _ related rfl
  · exact .halted halt

/-- Reading the processes. -/
theorem read {f : InitProcess κ → Run κ γ} {f' : InitProcess κ' → Run κ' δ}
    (h : ∀ p p', rel p p' → Pair.of p p' = k → Alike rel spoilt k (f p) (f' p') S) :
    Alike rel spoilt k (get >>= f) (get >>= f') S :=
  fun p p' related pair => h p p' related pair p p' related pair

/-- Writing the processes. -/
theorem write {g : InitProcess κ → InitProcess κ} {g' : InitProcess κ' → InitProcess κ'}
    {Q : Unit → Unit → Pair → Prop}
    (h : ∀ p p', rel p p' → Pair.of p p' = k → rel (g p) (g' p') ∧ Q () () (.of (g p) (g' p'))) :
    Alike rel spoilt k (modify g : Run κ Unit) (modify g' : Run κ' Unit) Q := by
  intro p p' related pair
  obtain ⟨related', post⟩ := h p p' related pair
  exact .returned related' post

/-- Reading the second process alone. -/
theorem read_right {m : Run κ γ} {f' : InitProcess κ' → Run κ' δ}
    (h : ∀ p', Alike rel spoilt k m (f' p') S) : Alike rel spoilt k m (get >>= f') S :=
  fun p p' related pair => h p' p p' related pair

/-- Writing the second process alone. -/
theorem write_right {g' : InitProcess κ' → InitProcess κ'} {m : Run κ γ} {f' : Unit → Run κ' δ}
    (h : ∀ p p', rel p p' → Pair.of p p' = k → rel p (g' p') ∧ Pair.of p (g' p') = k)
    (rest : Alike rel spoilt k m (f' ()) S) : Alike rel spoilt k m (modify g' >>= f') S := by
  intro p p' related pair
  obtain ⟨related', pair'⟩ := h p p' related pair
  exact rest p (g' p') related' pair'

end Alike

end Run

namespace InitProcess

open Run

variable {rel : InitProcess κ → InitProcess κ' → Prop} (bond : Bond rel) {spoilt : κ → Prop}
  {k : Pair} {controller : Controller κ} {controller' : Controller κ'}
include bond

/-! ## Steps -/

theorem alike_record {entries : Log} (plain : entries.filterMap LogEntry.message? = []) :
    Alike rel spoilt k (record entries) (record entries) fun _ _ k' => k' = k :=
  .write fun _ _ related pair => ⟨bond.record plain related, pair⟩

theorem alike_emit (severity : Severity) (payload : Payload) :
    Alike rel spoilt k (emit severity payload) (emit severity payload) fun _ _ k' => k' = k := by
  refine .write fun p p' related pair => ⟨bond.emit severity payload related, ?_⟩
  rw [← pair]
  cases hs : p.sink <;> cases hs' : p'.sink <;> simp [Pair.of]

theorem alike_sleep (millis : Nat) :
    Alike rel spoilt k (sleep millis) (sleep millis) fun _ _ k' => k' = k :=
  .write fun _ _ related pair => ⟨bond.sleep millis related, pair⟩

theorem alike_write (slot slot' : Slot) :
    Alike rel spoilt k (modify fun p => { p with slot }) (modify fun p => { p with slot := slot' })
      fun _ _ k' => k' = { k with left := slot, right := slot' } :=
  .write fun _ _ related pair => ⟨bond.write slot slot' related, by rw [← pair]; rfl⟩

theorem alike_hold (busy : Bool) :
    Alike rel spoilt k (modify fun p => { p with busy }) (modify fun p => { p with busy })
      fun _ _ k' => k' = { k with busy } :=
  .write fun _ _ related pair => ⟨bond.hold busy related, by rw [← pair]; rfl⟩

theorem alike_withSpan {operation : Operation} {body : Run κ α} {body' : Run κ' β}
    {Q : α → β → Pair → Prop} (h : Alike rel spoilt k body body' Q) :
    Alike rel spoilt k (withSpan operation body) (withSpan operation body') Q := by
  refine .read fun opened opened' begun _ => ?_
  rw [bond.id begun, bond.clock begun]
  refine .step ((alike_record bond rfl).mono ?_)
  rintro _ _ _ rfl
  have rest : ∀ a, Keeps (do
      let closed ← get
      record (Span.closing operation (closed.clock - opened.clock))
      return a : Run κ α) :=
    fun a => .bind .read fun _ => .bind (keeps_record _) fun _ => .ret a
  refine .bind (fun a => (rest a).stays spoilt) (h.mono fun a b k' hQ => ?_)
  refine .read fun closed closed' ended _ => ?_
  rw [bond.clock ended]
  refine .step ((alike_record bond ?_).mono ?_)
  · unfold Span.closing
    split <;> rfl
  rintro _ _ _ rfl
  exact .ret hQ

/-- What runs as the only operation on each of two processes waits for itself in both or in none. -/
theorem alike_exclusively {body : Run κ α} {body' : Run κ' β} {Q : α → β → Pair → Prop}
    (h : k.busy = false →
      Alike rel spoilt { k with busy := true } body body' fun a b k' =>
        Q a b { k' with busy := false }) :
    Alike rel spoilt k (exclusively body) (exclusively body') Q := by
  refine .read fun p p' related pair => ?_
  rw [bond.busy related, show p.busy = k.busy from congrArg Pair.busy pair]
  cases free : k.busy with
  | true => exact .halt _
  | false =>
    rw [if_neg Bool.false_ne_true, if_neg Bool.false_ne_true]
    refine .step ((alike_hold bond true).mono ?_)
    rintro _ _ _ rfl
    have rest : ∀ a, Keeps (do
        modify fun p => { p with busy := false }
        return a : Run κ α) :=
      fun a => .bind (.write fun _ => ⟨rfl, rfl⟩) fun _ => .ret a
    refine .bind (fun a => (rest a).stays spoilt) ((h free).mono fun a b k' hQ => ?_)
    refine .step ((alike_hold bond false).mono ?_)
    rintro _ _ _ rfl
    exact .ret hQ

theorem alike_consult {call : Call}
    {Q : Except ControllerError Answer → Except ControllerError Answer → Pair → Prop}
    (h : Alike rel spoilt k (controller call) (controller' call) Q) :
    Alike rel spoilt k (consult controller call) (consult controller' call) Q := by
  refine .step ((Alike.write fun p p' related pair => ⟨bond.call call related, ?_⟩ :
    Alike rel _ k _ _ fun _ _ k' => k' = k).mono ?_)
  · exact pair
  rintro _ _ _ rfl
  exact h

/-! ## Operations -/

/-- Where both are in the same state, a successor is installed in both or in none. -/
theorem alike_commit {operation : Operation} {source next : State}
    (same : k.right.state = k.left.state) :
    Alike rel spoilt k (commit operation source next) (commit operation source next) fun _ _ k' =>
      k' = k ∨ k.left.state.mayBecome next = true ∧ k' = k.install next := by
  refine .read fun p p' _ pair => ?_
  rw [show p.slot = k.left from congrArg Pair.left pair,
    show p'.slot = k.right from congrArg Pair.right pair]
  cases edge : k.left.state.mayBecome next with
  | true =>
    rw [Slot.commit_of_mayBecome edge, Slot.commit_of_mayBecome (same ▸ edge), same]
    refine .step (.ret (.step ((alike_write bond _ _).mono ?_)))
    rintro _ _ _ rfl
    exact (alike_emit bond _ _).mono fun _ _ k' hk => .inr ⟨rfl, hk⟩
  | false =>
    by_cases stale : k.left.state = source
    · rw [Slot.commit_of_eq stale edge, Slot.commit_of_eq (same.trans stale) (same ▸ edge)]
      exact .halt _
    · rw [Slot.commit_of_ne stale edge, Slot.commit_of_ne (same ▸ stale) (same ▸ edge), same]
      exact .step (.ret ((alike_emit bond _ _).mono fun _ _ k' hk => .inl hk))

/-- An accepted request calls the controller once, in both processes. -/
theorem alike_carryOut {r : Request} {source : State} {next : Option State}
    {Q : Except LifecycleError Answer → Pair → Prop}
    (effect : ∀ call, r.call? k.id = some call →
      Alike rel spoilt k (controller call) (controller' call) fun outcome outcome' k' =>
        outcome' = outcome ∧ k'.right.state = k'.left.state ∧
        Q (outcome.mapError .controller) k' ∧
        ∀ target, next = some target → k'.left.state.mayBecome target = true →
          Q (outcome.mapError .controller) (k'.install target)) :
    Alike rel spoilt k (carryOut controller r source next) (carryOut controller' r source next)
      fun a b k' => b = a ∧ Q a k' := by
  refine .read fun p p' related pair => ?_
  rw [bond.id related, show p.id = k.id from congrArg Pair.id pair]
  cases asks : r.call? k.id with
  | none => exact .halt _
  | some call =>
    refine .bind (fun outcome => Keeps.stays ?_ _)
      (alike_consult bond ((effect call asks).mono ?_))
    · cases outcome with
      | error e => exact .bind (keeps_record _) fun _ => .bind (keeps_emit _ _) fun _ => .ret _
      | ok a =>
        cases next with
        | none => exact .bind (keeps_record _) fun _ => .ret _
        | some target =>
          exact .bind (keeps_commit _ _ _) fun _ => .bind (keeps_record _) fun _ => .ret _
    rintro _ outcome k' ⟨rfl, same, kept, installed⟩
    cases outcome with
    | error e =>
      refine .step ((alike_record bond rfl).mono ?_)
      rintro _ _ _ rfl
      refine .step ((alike_emit bond _ _).mono ?_)
      rintro _ _ _ rfl
      exact .ret ⟨rfl, kept⟩
    | ok a =>
      cases next with
      | none =>
        refine .step ((alike_record bond rfl).mono ?_)
        rintro _ _ _ rfl
        exact .ret ⟨rfl, kept⟩
      | some target =>
        refine .step ((alike_commit bond same).mono fun _ _ k'' ended => ?_)
        refine .step ((alike_record bond rfl).mono ?_)
        rintro _ _ _ rfl
        obtain rfl | ⟨edge, rfl⟩ := ended
        · exact .ret ⟨rfl, kept⟩
        · exact .ret ⟨rfl, installed target rfl edge⟩

/-- **A request on two processes in the same state.** It is refused by both, or calls the controller
of both. -/
theorem alike_operate {r : Request} {Q : Except LifecycleError Answer → Pair → Prop}
    (same : k.right.state = k.left.state)
    (refused : ∀ rejection, k.left.state.dispatch r.operation = .error rejection →
      k.busy = false → Q (.error (.rejected rejection)) k)
    (effect : ∀ call next, k.left.state.dispatch r.operation = .ok (.delegate next) →
      k.busy = false →
      Alike rel spoilt { k with busy := true } (controller call) (controller' call)
        fun outcome outcome' k' => outcome' = outcome ∧ k'.right.state = k'.left.state ∧
          Q (outcome.mapError .controller) { k' with busy := false } ∧
          ∀ target, next = some target → k'.left.state.mayBecome target = true →
            Q (outcome.mapError .controller) { k'.install target with busy := false }) :
    Alike rel spoilt k (operate controller r) (operate controller' r)
      fun a b k' => b = a ∧ Q a k' := by
  refine alike_withSpan bond (alike_exclusively bond fun free => .read fun p p' _ pair => ?_)
  rw [show p.slot = k.left from congrArg Pair.left pair,
    show p'.slot = k.right from congrArg Pair.right pair, same]
  cases accepted : k.left.state.dispatch r.operation with
  | error rejection =>
    simp only [accepted]
    refine .step ((alike_record bond rfl).mono ?_)
    rintro _ _ _ rfl
    refine .step ((alike_emit bond _ _).mono ?_)
    rintro _ _ _ rfl
    refine .ret ⟨rfl, ?_⟩
    rw [← free]
    exact refused rejection accepted free
  | ok way =>
    simp only [accepted]
    cases way with
    | observe => exact .halt _
    | delegate next =>
      exact alike_carryOut bond fun call _ => effect call next accepted free

/-! ## Exits -/

/-- A frozen process whose exit is recorded is resumed and stopped, and so is the other one. -/
theorem alike_compensate {Q : Pair → Prop}
    (effect : Alike rel spoilt k (controller (.resume k.id)) (controller' (.resume k.id))
      fun outcome outcome' k' => outcome' = outcome ∧ k'.right.state = k'.left.state ∧
        (k'.left.state.mayBecome .stopped = true → Q (k'.install .stopped))) :
    Alike rel spoilt k (compensate controller) (compensate controller') fun _ _ k' => Q k' := by
  refine .read fun p p' related pair => ?_
  rw [bond.id related, show p.id = k.id from congrArg Pair.id pair]
  have keeps : Keeps (do
      let slot ← checked (← get).slot.stop
      modify fun p => { p with slot } : Run κ Unit) :=
    .bind .read fun _ => .bind (keeps_checked _) fun _ => .write fun _ => ⟨rfl, rfl⟩
  refine .bind (fun outcome => Keeps.stays ?_ _) (alike_consult bond (effect.mono ?_))
  · cases outcome with
    | error e => exact .bind (keeps_emit _ _) fun _ => keeps
    | ok a => exact keeps
  rintro _ outcome k' ⟨rfl, same, stopped⟩
  have stop : Alike rel spoilt k' (do
        let slot ← checked (← get).slot.stop
        modify fun p => { p with slot }) (do
        let slot ← checked (← get).slot.stop
        modify fun p => { p with slot }) fun _ _ k'' => Q k'' := by
    refine .read fun q q' _ pair => ?_
    rw [show q.slot = k'.left from congrArg Pair.left pair,
      show q'.slot = k'.right from congrArg Pair.right pair]
    cases edge : k'.left.state.mayBecome .stopped with
    | true =>
      rw [Slot.stop_of_mayBecome edge, Slot.stop_of_mayBecome (same ▸ edge)]
      refine .step (.ret ((alike_write bond _ _).mono ?_))
      rintro _ _ _ rfl
      exact stopped edge
    | false =>
      rw [Slot.stop_of_not_mayBecome edge, Slot.stop_of_not_mayBecome (same ▸ edge), same]
      exact .halt _
  cases outcome with
  | error e =>
    refine .step ((alike_emit bond _ _).mono ?_)
    rintro _ _ _ rfl
    exact stop
  | ok a => exact stop

/-- **The report of an exit to two processes.** It comes too late for both of them; or it is
recorded by both, and they are stopped, frozen ones after they were resumed. -/
theorem alike_setExited {code : Int32} {Q : Pair → Prop}
    (same : k.right.state = k.left.state) (late : k.right.Late ↔ k.left.Late)
    (ignored : k.left.Late → Q k)
    (stopped : ∀ exit, ¬ k.left.Late → ¬ k.right.Late → k.left.state.onExit = .stop →
      Q ((k.recorded exit).install .stopped))
    (effect : ∀ exit, ¬ k.left.Late → ¬ k.right.Late → k.left.state.onExit = .resumeThenStop →
      Alike rel spoilt (k.recorded exit) (controller (.resume k.id)) (controller' (.resume k.id))
        fun outcome outcome' k' => outcome' = outcome ∧ k'.right.state = k'.left.state ∧
          (k'.left.state.mayBecome .stopped = true → Q (k'.install .stopped))) :
    Alike rel spoilt k (setExited controller code) (setExited controller' code)
      fun _ _ k' => Q k' := by
  refine alike_withSpan bond (.read fun p p' related pair => ?_)
  rw [bond.clock related, bond.id related, show p.slot = k.left from congrArg Pair.left pair,
    show p'.slot = k.right from congrArg Pair.right pair]
  by_cases past : k.left.Late
  · rw [Slot.claim_of_ignore past, Slot.claim_of_ignore (late.mpr past), same]
    refine .step (.ret ((alike_record bond rfl).mono ?_))
    rintro _ _ _ rfl
    exact ignored past
  · have past' : ¬ k.right.Late := fun h => past (late.mp h)
    obtain ⟨unrecorded, alive⟩ := Slot.of_not_late past
    obtain ⟨unrecorded', -⟩ := Slot.of_not_late past'
    cases hs : k.left.state.onExit with
    | ignore => exact absurd hs alive
    | stop =>
      rw [Slot.claim_of_stop unrecorded hs, Slot.claim_of_stop unrecorded' (same ▸ hs), same]
      refine .step (.ret (.step ((alike_write bond _ _).mono ?_)))
      rintro _ _ _ rfl
      refine .step ((alike_emit bond _ _).mono ?_)
      rintro _ _ _ rfl
      rw [if_neg Bool.false_ne_true, if_neg Bool.false_ne_true]
      refine (alike_emit bond _ _).mono ?_
      rintro _ _ _ rfl
      exact stopped _ past past' hs
    | resumeThenStop =>
      rw [Slot.claim_of_resumeThenStop unrecorded hs,
        Slot.claim_of_resumeThenStop unrecorded' (same ▸ hs), same]
      refine .step (.ret (.step ((alike_write bond _ _).mono ?_)))
      rintro _ _ _ rfl
      refine .step ((alike_emit bond _ _).mono ?_)
      rintro _ _ _ rfl
      rw [if_pos rfl, if_pos rfl]
      have shape : { k with
            left := ⟨k.left.state, some ⟨code, Moment.ofMillis p.clock⟩⟩,
            right := ⟨k.left.state, some ⟨code, Moment.ofMillis p.clock⟩⟩ } =
          k.recorded ⟨code, Moment.ofMillis p.clock⟩ := by
        simp [Pair.recorded, same]
      rw [shape]
      refine .bind (fun _ => (keeps_emit _ _).stays _)
        ((alike_compensate bond (effect _ past past' hs)).mono fun _ _ k' hQ => ?_)
      refine (alike_emit bond _ _).mono ?_
      rintro _ _ _ rfl
      exact hQ

/-! ## Actions -/

theorem alike_ask {query : Query} :
    Alike rel spoilt k (ask query) (ask query) fun a b k' => k' = k ∧
      a = query.reply ⟨k.id, k.left.state, k.left.exit⟩ ∧
      b = query.reply ⟨k.id, k.right.state, k.right.exit⟩ := by
  refine .read fun p p' related pair => .ret ⟨rfl, ?_, ?_⟩
  · rw [← pair]
    rfl
  · rw [← pair, Pair.of, ← bond.id related]
    rfl

/-- **An action on two processes.** If the slots cannot be told apart by calls, and the controllers
do alike, the replies are the same, but for what questions show of the slots. -/
theorem alike_perform {I : Slot → Slot → Prop} (twins : Slot.Twins I) {action : Action}
    (effect : ∀ call k, I k.left k.right → Alike rel spoilt k (controller call) (controller' call)
      fun outcome outcome' k' => outcome' = outcome ∧ I k'.left k'.right)
    (slots : I k.left k.right) :
    Alike rel spoilt k (perform controller action) (perform controller' action) fun a b k' =>
      I k'.left k'.right ∧ action.Replies k' a b := by
  cases action with
  | request r =>
    have operated : Alike rel spoilt k (operate controller r) (operate controller' r)
        fun a b k' => b = a ∧ I k'.left k'.right := by
      refine alike_operate bond (twins.state slots) (fun _ _ _ => slots) fun call next _ _ => ?_
      refine (effect call { k with busy := true } slots).mono ?_
      rintro _ outcome k' ⟨rfl, slots'⟩
      exact ⟨rfl, twins.state slots', slots', fun target _ edge => twins.install edge slots'⟩
    refine .bind (fun a => Stays.ret _) (operated.mono ?_)
    rintro _ a k' ⟨rfl, slots'⟩
    exact .ret ⟨slots', rfl⟩
  | exited code =>
    have reported : Alike rel spoilt k (setExited controller code) (setExited controller' code)
        fun _ _ k' => I k'.left k'.right := by
      refine alike_setExited bond (twins.state slots) (twins.late slots) (fun _ => slots) ?_ ?_
      · intro exit live _ stops
        exact twins.install (State.mayBecome_stopped_of_onExit (s := k.left.state)
          (by rw [stops]; decide)) (twins.record live slots)
      · intro exit live _ _
        refine (effect _ (k.recorded exit) (twins.record live slots)).mono ?_
        rintro _ outcome k' ⟨rfl, slots'⟩
        exact ⟨rfl, twins.state slots', fun edge => twins.install edge slots'⟩
    refine .bind (fun a => Stays.ret _) (reported.mono fun _ _ k' slots' => ?_)
    exact .ret ⟨slots', rfl⟩
  | query q =>
    refine (alike_ask bond).mono ?_
    rintro _ _ _ ⟨rfl, rfl, rfl⟩
    exact ⟨slots, rfl, rfl⟩

end InitProcess

end ContainerInit
