import ContainerInit.Interleaving.Stage
import ContainerInit.Proofs.InitProcess.Ends

/-!
# Calls one after the other

Calls that have returned (`Done`), and what it means that they could have been made one after the
other, by one caller, with the controller answering as it did.

- **Replays** (`Done.replay`): the calls are made on an init process in an order.
- **Serial orders** (`Serves`, `Serial`): the same for the slot alone, with the exit times that the
  calls have had. A serial order of calls can be replayed (`replay_of_serial`): every call gets its
  reply, and the process ends in the slot, up to the times of exits (`Reply.Alike`, `Slot.Alike`).
-/

namespace ContainerInit

/-- A call that has returned: its number, what it did, what the controller was called for and
answered, if it was, and the reply. -/
structure Done where
  number : Nat
  action : Action
  effect : Option (Call × Except ControllerError Answer)
  reply : Reply

namespace Done

/-- The controller that answers as it did in a call. -/
def controller (s : Done) : Controller Unit := fun _ =>
  match s.effect with
  | some (_, outcome) => return outcome
  | none => return .error (.failed "not called")

/-- Makes calls one after the other, and collects the replies. -/
def replay : List Done → Run Unit (List Reply)
  | [] => return []
  | s :: rest => do
    let reply ← InitProcess.perform s.controller s.action
    let replies ← replay rest
    return reply :: replies

/-- What the controller is called for. -/
def call? (s : Done) : Option Call :=
  s.effect.map Prod.fst

end Done

/-! ## Up to the times of exits -/

/-- The slots differ in the time of the exit at most. -/
structure Slot.Alike (s t : Slot) : Prop where
  state : s.state = t.state
  code : s.exit.map ExitStatus.code = t.exit.map ExitStatus.code

theorem Slot.Alike.refl (s : Slot) : s.Alike s := ⟨rfl, rfl⟩

theorem Slot.Alike.isSome_exit {s t : Slot} (h : s.Alike t) : s.exit.isSome = t.exit.isSome := by
  rw [← Option.isSome_map (f := ExitStatus.code), h.code, Option.isSome_map]

/-- The replies are the same, or answer a question about slots that differ in the time of the exit
at most. -/
def Reply.Alike (a b : Reply) : Prop :=
  a = b ∨ ∃ (q : Query) (id : String) (s t : Slot), s.Alike t ∧
    a = q.reply ⟨id, s.state, s.exit⟩ ∧ b = q.reply ⟨id, t.state, t.exit⟩

theorem Reply.Alike.refl (a : Reply) : a.Alike a := .inl rfl

/-- Replies to calls are alike, one for one. -/
def Done.RepliesAlike (replies : List Reply) (order : List Done) : Prop :=
  replies.length = order.length ∧ ∀ p ∈ replies.zip order, p.1.Alike p.2.reply

theorem Done.RepliesAlike.cons {a : Reply} {x : Done} {replies : List Reply} {order : List Done}
    (ha : a.Alike x.reply) (h : RepliesAlike replies order) :
    RepliesAlike (a :: replies) (x :: order) := by
  refine ⟨congrArg Nat.succ h.1, fun p hp => ?_⟩
  rcases List.mem_cons.mp hp with rfl | hp
  · exact ha
  · exact h.2 p hp

/-! ## Serial orders -/

section Serial

variable (id : String) (moments : Nat → Moment)

/-- What a call does to the slot when nothing comes in between. -/
inductive Serves : Slot → Done → Slot → Prop
  | query {s : Slot} {n : Nat} {q : Query} :
    Serves s ⟨n, .query q, none, q.reply ⟨id, s.state, s.exit⟩⟩ s
  | reject {s : Slot} {n : Nat} {r : Request} {rejection : Rejection}
    (h : s.state.dispatch r.operation = .error rejection) :
    Serves s ⟨n, .request r, none, .failed (.rejected rejection)⟩ s
  | perform {s : Slot} {n : Nat} {r : Request} {next : Option State} {call : Call}
    {outcome : Except ControllerError Answer}
    (h : s.state.dispatch r.operation = .ok (.delegate next)) (hc : r.call? id = some call) :
    Serves s ⟨n, .request r, some (call, outcome), .ofResult (outcome.mapError .controller)⟩
      (s.afterEffect outcome next)
  | ignore {s : Slot} {n : Nat} {code : Int32}
    (h : s.exit.isSome = true ∨ s.state.onExit = .ignore) :
    Serves s ⟨n, .exited code, none, .answer .done⟩ s
  | exit {s : Slot} {n : Nat} {code : Int32} (hx : s.exit = none) (h : s.state.onExit = .stop) :
    Serves s ⟨n, .exited code, none, .answer .done⟩ ⟨.stopped, some ⟨code, moments n⟩⟩

/-- What a report of an exit or a question does to a process that has not been started, it does as
well when that is running, or it changes nothing. -/
theorem Serves.of_created {s t : Slot} {x : Done} (h : Serves id moments s x t)
    (hx : ∀ r, x.action ≠ .request r) :
    t = s ∨ Serves id moments { s with state := .running } x t := by
  cases h with
  | query | ignore => exact .inl rfl
  | exit he => exact .inr (.exit he rfl)
  | reject | perform => exact absurd rfl (hx _)

/-- What calls do to the slot one after the other. -/
inductive Serial : Slot → List Done → Slot → Prop
  | nil {s : Slot} : Serial s [] s
  | cons {s t v : Slot} {x : Done} {rest : List Done} (serves : Serves id moments s x t)
    (tail : Serial t rest v) : Serial s (x :: rest) v

namespace Serial

variable {id moments} {s t v : Slot} {a b : List Done} {x : Done}

theorem append (h : Serial id moments s a t) (h' : Serial id moments t b v) :
    Serial id moments s (a ++ b) v := by
  induction h with
  | nil => exact h'
  | cons serves _ ih => exact .cons serves (ih h')

theorem snoc (h : Serial id moments s a t) (hx : Serves id moments t x v) :
    Serial id moments s (a ++ [x]) v :=
  h.append (.cons hx .nil)

end Serial

/-! ## Replays -/

open InitProcess Run

variable {id moments} {s t : Slot} {order : List Done} {x : Done} {k : Core}

/-- What a call does to the slot, it does to a process. -/
private theorem ends_perform (h : Serves id moments s x t) (hid : k.id = id)
    (hs : k.slot.Alike s) (free : k.busy = false) :
    Ends k (perform x.controller x.action) fun a k' =>
      a.Alike x.reply ∧ k'.id = id ∧ k'.busy = false ∧ k'.slot.Alike t ∧
        k'.calls = k.calls ++ x.call?.toList := by
  have none : ∀ {l : List Call}, l = l ++ [] := (List.append_nil _).symm
  cases h with
  | @query n q =>
    refine ends_ask.mono ?_
    rintro _ _ ⟨rfl, rfl⟩
    exact ⟨.inr ⟨q, id, _, s, hs, by rw [hid], rfl⟩, hid, free, hs, none⟩
  | reject h =>
    refine Ends.bind ((ends_operate_reject free (by rw [hs.state, h])).mono ?_)
    rintro _ _ ⟨rfl, rfl⟩
    exact Ends.ret ⟨.refl _, hid, free, hs, none⟩
  | @perform n r next call outcome h hc =>
    refine Ends.bind ((ends_operate free (by rw [hs.state, h]) (by rw [hid, hc])).mono ?_)
    rintro _ _ ⟨rfl, told, rfl⟩
    refine Ends.ret ⟨.refl _, hid, free, ?_, rfl⟩
    cases outcome <;> cases next <;> first | exact hs | exact ⟨rfl, hs.code⟩
  | ignore h =>
    refine Ends.bind ((ends_setExited_ignore (by rwa [hs.isSome_exit, hs.state])).mono ?_)
    rintro _ _ rfl
    exact Ends.ret ⟨.refl _, hid, free, hs, none⟩
  | exit hx h =>
    have hx' : k.slot.exit = .none := by
      rw [← Option.isNone_iff_eq_none, ← Option.not_isSome, hs.isSome_exit, hx]
      rfl
    refine Ends.bind ((ends_setExited hx' (by rw [hs.state, h])).mono ?_)
    rintro _ _ ⟨moment, rfl⟩
    exact Ends.ret ⟨.refl _, hid, free, ⟨rfl, rfl⟩, none⟩

/-- **A serial order can be replayed.** -/
theorem replay_of_serial (h : Serial id moments s order t) (hid : k.id = id)
    (hs : k.slot.Alike s) (free : k.busy = false) :
    Ends k (Done.replay order) fun replies k' =>
      Done.RepliesAlike replies order ∧ k'.slot.Alike t ∧
        k'.calls = k.calls ++ order.filterMap Done.call? := by
  induction h generalizing k with
  | nil => exact Ends.ret ⟨⟨rfl, fun _ h => nomatch h⟩, hs, (List.append_nil _).symm⟩
  | @cons s t v x rest serves _ ih =>
    refine Ends.bind ((ends_perform serves hid hs free).mono ?_)
    rintro a k' ⟨ha, hid', free', hs', hcalls⟩
    refine Ends.bind ((ih hid' hs' free').mono ?_)
    rintro replies k'' ⟨hr, ht, hcalls'⟩
    refine Ends.ret ⟨.cons ha hr, ht, ?_⟩
    rw [hcalls', hcalls, List.append_assoc]
    cases hx : x.call? with
    | none => rw [List.filterMap_cons_none hx]; rfl
    | some call => rw [List.filterMap_cons_some hx]; rfl

end Serial

end ContainerInit
