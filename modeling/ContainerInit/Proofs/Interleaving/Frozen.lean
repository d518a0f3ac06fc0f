import Mathlib.Data.List.TakeWhile
import ContainerInit.Proofs.InitProcess.Table
import ContainerInit.Proofs.Interleaving.Words

/-!
# The exit of a frozen process

The exit of a frozen process is recorded long before the process is stopped. In between the
controller resumes the process, and no lock is held: other calls come and go, from inside the resume
as well. None of them moves the slot (`frozen_window`).

- **Rows** (`Cell.Gives`, `Word.gives`): a request gets what its row of the specification table says
  of the state that it was dispatched in.
- **Who thaws** (`Mark.thaws`, `Reachable.claimed_of_thaws`): the process is resumed and stopped by
  the report that was accepted, and by no other call.
- **The window** (`waiting`, `Reachable.slot_eq_frozen`): until the process is stopped, the slot
  holds what this report has recorded, and the marks leave it as it is (`Reachable.leaves`).
-/

namespace ContainerInit

/-! ## What a row gives -/

/-- What a request for the process `id` gets whose operation has a cell in the state `s`: the calls
of the controller that are made for it, and the reply. -/
inductive Cell.Gives (id : String) (r : Request) (s : State) : Cell → List Call → Reply → Prop
  | error : Gives id r s .error [] (.failed (.rejected ⟨.illegal, r.operation, s⟩))
  | notImplemented :
    Gives id r s .notImplemented [] (.failed (.rejected ⟨.notImplemented, r.operation, s⟩))
  | delegate {next : Option State} {call : Call} (hc : r.call? id = some call)
    (outcome : Except ControllerError Answer) :
    Gives id r s (.delegate next) [call] (.ofResult (outcome.mapError .controller))

namespace Request

variable {r : Request} {s : State}

theorem gives_of_rejected (id : String) {rejection : Rejection}
    (h : s.dispatch r.operation = .error rejection) :
    ((table r.operation).cell s).Gives id r s [] (.failed (.rejected rejection)) := by
  rw [State.dispatch_eq] at h
  rcases r.cell_eq s with ⟨refusal, hc⟩ | ⟨target, hc⟩
  · rw [hc] at h ⊢
    cases refusal with
    | illegal => cases h; exact .error
    | notImplemented => cases h; exact .notImplemented
  · rw [hc] at h
    cases h

theorem gives_of_delegated {id : String} {next : Option State} {call : Call}
    (h : s.dispatch r.operation = .ok (.delegate next)) (hc : r.call? id = some call)
    (outcome : Except ControllerError Answer) :
    ((table r.operation).cell s).Gives id r s [call]
      (.ofResult (outcome.mapError .controller)) := by
  rw [State.dispatch_eq] at h
  rcases r.cell_eq s with ⟨refusal, hr⟩ | ⟨target, hr⟩
  · rw [hr] at h
    cases refusal <;> cases h
  · rw [hr]
    exact .delegate hc outcome

end Request

/-- A request gets what its row says. -/
theorem Word.gives {id : String} {n : Nat} {action : Action} {reply : Reply} {marks : List Mark}
    (h : Word id n action reply marks) {r : Request} {s : State} (mem : .dispatched n r s ∈ marks) :
    ((table r.operation).cell s).Gives id r s (marks.filterMap Mark.call?) reply := by
  cases h with
  | refused hd =>
    obtain ⟨rfl, rfl⟩ : r = _ ∧ s = _ := by simpa using mem
    exact Request.gives_of_rejected id hd
  | @failed _ _ _ _ e hd hc =>
    obtain ⟨rfl, rfl⟩ : r = _ ∧ s = _ := by simpa using mem
    exact Request.gives_of_delegated hd hc (.error e)
  | @performed _ _ _ a hd hc =>
    obtain ⟨rfl, rfl⟩ : r = _ ∧ s = _ := by simpa using mem
    exact Request.gives_of_delegated hd hc (.ok a)
  | @committed _ _ _ _ a _ hd hc =>
    obtain ⟨rfl, rfl⟩ : r = _ ∧ s = _ := by simpa using mem
    exact Request.gives_of_delegated hd hc (.ok a)
  | thawed outcome => cases outcome <;> simp [resumeFailure] at mem
  | _ => simp at mem

/-! ## Marks of the window -/

namespace Mark

/-- A frozen process was stopped. -/
def isStop : Mark → Bool
  | .stopped .. => true
  | _ => false

/-- What is done to a frozen process on the way to its stop: it is resumed, the failure of this is
told, and it is stopped. -/
def thaws : Mark → Bool
  | .called _ call => call.isResume
  | .emitted _ _ (.compensatingResumeFailed _) => true
  | .stopped .. => true
  | _ => false

/-- The step leaves the slot as it is, and decides by it. -/
def Leaves (slot : Slot) : Mark → Prop
  | .dispatched _ _ s => s = slot.state
  | .claimed _ _ claim => claim = .ignored slot.state
  | .asked _ _ seen => seen = slot
  | m => m.write? = none

theorem thaws_of_isStop {m : Mark} (h : m.isStop = true) : m.thaws = true := by
  cases m <;> first | rfl | cases h

end Mark

/-- What happens until a frozen process is stopped. -/
def waiting (marks : List Mark) : List Mark :=
  marks.takeWhile fun m => !m.isStop

theorem isStop_of_waiting {marks : List Mark} {m : Mark} (h : m ∈ waiting marks) :
    m.isStop = false := by
  simpa using List.mem_takeWhile_imp h

/-- What happens until the stop, and the stop. -/
theorem eq_waiting_append {marks : List Mark} {m : Mark} (h : m ∈ marks) (stop : m.isStop = true) :
    ∃ x rest, marks = waiting marks ++ x :: rest ∧ x.isStop = true := by
  have split := List.takeWhile_append_dropWhile (p := fun m => !Mark.isStop m) (l := marks)
  cases later : marks.dropWhile fun m => !m.isStop with
  | nil =>
    have going := List.dropWhile_eq_nil_iff.mp later m h
    rw [stop] at going
    cases going
  | cons x rest =>
    rw [later] at split
    refine ⟨x, rest, split.symm, ?_⟩
    have first := List.head_dropWhile_not (fun m => !Mark.isStop m) (l := marks)
      (by rw [later]; exact List.cons_ne_nil _ _)
    simpa [later] using first

/-- A slot without an exit is as the frozen process was found. -/
theorem Slot.Life.eq_of_exit_none {written : List Slot} {s : Slot}
    (h : Slot.Life { state := .paused } written s) (hx : s.exit = none) :
    s = { state := .paused } := by
  induction h with
  | nil => rfl
  | write life w ih =>
    cases w with
    | start => cases ih hx
    | delete hs =>
      cases ih hx
      rcases hs with hs | hs <;> cases hs
    | exit | freeze | thaw => cases hx

namespace Interleaving

variable {c : Interleaving} {id : String} {state : State} {moments : Nat → Moment}
  {pre post : List Mark} {n : Nat} {code : Int32} {previous : State} {resume : Bool} {slot : Slot}
  {m : Mark}

/-! ## Who thaws the process -/

/-- What thaws a frozen process is done by the call that has claimed its exit. -/
theorem Reachable.claimed_of_thaws (h : Reachable (initial id state moments) c)
    (hh : c.history = pre ++ m :: post) (hm : m.thaws = true) :
    ∃ code slot, .claimed m.number code (.accepted .paused true slot) ∈ pre := by
  have inner : m.isInner = true := by cases m <;> first | rfl | cases hm
  obtain ⟨a, b, ha, sound, hab, -, he, e⟩ := h.cut hh
  obtain ⟨u, f, stage, slot, holder, hf, hn, t⟩ := hab.turn_of_mark inner e
  have suits := sound.suits hf
  have compensating : f.stage.isCompensating = true := by
    generalize f.stage = s at t suits
    cases t with
    | call =>
      rw [Mark.thaws, Request.not_isResume suits.2.1 suits.2.2] at hm
      cases hm
    | announce => rcases suits.2 with ⟨s, t, rfl⟩ | ⟨s, t, rfl⟩ <;> cases hm
    | resume | tellResumeFailure | stop => rfl
    | _ => cases hm
  obtain ⟨code, slot, claimed⟩ := (grounded_initial ha).claimed hf compensating
  rw [hn, he] at claimed
  exact ⟨code, slot, claimed⟩

/-- One call thaws the process: the one whose report was accepted. -/
theorem Reachable.number_of_thaws (h : Reachable (initial id state moments) c)
    (claimed : .claimed n code (.accepted previous resume slot) ∈ c.history)
    (mem : m ∈ c.history) (hm : m.thaws = true) : m.number = n := by
  obtain ⟨pre, post, hh⟩ := List.append_of_mem mem
  obtain ⟨code', slot', ground⟩ := h.claimed_of_thaws hh hm
  have first : n ∈ c.accepted := List.mem_filterMap.mpr ⟨_, claimed, rfl⟩
  have second : m.number ∈ c.accepted :=
    List.mem_filterMap.mpr ⟨_, hh ▸ List.mem_append_left _ ground, rfl⟩
  rw [(trail_initial h).accepted_eq first] at second
  exact List.mem_singleton.mp second

/-- A process that is stopped after its resume is stopped with the exit that stays. -/
theorem Reachable.slot_of_stopped (h : Reachable (initial id state moments) c)
    (mem : .stopped n slot ∈ c.history) : slot = ⟨.stopped, c.slot.exit⟩ := by
  obtain ⟨pre, post, hh⟩ := List.append_of_mem mem
  obtain ⟨a, b, ha, sound, hab, -, he, e⟩ := h.cut hh
  obtain ⟨u, f, stage, after, holder, hf, -, t⟩ := hab.turn_of_mark rfl e
  have written : slot ∈ c.writes := List.mem_filterMap.mpr ⟨_, mem, rfl⟩
  have window := sound.window hf
  generalize f.stage = s at t window
  cases t with
  | stop =>
    obtain ⟨exit, recorded⟩ := Option.isSome_iff_exists.mp (window rfl).2
    rw [(life_initial h).exit_of_mem written recorded, ← recorded]

/-! ## The window -/

/-- The report that is accepted finds the process frozen and without an exit, as the first one. -/
theorem Reachable.frozen_of_claimed (h : Reachable (initial id .paused moments) c)
    (hh : c.history = pre ++ .claimed n code (.accepted previous resume slot) :: post) :
    previous = .paused ∧ resume = true ∧ slot = ⟨.paused, some ⟨code, moments n⟩⟩ ∧
      ∀ m ∈ pre, m.accepts? = none := by
  obtain ⟨a, b, ha, sound, hab, -, he, e⟩ := h.cut hh
  obtain ⟨u, f, stage, after, holder, hf, hn, t⟩ := hab.turn_of_mark rfl e
  have unrecorded : a.slot.exit = none := by
    generalize f.stage = s at t
    cases t <;> assumption
  have silent := ((trail_initial ha).of_exit_none unrecorded).2
  rw [accepted, he, List.filterMap_eq_nil_iff] at silent
  have frozen := (life_initial ha).eq_of_exit_none unrecorded
  rw [← ha.moments_eq]
  generalize f.stage = s at t
  cases hn
  cases t with
  | claim _ stops =>
    rw [frozen] at stops
    cases stops
  | claimFrozen => exact ⟨rfl, rfl, rfl, silent⟩

/-- Nothing is committed on a frozen process: what changes its state was dispatched before. -/
private theorem not_installed {r : Request} {source target : State} {slot : Slot}
    (hd : source.dispatch r.operation = .ok (.delegate (some target)))
    (hs : slot.state = source ∨ slot.state = .stopped) (paused : slot.state = .paused) :
    slot.state.mayBecome target ≠ true := by
  rw [paused] at hs ⊢
  rcases target_of_dispatch hd with ⟨rfl, rfl⟩ | rfl
  · rcases hs with hs | hs <;> cases hs
  · decide

/-- A process that was found frozen stays frozen until it is stopped. -/
theorem Reachable.paused_or_stopped (h : Reachable (initial id .paused moments) c) :
    c.slot.state = .paused ∨ ∃ m ∈ c.history, m.isStop = true := by
  refine (h.invariant (P := fun c => c.slot.state = .paused ∨ ∃ m ∈ c.history, m.isStop = true)
    (sound_initial id .paused moments) (.inl rfl) fun {c d u} hc ih m => ?_).2
  have change := m.change hc.numbered
  rcases ih with paused | ⟨m, hm, stops⟩
  · rcases change.borders_or_turn hc with hb | ⟨v, f, stage, slot, holder, marks, hf, t, upd, -⟩
    · rw [hb.slot]
      exact .inl paused
    · have suits := hc.suits hf
      have source := @hc.source f
      rw [upd.slot, upd.history]
      clear upd
      generalize f.stage = s at t suits source
      cases t with
      | install edge => exact absurd edge (not_installed suits.2 (source hf rfl) paused)
      | claim _ stops =>
        rw [paused] at stops
        cases stops
      | claimFrozen => exact .inl rfl
      | stop => exact .inr ⟨_, List.mem_append_right _ List.mem_cons_self, rfl⟩
      | _ => exact .inl paused
  · exact .inr ⟨m, change.mem_history hm, stops⟩

/-- The process is stopped after the report of its exit was accepted. -/
theorem Reachable.stop_after_claim (h : Reachable (initial id .paused moments) c)
    (hh : c.history = pre ++ .claimed n code (.accepted previous resume slot) :: post)
    (mem : m ∈ c.history) (stop : m.isStop = true) : m ∈ post := by
  obtain ⟨-, -, -, silent⟩ := h.frozen_of_claimed hh
  rw [hh, List.mem_append, List.mem_cons] at mem
  rcases mem with hm | rfl | hm
  · obtain ⟨before, between, rfl⟩ := List.append_of_mem hm
    rw [List.append_assoc, List.cons_append] at hh
    obtain ⟨code', slot', ground⟩ := h.claimed_of_thaws hh (Mark.thaws_of_isStop stop)
    cases silent _ (List.mem_append_left _ ground)
  · cases stop
  · exact hm

/-- **The slot waits.** As long as the process was not stopped, the slot holds what the accepted
report has recorded. -/
theorem Reachable.slot_eq_frozen (h : Reachable (initial id .paused moments) c)
    (hh : c.history = pre ++ .claimed n code (.accepted previous resume slot) :: post)
    (going : ∀ m ∈ post, m.isStop = false) : c.slot = ⟨.paused, some ⟨code, moments n⟩⟩ := by
  have claimed : .claimed n code (.accepted previous resume slot) ∈ c.history :=
    hh ▸ List.mem_append_cons_self
  have paused : c.slot.state = .paused := by
    refine h.paused_or_stopped.resolve_right fun ⟨m, hm, stop⟩ => ?_
    rw [going m (h.stop_after_claim hh hm stop)] at stop
    cases stop
  rw [← paused, ← (h.exit_of_claimed claimed).2]

/-- A turn on a frozen process that has an exit leaves the slot alone, or stops the process. -/
private theorem Turn.leaves {u : Caller} {k : Nat} {s stage : Stage} {after : Slot}
    {holder : Option Caller} {action : Action} {exit : ExitStatus}
    (t : Turn c u k s stage after holder [m]) (suits : s.Suits c.id action)
    (source : ∀ {state}, s.source? = some state → c.slot.state = state ∨ c.slot.state = .stopped)
    (frozen : c.slot = ⟨.paused, some exit⟩) (going : m.isStop = false) : m.Leaves c.slot := by
  cases t with
  | install edge =>
    exact absurd edge (not_installed suits.2 (source rfl) (congrArg Slot.state frozen))
  | claim unrecorded | claimFrozen unrecorded =>
    rw [frozen] at unrecorded
    cases unrecorded
  | stop => cases going
  | _ => exact rfl

/-- No call in the window moves the slot, and each decides by what it holds. -/
theorem Reachable.leaves (h : Reachable (initial id .paused moments) c)
    (hh : c.history = pre ++ .claimed n code (.accepted previous resume slot) :: post)
    (mem : m ∈ waiting post) : m.Leaves ⟨.paused, some ⟨code, moments n⟩⟩ := by
  obtain ⟨before, after, hw⟩ := List.append_of_mem mem
  obtain ⟨rest, hp⟩ := List.takeWhile_prefix (l := post) fun m => !m.isStop
  have split : c.history = (pre ++ .claimed n code (.accepted previous resume slot) :: before) ++
      m :: (after ++ rest) := by
    rw [hh, ← hp, show post.takeWhile _ = _ from hw]
    simp
  obtain ⟨a, b, ha, sound, hab, -, he, e⟩ := h.cut split
  have frozen := ha.slot_eq_frozen he fun m hm =>
    isStop_of_waiting (hw ▸ List.mem_append_left _ hm)
  by_cases inner : m.isInner = true
  · obtain ⟨u, f, stage, after, holder, hf, -, t⟩ := hab.turn_of_mark inner e
    rw [← frozen]
    exact t.leaves (sound.suits hf) (sound.source hf) frozen (isStop_of_waiting mem)
  · cases m <;> first | exact rfl | exact absurd rfl inner

/-- The window ends with the stop of the process, by the report that was accepted. -/
theorem Reachable.window_ends (h : Reachable (initial id .paused moments) c)
    (hh : c.history = pre ++ .claimed n code (.accepted previous resume slot) :: post)
    (mem : m ∈ c.history) (stop : m.isStop = true) :
    ∃ rest, post = waiting post ++ .stopped n ⟨.stopped, c.slot.exit⟩ :: rest := by
  obtain ⟨x, rest, hp, hx⟩ := eq_waiting_append (h.stop_after_claim hh mem stop) stop
  have claimed : .claimed n code (.accepted previous resume slot) ∈ c.history :=
    hh ▸ List.mem_append_cons_self
  have later : x ∈ c.history := by
    rw [hh, hp]
    simp
  have number := h.number_of_thaws claimed later (Mark.thaws_of_isStop hx)
  cases x with
  | stopped k installed =>
    cases number
    rw [h.slot_of_stopped later] at hp
    exact ⟨rest, hp⟩
  | _ => cases hx

/-- What thaws the process is in the trace of the report that was accepted. -/
theorem Reachable.thaws_eq (h : Reachable (initial id state moments) c)
    (claimed : .claimed n code (.accepted previous resume slot) ∈ c.history) :
    c.history.filter Mark.thaws = (c.trace n).filter Mark.thaws := by
  rw [trace, List.filter_filter]
  refine List.filter_congr fun m hm => ?_
  cases thaws : m.thaws with
  | false => rfl
  | true => simp [h.number_of_thaws claimed hm thaws]

/-! ## What the window shows -/

/-- What the calls in a window get from a process that is frozen and has an exit. -/
structure Frozen (c : Interleaving) (exit : ExitStatus) (window : List Mark) : Prop where
  leaves : ∀ m ∈ window, m.Leaves ⟨.paused, some exit⟩
  asked : ∀ {k q slot u reply}, .asked k q slot ∈ window → .returned u k reply ∈ c.history →
    reply = q.reply ⟨c.id, .paused, some exit⟩
  reported : ∀ {k code claim u reply}, .claimed k code claim ∈ window →
    .returned u k reply ∈ c.history → reply = .answer .done
  requested : ∀ {k r s u reply}, .dispatched k r s ∈ window → .returned u k reply ∈ c.history →
    (table r.operation).paused.Gives c.id r .paused ((c.trace k).filterMap Mark.call?) reply

/-- Where nothing moves a frozen slot, the calls get what a frozen process gives. -/
theorem Traced.frozen (h : c.Traced) {exit : ExitStatus} {window : List Mark}
    (mem : ∀ m ∈ window, m ∈ c.history) (leaves : ∀ m ∈ window, m.Leaves ⟨.paused, some exit⟩) :
    c.Frozen exit window where
  leaves := leaves
  asked {k q slot u reply} hm returned := by
    obtain ⟨v, action, marks, -, word, inside⟩ := h.word_of_returned returned
    obtain rfl : slot = ⟨.paused, some exit⟩ := leaves _ hm
    have asked := inside _ (mem _ hm) rfl rfl
    cases word with
    | asked =>
      obtain ⟨rfl, rfl⟩ : q = _ ∧ _ = _ := by simpa using asked
      rfl
    | thawed outcome => cases outcome <;> simp [resumeFailure] at asked
    | _ => simp at asked
  reported {k code claim u reply} hm returned := by
    obtain ⟨v, action, marks, -, word, inside⟩ := h.word_of_returned returned
    have claimed := inside _ (mem _ hm) rfl rfl
    cases word with
    | ignored | stopped | thawed => rfl
    | _ => simp at claimed
  requested {k r s u reply} hm returned := by
    obtain ⟨v, action, marks, begun, word, inside⟩ := h.word_of_returned returned
    obtain rfl : s = .paused := leaves _ hm
    have calls : (c.trace k).filterMap Mark.call? = marks.filterMap Mark.call? := by
      rw [begun, List.filterMap_cons_none rfl, List.filterMap_append]
      exact List.append_nil _
    rw [calls]
    exact word.gives (inside _ (mem _ hm) rfl rfl)

/-- **Frozen exits are carried out by one call.** A process was found frozen, and a report of its
exit is accepted. Whoever acts on the process from then on, from outside or from inside the resume:

- Until the process is stopped, the slot is frozen and holds the exit. Nothing moves it: questions
  are answered from it, further reports are ignored, and requests get what the row of `paused` in
  the specification table says.
- The process is resumed, and stopped, by the call that made the report, and by no other. No call
  crashes.
- This call returns without an error. It has resumed the process once, told the sink if this failed
  and only then, and stopped the process with its exit, which stays. -/
theorem frozen_window {id : String} {moments : Nat → Moment} {pre post : List Mark} {n : Nat}
    {code : Int32} {previous : State} {resume : Bool} {slot : Slot}
    (h : Reachable (initial id .paused moments) c)
    (hh : c.history = pre ++ .claimed n code (.accepted previous resume slot) :: post) :
    slot = ⟨.paused, some ⟨code, moments n⟩⟩ ∧ c.slot.exit = slot.exit ∧
    (waiting post = post → c.slot = slot) ∧
    c.Frozen ⟨code, moments n⟩ (waiting post) ∧
    (∀ m ∈ c.history, m.thaws = true → m.number = n) ∧
    (∀ f v, c.Pending f → f.stage ≠ .crashed v) ∧
    (c.Idle → ∃ u reply, .returned u n reply ∈ c.history) ∧
    ∀ u reply, .returned u n reply ∈ c.history → reply = .answer .done ∧
      ∃ v outcome rest,
        c.trace n = [.began v n (.exited code), .claimed n code (.accepted .paused true slot),
            .emitted n .info (.exitRecorded code .paused), .called n (.resume id),
            .answered n (.resume id) outcome] ++ resumeFailure n outcome ++
          [.stopped n ⟨.stopped, slot.exit⟩,
            .emitted n .info (.stateChanged .setExited .paused .stopped), .returned u n reply] ∧
        c.history.filter Mark.thaws = .called n (.resume id) ::
          (resumeFailure n outcome ++ [.stopped n ⟨.stopped, slot.exit⟩]) ∧
        post = waiting post ++ .stopped n ⟨.stopped, slot.exit⟩ :: rest := by
  have hc := h.sound (sound_initial id .paused moments)
  have ht := traced_initial h
  have claimed : .claimed n code (.accepted previous resume slot) ∈ c.history :=
    hh ▸ List.mem_append_cons_self
  obtain ⟨rfl, rfl, rfl, -⟩ := h.frozen_of_claimed hh
  have exit := (h.exit_of_claimed claimed).2
  refine ⟨rfl, exit, fun all => ?_, ht.frozen (fun m hm => ?_) fun m => h.leaves hh,
    fun m => h.number_of_thaws claimed, fun f v hf => hc.ne_crashed hf v, fun idle => ?_,
    fun u reply returned => ?_⟩
  · exact h.slot_eq_frozen hh fun m hm => isStop_of_waiting (all ▸ hm)
  · rw [hh]
    have later := (List.takeWhile_sublist _).mem hm
    exact List.mem_append_right _ (List.mem_cons_of_mem _ later)
  · exact ht.exists_returned idle ((recorded_initial h).below _ claimed)
  · obtain ⟨v, action, marks, begun, word, inside⟩ := ht.word_of_returned returned
    have own := inside _ claimed rfl rfl
    cases word with
    | @thawed _ _ installed outcome =>
      obtain ⟨rfl, rfl⟩ : code = _ ∧ _ = _ := by
        cases outcome <;> simpa [resumeFailure] using own
      have stop : .stopped n installed ∈ c.history := by
        refine (mem_trace.mp (?_ : _ ∈ c.trace n)).1
        rw [begun]
        simp
      obtain ⟨rest, ends⟩ := h.window_ends hh stop rfl
      rw [h.slot_of_stopped stop, exit, h.id_eq] at begun
      rw [exit] at ends
      refine ⟨rfl, v, outcome, rest, ?_, ?_, ends⟩
      · simpa using begun
      · rw [h.thaws_eq claimed, begun]
        cases outcome <;> rfl
    | _ => simp at own

/-- The exit of a frozen process whose resume fails, while others are busy: the controller starts
the process and reports another exit, and another caller kills the process and looks at it. -/
def busyThaw : List (Caller × Choice) :=
  [(0, .act (.exited 7)), (0, .go), (0, .go), (0, .go), (0, .go),
    (0, .act (.request .start)), (0, .go), (0, .go), (0, .go), (0, .go), (0, .go), (0, .go),
    (1, .act (.request (.kill .terminate false))), (1, .go), (1, .go), (1, .go), (1, .go),
    (1, .finish (.ok .done)), (1, .go), (1, .go),
    (0, .act (.exited 8)), (0, .go), (0, .go), (0, .go),
    (1, .act (.query .snapshot)), (1, .go), (1, .go), (1, .go),
    (0, .finish (.error (.failed "thaw"))), (0, .go), (0, .go), (0, .go), (0, .go), (0, .go)]

theorem frozen_window_busyThaw :
    ∃ c slot post rest, Reachable (initial "web" .paused fun _ => Moment.ofMillis 0) c ∧
      slot = ⟨.paused, some ⟨7, Moment.ofMillis 0⟩⟩ ∧
      c.history = [.began 0 0 (.exited 7)] ++ .claimed 0 7 (.accepted .paused true slot) :: post ∧
      c.slot.exit = slot.exit ∧
      .returned 1 4 (.snapshot ⟨"web", .paused, slot.exit⟩) ∈ c.history ∧
      c.history.filter Mark.thaws = [.called 0 (.resume "web"),
        .emitted 0 .error (.compensatingResumeFailed "thaw"), .stopped 0 ⟨.stopped, slot.exit⟩] ∧
      post = waiting post ++ .stopped 0 ⟨.stopped, slot.exit⟩ :: rest := by
  have run : ∃ c slot post, (initial "web" .paused fun _ => Moment.ofMillis 0).follow? busyThaw =
      some c ∧
      c.history = [.began 0 0 (.exited 7)] ++ .claimed 0 7 (.accepted .paused true slot) :: post ∧
      c.history[18]? = some (.returned 1 4 (.snapshot ⟨"web", .paused, slot.exit⟩)) ∧
      c.history[19]? = some (.answered 0 (.resume "web") (.error (.failed "thaw"))) ∧
      c.history[23]? = some (.returned 0 0 (.answer .done)) := ⟨_, _, _, rfl, rfl, rfl, rfl, rfl⟩
  obtain ⟨c, slot, post, hc, hh, looked, answered, returned⟩ := run
  have reachable := reachable_of_follow? hc
  obtain ⟨recorded, exit, -, -, -, -, -, ends⟩ := frozen_window reachable hh
  obtain ⟨-, v, outcome, rest, trace, thaws, split⟩ := ends 0 _ (List.mem_of_getElem? returned)
  have mem : _ ∈ c.trace 0 := mem_trace.mpr ⟨List.mem_of_getElem? answered, rfl⟩
  rw [trace] at mem
  obtain rfl : .error (.failed "thaw") = outcome := by
    cases outcome with
    | ok => simp [resumeFailure] at mem
    | error e => simpa [resumeFailure] using mem
  exact ⟨c, slot, post, rest, reachable, recorded, hh, exit, List.mem_of_getElem? looked, thaws,
    split⟩

end Interleaving

end ContainerInit
