import ContainerInit.Proofs.Local.Callers

/-!
# Signals and processes that are gone

No signal is ever sent to a process that is gone (`signals_safe`).

- **One turn** (`Sends`, `FindsNobody`): a kill or a resume requests its signal for the one init
  process that was started, while it is still in the table of the host, or it requests none. No
  other turn requests any (`Turn.kills_of_quiet`).
- **Runs** (`Reachable.kills_mem`, `Reachable.kills_of_exit`): what is on record was for the init
  process, and from the moment its exit is recorded nothing is added.

What carries this is the order in which a waiter and a delete end the init process: the exit is
recorded first, and then the process is let go (`LocalController.Tidy.init`).
-/

namespace ContainerInit

open Host (Life)

namespace LocalController

variable {c : LocalController}

/-- An init process whose exit is not recorded is there. -/
theorem Tidy.child_of_livePid? (tidy : c.Tidy) {pid : Nat} (live : c.livePid? = some pid) :
    ∃ l, c.host.Child pid l ∧ l ≠ .reaped := by
  obtain ⟨born, unseen⟩ := livePid?_eq_some.mp live
  obtain ⟨l, child, gone, -⟩ := tidy.init born
  exact ⟨l, child, fun reaped => gone reaped unseen⟩

/-- Only a signal to a live init process can be refused by the system. -/
theorem livePid?_of_asksSystem {call : Call} {signal : Signal} {group : Bool}
    (sends : signalOf? call = some (signal, group)) (asks : c.asksSystem (.begin call) = true) :
    ∃ pid, c.livePid? = some pid := by
  cases call with
  | kill | resume => exact Option.isSome_iff_exists.mp asks
  | _ => cases sends

end LocalController

namespace LocalInterleaving

open LocalController (signalOf?)

variable {c d : LocalInterleaving} {u : Caller} {call : Call} {signal : Signal} {group : Bool}

/-- The turn requests one signal, to a process that is there: to the one init process that was
started, which has not been let go and whose exit is not recorded. -/
structure Sends (c d : LocalInterleaving) (pid : Nat) (group : Bool) (signal : Signal) : Prop where
  kills : d.kills = c.kills ++ [⟨pid, group, signal.number⟩]
  started : c.initPids = [pid]
  born : c.controller.init.pid = some pid
  unseen : c.controller.init.exit = none
  there : ∃ l, c.controller.host.Child pid l ∧ l ≠ .reaped
  /-- The system refuses it, or does what it does with the signal. -/
  controller : d.controller = c.controller ∨ ∃ host,
    c.controller.host.signal pid group signal.number = .ok host ∧
      d.controller = { c.controller with host }

/-- The turn requests no signal and changes nothing, and the call of the caller finds no process. -/
structure FindsNobody (c d : LocalInterleaving) (u : Caller) (id : String) : Prop where
  kills : d.kills = c.kills
  controller : d.controller = c.controller
  stage : d.stages u = some (.finished (.error (.notFound id)))

/-! ## One turn -/

/-- The signals that a turn requests are those of the section that it runs. -/
theorem Turn.kills (turn : c.Turn u d) : d.kills = c.kills ∨
    ∃ s, c.stages u = some s ∧ d.kills = c.kills ++ c.controller.issued s := by
  cases turn with
  | call | wait | leave => exact .inl rfl
  | work place => exact .inr ⟨_, place, rfl⟩
  | fault _ place => exact .inr ⟨_, place, rfl⟩

/-- A turn of any other call requests none. -/
theorem Turn.kills_of_quiet (turn : c.Turn u d)
    (quiet : ∀ call, c.stages u = some (.begin call) → signalOf? call = none) :
    d.kills = c.kills := by
  rcases turn.kills with same | ⟨s, place, more⟩
  · exact same
  · rw [more, LocalController.issued_eq_nil fun call here => quiet call (here ▸ place),
      List.append_nil]

/-- Without a live init process, no turn requests any. -/
theorem Turn.kills_of_past (turn : c.Turn u d) (past : c.controller.livePid? = none) :
    d.kills = c.kills := by
  rcases turn.kills with same | ⟨s, place, more⟩
  · exact same
  · rw [more, LocalController.issued_eq_nil_of_past past, List.append_nil]

theorem Sound.sends (sound : c.Sound) (sends : signalOf? call = some (signal, group)) {pid : Nat}
    (live : c.controller.livePid? = some pid)
    (kills : d.kills = c.kills ++ c.controller.issued (.begin call))
    (controller : d.controller = c.controller ∨ ∃ host,
      c.controller.host.signal pid group signal.number = .ok host ∧
        d.controller = { c.controller with host }) : c.Sends d pid group signal := by
  obtain ⟨born, unseen⟩ := LocalController.livePid?_eq_some.mp live
  refine ⟨?_, ?_, born, unseen, sound.tidy.child_of_livePid? live, controller⟩
  · rw [kills, LocalController.issued_of_signalOf? sends, live]
    rfl
  · rw [sound.initPids, born]
    rfl

/-- The one turn of a call that sends a signal requests it for a live init process, or finds
none. -/
theorem Turn.of_signal (sound : c.Sound) (turn : c.Turn u d)
    (place : c.stages u = some (.begin call)) (sends : signalOf? call = some (signal, group)) :
    (∃ pid, c.Sends d pid group signal) ∨ c.FindsNobody d u call.id := by
  cases id turn with
  | call _ free | wait _ free => exact nomatch free.symm.trans place
  | leave past => exact nomatch past.symm.trans place
  | fault e past asks =>
    cases past.symm.trans place
    obtain ⟨pid, live⟩ := LocalController.livePid?_of_asksSystem sends asks
    exact .inl ⟨pid, sound.sends sends live rfl (.inl rfl)⟩
  | work here step =>
    cases here.symm.trans place
    cases (LocalController.step?_of_signalOf? sends).symm.trans step
    cases live : c.controller.livePid? with
    | none =>
      have refused : c.controller.signal call.id signal group =
          .refuse c.controller (.notFound call.id) := by
        rw [LocalController.signal, live]
      refine .inr ⟨turn.kills_of_past live, congrArg Section.controller refused, ?_⟩
      rw [stages_setStage, refused]
      rfl
    | some pid =>
      exact .inl ⟨pid, sound.sends sends live rfl (LocalController.controller_signal live)⟩

/-- From the moment the exit is recorded, no signal is requested. -/
theorem Reachable.kills_of_exit (reachable : Reachable c d) (sound : c.Sound)
    (exit : c.controller.init.exit ≠ none) : d.kills = c.kills := by
  induction reachable with
  | refl => rfl
  | pass _ _ ih => exact ih
  | turn u reachable turn ih =>
    have past := LocalController.livePid?_of_exit ((reachable.later sound).exit exit)
    exact (turn.kills_of_past past).trans ih

/-- Every signal that was requested was for the init process. -/
theorem Reachable.kills_mem {start : LocalInterleaving} (reachable : Reachable start c)
    (sound : start.Sound) (new : start.kills = []) :
    ∀ k ∈ c.kills, c.controller.init.pid = some k.pid := by
  induction reachable with
  | refl =>
    rw [new]
    exact fun _ mem => nomatch mem
  | pass _ _ ih => exact ih
  | @turn c d u reachable turn ih =>
    have sound := reachable.sound sound
    intro k mem
    rcases turn.kills with same | ⟨s, place, more⟩
    · exact (turn.later sound).pid (ih k (same ▸ mem))
    · rw [more] at mem
      rcases List.mem_append.mp mem with old | new
      · exact (turn.later sound).pid (ih k old)
      · have live := LocalController.livePid?_of_mem_issued new
        exact (turn.later sound).pid (LocalController.livePid?_eq_some.mp live).1

/-! ## Runs -/

/-- **No signal is sent to a process that is gone.** Whatever callers of a fresh controller do, and
whenever the host ends its processes:

- Every signal that was ever requested was for the one init process that was started.
- A turn of a kill or a resume requests its signal for that process, which has not been let go and
  whose exit is not recorded (`Sends`), or it requests none and finds no process (`FindsNobody`). No
  other turn requests any.
- Once the exit is recorded, no signal is requested from then on, and every kill and every resume
  finds no process. -/
theorem signals_safe (launch : ExecOptions) {host : Host} (numbered : host.Numbered)
    (reachable : Reachable (fresh launch host) c) :
    (∀ k ∈ c.kills, c.initPids = [k.pid]) ∧
    (∀ {u : Caller} {call : Call} {signal : Signal} {group : Bool} {d : LocalInterleaving},
      c.stages u = some (.begin call) → signalOf? call = some (signal, group) → c.Turn u d →
      (∃ pid, c.Sends d pid group signal) ∨ c.FindsNobody d u call.id) ∧
    (∀ {u : Caller} {d : LocalInterleaving}, c.Turn u d →
      (∀ call, c.stages u = some (.begin call) → signalOf? call = none) → d.kills = c.kills) ∧
    (c.controller.init.exit ≠ none → ∀ {d : LocalInterleaving}, Reachable c d →
      d.kills = c.kills ∧
      ∀ {u : Caller} {call : Call} {signal : Signal} {group : Bool} {e : LocalInterleaving},
      d.stages u = some (.begin call) → signalOf? call = some (signal, group) → d.Turn u e →
      d.FindsNobody e u call.id) := by
  have fresh := sound_fresh launch numbered
  have sound := reachable.sound fresh
  refine ⟨fun k mem => ?_, fun place sends turn => turn.of_signal sound place sends,
    fun turn quiet => turn.kills_of_quiet quiet, fun exit {d} later => ?_⟩
  · rw [sound.initPids, reachable.kills_mem fresh rfl k mem]
    rfl
  · refine ⟨later.kills_of_exit sound exit, fun {u call signal group e} place sends turn => ?_⟩
    have past : d.controller.livePid? = none :=
      LocalController.livePid?_of_exit ((later.later sound).exit exit)
    rcases turn.of_signal (later.sound sound) place sends with ⟨pid, sent⟩ | nobody
    · cases past.symm.trans (LocalController.livePid?_eq_some.mpr ⟨sent.born, sent.unseen⟩)
    · exact nobody

/-- `/bin/true` is started, killed and deleted. The first kill is on record; after the deletion
another one finds no process, and leaves the record as it is. -/
theorem signals_safe_secondKill :
    ∃ c d e f, Reachable (fresh { args := ["/bin/true"] } {}) c ∧ c.Turn 1 d ∧
      c.Sends d 100 true .terminate ∧ Reachable d e ∧ e.Turn 3 f ∧ e.FindsNobody f 3 "web" ∧
      f.kills = [⟨100, true, 15⟩] := by
  obtain ⟨_, started, known, one, unsent, free⟩ := exists_startedTrue
  obtain ⟨c, asked, place, known, one, unsent, free, free'⟩ : ∃ c,
      Reachable (fresh { args := ["/bin/true"] } {}) c ∧
        c.stages 1 = some (.begin (.kill "web" .terminate true)) ∧ c.controller = .ofTrue ∧
        c.initPids = [100] ∧ c.kills = [] ∧ c.stages 2 = none ∧ c.stages 3 = none :=
    ⟨_, started.turn 1 (.call _ (free 1 (by decide))), stages_setStage .., known, one, unsent,
      free 2 (by decide), free 3 (by decide)⟩
  -- The kill ends the process, so that a delete finds it ended and records its exit.
  obtain ⟨d, kill, ended, released, release, exit, free, free'⟩ : ∃ d, c.Turn 1 d ∧
      d.controller.host.ending? 100 = some (.signaled 15) ∧
      ∃ released, d.controller.step? (.begin (.delete "web")) =
          some (released, .draining "web", []) ∧
        released.init.exit ≠ none ∧ d.stages 2 = none ∧ d.stages 3 = none := by
    have kill := Turn.work place (LocalController.step?_of_signalOf? rfl)
    have same : (c.controller.signal "web" .terminate true).controller =
        (LocalController.ofTrue.signal "web" .terminate true).controller := by rw [known]
    exact ⟨_, kill, (congrArg (·.host.ending? 100) same).trans rfl, _,
      (congrArg (·.step? (.begin (.delete "web"))) same).trans rfl, nofun,
      (kill.stages_other (by decide)).trans free, (kill.stages_other (by decide)).trans free'⟩
  have calls : d.Turn 2 _ := .call (.delete "web") free
  have deletes := Turn.work (stages_setStage d 2 (some (.begin (.delete "web")))) release
  have asks := Turn.call (.kill "web" .kill false) ((deletes.stages_other (by decide)).trans
    ((calls.stages_other (by decide)).trans free'))
  have deleted := (Reachable.refl.turn 2 calls).turn 2 deletes
  obtain ⟨-, first, -⟩ := signals_safe _ Host.numbered_empty asked
  obtain ⟨-, -, -, gone⟩ :=
    signals_safe _ Host.numbered_empty (((asked.turn 1 kill).turn 2 calls).turn 2 deletes)
  obtain ⟨same, finds⟩ := gone exit (Reachable.refl.turn 3 asks)
  have nobody := finds (stages_setStage ..) rfl
    (.work (stages_setStage ..) (LocalController.step?_of_signalOf? rfl))
  have quiet := deletes.kills_of_quiet fun call here => by
    cases (stages_setStage ..).symm.trans here
    rfl
  rcases first place rfl kill with ⟨pid, sends⟩ | ignored
  · cases (List.singleton_injective (one.symm.trans sends.started) : 100 = pid)
    refine ⟨c, d, _, _, asked, kill, sends, deleted.turn 3 asks,
      .work (stages_setStage ..) (LocalController.step?_of_signalOf? rfl), nobody, ?_⟩
    rw [nobody.kills, same, quiet]
    exact sends.kills.trans (by rw [unsent]; rfl)
  · rw [ignored.controller, known] at ended
    cases ended

end LocalInterleaving

end ContainerInit
