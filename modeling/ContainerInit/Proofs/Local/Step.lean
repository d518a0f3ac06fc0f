import ContainerInit.Local.Stage
import ContainerInit.Proofs.Host.Evolution

/-!
# What a step of a controller can do

The steps of a call of a local controller (`LocalController.step?`), taken apart once for all that
is proved about them.

- **Work** (`LocalController.Work`): what a call can do next at each of its stages. Every step is
  work (`work_of_step?`).
- **Signals** (`LocalController.signalOf?`): the calls that send one, which is one section for all
  of them (`work_of_signal`). No other section requests one (`issued_eq_nil`).
-/

namespace ContainerInit

open Host (Ending)

/-- The init process that a notice says was started. -/
def Notice.initPid? : Notice → Option Nat
  | .initSpawned _ pid _ => some pid
  | _ => none

/-- The session that a notice says was started. -/
def Notice.sessionPid? : Notice → Option Nat
  | .sessionSpawned _ _ pid => some pid
  | _ => none

/-- The process that a call is about. -/
def Call.id : Call → String
  | .start id | .kill id .. | .delete id | .update id _ | .exec id .. | .resume id
  | .checkpoint id _ => id

namespace LocalController

variable {c c' : LocalController} {s s' : LocalStage} {ns : List Notice}

/-! ## Work -/

/-- The signal that a call sends, and whether it is for the whole group. -/
def signalOf? : Call → Option (Signal × Bool)
  | .kill _ signal all => some (signal, all)
  | .resume _ => some (.resume, true)
  | _ => none

/-- The signals that the section of the next step requests to be sent. -/
def issued (c : LocalController) : LocalStage → List Kill
  | .begin call =>
    match call with
    | .start id => (c.start id).kills
    | .kill id signal all => (c.kill id signal all).kills
    | .resume id => (c.resume id).kills
    | .update id resources => (c.update id resources).kills
    | .checkpoint id config => (c.checkpoint id config).kills
    | .delete id => (c.releaseInit id).kills
    | .exec id _ _ => (c.checkLive id).kills
  | .draining id => (c.drain id).kills
  | .opening id execId options => (c.openSession id execId options).kills
  | .arriving id => (c.takeChild id).kills
  | .releasing id pid code => (c.releaseChild id pid code).kills
  | .awaiting .. | .recording .. | .finished _ => []

/-- What a call reports of itself, whether it succeeds or not. -/
def announced : LocalStage → List Notice
  | .begin (.kill id signal all) => [.signalling id signal all]
  | .begin (.update id resources) =>
    if resources.isEmpty then [.emptyUpdate id] else [.updateRequested id resources]
  | .begin (.checkpoint id config) => [.checkpointRequested id config.imagePath]
  | _ => []

/-- What a call can do next: the controller, the stage and the notices after it. -/
inductive Work (c : LocalController) :
    LocalStage → LocalController → LocalStage → List Notice → Prop
  | refuse {stage : LocalStage} {e : ControllerError} :
    Work c stage c (.finished (.error e)) (announced stage)
  | start {id : String} {pid : Nat} {host : Host} (unborn : c.init.pid = none)
    (launched : c.host.launch c.launch true = .ok (pid, host)) :
    Work c (.begin (.start id))
      { c with host, init := { c.init with pid := some pid, child := some pid } }
      (.finished (.ok (.answer .done))) [.initSpawned id pid c.launch.args]
  | send {call : Call} {signal : Signal} {group : Bool} {pid : Nat} {host : Host}
    (sends : signalOf? call = some (signal, group)) (live : c.livePid? = some pid)
    (sent : c.host.signal pid group signal.number = .ok host) :
    Work c (.begin call) { c with host } (.finished (.ok (.answer .done)))
      (announced (.begin call))
  | skip {id : String} {resources : ResourceSpec} (empty : resources.isEmpty = true) :
    Work c (.begin (.update id resources)) c (.finished (.ok (.answer .done)))
      (announced (.begin (.update id resources)))
  | forget {id : String} (past : c.livePid? = none) :
    Work c (.begin (.delete id)) { c with init := { c.init with child := none } } (.draining id) []
  | release {id : String} {pid child : Nat} {e : Ending} (live : c.livePid? = some pid)
    (held : c.init.child = some child) (ended : c.host.ending? child = some e) :
    Work c (.begin (.delete id))
      { c with
        init := { c.init with exit := some (exitCodeOf e), child := none }
        host := c.host.reap child }
      (.draining id) []
  | drain {id : String} :
    Work c (.draining id) (c.drain id).controller (.finished (.ok (.answer .done)))
      (c.drain id).notices
  | check {id execId : String} {options : ExecOptions} {pid : Nat}
    (live : c.livePid? = some pid) :
    Work c (.begin (.exec id execId options)) c (.opening id execId options) []
  | join {id execId : String} {options : ExecOptions} {pid : Nat} {host : Host}
    (new : c.sessions.lookup execId = none)
    (launched : c.host.launch options false = .ok (pid, host)) :
    Work c (.opening id execId options)
      { c with host, sessions := c.sessions ++ [(execId, pid)] }
      (.finished (.ok (.answer (.session ⟨execId, some (UInt32.ofNat pid)⟩))))
      [.sessionSpawned id execId pid]
  | remember {id : String} {code : Int32} (known : c.init.exit = some code) :
    Work c (.arriving id) c (.finished (.ok (.code code))) []
  | take {id : String} {pid : Nat} (unknown : c.init.exit = none)
    (held : c.init.child = some pid) :
    Work c (.arriving id) { c with init := { c.init with child := none } } (.awaiting id pid) []
  | see {id : String} {pid : Nat} {e : Ending} {code : Int32}
    (ended : c.host.ending? pid = some e) (reported : reportedCode e = .ok code) :
    Work c (.awaiting id pid) c (.recording id pid code) []
  | record {id : String} {pid : Nat} {code : Int32} :
    Work c (.recording id pid code) { c with init := { c.init with exit := some code } }
      (.releasing id pid code) []
  | letGo {id : String} {pid : Nat} {code : Int32} :
    Work c (.releasing id pid code) { c with host := c.host.reap pid }
      (.finished (.ok (.code code))) [.initExited id pid code]

theorem signal_notices (c : LocalController) (id : String) (signal : Signal) (group : Bool) :
    (c.signal id signal group).notices = [] := by
  unfold LocalController.signal
  split
  · rfl
  · exact Section.ofKill_notices ..

/-- A call that sends a signal has one section. -/
theorem step?_of_signalOf? {call : Call} {signal : Signal} {group : Bool}
    (sends : signalOf? call = some (signal, group)) :
    c.step? (.begin call) = some ((c.signal call.id signal group).controller,
      .finished ((c.signal call.id signal group).result.map .answer),
      announced (.begin call)) := by
  cases call with
  | kill id signal' all =>
    cases sends
    simp only [step?, kill, Section.after, Section.finish, signal_notices, announced, Call.id]
  | resume id =>
    cases sends
    simp only [step?, resume, Section.finish, signal_notices, announced, Call.id]
  | _ => cases sends

/-- What a signal to a live init process makes of the controller. -/
theorem controller_signal {id : String} {signal : Signal} {group : Bool} {pid : Nat}
    (live : c.livePid? = some pid) : (c.signal id signal group).controller = c ∨
      ∃ host, c.host.signal pid group signal.number = .ok host ∧
        (c.signal id signal group).controller = { c with host } := by
  rw [LocalController.signal, live]
  cases sent : c.host.signal pid group signal.number with
  | error e => exact .inl (by simp only [Section.ofKill, sent])
  | ok host => exact .inr ⟨host, rfl, by simp only [Section.ofKill, sent]⟩

/-- A signal is requested for the live init process, if there is one. -/
theorem signal_kills (c : LocalController) (id : String) (signal : Signal) (group : Bool) :
    (c.signal id signal group).kills = c.livePid?.toList.map (⟨·, group, signal.number⟩) := by
  unfold LocalController.signal
  cases c.livePid? with
  | none => rfl
  | some pid => exact Section.ofKill_kills ..

theorem issued_of_signalOf? {call : Call} {signal : Signal} {group : Bool}
    (sends : signalOf? call = some (signal, group)) :
    c.issued (.begin call) = c.livePid?.toList.map (⟨·, group, signal.number⟩) := by
  cases call with
  | kill | resume => cases sends; exact signal_kills ..
  | _ => cases sends

/-- **No other section requests a signal.** -/
theorem issued_eq_nil (quiet : ∀ call, s = .begin call → signalOf? call = none) :
    c.issued s = [] := by
  cases s with
  | begin call =>
    cases call with
    | start id =>
      simp only [issued, LocalController.start]
      split
      · rfl
      · split <;> rfl
    | update id resources =>
      simp only [issued, LocalController.update]
      split <;> rfl
    | delete id =>
      simp only [issued, releaseInit]
      split
      · rfl
      · split
        · rfl
        · split <;> rfl
    | exec id =>
      simp only [issued, checkLive]
      split <;> rfl
    | checkpoint => rfl
    | kill | resume => cases quiet _ rfl
  | opening id execId options =>
    simp only [issued, openSession]
    split
    · rfl
    · split <;> rfl
  | arriving id =>
    simp only [issued, takeChild]
    split <;> rfl
  | _ => rfl

/-- A section requests a signal for the live init process only. -/
theorem livePid?_of_mem_issued {k : Kill} (mem : k ∈ c.issued s) : c.livePid? = some k.pid := by
  by_cases quiet : ∀ call, s = .begin call → signalOf? call = none
  · rw [issued_eq_nil quiet] at mem
    cases mem
  · push Not at quiet
    obtain ⟨call, rfl, sends⟩ := quiet
    obtain ⟨⟨signal, group⟩, sends⟩ := Option.ne_none_iff_exists'.mp sends
    rw [issued_of_signalOf? sends] at mem
    obtain ⟨pid, live, rfl⟩ := List.mem_map.mp mem
    exact Option.mem_toList.mp live

theorem issued_eq_nil_of_past (past : c.livePid? = none) : c.issued s = [] :=
  List.eq_nil_iff_forall_not_mem.mpr fun _ mem =>
    nomatch past.symm.trans (livePid?_of_mem_issued mem)

/-- A call that sends a signal sends none without a live init process. -/
theorem work_of_signal {call : Call} {signal : Signal} {group : Bool}
    (sends : signalOf? call = some (signal, group)) :
    Work c (.begin call) (c.signal call.id signal group).controller
      (.finished ((c.signal call.id signal group).result.map .answer))
      (announced (.begin call)) := by
  unfold LocalController.signal Section.ofKill
  split
  · exact .refuse
  · rename_i pid live
    split
    · exact .refuse
    · exact .send sends live ‹_›

/-- **Every step is work.** -/
theorem work_of_step? (h : c.step? s = some (c', s', ns)) : Work c s c' s' ns := by
  cases s with
  | begin call =>
    cases call with
    | start id =>
      cases h
      unfold LocalController.start
      split
      · exact .refuse
      · rename_i unborn
        split
        · exact .refuse
        · exact .start (Option.not_isSome_iff_eq_none.mp unborn) ‹_›
    | kill id signal all =>
      have section_eq : c.step? (.begin (.kill id signal all)) = _ := step?_of_signalOf? rfl
      cases section_eq.symm.trans h
      exact work_of_signal rfl
    | resume id =>
      have section_eq : c.step? (.begin (.resume id)) = _ := step?_of_signalOf? rfl
      cases section_eq.symm.trans h
      exact work_of_signal rfl
    | update id resources =>
      cases h
      have told : announced (.begin (.update id resources)) = if resources.isEmpty then
        [.emptyUpdate id] else [.updateRequested id resources] := rfl
      unfold LocalController.update
      split
      · rename_i empty
        rw [if_pos empty] at told
        exact told ▸ .skip empty
      · rename_i full
        rw [if_neg full] at told
        exact told ▸ .refuse
    | checkpoint id config => cases h; exact .refuse
    | delete id =>
      have h : (c.releaseInit id).follow (fun _ => .draining id) = (c', s', ns) :=
        Option.some.inj h
      unfold releaseInit at h
      split at h
      · cases h; exact .forget ‹_›
      · rename_i live
        split at h
        · cases h; exact .refuse
        · rename_i held
          split at h
          · cases h; exact .refuse
          · cases h; exact .release live held ‹_›
    | exec id execId options =>
      have h : (c.checkLive id).follow (fun _ => .opening id execId options) = (c', s', ns) :=
        Option.some.inj h
      unfold checkLive at h
      split at h
      · cases h; exact .refuse
      · cases h; exact .check ‹_›
  | draining id => cases h; exact .drain
  | opening id execId options =>
    cases h
    unfold openSession
    split
    · exact .refuse
    · rename_i new
      split
      · exact .refuse
      · exact .join (Option.not_isSome_iff_eq_none.mp new) ‹_›
  | arriving id =>
    have h := Option.some.inj h
    simp only [takeChild] at h
    split at h
    · cases h; exact .remember ‹_›
    · cases h; exact .take ‹_› ‹_›
    · cases h; exact .refuse
  | awaiting id pid =>
    simp only [step?, seen?] at h
    cases ended : c.host.ending? pid with
    | none => rw [ended] at h; cases h
    | some e =>
      rw [ended, Option.map_some] at h
      cases reported : reportedCode e with
      | ok code => rw [reported] at h; cases h; exact .see ended reported
      | error e => rw [reported] at h; cases h; exact .refuse
  | recording id pid code => cases h; exact .record
  | releasing id pid code => cases h; exact .letGo
  | finished result => cases h

end LocalController

end ContainerInit
