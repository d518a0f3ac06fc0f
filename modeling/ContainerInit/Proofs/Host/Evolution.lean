import ContainerInit.Local.Controller
import Mathlib.Data.List.Nodup

/-!
# What a system does to the children of a controller

Whatever the processes of a host do, a child of the controller stays in the table until the
controller lets it go, and an ending is final.

- **Children** (`Host.Child`, `Host.children`): the processes that the controller started, and how
  far their lives have come.
- **Evolution** (`Host.Evolves`): what may happen to a host without the controller letting a process
  go. It is all that is assumed of a system in the proofs about the controller: which processes run,
  fork and end, and what time it is, is open. Where it matters who starts a child, an evolution in
  which the controller starts none (`Host.Proceeds`).
- **Requests** (`proceeds_signal`, `evolves_launch`, `Child.reap`): what the requests of the
  controller do to its children, and to the list of them (`children_launch`, `children_reap`).
- **Steps** (`proceeds_tick`): the host's own steps are such an evolution, where no other process
  waits for a child of the controller, nor forks in its name.
-/

namespace ContainerInit

namespace Host

variable {h h' k : Host} {pid q : Nat} {l l' m : Life}

/-! ## Lives -/

/-- What can become of a life while nobody lets the process go. -/
inductive Life.MayBecome : Life → Life → Prop
  | same (l : Life) : MayBecome l l
  | ends (e : Ending) : MayBecome .alive (.ended e)

namespace Life

theorem MayBecome.trans (first : l.MayBecome l') (second : l'.MayBecome m) : l.MayBecome m := by
  cases first with
  | same => exact second
  | ends e => cases second; exact .ends e

theorem MayBecome.of_ended {e : Ending} (become : (Life.ended e).MayBecome l) : l = .ended e := by
  cases become; rfl

theorem MayBecome.of_reaped (become : Life.reaped.MayBecome l) : l = .reaped := by
  cases become; rfl

theorem MayBecome.reaped_iff (become : l.MayBecome l') : l' = .reaped ↔ l = .reaped := by
  cases become with
  | same => exact Iff.rfl
  | ends e => exact ⟨nofun, nofun⟩

theorem MayBecome.not_alive (become : l.MayBecome l') (ended : l ≠ .alive) : l' ≠ .alive := by
  cases become with
  | same => exact ended
  | ends e => exact absurd rfl ended

/-- The life of a process that was let go, if it had ended. -/
def letGo : Life → Life
  | .ended _ => .reaped
  | l => l

theorem letGo_of_ne_alive (ended : l ≠ .alive) : l.letGo = .reaped := by
  cases l with
  | alive => exact absurd rfl ended
  | ended e => rfl
  | reaped => rfl

end Life

/-- The same process later. -/
structure Process.Ages (p p' : Process) : Prop where
  pid : p'.pid = p.pid
  parent : p'.parent = p.parent
  life : p.life.MayBecome p'.life

namespace Process

theorem Ages.refl (p : Process) : p.Ages p := ⟨rfl, rfl, .same _⟩

theorem Ages.trans {p p' p'' : Process} (first : p.Ages p') (second : p'.Ages p'') : p.Ages p'' :=
  ⟨second.pid.trans first.pid, second.parent.trans first.parent, first.life.trans second.life⟩

theorem Ages.of_alive {p p' : Process} (alive : p.life = .alive) (pid : p'.pid = p.pid)
    (parent : p'.parent = p.parent) (ending : Ending) (life : p'.life = .ended ending) :
    p.Ages p' :=
  ⟨pid, parent, by rw [alive, life]; exact .ends ending⟩

theorem ages_respond {p : Process} (alive : p.life = .alive) (n : Nat) : p.Ages (p.respond n) := by
  unfold respond
  split
  · exact .refl p
  · split
    · exact .refl p
    · exact ⟨rfl, rfl, .same _⟩
  · split
    · exact .refl p
    · exact ⟨rfl, rfl, .same _⟩
    · exact .of_alive alive rfl rfl _ rfl

theorem ages_respondAll (numbers : List Nat) (p : Process) : p.Ages (p.respondAll numbers) := by
  induction numbers generalizing p with
  | nil => exact .refl p
  | cons n rest ih =>
    refine Ages.trans ?_ (ih (if p.isAlive then p.respond n else p))
    split
    · rename_i alive
      exact ages_respond (eq_of_beq alive) n
    · exact .refl p

theorem ages_deliver (p : Process) (n : Nat) : p.Ages (p.deliver n) := by
  cases alive : p.isAlive with
  | false => rw [deliver_of_not_alive alive]; exact .refl p
  | true =>
    have life : p.life = .alive := eq_of_beq alive
    unfold deliver
    rw [alive]
    simp only [Bool.not_true, Bool.false_eq_true, if_false]
    split
    · exact .of_alive life rfl rfl _ rfl
    split
    · exact ⟨rfl, rfl, .same _⟩
    split
    · have continued : p.Ages { p with isStopped := false, pending := [] } := ⟨rfl, rfl, .same _⟩
      exact continued.trans (ages_respondAll _ _)
    split
    · exact ⟨rfl, rfl, .same _⟩
    · exact ages_respond life n

theorem ages_react (p : Process) (n : Nat) (reaction : Reaction) :
    p.Ages (p.react n reaction) := by
  unfold react
  split
  · exact .refl p
  · exact ⟨rfl, rfl, .same _⟩

/-- No process survives the signal that ends it in any case. -/
theorem deliver_kill {p : Process} (alive : p.life = .alive) :
    p.deliver killNumber = { p with life := .ended (.signaled killNumber) } := by
  simp [deliver, isAlive, alive]

end Process

/-! ## Children -/

/-- A process that the controller started and that has a given life. -/
def Child (h : Host) (pid : Nat) (life : Life) : Prop :=
  ∃ p, h.find? pid = some p ∧ p.parent = selfPid ∧ p.life = life

/-- The numbers of the processes that the controller has started, oldest first. -/
def children (h : Host) : List Nat :=
  (h.processes.filter (·.parent == selfPid)).map (·.pid)

/-- Processes have numbers of their own, and the next one will have one too. -/
structure Numbered (h : Host) : Prop where
  lt : ∀ p ∈ h.processes, p.pid < h.nextPid
  nodup : (h.processes.map (·.pid)).Nodup

theorem numbered_empty : ({} : Host).Numbered := ⟨nofun, List.nodup_nil⟩

theorem Numbered.eq_of_pid_eq (numbered : h.Numbered) {p p' : Process} (mem : p ∈ h.processes)
    (mem' : p' ∈ h.processes) (same : p'.pid = p.pid) : p' = p :=
  List.inj_on_of_nodup_map numbered.nodup mem' mem same

theorem pid_of_find? {p : Process} (found : h.find? pid = some p) : p.pid = pid :=
  eq_of_beq (List.find?_some (p := fun p : Process => p.pid == pid) found)

theorem mem_children {p : Process} (mem : p ∈ h.processes) (own : p.parent = selfPid) :
    p.pid ∈ h.children :=
  List.mem_map_of_mem (List.mem_filter.mpr ⟨mem, beq_iff_eq.mpr own⟩)

/-- A process that the controller started is its child. -/
theorem Numbered.child (numbered : h.Numbered) {p : Process} (mem : p ∈ h.processes)
    (own : p.parent = selfPid) : h.Child p.pid p.life := by
  cases found : h.find? p.pid with
  | none => exact absurd (beq_self_eq_true p.pid) (List.find?_eq_none.mp found p mem)
  | some q =>
    cases numbered.eq_of_pid_eq mem (List.mem_of_find?_eq_some found) (pid_of_find? found)
    exact ⟨p, found, own, rfl⟩

theorem Child.unique (child : h.Child pid l) (other : h.Child pid l') : l = l' := by
  obtain ⟨p, found, -, rfl⟩ := child
  obtain ⟨p', found', -, rfl⟩ := other
  cases found.symm.trans found'
  rfl

theorem Child.lt (child : h.Child pid l) (numbered : h.Numbered) : pid < h.nextPid := by
  obtain ⟨p, found, -⟩ := child
  exact pid_of_find? found ▸ numbered.lt p (List.mem_of_find?_eq_some found)

/-- Only a child that has ended has an ending to look at. -/
theorem Child.ending?_eq_some (child : h.Child pid l) {e : Ending} :
    h.ending? pid = some e ↔ l = .ended e := by
  obtain ⟨p, found, -, rfl⟩ := child
  rw [ending?, found]
  cases life : p.life <;> simp [life]

/-! ## Evolution -/

/-- What may happen to a host while the controller lets no process go. -/
structure Evolves (h h' : Host) : Prop where
  numbered : h.Numbered → h'.Numbered
  child : ∀ {pid : Nat} {l : Life}, h.Child pid l → ∃ l', h'.Child pid l' ∧ l.MayBecome l'

namespace Evolves

theorem refl (h : Host) : h.Evolves h := ⟨id, fun child => ⟨_, child, .same _⟩⟩

theorem trans (first : h.Evolves h') (second : h'.Evolves k) : h.Evolves k := by
  refine ⟨fun numbered => second.numbered (first.numbered numbered), fun child => ?_⟩
  obtain ⟨l, child, become⟩ := first.child child
  obtain ⟨l', child, become'⟩ := second.child child
  exact ⟨l', child, become.trans become'⟩

theorem reaped (evolves : h.Evolves h') (child : h.Child pid .reaped) : h'.Child pid .reaped := by
  obtain ⟨l, child, become⟩ := evolves.child child
  exact become.of_reaped ▸ child

/-- Hosts with the same processes. -/
theorem of_processes_eq (processes : h'.processes = h.processes) (next : h'.nextPid = h.nextPid) :
    h.Evolves h' := by
  refine ⟨fun numbered => ⟨?_, ?_⟩, fun child => ⟨_, ?_, .same _⟩⟩
  · rw [processes, next]
    exact numbered.lt
  · rw [processes]
    exact numbered.nodup
  · obtain ⟨p, found, rest⟩ := child
    exact ⟨p, by rw [find?, processes]; exact found, rest⟩

end Evolves

/-- An evolution in which the controller starts nothing: its children are those from before. -/
structure Proceeds (h h' : Host) : Prop extends Evolves h h' where
  children : h'.children = h.children

theorem Proceeds.refl (h : Host) : h.Proceeds h := ⟨.refl h, rfl⟩

theorem Proceeds.trans (first : h.Proceeds h') (second : h'.Proceeds k) : h.Proceeds k :=
  ⟨first.toEvolves.trans second.toEvolves, second.children.trans first.children⟩

private theorem find?_map {f : Process → Process}
    (same : ∀ p ∈ h.processes, (f p).pid = p.pid) (q : Nat) :
    ({ h with processes := h.processes.map f } : Host).find? q = (h.find? q).map f := by
  unfold find?
  revert same
  induction h.processes with
  | nil => exact fun _ => rfl
  | cons p ps ih =>
    intro same
    rw [List.map_cons, List.find?_cons, List.find?_cons, same p List.mem_cons_self]
    split
    · rfl
    · exact ih fun p mem => same p (List.mem_cons_of_mem _ mem)

private theorem numbered_map {f : Process → Process}
    (same : ∀ p ∈ h.processes, (f p).pid = p.pid) (numbered : h.Numbered) :
    ({ h with processes := h.processes.map f } : Host).Numbered := by
  refine ⟨fun p mem => ?_, ?_⟩
  · obtain ⟨q, old, rfl⟩ := List.mem_map.mp mem
    exact same q old ▸ numbered.lt q old
  · have pids : (h.processes.map f).map (·.pid) = h.processes.map (·.pid) := by
      rw [List.map_map]
      exact List.map_congr_left same
    exact pids ▸ numbered.nodup

private theorem children_map {f : Process → Process}
    (pid : ∀ p ∈ h.processes, (f p).pid = p.pid)
    (parent : ∀ p ∈ h.processes, (f p).parent = p.parent) :
    ({ h with processes := h.processes.map f } : Host).children = h.children := by
  have own : h.processes.filter ((·.parent == selfPid) ∘ f) =
      h.processes.filter (·.parent == selfPid) :=
    List.filter_congr fun p mem => by rw [Function.comp_apply, parent p mem]
  unfold children
  rw [List.filter_map, List.map_map, own]
  exact List.map_congr_left fun p mem => pid p (List.mem_of_mem_filter mem)

/-- Every process goes on by itself. -/
theorem proceeds_map {f : Process → Process} (ages : ∀ p ∈ h.processes, p.Ages (f p)) :
    h.Proceeds { h with processes := h.processes.map f } := by
  have same : ∀ p ∈ h.processes, (f p).pid = p.pid := fun p mem => (ages p mem).pid
  refine ⟨⟨numbered_map same, fun child => ?_⟩, children_map same fun p mem => (ages p mem).parent⟩
  obtain ⟨p, found, parent, rfl⟩ := child
  have older := ages p (List.mem_of_find?_eq_some found)
  refine ⟨(f p).life, ⟨f p, ?_, older.parent.trans parent, rfl⟩, older.life⟩
  rw [find?_map same, found]
  rfl

theorem proceeds_update {f : Process → Process}
    (ages : ∀ p ∈ h.processes, p.pid = pid → p.Ages (f p)) : h.Proceeds (h.update pid f) := by
  refine proceeds_map fun p mem => ?_
  split
  · exact ages p mem ‹_›
  · exact .refl p

/-- A new process changes no other one. -/
theorem evolves_add (p : Process) : h.Evolves (h.add p) := by
  refine ⟨fun numbered => ⟨fun q mem => ?_, ?_⟩, fun child => ⟨_, ?_, .same _⟩⟩
  · rcases List.mem_append.mp mem with mem | mem
    · exact Nat.lt_succ_of_lt (numbered.lt q mem)
    · cases List.mem_singleton.mp mem
      exact Nat.lt_succ_self _
  · simp only [add, List.map_append, List.map_cons, List.map_nil]
    refine List.Nodup.append numbered.nodup (List.nodup_singleton _) ?_
    simp only [List.disjoint_singleton, List.mem_map, not_exists, not_and]
    exact fun q mem => Nat.ne_of_lt (numbered.lt q mem)
  · obtain ⟨q, found, rest⟩ := child
    refine ⟨q, ?_, rest⟩
    have found : h.processes.find? (fun p => p.pid == _) = some q := found
    simp only [find?, add, List.find?_append, found, Option.some_or]

theorem children_add (h : Host) (p : Process) :
    (h.add p).children = h.children ++ if p.parent = selfPid then [h.nextPid] else [] := by
  unfold children add
  rw [List.filter_append, List.map_append]
  split <;> simp [*]

/-! ## Requests -/

/-- A signal lets no process go, and starts none. -/
theorem proceeds_sendTo {selected : Process → Bool} {n : Nat}
    (sent : h.sendTo selected n = .ok h') : h.Proceeds h' := by
  unfold sendTo at sent
  split at sent
  · cases sent
    refine proceeds_map fun p _ => ?_
    split
    · exact p.ages_deliver n
    · exact .refl p
  · cases sent

theorem proceeds_signal {group : Bool} {n : Nat} (sent : h.signal pid group n = .ok h') :
    h.Proceeds h' :=
  proceeds_sendTo sent

theorem evolves_signal {group : Bool} {n : Nat} (sent : h.signal pid group n = .ok h') :
    h.Evolves h' :=
  (proceeds_signal sent).toEvolves

theorem written_sendTo {selected : Process → Bool} {n : Nat}
    (sent : h.sendTo selected n = .ok h') : h'.written = h.written := by
  unfold sendTo at sent
  split at sent <;> cases sent
  rfl

theorem written_signal {group : Bool} {n : Nat} (sent : h.signal pid group n = .ok h') :
    h'.written = h.written :=
  written_sendTo sent

/-- A child that lives does not outlive the signal that ends a process in any case. -/
theorem Child.kill (child : h.Child pid .alive) :
    ∃ h', h.signal pid false Process.killNumber = .ok h' ∧
      h'.Child pid (.ended (.signaled Process.killNumber)) := by
  obtain ⟨p, found, parent, life⟩ := child
  have there : h.processes.any (fun p => p.pid == pid && p.life != .reaped) = true :=
    List.any_eq_true.mpr ⟨p, List.mem_of_find?_eq_some found, by simp [pid_of_find? found, life]⟩
  have same (p : Process) (_ : p ∈ h.processes) :
      (if p.pid == pid && Process.killNumber != 0 then p.deliver Process.killNumber else p).pid =
        p.pid := by
    split
    · exact (p.ages_deliver _).pid
    · rfl
  refine ⟨_, if_pos there, p.deliver Process.killNumber, ?_, ?_, ?_⟩
  · refine (find?_map same pid).trans ?_
    rw [found]
    simp [pid_of_find? found, Process.killNumber]
  · exact (p.ages_deliver _).parent.trans parent
  · rw [Process.deliver_kill life]

theorem reap_eq (h : Host) (pid : Nat) :
    h.reap pid = h.update pid fun p => { p with life := p.life.letGo } := by
  unfold reap
  congr 1
  funext p
  cases life : p.life <;> simp [Life.letGo, ← life]

theorem numbered_reap (numbered : h.Numbered) : (h.reap pid).Numbered := by
  rw [reap_eq]
  refine numbered_map (fun p _ => ?_) numbered
  split <;> rfl

/-- Letting a process go leaves it among the children. -/
theorem children_reap (h : Host) (pid : Nat) : (h.reap pid).children = h.children := by
  rw [reap_eq]
  refine children_map (fun p _ => ?_) (fun p _ => ?_) <;> split <;> rfl

/-- Letting a process go changes its own life only. -/
theorem Child.reap (child : h.Child q l) (pid : Nat) :
    (h.reap pid).Child q (if q = pid then l.letGo else l) := by
  obtain ⟨p, found, parent, rfl⟩ := child
  rw [reap_eq]
  refine ⟨if p.pid = pid then { p with life := p.life.letGo } else p, ?_, ?_, ?_⟩
  · rw [update, find?_map (fun p _ => by split <;> rfl), found]
    rfl
  · split <;> exact parent
  · rw [pid_of_find? found]
    split <;> rfl

theorem Child.reap_of_ne (child : h.Child q l) (ne : q ≠ pid) : (h.reap pid).Child q l := by
  simpa [ne] using child.reap pid

/-- A child that has ended is gone once it is let go. -/
theorem Child.reap_ended (child : h.Child pid l) (ended : l ≠ .alive) :
    (h.reap pid).Child pid .reaped := by
  have own := child.reap pid
  rwa [if_pos rfl, Life.letGo_of_ne_alive ended] at own

/-- What the start of a command does, if it succeeds. -/
theorem launch_eq_ok {o : ExecOptions} {group : Bool}
    (launched : h.launch o group = .ok (pid, h')) :
    ∃ p, pid = h.nextPid ∧ h' = h.add p ∧ p.parent = selfPid ∧ p.life = .alive := by
  unfold launch at launched
  split at launched
  · cases launched
  split at launched
  · cases launched
  split at launched
  · rename_i started spawned
    cases launched
    unfold spawn at spawned
    cases prepared : h.prepare o with
    | error e => rw [prepared] at spawned; cases spawned
    | ok program =>
      rw [prepared] at spawned
      cases spawned
      exact ⟨_, rfl, rfl, rfl, rfl⟩
  · cases launched

theorem evolves_launch {o : ExecOptions} {group : Bool}
    (launched : h.launch o group = .ok (pid, h')) : h.Evolves h' := by
  obtain ⟨p, -, rfl, -⟩ := launch_eq_ok launched
  exact evolves_add p

/-- The start of a command starts one child. -/
theorem children_launch {o : ExecOptions} {group : Bool}
    (launched : h.launch o group = .ok (pid, h')) : h'.children = h.children ++ [pid] := by
  obtain ⟨p, rfl, rfl, parent, -⟩ := launch_eq_ok launched
  rw [children_add, if_pos parent]

theorem written_launch {o : ExecOptions} {group : Bool}
    (launched : h.launch o group = .ok (pid, h')) : h'.written = h.written := by
  obtain ⟨p, -, rfl, -⟩ := launch_eq_ok launched
  rfl

/-- A started command is a child that lives. -/
theorem child_of_launch {o : ExecOptions} {group : Bool} (numbered : h.Numbered)
    (launched : h.launch o group = .ok (pid, h')) : h'.Child pid .alive := by
  obtain ⟨p, rfl, rfl, parent, life⟩ := launch_eq_ok launched
  refine ⟨{ p with pid := h.nextPid }, ?_, parent, life⟩
  have new : h.processes.find? (fun p => p.pid == h.nextPid) = none :=
    List.find?_eq_none.mpr fun p mem => by
      simpa using Nat.ne_of_lt (numbered.lt p mem)
  simp [find?, add, List.find?_append, new]

/-- A started command is none of the children before. -/
theorem Child.ne_of_launch {o : ExecOptions} {group : Bool} (child : h.Child q l)
    (numbered : h.Numbered) (launched : h.launch o group = .ok (pid, h')) : q ≠ pid := by
  obtain ⟨p, rfl, -⟩ := launch_eq_ok launched
  exact Nat.ne_of_lt (child.lt numbered)

/-! ## Steps of the host -/

/-- The processes of a host and its controller mind their own children. -/
structure Private (h : Host) : Prop where
  /-- No process waits for a child of the controller. -/
  waits : ∀ p ∈ h.processes, ∀ pid givesWay next, p.program = .await pid givesWay next →
    ∀ l, ¬ h.Child pid l
  /-- No process is the one that the controller runs in. -/
  other : ∀ p ∈ h.processes, p.pid ≠ selfPid

/-- Processes that only end have no children. -/
theorem private_of_exit (each : ∀ p ∈ h.processes, p.program = .exit 0 ∧ p.pid ≠ selfPid) :
    h.Private := by
  refine ⟨fun p mem pid givesWay next program => ?_, fun p mem => (each p mem).2⟩
  cases (each p mem).1.symm.trans program

/-- A step of a process lets no child of the controller go and starts none, and ends no process but
itself. -/
theorem proceeds_advance (numbered : h.Numbered) (own : h.Private) {p : Process}
    (mem : p ∈ h.processes) (alive : p.life = .alive) : h.Proceeds (h.advance p) := by
  -- Most requests change what the process does next, but neither its number nor its life.
  have still {h : Host} {f : Process → Process} (pid : ∀ q, (f q).pid = q.pid)
      (parent : ∀ q, (f q).parent = q.parent) (life : ∀ q, (f q).life = q.life) :
      h.Proceeds (h.update p.pid f) :=
    proceeds_update fun q _ _ => ⟨pid q, parent q, life q ▸ .same _⟩
  have go (program : Program) : h.Proceeds (h.update p.pid fun q => { q with program }) := by
    apply still <;> exact fun _ => rfl
  cases program : p.program <;> simp only [advance, program]
  case exit status =>
    refine proceeds_update fun q mem' same => ?_
    cases numbered.eq_of_pid_eq mem mem' same
    exact .of_alive alive rfl rfl _ rfl
  case write stream text next => exact (go _).trans ⟨.of_processes_eq rfl rfl, rfl⟩
  case sleep millis next => split <;> (apply still <;> exact fun _ => rfl)
  case kill target number next =>
    split
    · rename_i sent
      refine (proceeds_sendTo sent).trans ?_
      apply still <;> exact fun _ => rfl
    · exact go _
  case react number reaction next =>
    have reacts (q : Process) := q.ages_react number reaction
    exact proceeds_update fun q _ _ => ⟨(reacts q).pid, (reacts q).parent, (reacts q).life⟩
  case fork input collects child next =>
    refine (go _).trans ⟨evolves_add _, ?_⟩
    rw [children_add, if_neg (own.other p mem), List.append_nil]
  case await pid givesWay next =>
    split
    · rename_i e ended
      have gone := go (next (some e))
      refine ⟨⟨fun numbered => numbered_reap (gone.numbered numbered), fun {q l} child => ?_⟩,
        (children_reap ..).trans gone.children⟩
      have other : q ≠ pid := fun same =>
        own.waits p mem pid givesWay next program l (same ▸ child)
      obtain ⟨l', child, become⟩ := gone.child child
      exact ⟨l', child.reap_of_ne other, become⟩
    · exact go _
  case exec command failed =>
    split
    · apply still <;> exact fun _ => rfl
    · exact go _
  all_goals first | exact go _ | (apply still <;> exact fun _ => rfl)

/-- **A step of the host is an evolution,** in which the controller starts nothing. -/
theorem proceeds_tick (numbered : h.Numbered) (own : h.Private) (ticked : h.tick? = some h') :
    h.Proceeds h' := by
  unfold tick? at ticked
  split at ticked
  · rename_i p found
    cases ticked
    have ready : h.isReady p = true := List.find?_some found
    simp only [isReady, Process.isAlive, Bool.and_eq_true, beq_iff_eq] at ready
    exact proceeds_advance numbered own (List.mem_of_find?_eq_some found) ready.1.1
  · obtain ⟨t, -, rfl⟩ := Option.map_eq_some_iff.mp ticked
    exact ⟨.of_processes_eq rfl rfl, rfl⟩

/-! ## A command that does nothing -/

private theorem locate_true (directory : String) :
    locate directory "/bin/true" = .ok (["bin", "true"], .program) := by
  have nonempty : "/bin/true".isEmpty = false := by decide
  have absolute : "/bin/true".startsWith "/" = true := by decide +kernel
  have short : ¬ pathLimit < "/bin/true".utf8ByteSize := by decide +kernel
  have file : "/bin/true".endsWith "/" = false := by decide +kernel
  have names : namesOf "/bin/true" = ["bin", "true"] := by
    simp +decide [namesOf, String.splitOn, String.splitOnAux]
  have walked : walk [] ["bin", "true"] = .ok (["bin", "true"], .program) := rfl
  simp [locate, nonempty, absolute, short, file, names, walked]

private theorem findProgram_true (directory path : String) :
    findProgram directory path "/bin/true" = .ok "true" := by
  have nonempty : "/bin/true".isEmpty = false := by decide
  have slash : "/bin/true".contains '/' = true := by simp
  simp only [findProgram, nonempty, slash, programAt, locate_true]
  rfl

/-- Every host can start `/bin/true`. -/
theorem launch_true (h : Host) (ownGroup : Bool) :
    h.launch { args := ["/bin/true"] } ownGroup = .ok (h.nextPid, h.add {
      pid := h.nextPid
      parent := selfPid
      group := if ownGroup then h.nextPid else selfPid
      program := .exit 0 }) := by
  have plain : ExecOptions.hasNul { args := ["/bin/true"] } = false := by
    simp [ExecOptions.hasNul]
  simp [launch, spawn, prepare, plain, load, findProgram_true]
  rfl
end Host

end ContainerInit
