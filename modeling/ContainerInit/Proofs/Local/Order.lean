import ContainerInit.Proofs.Local.Step

/-!
# The books of a controller

What a controller knows of its children is true of the host, between any two of its steps.

- **Order** (`LocalController.Tidy`): an init process that is gone has its exit recorded, and one
  whose exit is recorded has ended. Sessions are children of their own.
- **Stages** (`LocalStage.Fits`): what a call in the middle of its sections may rely on.
- **Time** (`LocalController.Later`): what no step takes back: which process is the init process,
  that somebody has taken it, that its exit is recorded, and how far the lives of children have
  come.
- **Steps** (`Work.later`, `Work.tidy`, `Work.fits`): every step leads to a later controller in
  order, and leaves its call at a stage that fits. So does what the host does by itself
  (`Later.of_evolves`, `Tidy.of_evolves`).
-/

namespace ContainerInit

open Host (Life Ending)

/-! ## Time -/

namespace Host

variable {h h' : Host} {pid q : Nat} {l l' m : Life}

/-- What can become of a life. -/
def Life.Leads (l l' : Life) : Prop := l.MayBecome l' ∨ l' = .reaped

namespace Life.Leads

theorem refl (l : Life) : l.Leads l := .inl (.same l)

theorem trans (first : l.Leads l') (second : l'.Leads m) : l.Leads m := by
  rcases second with become | rfl
  · rcases first with become' | rfl
    · exact .inl (become'.trans become)
    · exact .inr become.of_reaped
  · exact .inr rfl

theorem letGo (l : Life) : l.Leads l.letGo := by
  cases l with
  | alive => exact .refl _
  | ended e => exact .inr rfl
  | reaped => exact .refl _

theorem of_reaped (leads : Life.reaped.Leads l) : l = .reaped :=
  leads.elim Life.MayBecome.of_reaped id

theorem not_alive (leads : l.Leads l') (ended : l ≠ .alive) : l' ≠ .alive := by
  rcases leads with become | rfl
  · exact become.not_alive ended
  · exact nofun

end Life.Leads

end Host

namespace LocalController

variable {c c' d : LocalController} {h k : Host} {s s' : LocalStage} {ns : List Notice}
  {pid q : Nat} {l l' : Life}

/-! ## The end of the sessions -/

/-- The end of a session: its process has ended, by itself or not, and is let go. -/
theorem endSession_eq (id name : String) (notices : List Notice) (child : h.Child pid l) :
    ∃ k l', (endSession id (h, notices) (name, pid)).1 = k.reap pid ∧ h.Proceeds k ∧
      k.Child pid l' ∧ l' ≠ .alive := by
  cases ended : h.ending? pid with
  | some e =>
    exact ⟨h, l, by simp only [endSession, ended], .refl h, child, by
      rw [child.ending?_eq_some.mp ended]; exact nofun⟩
  | none =>
    refine ⟨(h.signal pid false Host.Process.killNumber).toOption.getD h, ?_⟩
    cases l with
    | ended e => exact nomatch ended.symm.trans (child.ending?_eq_some.mpr rfl)
    | alive =>
      obtain ⟨killed, sent, dead⟩ := child.kill
      rw [sent]
      exact ⟨_, by simp only [endSession, ended, sent], Host.proceeds_signal sent, dead, nofun⟩
    | reaped =>
      refine ⟨.reaped, by simp only [endSession, ended], ?_⟩
      cases sent : h.signal pid false Host.Process.killNumber with
      | ok killed =>
        exact ⟨Host.proceeds_signal sent, (Host.evolves_signal sent).reaped child, nofun⟩
      | error e => exact ⟨.refl h, child, nofun⟩

/-- What the end of all sessions does to the host. -/
structure Drained (h k : Host) (sessions : List (String × Nat)) : Prop where
  numbered : h.Numbered → k.Numbered
  children : k.children = h.children
  gone : ∀ session ∈ sessions, k.Child session.2 .reaped
  /-- Nobody else is let go. -/
  other : ∀ {q : Nat} {l : Life}, h.Child q l → q ∉ sessions.map (·.2) →
    ∃ l', k.Child q l' ∧ l.MayBecome l'
  child : ∀ {q : Nat} {l : Life}, h.Child q l → ∃ l', k.Child q l' ∧ l.Leads l'

namespace Drained

variable {sessions rest : List (String × Nat)}

theorem nil (h : Host) : Drained h h [] :=
  ⟨id, rfl, nofun, fun child _ => ⟨_, child, .same _⟩, fun child => ⟨_, child, .refl _⟩⟩

theorem append {m : Host} (first : Drained h k sessions) (second : Drained k m rest) :
    Drained h m (sessions ++ rest) := by
  refine ⟨second.numbered ∘ first.numbered, second.children.trans first.children,
    fun session mem => ?_, fun child apart => ?_, fun child => ?_⟩
  · rcases List.mem_append.mp mem with mem | mem
    · obtain ⟨l, child, leads⟩ := second.child (first.gone session mem)
      exact leads.of_reaped ▸ child
    · exact second.gone session mem
  · rw [List.map_append, List.mem_append, not_or] at apart
    obtain ⟨l, child, become⟩ := first.other child apart.1
    obtain ⟨l', child, become'⟩ := second.other child apart.2
    exact ⟨l', child, become.trans become'⟩
  · obtain ⟨l, child, leads⟩ := first.child child
    obtain ⟨l', child, leads'⟩ := second.child child
    exact ⟨l', child, leads.trans leads'⟩

theorem endSession (id name : String) (notices : List Notice) (child : h.Child pid l) :
    Drained h (endSession id (h, notices) (name, pid)).1 [(name, pid)] := by
  obtain ⟨k, dead, released, evolves, ended, past⟩ :=
    endSession_eq id name notices child
  rw [released]
  have gone := ended.reap_ended past
  refine ⟨fun numbered => Host.numbered_reap (evolves.numbered numbered),
    (Host.children_reap ..).trans evolves.children, fun session mem => ?_,
    fun child apart => ?_, fun {q m} child => ?_⟩
  · cases List.mem_singleton.mp mem
    exact gone
  · obtain ⟨l', child, become⟩ := evolves.child child
    exact ⟨l', child.reap_of_ne (by simpa using apart), become⟩
  · by_cases same : q = pid
    · exact ⟨.reaped, same ▸ gone, .inr rfl⟩
    · obtain ⟨l', child, become⟩ := evolves.child child
      exact ⟨l', child.reap_of_ne same, .inl become⟩

end Drained

theorem drained_foldl (id : String) (sessions : List (String × Nat)) (notices : List Notice)
    (children : ∀ session ∈ sessions, ∃ l, h.Child session.2 l) :
    Drained h (sessions.foldl (endSession id) (h, notices)).1 sessions := by
  induction sessions generalizing h notices with
  | nil => exact .nil h
  | cons session rest ih =>
    obtain ⟨l, child⟩ := children session List.mem_cons_self
    have first := Drained.endSession id session.1 notices child
    refine first.append (ih _ fun other mem => ?_)
    obtain ⟨l, child⟩ := children other (List.mem_cons_of_mem _ mem)
    obtain ⟨l', child, -⟩ := first.child child
    exact ⟨l', child⟩

theorem drained (c : LocalController) (id : String)
    (children : ∀ session ∈ c.sessions, ∃ l, c.host.Child session.2 l) :
    Drained c.host (c.drain id).controller.host c.sessions :=
  drained_foldl id c.sessions [] children

theorem endSession_notices (id : String) (acc : Host × List Notice) (session : String × Nat) :
    (endSession id acc session).2 = acc.2 ∨
      (endSession id acc session).2 = acc.2 ++ [.sessionOutlived id session.1] := by
  cases ended : acc.1.ending? session.2 with
  | some e => left; simp only [endSession, ended]
  | none => right; simp only [endSession, ended]

/-- The end of the sessions starts nothing. -/
theorem drain_notices (c : LocalController) (id : String) :
    (c.drain id).notices.filterMap Notice.initPid? = [] ∧
      (c.drain id).notices.filterMap Notice.sessionPid? = [] := by
  have fold (sessions : List (String × Nat)) (acc : Host × List Notice)
      (silent : acc.2.filterMap Notice.initPid? = [] ∧ acc.2.filterMap Notice.sessionPid? = []) :
      (sessions.foldl (endSession id) acc).2.filterMap Notice.initPid? = [] ∧
        (sessions.foldl (endSession id) acc).2.filterMap Notice.sessionPid? = [] := by
    induction sessions generalizing acc with
    | nil => exact silent
    | cons session rest ih =>
      refine ih _ ?_
      rcases endSession_notices id acc session with same | more
      · rw [same]
        exact silent
      · rw [more, List.filterMap_append, List.filterMap_append, silent.1, silent.2]
        exact ⟨rfl, rfl⟩
  obtain ⟨init, session⟩ := fold c.sessions (c.host, []) ⟨rfl, rfl⟩
  unfold drain
  simp only [List.filterMap_append, init, session]
  exact ⟨rfl, rfl⟩

/-! ## What is written -/

theorem written_endSession (id : String) (acc : Host × List Notice) (session : String × Nat) :
    (endSession id acc session).1.written = acc.1.written := by
  cases ended : acc.1.ending? session.2 with
  | some e => simp only [endSession, ended]; rfl
  | none =>
    cases sent : acc.1.signal session.2 false Host.Process.killNumber with
    | ok killed =>
      simp only [endSession, ended, sent]
      show killed.written = acc.1.written
      exact Host.written_signal sent
    | error e => simp only [endSession, ended, sent]; rfl

theorem written_drain (c : LocalController) (id : String) :
    (c.drain id).controller.host.written = c.host.written := by
  have fold (sessions : List (String × Nat)) (acc : Host × List Notice) :
      (sessions.foldl (endSession id) acc).1.written = acc.1.written := by
    induction sessions generalizing acc with
    | nil => rfl
    | cons session rest ih => exact (ih _).trans (written_endSession id acc session)
  exact fold c.sessions (c.host, [])

/-- The controller writes nothing by itself. -/
theorem Work.written (work : Work c s c' s' ns) : c'.host.written = c.host.written := by
  cases work with
  | start _ launched | join _ launched => exact Host.written_launch launched
  | send _ _ sent => exact Host.written_signal sent
  | drain => exact written_drain ..
  | _ => rfl

/-! ## Time -/

/-- What no step of the controller or of its host takes back. -/
structure Later (c d : LocalController) : Prop where
  launch : d.launch = c.launch
  pid : ∀ {pid : Nat}, c.init.pid = some pid → d.init.pid = some pid
  taken : c.init.pid ≠ none → c.init.child = none → d.init.child = none
  exit : c.init.exit ≠ none → d.init.exit ≠ none
  child : ∀ {pid : Nat} {l : Life}, c.host.Child pid l → ∃ l', d.host.Child pid l' ∧ l.Leads l'

namespace Later

theorem refl (c : LocalController) : c.Later c :=
  ⟨rfl, id, fun _ => id, id, fun child => ⟨_, child, .refl _⟩⟩

theorem trans {e : LocalController} (first : c.Later d) (second : d.Later e) : c.Later e := by
  refine ⟨second.launch.trans first.launch, fun pid => second.pid (first.pid pid),
    fun born taken => ?_, fun exit => second.exit (first.exit exit), fun child => ?_⟩
  · obtain ⟨pid, some⟩ := Option.ne_none_iff_exists'.mp born
    have still := first.pid some
    exact second.taken (by rw [still]; exact nofun) (first.taken born taken)
  · obtain ⟨l, child, leads⟩ := first.child child
    obtain ⟨l', child, leads'⟩ := second.child child
    exact ⟨l', child, leads.trans leads'⟩

theorem reaped (later : c.Later d) (child : c.host.Child pid .reaped) :
    d.host.Child pid .reaped := by
  obtain ⟨l, child, leads⟩ := later.child child
  exact leads.of_reaped ▸ child

/-- What the host does by itself. -/
theorem of_evolves {host : Host} (evolves : c.host.Evolves host) : c.Later { c with host } := by
  refine ⟨rfl, id, fun _ => id, id, fun child => ?_⟩
  obtain ⟨l, child, become⟩ := evolves.child child
  exact ⟨l, child, .inl become⟩

/-- Letting a process go, whatever else is written into the books. -/
theorem of_reap (q : Nat) (launch : d.launch = c.launch) (pid : d.init.pid = c.init.pid)
    (taken : c.init.child = none → d.init.child = none)
    (exit : c.init.exit ≠ none → d.init.exit ≠ none) (host : d.host = c.host.reap q) :
    c.Later d := by
  refine ⟨launch, fun some => pid.trans some, fun _ => taken, exit, fun {p l} child => ?_⟩
  rw [host]
  refine ⟨_, child.reap q, ?_⟩
  split
  · exact .letGo l
  · exact .refl l

end Later

/-! ## Order -/

/-- What a controller knows is true. -/
structure Tidy (c : LocalController) : Prop where
  numbered : c.host.Numbered
  /-- There is nothing to know of a process that was not started. -/
  unborn : c.init.pid = none → c.init.child = none ∧ c.init.exit = none
  /-- The init process is gone only if its exit is recorded, and that only if it has ended. -/
  init : ∀ {pid : Nat}, c.init.pid = some pid → ∃ l, c.host.Child pid l ∧
    (l = .reaped → c.init.exit ≠ none) ∧ (c.init.exit ≠ none → l ≠ .alive)
  /-- The child in the slot is the init process, and nobody has seen its exit. -/
  slot : ∀ {pid : Nat}, c.init.child = some pid → c.init.pid = some pid ∧ c.init.exit = none
  sessions : ∀ session ∈ c.sessions, (∃ l, c.host.Child session.2 l) ∧
    c.init.pid ≠ some session.2

end LocalController

/-- What a call in the middle of its sections may rely on: a waiter has the child, and has seen
that it has ended before the exit is recorded. -/
def LocalStage.Fits (c : LocalController) : LocalStage → Prop
  | .awaiting _ pid => c.init.pid = some pid ∧ c.init.child = none
  | .recording _ pid _ => c.init.pid = some pid ∧ c.init.child = none ∧
    ∃ l, c.host.Child pid l ∧ l ≠ .alive
  | .releasing _ pid _ => c.init.pid = some pid ∧ c.init.child = none ∧ c.init.exit ≠ none
  | _ => True

namespace LocalController

variable {c c' d : LocalController} {s s' : LocalStage} {ns : List Notice} {pid : Nat}

theorem livePid?_eq_some : c.livePid? = some pid ↔ c.init.pid = some pid ∧ c.init.exit = none := by
  unfold livePid?
  split <;> simp_all

theorem livePid?_of_exit (exit : c.init.exit ≠ none) : c.livePid? = none := by
  unfold livePid?
  split <;> simp_all

/-- What others do is no harm to a call in the middle of its sections. -/
theorem Later.fits (later : c.Later d) (fits : s.Fits c) : s.Fits d := by
  have taken {pid : Nat} (init : c.init.pid = some pid) (child : c.init.child = none) :
      d.init.pid = some pid ∧ d.init.child = none :=
    ⟨later.pid init, later.taken (by rw [init]; exact nofun) child⟩
  cases s with
  | awaiting id pid => exact taken fits.1 fits.2
  | recording id pid code =>
    obtain ⟨init, child, l, there, ended⟩ := fits
    obtain ⟨l', there, leads⟩ := later.child there
    exact ⟨(taken init child).1, (taken init child).2, l', there, leads.not_alive ended⟩
  | releasing id pid code =>
    exact ⟨(taken fits.1 fits.2.1).1, (taken fits.1 fits.2.1).2, later.exit fits.2.2⟩
  | _ => trivial

/-! ## Steps -/

theorem Tidy.of_evolves {host : Host} (tidy : c.Tidy) (evolves : c.host.Evolves host) :
    ({ c with host } : LocalController).Tidy := by
  refine ⟨evolves.numbered tidy.numbered, tidy.unborn, fun some => ?_, tidy.slot,
    fun session mem => ?_⟩
  · obtain ⟨l, child, gone, past⟩ := tidy.init some
    obtain ⟨l', child, become⟩ := evolves.child child
    exact ⟨l', child, fun reaped => gone (become.reaped_iff.mp reaped),
      fun exit => become.not_alive (past exit)⟩
  · obtain ⟨⟨l, child⟩, apart⟩ := tidy.sessions session mem
    obtain ⟨l', child, -⟩ := evolves.child child
    exact ⟨⟨l', child⟩, apart⟩

namespace Work

theorem later (tidy : c.Tidy) (work : Work c s c' s' ns) : c.Later c' := by
  cases work with
  | refuse | skip | check | remember | see => exact .refl c
  | start unborn launched =>
    refine ⟨rfl, fun some => ?_, fun born => absurd unborn born, id, fun child => ?_⟩
    · exact nomatch unborn.symm.trans some
    · obtain ⟨l, child, become⟩ := (Host.evolves_launch launched).child child
      exact ⟨l, child, .inl become⟩
  | send sends live sent => exact .of_evolves (Host.evolves_signal sent)
  | forget => exact ⟨rfl, id, fun _ _ => rfl, id, fun child => ⟨_, child, .refl _⟩⟩
  | release => exact .of_reap _ rfl rfl (fun _ => rfl) (fun _ => nofun) rfl
  | @drain name =>
    have drained := drained c name fun session mem => (tidy.sessions session mem).1
    exact ⟨rfl, id, fun _ => id, id, drained.child⟩
  | join new launched =>
    refine ⟨rfl, id, fun _ => id, id, fun child => ?_⟩
    obtain ⟨l, child, become⟩ := (Host.evolves_launch launched).child child
    exact ⟨l, child, .inl become⟩
  | take => exact ⟨rfl, id, fun _ _ => rfl, id, fun child => ⟨_, child, .refl _⟩⟩
  | record => exact ⟨rfl, id, fun _ => id, fun _ => nofun, fun child => ⟨_, child, .refl _⟩⟩
  | letGo => exact .of_reap _ rfl rfl id id rfl

theorem tidy (tidy : c.Tidy) (fits : s.Fits c) (work : Work c s c' s' ns) : c'.Tidy := by
  have later := work.later tidy
  -- Sessions that are there before and after a step are children before and after it.
  have still {init : Option Nat} (same : init = c.init.pid) :
      ∀ session ∈ c.sessions, (∃ l, c'.host.Child session.2 l) ∧ init ≠ some session.2 := by
    intro session mem
    obtain ⟨⟨l, child⟩, apart⟩ := tidy.sessions session mem
    obtain ⟨l', child, -⟩ := later.child child
    exact ⟨⟨l', child⟩, same ▸ apart⟩
  cases work with
  | refuse | skip | check | remember | see => exact tidy
  | @start id pid host unborn launched =>
    have evolves := Host.evolves_launch launched
    have unseen := (tidy.unborn unborn).2
    refine ⟨evolves.numbered tidy.numbered, nofun, fun some => ?_, fun some => ?_,
      fun session mem => ?_⟩
    · cases some
      exact ⟨.alive, Host.child_of_launch tidy.numbered launched, nofun,
        fun exit => absurd unseen exit⟩
    · cases some
      exact ⟨rfl, unseen⟩
    · obtain ⟨⟨l, child⟩, -⟩ := tidy.sessions session mem
      have apart := child.ne_of_launch tidy.numbered launched
      exact ⟨(still rfl session mem).1, fun same => apart (Option.some.inj same).symm⟩
  | send sends live sent => exact tidy.of_evolves (Host.evolves_signal sent)
  | forget =>
    exact ⟨tidy.numbered, fun unborn => ⟨rfl, (tidy.unborn unborn).2⟩, tidy.init, nofun,
      tidy.sessions⟩
  | @release id pid child e live held ended =>
    obtain ⟨born, -⟩ := livePid?_eq_some.mp live
    refine ⟨Host.numbered_reap tidy.numbered, fun unborn => ?_, fun {q} some => ?_, nofun,
      still rfl⟩
    · exact nomatch born.symm.trans unborn
    · obtain ⟨l, there, -⟩ := tidy.init some
      cases (tidy.slot held).1.symm.trans some
      have past : l ≠ .alive := by rw [there.ending?_eq_some.mp ended]; exact nofun
      exact ⟨.reaped, there.reap_ended past, fun _ => nofun, fun _ => nofun⟩
  | @drain id =>
    have drained := drained c id fun session mem => (tidy.sessions session mem).1
    refine ⟨drained.numbered tidy.numbered, tidy.unborn, fun some => ?_, tidy.slot, nofun⟩
    obtain ⟨l, child, gone, past⟩ := tidy.init some
    have apart : _ ∉ c.sessions.map (·.2) := fun mem => by
      obtain ⟨session, mem, same⟩ := List.mem_map.mp mem
      exact (tidy.sessions session mem).2 (same ▸ some)
    obtain ⟨l', child, become⟩ := drained.other child apart
    exact ⟨l', child, fun reaped => gone (become.reaped_iff.mp reaped),
      fun exit => become.not_alive (past exit)⟩
  | @join id execId options pid host new launched =>
    have evolves := Host.evolves_launch launched
    have before := tidy.of_evolves evolves
    refine ⟨before.numbered, before.unborn, before.init, before.slot, fun session mem => ?_⟩
    rcases List.mem_append.mp mem with mem | mem
    · exact still rfl session mem
    · cases List.mem_singleton.mp mem
      refine ⟨⟨.alive, Host.child_of_launch tidy.numbered launched⟩, fun some => ?_⟩
      obtain ⟨l, child, -⟩ := tidy.init some
      exact child.ne_of_launch tidy.numbered launched rfl
  | take =>
    exact ⟨tidy.numbered, fun unborn => ⟨rfl, (tidy.unborn unborn).2⟩, tidy.init, nofun,
      tidy.sessions⟩
  | record =>
    obtain ⟨born, taken, l, there, past⟩ := fits
    refine ⟨tidy.numbered, fun unborn => (nomatch born.symm.trans unborn), fun some => ?_,
      fun held => (nomatch taken.symm.trans held), tidy.sessions⟩
    cases born.symm.trans some
    exact ⟨l, there, fun _ => nofun, fun _ => past⟩
  | @letGo id pid code =>
    obtain ⟨born, taken, exit⟩ := fits
    refine ⟨Host.numbered_reap tidy.numbered, tidy.unborn, fun {q} some => ?_, tidy.slot,
      still rfl⟩
    obtain ⟨l, there, -, past⟩ := tidy.init some
    cases born.symm.trans some
    exact ⟨.reaped, there.reap_ended (past exit), fun _ => exit, fun _ => nofun⟩

theorem fits (tidy : c.Tidy) (fits : s.Fits c) (work : Work c s c' s' ns) : s'.Fits c' := by
  cases work with
  | take unknown held => exact ⟨(tidy.slot held).1, rfl⟩
  | see ended reported =>
    obtain ⟨l, there, -⟩ := tidy.init fits.1
    exact ⟨fits.1, fits.2, l, there, by rw [there.ending?_eq_some.mp ended]; exact nofun⟩
  | record => exact ⟨fits.1, fits.2.1, nofun⟩
  | _ => trivial

end Work

end LocalController

/-! ## Whole calls -/

namespace LocalController

variable {c c' c'' : LocalController} {s s' s'' : LocalStage} {ns ns' : List Notice}

/-- The sections of a call one after the other. -/
inductive Runs : LocalController → LocalStage → LocalController → LocalStage → List Notice → Prop
  | refl (c : LocalController) (s : LocalStage) : Runs c s c s []
  | step {c c' c'' : LocalController} {s s' s'' : LocalStage} {ns ns' : List Notice}
    (first : c.step? s = some (c', s', ns)) (rest : Runs c' s' c'' s'' ns') :
    Runs c s c'' s'' (ns ++ ns')

theorem Runs.one (h : c.step? s = some (c', s', ns)) : Runs c s c' s' ns := by
  simpa using Runs.step h (.refl c' s')

theorem Runs.written (runs : Runs c s c' s' ns) : c'.host.written = c.host.written := by
  induction runs with
  | refl => rfl
  | step first _ ih => exact ih.trans (work_of_step? first).written

/-- Two sections, the second only if the first succeeds. -/
theorem Runs.chain {first : Section Unit} {second : LocalController → Section Answer}
    {next : LocalStage} (begins : c.step? s = some (first.follow fun _ => next))
    (goes : ∀ c' : LocalController, c'.step? next = some ((second c').finish .answer)) :
    Runs c s (chain first second).controller
      (.finished ((chain first second).result.map .answer)) (chain first second).notices := by
  unfold LocalController.chain
  unfold Section.follow at begins
  cases result : first.result with
  | error e =>
    rw [result] at begins
    exact .one begins
  | ok _ =>
    rw [result] at begins
    exact .step begins (.one (goes first.controller))

/-- **A whole call is its sections one after the other.** -/
theorem runs_call (c : LocalController) (call : Call) :
    Runs c (.begin call) (c.call call).controller
      (.finished ((c.call call).result.map .answer)) (c.call call).notices := by
  cases call with
  | delete id => exact .chain rfl fun _ => rfl
  | exec id execId options => exact .chain rfl fun _ => rfl
  | _ => exact .one rfl

/-- What a step keeps, a whole call keeps. -/
theorem Runs.tidy_later (runs : Runs c s c' s' ns) (tidy : c.Tidy) (fits : s.Fits c) :
    c'.Tidy ∧ c.Later c' := by
  induction runs with
  | refl c => exact ⟨tidy, .refl c⟩
  | step first rest ih =>
    have work := work_of_step? first
    obtain ⟨kept, later⟩ := ih (work.tidy tidy fits) (work.fits tidy fits)
    exact ⟨kept, (work.later tidy).trans later⟩

end LocalController

end ContainerInit
