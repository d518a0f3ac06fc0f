import ContainerInit.Local.Controller

/-!
# Stages of a call of the controller

Where a call of a local controller stands between two of its sections, when several callers act at
once.

- **Stages** (`LocalStage`): of the calls that a process makes, and of a wait.
- **Steps** (`LocalController.step?`): each runs one section, or lets a waiter see that its child
  has ended. A waiter whose child runs has no step.
- **Whole calls** (`LocalController.call`): the same sections one after the other, with nobody in
  between.
-/

namespace ContainerInit

/-- What a call of the controller gives: the answer of a call, or the code of a wait. -/
inductive Yield where
  | answer (answer : Answer)
  | code (code : Int32)
  deriving DecidableEq

/-- Where a call of the controller stands. -/
inductive LocalStage where
  /-- A call that has not begun. -/
  | begin (call : Call)
  /-- The init process is released, and the sessions are to be ended. -/
  | draining (id : String)
  /-- There is a live init process, and the session is to be started. -/
  | opening (id execId : String) (options : ExecOptions)
  /-- A wait that has not begun. -/
  | arriving (id : String)
  /-- The child is taken, and not seen to have ended. -/
  | awaiting (id : String) (pid : Nat)
  /-- The exit was seen, and is to be recorded. -/
  | recording (id : String) (pid : Nat) (code : Int32)
  /-- The exit is recorded, and the child is to be released. -/
  | releasing (id : String) (pid : Nat) (code : Int32)
  | finished (result : Except ControllerError Yield)

namespace Section

variable {α : Type}

/-- The stage after a section that ends a call. -/
def finish (s : Section α) (yield : α → Yield) : LocalController × LocalStage × List Notice :=
  (s.controller, .finished (s.result.map yield), s.notices)

/-- The stage after a section that another one follows if it succeeds. -/
def follow (s : Section α) (next : α → LocalStage) :
    LocalController × LocalStage × List Notice :=
  match s.result with
  | .ok a => (s.controller, next a, s.notices)
  | .error e => (s.controller, .finished (.error e), s.notices)

/-- A section with a notice before it. -/
def after (s : Section α) (notice : Notice) : Section α :=
  { s with notices := notice :: s.notices }

end Section

namespace LocalController

/-- A kill: a signal, which is reported before. -/
def kill (c : LocalController) (id : String) (signal : Signal) (all : Bool) : Section Answer :=
  (c.signal id signal all).after (.signalling id signal all)

/-- A resume: the signal that continues a process, for the whole group. -/
def resume (c : LocalController) (id : String) : Section Answer :=
  c.signal id .resume true

/-- The next step of a call. -/
def step? (c : LocalController) : LocalStage → Option (LocalController × LocalStage × List Notice)
  | .begin call =>
    some <| match call with
    | .start id => (c.start id).finish .answer
    | .kill id signal all => (c.kill id signal all).finish .answer
    | .resume id => (c.resume id).finish .answer
    | .update id resources => (c.update id resources).finish .answer
    | .checkpoint id config => (c.checkpoint id config).finish .answer
    | .delete id => (c.releaseInit id).follow fun _ => .draining id
    | .exec id execId options => (c.checkLive id).follow fun _ => .opening id execId options
  | .draining id => some ((c.drain id).finish .answer)
  | .opening id execId options => some ((c.openSession id execId options).finish .answer)
  | .arriving id =>
    some <| (c.takeChild id).follow fun
      | .over code => .finished (.ok (.code code))
      | .child pid => .awaiting id pid
  | .awaiting id pid =>
    match c.seen? pid with
    | none => none
    | some (.ok code) => some (c, .recording id pid code, [])
    | some (.error e) => some (c, .finished (.error e), [])
  | .recording id pid code => some (c.recordExit code, .releasing id pid code, [])
  | .releasing id pid code => some ((c.releaseChild id pid code).finish .code)
  | .finished _ => none

/-! ## Whole calls -/

/-- Two sections one after the other, the second only if the first succeeds. -/
def chain {α β : Type} (first : Section α) (second : LocalController → Section β) : Section β :=
  match first.result with
  | .ok _ =>
    let s := second first.controller
    { s with notices := first.notices ++ s.notices, kills := first.kills ++ s.kills }
  | .error e => { first with result := .error e }

/-- A call with nobody else at work. -/
def call (c : LocalController) : Call → Section Answer
  | .start id => c.start id
  | .kill id signal all => c.kill id signal all
  | .resume id => c.resume id
  | .update id resources => c.update id resources
  | .checkpoint id config => c.checkpoint id config
  | .delete id => chain (c.releaseInit id) fun c => c.drain id
  | .exec id execId options =>
    chain (c.checkLive id) fun c => c.openSession id execId options

end LocalController

end ContainerInit
