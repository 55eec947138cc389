import AsmLens.Task.Suspension

/-!
# Tasks

What a task runs is a process. It does something until it leaves off: it waits for a value, it gives
way to others, or it comes to its end, well or with a fault. Nothing else is known of it, so what
holds of all processes holds of any code that a task can be given.

A task runs a body, and should that fail, a handler. What becomes of the body is heard twice. First,
if it has failed, this is logged and the handler is called with the fault; what becomes of the
handler is then heard in the body's stead, and if that is a failure, it is logged too. Either is
heard in a turn of its own, after the turns that word of it takes.
-/

namespace AsmLens

/-! ## Processes -/

/-- What a process does on its way. -/
inductive Effect (σ : Type) where
  | say (what : Json)
  | spawn (name : String) (body : σ) (handler : Option σ)

/-- How a process leaves off. -/
inductive Pause (σ : Type) where
  | waits (slot : String) (rest : σ)
  | givesWay (rest : σ)
  /-- It has come to its end. Word of it takes some turns; it takes none when the process fails as
  soon as it is called, before there is anything to wait for. -/
  | ends (turns : Nat) (result : Except Fault Unit)

structure Move (σ : Type) where
  effects : List (Effect σ)
  pause : Pause σ

/-- States of processes. -/
class Process (σ : Type) where
  move : σ → Move σ
  /-- A process that has waited, with the value that its slot was given. -/
  resume : σ → Option Json → σ
  /-- A process that is called because of a fault. -/
  handle : σ → Fault → σ

/-! ## Tasks -/

inductive Part where
  | body
  | handler

inductive TaskEvent where
  | spawned
  | began
  | said (what : Json)
  | resumed (value : Option Json)
  | cameBack
  | failed (fault : Fault)
  | handling (fault : Fault)
  | handlerFailed (fault : Fault)

namespace TaskEvent

def failureText (name : String) : String := s!"[Task] {name} failed:"

def handlerFailureText (name : String) : String := s!"[Task] {name} error handler failed:"

end TaskEvent

/-- How far a task has come. -/
inductive Stage (σ : Type) where
  | starts (body : σ)
  /-- A part has waited, and its slot was given a value. -/
  | resumes (part : Part) (value : Option Json) (process : σ)
  | comesBack (part : Part) (process : σ)
  | waits (part : Part) (process : σ)
  | givesWay (part : Part) (process : σ)
  /-- A part has come to its end, word of which takes `turns` more turns. -/
  | ended (part : Part) (turns : Nat) (result : Except Fault Unit)
  /-- What has become of the task up to a part is heard. -/
  | hears (part : Part) (result : Except Fault Unit)
  | settled

/-- A task, and what has become of its body, of what was done about a failure of the body, and of all
of it. -/
structure Task (σ : Type) where
  name : String
  handler : Option σ
  stage : Stage σ
  body : Outcome Unit := .pending
  handling : Outcome Unit := .pending
  done : Outcome Unit := .pending

inductive Next where
  | inLine
  /-- It comes in line when nobody else is. -/
  | behind
  | slot (name : String)
  | nowhere

structure Turned (σ : Type) where
  task : Task σ
  events : List TaskEvent
  effects : List (Effect σ) := []
  next : Next

namespace Task

variable {σ : Type}

def begin (name : String) (body : σ) (handler : Option σ) : Task σ :=
  { name, handler, stage := .starts body }

/-- Word of the end of a part is under way, for some turns yet. -/
def report (t : Task σ) (part : Part) (result : Except Fault Unit) : Nat → Task σ
  | 0 => { t with stage := .hears part result }
  | turns + 1 => { t with stage := .ended part turns result }

def comeOut (t : Task σ) (part : Part) (result : Except Fault Unit) (turns : Nat) : Task σ :=
  let t := match part with
    | .body => { t with body := t.body.settle (.ofExcept result) }
    | .handler => { t with handling := t.handling.settle (.ofExcept result) }
  t.report part result turns

def finish (t : Task σ) : Task σ :=
  { t with done := t.done.settle (.resolved ()), stage := .settled }

variable [Process σ]

/-- A part of a task does what comes next until it waits or ends. -/
def act (t : Task σ) (part : Part) (events : List TaskEvent) (process : σ) : Turned σ :=
  let m := Process.move process
  match m.pause with
  | .waits slot rest =>
    { task := { t with stage := .waits part rest }
      events
      effects := m.effects
      next := .slot slot }
  | .givesWay rest =>
    { task := { t with stage := .givesWay part rest }
      events
      effects := m.effects
      next := .behind }
  | .ends turns result =>
    { task := t.comeOut part result turns, events, effects := m.effects, next := .inLine }

/-- What has become of the body is heard. A failure is logged and the handler is called; without a
handler nothing more is done about it. -/
def hearBody (t : Task σ) : Except Fault Unit → Turned σ
  | .ok _ => { task := { t with stage := .hears .handler (.ok ()) }, events := [], next := .inLine }
  | .error fault =>
    match t.handler with
    | none =>
      { task := t.comeOut .handler (.ok ()) 2, events := [.failed fault], next := .inLine }
    | some handler =>
      t.act .handler [.failed fault, .handling fault] (Process.handle handler fault)

/-- What has become of the task is heard. A failure, which is one of the handler, is logged. -/
def hearHandler (t : Task σ) : Except Fault Unit → Turned σ
  | .ok _ => { task := t.finish, events := [], next := .nowhere }
  | .error fault => { task := t.finish, events := [.handlerFailed fault], next := .nowhere }

def turn (t : Task σ) : Turned σ :=
  match t.stage with
  | .starts body => t.act .body [.began] body
  | .resumes part value process => t.act part [.resumed value] process
  | .comesBack part process => t.act part [.cameBack] process
  | .ended part turns result =>
    { task := t.report part result turns, events := [], next := .inLine }
  | .hears .body result => t.hearBody result
  | .hears .handler result => t.hearHandler result
  | .waits _ _ | .givesWay _ _ | .settled => { task := t, events := [], next := .nowhere }

def resume (t : Task σ) (value : Option Json) : Task σ :=
  match t.stage with
  | .waits part process =>
    { t with stage := .resumes part value (Process.resume process value) }
  | _ => t

def comeBack (t : Task σ) : Task σ :=
  match t.stage with
  | .givesWay part process => { t with stage := .comesBack part process }
  | _ => t

end Task

end AsmLens
