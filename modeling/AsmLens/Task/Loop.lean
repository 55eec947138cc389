import AsmLens.Table
import AsmLens.Task.Basic
import AsmLens.Task.Script

/-!
# The loop that runs tasks

Tasks take turns. A turn lasts until the task waits or ends; then the next task in line has its
turn, and when there is none, the first of those who gave way comes in line again. Whatever a task
does, no other task sees its faults.

`Loop.drain` runs scripts until nothing is in line. It ends because every turn uses up some of the
weight of the scripts (`Loop.weight_lt_of_step`).
-/

namespace AsmLens

inductive LoopEvent where
  | task (number : Nat) (event : TaskEvent)
  /-- Something that is not a task had its turn. -/
  | passed (what : Json)
  /-- A slot was to be completed that no task ever waited for. -/
  | noSlot (name : String)

/-- What waits until no task is in line. -/
inductive Waiter where
  | other (what : Json)
  | task (number : Nat)

/-- What the one who starts a task gets: its name, and its number to learn what has become of it. -/
structure Handle where
  number : Nat
  name : String
deriving DecidableEq

/-- The loop that runs tasks. -/
structure Loop (σ : Type) where
  tasks : List (Task σ) := []
  ready : List Nat := []
  /-- Those who gave way. -/
  waiters : List Waiter := []
  /-- For each slot the number of the task that waits for it, as long as it does. -/
  slots : Table String (Option Nat) := []
  events : List LoopEvent := []

namespace Loop

variable {σ : Type}

def present (l : Loop σ) (e : LoopEvent) : Loop σ := { l with events := l.events ++ [e] }

def enqueue (l : Loop σ) (n : Nat) : Loop σ := { l with ready := l.ready ++ [n] }

def change (l : Loop σ) (n : Nat) (f : Task σ → Task σ) : Loop σ :=
  { l with tasks := l.tasks.modify n f }

/-- Starts a task, which has its first turn later. -/
def spawn (l : Loop σ) (name : String) (body : σ) (handler : Option σ) : Handle × Loop σ :=
  let n := l.tasks.length
  (⟨n, name⟩,
    ({ l with tasks := l.tasks ++ [Task.begin name body handler] }.enqueue n).present
      (.task n .spawned))

def carryOut (n : Nat) (l : Loop σ) : Effect σ → Loop σ
  | .say what => l.present (.task n (.said what))
  | .spawn name body handler => (l.spawn name body handler).2

def place (l : Loop σ) (n : Nat) : Next → Loop σ
  | .inLine => l.enqueue n
  | .behind => { l with waiters := l.waiters ++ [.task n] }
  | .slot name => { l with slots := l.slots.put name (some n) }
  | .nowhere => l

/-- What has become of a task in its turn, and what happened to it at first. -/
def record (l : Loop σ) (n : Nat) (r : Turned σ) : Loop σ :=
  { l with tasks := l.tasks.set n r.task, events := l.events ++ r.events.map (.task n) }

section

variable [Process σ]

def take (l : Loop σ) (n : Nat) : Loop σ :=
  match l.tasks[n]? with
  | none => l
  | some t => (t.turn.effects.foldl (carryOut n) (l.record n t.turn)).place n t.turn.next

/-- One who gave way comes in line again. -/
def letIn (l : Loop σ) : Waiter → Loop σ
  | .other what => l.present (.passed what)
  | .task n => (l.change n Task.comeBack).enqueue n

def step (l : Loop σ) : Option (Loop σ) :=
  match l.ready, l.waiters with
  | n :: ready, _ => some ({ l with ready }.take n)
  | [], w :: waiters => some ({ l with waiters }.letIn w)
  | [], [] => none

/-! ## From outside -/

/-- Lets something that is not a task have its turn, once no task is in line. -/
def post (l : Loop σ) (what : Json) : Loop σ := { l with waiters := l.waiters ++ [.other what] }

/-- Completes a slot with a value: the task that waits for it comes in line. A slot that is complete
takes no further value. -/
def complete (l : Loop σ) (slot : String) (value : Option Json) : Loop σ :=
  match l.slots.get? slot with
  | none => l.present (.noSlot slot)
  | some none => l
  | some (some n) =>
    ({ l with slots := l.slots.put slot none }.change n (·.resume value)).enqueue n

end

/-! ## The loop runs dry -/

/-- A bound on the turns that a task at a stage can bring about before it waits for a value, with a
bound for its handler. -/
def stageWeight (handlerWeight : Nat) : Stage Routine → Nat
  | .starts r | .resumes .body _ r | .comesBack .body r | .givesWay .body r =>
    8 + Instruction.weights r.rest + handlerWeight
  | .ended .body turns _ => 5 + turns + handlerWeight
  | .hears .body _ => 4 + handlerWeight
  | .resumes .handler _ r | .comesBack .handler r | .givesWay .handler r =>
    4 + Instruction.weights r.rest
  | .ended .handler turns _ => 1 + turns
  | .hears .handler _ | .waits _ _ | .settled => 0

def handlerWeight (t : Task Routine) : Nat :=
  Instruction.handlerWeight (t.handler.map Routine.rest)

/-- A bound on the turns that a task can bring about before it waits for a value. -/
def taskWeight (t : Task Routine) : Nat := stageWeight (handlerWeight t) t.stage

def total {α : Type} (f : α → Nat) : List α → Nat
  | [] => 0
  | a :: as => f a + total f as

theorem total_append {α : Type} (f : α → Nat) (as bs : List α) :
    total f (as ++ bs) = total f as + total f bs := by
  induction as with
  | nil => simp [total]
  | cons a as ih => simp only [List.cons_append, total, ih]; omega

theorem total_set {α : Type} (f : α → Nat) {as : List α} {n : Nat} {a : α} (h : as[n]? = some a)
    (b : α) : total f (as.set n b) + f a = total f as + f b := by
  induction as generalizing n with
  | nil => simp at h
  | cons c as ih =>
    cases n with
    | zero =>
      cases h
      simp only [List.set_cons_zero, total]
      omega
    | succ n =>
      have := ih (n := n) (by simpa using h)
      simp only [List.set_cons_succ, total]
      omega

/-- A bound on what is still to happen. -/
def weight (l : Loop Routine) : Nat :=
  total taskWeight l.tasks + l.ready.length + 2 * l.waiters.length

theorem weight_enqueue (l : Loop Routine) (n : Nat) : (l.enqueue n).weight = l.weight + 1 := by
  simp only [weight, enqueue, List.length_append, List.length_singleton]
  omega

theorem weight_place_le (l : Loop Routine) (n : Nat) (next : Next) : (l.place n next).weight ≤
    l.weight + match next with
      | .inLine => 1
      | .behind => 2
      | .slot _ | .nowhere => 0 := by
  cases next with
  | inLine => exact Nat.le_of_eq (l.weight_enqueue n)
  | behind => simp only [weight, place, List.length_append, List.length_singleton]; omega
  | slot name => exact Nat.le_refl _
  | nowhere => exact Nat.le_refl _

def effectWeight : Effect Routine → Nat
  | .say _ => 0
  | .spawn _ body handler =>
    9 + Instruction.weights body.rest + Instruction.handlerWeight (handler.map Routine.rest)

theorem weight_carryOut (n : Nat) (l : Loop Routine) (e : Effect Routine) :
    (carryOut n l e).weight = l.weight + effectWeight e := by
  cases e with
  | say what => rfl
  | spawn name body handler =>
    have htask : taskWeight (Task.begin name body handler) = 8 + Instruction.weights body.rest +
        Instruction.handlerWeight (handler.map Routine.rest) := rfl
    simp only [carryOut, spawn, present, enqueue, weight, total_append, total, List.length_append,
      List.length_singleton, htask, effectWeight]
    omega

theorem weight_foldl_carryOut (n : Nat) (l : Loop Routine) (es : List (Effect Routine)) :
    (es.foldl (carryOut n) l).weight = l.weight + total effectWeight es := by
  induction es generalizing l with
  | nil => rfl
  | cons e es ih => rw [List.foldl_cons, ih, weight_carryOut]; simp only [total]; omega

def moveWeight (m : Move Routine) : Nat :=
  total effectWeight m.effects + match m.pause with
    | .waits _ _ => 0
    | .givesWay r => 2 + Instruction.weights r.rest
    | .ends turns _ => turns - 3

theorem moveWeight_move_le (purpose : Purpose) (script : Script) :
    moveWeight (Routine.move purpose script) ≤ Instruction.weights script := by
  induction script with
  | nil => cases purpose with
    | body hasWaited => cases hasWaited <;> decide
    | handler => decide
  | cons i rest ih =>
    cases i with
    | say what =>
      simp only [moveWeight, Routine.move, total, effectWeight, Instruction.weights,
        Instruction.weight] at ih ⊢
      omega
    | suspend slot => exact Nat.zero_le _
    | giveWay =>
      simp only [moveWeight, Routine.move, total, Instruction.weights, Instruction.weight]
      omega
    | fail fault =>
      refine Nat.le_trans (Nat.le_of_eq ?_) (Nat.zero_le _)
      cases purpose with
      | body hasWaited => cases hasWaited <;> rfl
      | handler => rfl
    | spawn name body handler =>
      have hhandler : Instruction.handlerWeight ((handler.map Routine.handler).map Routine.rest) =
          Instruction.handlerWeight handler := by cases handler <;> rfl
      simp only [moveWeight, Routine.move, total, effectWeight, Instruction.weights,
        Instruction.weight, hhandler, Routine.body] at ih ⊢
      omega

def endWeight (t : Task Routine) : Part → Nat
  | .body => 5 + handlerWeight t
  | .handler => 1

theorem taskWeight_report (t : Task Routine) (part : Part) (result : Except Fault Unit)
    (turns : Nat) : taskWeight (t.report part result turns) + 1 = endWeight t part + turns := by
  cases part <;> cases turns <;>
    simp only [Task.report, taskWeight, stageWeight, endWeight, handlerWeight] <;> omega

theorem taskWeight_comeOut (t : Task Routine) (part : Part) (result : Except Fault Unit)
    (turns : Nat) : taskWeight (t.comeOut part result turns) + 1 = endWeight t part + turns := by
  cases part <;> exact taskWeight_report _ _ result turns

def turnedWeight (r : Turned Routine) : Nat :=
  taskWeight r.task + total effectWeight r.effects + match r.next with
    | .inLine => 1
    | .behind => 2
    | .slot _ | .nowhere => 0

theorem turnedWeight_act_le (t : Task Routine) (part : Part) (events : List TaskEvent)
    (r : Routine) :
    turnedWeight (t.act part events r) ≤ endWeight t part + 3 + Instruction.weights r.rest := by
  have hmove : moveWeight (Process.move r) ≤ Instruction.weights r.rest :=
    moveWeight_move_le r.purpose r.rest
  unfold Task.act
  generalize Process.move r = m at hmove ⊢
  obtain ⟨effects, pause⟩ := m
  cases pause with
  | waits slot rest =>
    cases part <;>
      simp only [moveWeight, turnedWeight, taskWeight, stageWeight] at hmove ⊢ <;> omega
  | givesWay rest =>
    cases part <;>
      simp only [moveWeight, turnedWeight, taskWeight, stageWeight, endWeight, handlerWeight]
        at hmove ⊢ <;> omega
  | ends turns result =>
    have hout := taskWeight_comeOut t part result turns
    simp only [moveWeight, turnedWeight] at hmove ⊢
    omega

theorem turnedWeight_hearBody_le (t : Task Routine) (result : Except Fault Unit) :
    turnedWeight (t.hearBody result) ≤ 4 + handlerWeight t := by
  obtain ⟨name, handler, stage, body, handling, done⟩ := t
  cases result with
  | ok _ => exact Nat.le_add_right_of_le (show 1 ≤ 4 by decide)
  | error fault =>
    cases handler with
    | none => exact Nat.le_add_right_of_le (show 3 ≤ 4 by decide)
    | some r => exact turnedWeight_act_le _ .handler _ (Process.handle r fault)

theorem turnedWeight_turn_le (t : Task Routine) : turnedWeight t.turn ≤ taskWeight t := by
  obtain ⟨name, handler, stage, body, handling, done⟩ := t
  cases stage with
  | starts r =>
    refine Nat.le_trans (turnedWeight_act_le _ .body _ r) ?_
    simp only [endWeight, taskWeight, stageWeight]
    omega
  | resumes part value r =>
    refine Nat.le_trans (turnedWeight_act_le _ part _ r) ?_
    cases part <;> simp only [endWeight, taskWeight, stageWeight] <;> omega
  | comesBack part r =>
    refine Nat.le_trans (turnedWeight_act_le _ part _ r) ?_
    cases part <;> simp only [endWeight, taskWeight, stageWeight] <;> omega
  | ended part turns result =>
    have hreport := taskWeight_report
      ⟨name, handler, .ended part turns result, body, handling, done⟩ part result turns
    cases part <;>
      simp only [Task.turn, turnedWeight, total, endWeight, taskWeight, stageWeight]
        at hreport ⊢ <;> omega
  | hears part result =>
    cases part with
    | body => exact turnedWeight_hearBody_le _ result
    | handler => cases result <;> exact Nat.le_refl _
  | waits part r => exact Nat.le_refl _
  | givesWay part r => exact Nat.le_refl _
  | settled => exact Nat.le_refl _

theorem weight_take_le (l : Loop Routine) (n : Nat) : (l.take n).weight ≤ l.weight := by
  unfold take
  split
  · exact Nat.le_refl _
  · rename_i t ht
    have hplace := weight_place_le
      (t.turn.effects.foldl (carryOut n) (l.record n t.turn)) n t.turn.next
    have hturn := turnedWeight_turn_le t
    have hset := total_set taskWeight ht t.turn.task
    rw [weight_foldl_carryOut] at hplace
    refine Nat.le_trans hplace ?_
    simp only [turnedWeight] at hturn
    simp only [weight, record]
    omega

theorem taskWeight_comeBack (t : Task Routine) : taskWeight t.comeBack = taskWeight t := by
  obtain ⟨name, handler, stage, body, handling, done⟩ := t
  cases stage with
  | givesWay part r => cases part <;> rfl
  | _ => rfl

theorem total_modify {α : Type} {f : α → Nat} {g : α → α} (h : ∀ a, f (g a) = f a) (as : List α)
    (n : Nat) : total f (as.modify n g) = total f as := by
  induction as generalizing n with
  | nil => rw [List.modify_nil]
  | cons a as ih =>
    cases n <;> simp only [List.modify_zero_cons, List.modify_succ_cons, total, h, ih]

theorem weight_letIn (l : Loop Routine) (w : Waiter) : (l.letIn w).weight ≤ l.weight + 1 := by
  cases w with
  | other what => exact Nat.le_succ _
  | task n =>
    show ((l.change n Task.comeBack).enqueue n).weight ≤ _
    rw [weight_enqueue]
    simp only [weight, change, total_modify taskWeight_comeBack]
    omega

theorem weight_lt_of_step {l next : Loop Routine} (h : l.step = some next) :
    next.weight < l.weight := by
  unfold step at h
  split at h
  · rename_i n ready hr
    have htake := weight_take_le { l with ready } n
    cases h
    simp only [weight, hr, List.length_cons] at htake ⊢
    omega
  · rename_i w waiters hr hw
    have hin := weight_letIn { l with waiters } w
    cases h
    simp only [weight, hr, hw, List.length_cons] at hin ⊢
    omega
  · nomatch h

/-- Runs until nothing is in line and nobody has given way. -/
def drain (l : Loop Routine) : Loop Routine :=
  match _h : l.step with
  | some next => next.drain
  | none => l
termination_by l.weight
decreasing_by exact weight_lt_of_step _h

end Loop

end AsmLens
