import AsmLens.Fault

/-!
# Suspension

A task waits for what comes from outside by handing out a callback. A `Slot` takes the first value
that the callback is given and no other. A `Suspension` is a slot together with the outcome that the
task sees: the first value, unless the operation that was to hand it out failed before.
-/

namespace AsmLens

/-- How something that is waited for has come out. -/
inductive Outcome (α : Type) where
  | pending
  | resolved (v : α)
  | rejected (fault : Fault)

namespace Outcome

def ofExcept {α : Type} : Except Fault α → Outcome α
  | .ok v => .resolved v
  | .error fault => .rejected fault

/-- An outcome after one more result: only the first one counts. -/
def settle {α : Type} (outcome next : Outcome α) : Outcome α :=
  match outcome with
  | .pending => next
  | outcome => outcome

theorem settle_of_ne_pending {α : Type} {outcome : Outcome α} (h : outcome ≠ .pending)
    (next : Outcome α) : outcome.settle next = outcome := by
  cases outcome with
  | pending => nomatch h rfl
  | _ => rfl

end Outcome

/-- A place for one value. -/
structure Slot (α : Type) where
  value : Option α := none

namespace Slot

variable {α : Type}

def isSettled (s : Slot α) : Bool := s.value.isSome

/-- Gives the slot a value; if it has one, this has no effect. -/
def complete (s : Slot α) (v : α) : Slot α := if s.isSettled then s else ⟨some v⟩

end Slot

/-- What an operation does when it is started: the values it gives its callback at once, and the
fault in which it then ends, if it does. -/
structure Operation (α : Type) where
  values : List α
  fault : Option Fault

/-- A task that waits for an operation to give a value. -/
structure Suspension (α : Type) where
  slot : Slot α := {}
  outcome : Outcome α := .pending

namespace Suspension

variable {α : Type}

def complete (s : Suspension α) (v : α) : Suspension α :=
  if s.slot.isSettled then s else ⟨s.slot.complete v, s.outcome.settle (.resolved v)⟩

def fail (s : Suspension α) (fault : Fault) : Suspension α :=
  { s with outcome := s.outcome.settle (.rejected fault) }

/-- Starts an operation and waits for it. -/
def start (op : Operation α) : Suspension α :=
  let s := op.values.foldl complete {}
  match op.fault with
  | some fault => s.fail fault
  | none => s

end Suspension

/-! ## Functions that take a callback -/

/-- What a function that takes a callback is called with. -/
inductive Argument (α : Type) where
  | given (a : α)
  /-- The callback of the call of this number. -/
  | callback (call : Nat)

structure WrappedCall (α β : Type) where
  arguments : List (Argument α)
  waiting : Suspension β := {}

/-- What happens around a wrapped function. What it does while a call is under way, such as calling
itself again or giving a value to the callback of an earlier call, happens between the call and its
end. -/
inductive CallEvent (α β : Type) where
  | call (arguments : List α)
  /-- The callback of a call is given a value, during the call or later. -/
  | complete (call : Nat) (v : β)
  | fail (call : Nat) (fault : Fault)

/-- A function that takes a callback behind its other arguments, wrapped so that its callers wait
for what the callback is given: all calls, by their numbers. -/
abbrev Wrapped (α β : Type) := List (WrappedCall α β)

namespace Wrapped

variable {α β : Type}

def take (calls : Wrapped α β) : CallEvent α β → Wrapped α β
  | .call arguments =>
    calls ++ [{ arguments := arguments.map .given ++ [.callback calls.length] }]
  | .complete call v => calls.modify call fun c => { c with waiting := c.waiting.complete v }
  | .fail call fault => calls.modify call fun c => { c with waiting := c.waiting.fail fault }

def ofEvents (events : List (CallEvent α β)) : Wrapped α β := events.foldl take []

end Wrapped

end AsmLens
