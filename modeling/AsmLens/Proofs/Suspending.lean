import AsmLens.Task.Suspension

/-!
# What is waited for comes out once

An operation that takes a callback may give it any number of values at once, then end in a fault or not, and give it any
number of values later. Three things each decide a part of what comes of this: the slot takes one value, the outcome is
settled once, and a fault of the operation comes between the values that it gives at once and the others. Together they
make the first of all these count and no other (`Outcome.first`).

A function that is wrapped waits in this way in each of its calls. What is told of the calls comes in any order, but a
call hears only what is told of itself (`Wrapped.getElem?_ofEvents`).
-/

namespace AsmLens

/-- How what is waited for comes out when the operation gives these values at once, ends in this fault, if it does, and
gives other values later. -/
def Outcome.first {α : Type} : List α → Option Fault → List α → Outcome α
  | v :: _, _, _ => .resolved v
  | [], some fault, _ => .rejected fault
  | [], none, v :: _ => .resolved v
  | [], none, [] => .pending

/-- What is told of one call: that its callback is given a value, or that the call has failed. -/
inductive CallNews (β : Type) where
  | given (v : β)
  | failed (fault : Fault)

/-- What is told of a call whose callback is given these values at once, which ends in this fault, if it does, and whose
callback is given other values later. -/
def CallNews.inOrder {β : Type} (values : List β) (fault : Option Fault) (later : List β) : List (CallNews β) :=
  values.map .given ++ fault.toList.map .failed ++ later.map .given

/-- What an event tells of the call of a number. -/
def CallEvent.news? {α β : Type} (k : Nat) : CallEvent α β → Option (CallNews β)
  | .call _ => none
  | .complete m v => if m = k then some (.given v) else none
  | .fail m fault => if m = k then some (.failed fault) else none

/-! ### One operation -/

namespace Suspension

variable {α : Type}

theorem complete_of_isSettled {s : Suspension α} (h : s.slot.isSettled = true) (v : α) : s.complete v = s :=
  if_pos h

theorem isSettled_complete (s : Suspension α) (v : α) : (s.complete v).slot.isSettled = true := by
  by_cases h : s.slot.isSettled = true
  · rw [complete_of_isSettled h]
    exact h
  · rw [complete, if_neg h, Slot.complete, if_neg h]
    rfl

/-- Of the values that a callback is given, the first counts and no other. -/
theorem foldl_complete_cons (s : Suspension α) (v : α) (vs : List α) :
    (v :: vs).foldl complete s = s.complete v := by
  induction vs with
  | nil => rfl
  | cons w vs ih => exact (congrArg (vs.foldl complete) (complete_of_isSettled (s.isSettled_complete v) w)).trans ih

theorem outcome_foldl_complete_start (op : Operation α) (later : List α) :
    (later.foldl complete (start op)).outcome = Outcome.first op.values op.fault later := by
  obtain ⟨values, fault⟩ := op
  cases values with
  | cons v vs =>
    have hstart : start ⟨v :: vs, fault⟩ = ⟨⟨some v⟩, .resolved v⟩ := by
      unfold start
      rw [foldl_complete_cons]
      cases fault <;> rfl
    rw [hstart]
    cases later with
    | nil => rfl
    | cons w ws => rw [foldl_complete_cons]; rfl
  | nil =>
    cases later with
    | nil => cases fault <;> rfl
    | cons w ws => rw [foldl_complete_cons]; cases fault <;> rfl

def hear (s : Suspension α) : CallNews α → Suspension α
  | .given v => s.complete v
  | .failed fault => s.fail fault

theorem foldl_hear (values : List α) (fault : Option Fault) (later : List α) :
    (CallNews.inOrder values fault later).foldl hear {} = later.foldl complete (start ⟨values, fault⟩) := by
  rw [CallNews.inOrder, List.foldl_append, List.foldl_append, List.foldl_map, List.foldl_map, List.foldl_map]
  cases fault <;> rfl

end Suspension

/-! ### The calls of a wrapped function -/

namespace Wrapped

variable {α β : Type}

theorem getElem?_take {calls : Wrapped α β} {k : Nat} {c : WrappedCall α β} (hc : calls[k]? = some c)
    (e : CallEvent α β) :
    (calls.take e)[k]? = some { c with waiting := (e.news? k).elim c.waiting c.waiting.hear } := by
  cases e with
  | call arguments => exact (List.getElem?_append_left (List.getElem?_eq_some_iff.1 hc).1).trans hc
  | complete call v =>
    rw [take, List.getElem?_modify, hc, CallEvent.news?]
    split <;> rfl
  | fail call fault =>
    rw [take, List.getElem?_modify, hc, CallEvent.news?]
    split <;> rfl

theorem getElem?_foldl_take {calls : Wrapped α β} {k : Nat} {c : WrappedCall α β} (hc : calls[k]? = some c)
    (events : List (CallEvent α β)) :
    (events.foldl take calls)[k]? =
      some { c with waiting := (events.filterMap (CallEvent.news? k)).foldl Suspension.hear c.waiting } := by
  induction events generalizing calls c with
  | nil => exact hc
  | cons e events ih =>
    rw [List.foldl_cons, ih (getElem?_take hc e), List.filterMap_cons]
    cases e.news? k <;> rfl

/-- A call is made with the arguments that the caller gives and a callback of its own, and hears what is told of it. -/
theorem getElem?_ofEvents (before : List (CallEvent α β)) (arguments : List α) (after : List (CallEvent α β)) :
    (ofEvents (before ++ .call arguments :: after))[(ofEvents before).length]? = some
      { arguments := arguments.map .given ++ [.callback (ofEvents before).length]
        waiting := (after.filterMap (CallEvent.news? (ofEvents before).length)).foldl Suspension.hear {} } := by
  rw [ofEvents, List.foldl_append, List.foldl_cons]
  exact getElem?_foldl_take List.getElem?_concat_length after

/-- The first outcome counts and no other. Whatever values an operation gives its callback at once, whether and how it
fails then, and whatever values the callback is given later: a first value that comes at once is what comes out,
whatever fails after it; else the fault, whatever comes later; else the first value that comes later; else nothing comes
out. A call of a wrapped function is made with the arguments as they are and a callback behind them, and comes out by
the same rule from what is told of it alone, whatever is told of other calls before, meanwhile and after. -/
theorem first_outcome_counts :
    (∀ (op : Operation β) (later : List β),
      (later.foldl Suspension.complete (Suspension.start op)).outcome = Outcome.first op.values op.fault later) ∧
    ∀ (before : List (CallEvent α β)) (arguments : List α) (after : List (CallEvent α β)),
      ∃ call, (ofEvents (before ++ .call arguments :: after))[(ofEvents before).length]? = some call ∧
        call.arguments = arguments.map .given ++ [.callback (ofEvents before).length] ∧
        ∀ (values : List β) (fault : Option Fault) (later : List β),
          after.filterMap (CallEvent.news? (ofEvents before).length) = CallNews.inOrder values fault later →
          call.waiting.outcome = Outcome.first values fault later := by
  refine ⟨Suspension.outcome_foldl_complete_start, fun before arguments after => ?_⟩
  refine ⟨_, getElem?_ofEvents before arguments after, rfl, fun values fault later hnews => ?_⟩
  rw [hnews, Suspension.foldl_hear]
  exact Suspension.outcome_foldl_complete_start ⟨values, fault⟩ later

/-- Two calls at a time: the second one fails and is given a value later, and the first one is given two. -/
theorem two_calls_come_out_apart :
    let calls : Wrapped String Nat := ofEvents
      [.call ["a"], .call ["b", "c"], .complete 0 7, .fail 1 .nothing, .complete 1 8, .complete 0 9]
    (∃ call, calls[0]? = some call ∧ call.arguments = [.given "a", .callback 0] ∧ call.waiting.outcome = .resolved 7) ∧
      ∃ call, calls[1]? = some call ∧ call.arguments = [.given "b", .given "c", .callback 1] ∧
        call.waiting.outcome = .rejected .nothing := by
  intro calls
  obtain ⟨call₀, hcall₀, harguments₀, hrule₀⟩ := (first_outcome_counts (α := String) (β := Nat)).2
    [] ["a"] [.call ["b", "c"], .complete 0 7, .fail 1 .nothing, .complete 1 8, .complete 0 9]
  obtain ⟨call₁, hcall₁, harguments₁, hrule₁⟩ := (first_outcome_counts (α := String) (β := Nat)).2
    [.call ["a"]] ["b", "c"] [.complete 0 7, .fail 1 .nothing, .complete 1 8, .complete 0 9]
  exact ⟨⟨call₀, hcall₀, harguments₀, hrule₀ [7] none [9] rfl⟩,
    call₁, hcall₁, harguments₁, hrule₁ [] (some .nothing) [8] rfl⟩

end Wrapped

end AsmLens
