/-!
# Tables

A table is a list of keys with their values in the order in which the keys came. Putting a value
under a key that the table has replaces the old value where it stands; a new key goes to the end.
-/

namespace AsmLens

/-- Keys with their values, in the order in which the keys came. -/
abbrev Table (α β : Type) := List (α × β)

namespace Table

variable {α β : Type} [DecidableEq α]

def get? (t : Table α β) (a : α) : Option β :=
  match t with
  | [] => none
  | (k, b) :: t => if k = a then some b else get? t a

def put (t : Table α β) (a : α) (b : β) : Table α β :=
  match t with
  | [] => [(a, b)]
  | (k, c) :: t => if k = a then (k, b) :: t else (k, c) :: put t a b

def remove (t : Table α β) (a : α) : Table α β := t.filter fun entry => entry.1 ≠ a

theorem get?_put (t : Table α β) (a x : α) (b : β) :
    (t.put a b).get? x = if a = x then some b else t.get? x := by
  induction t with
  | nil => simp [put, get?]
  | cons entry t ih => by_cases h : entry.1 = a <;> by_cases hx : entry.1 = x <;> grind [put, get?]

theorem get?_remove (t : Table α β) (a x : α) :
    (t.remove a).get? x = if a = x then none else t.get? x := by
  induction t with
  | nil => simp [remove, get?]
  | cons entry t ih => by_cases h : entry.1 = a <;> by_cases hx : entry.1 = x <;> grind [remove,
  get?]

end Table

end AsmLens
