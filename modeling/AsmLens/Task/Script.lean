import AsmLens.Task.Basic

/-!
# Scripts

What a task does, as data: a list of instructions, carried out in order until one of them fails.
-/

namespace AsmLens

/-- What a task does next. -/
inductive Instruction where
  | say (what : Json)
  | suspend (slot : String)
  | giveWay
  | fail (fault : Fault)
  | spawn (name : String) (body : List Instruction) (handler : Option (List Instruction))
deriving Inhabited

abbrev Script := List Instruction

namespace Instruction

mutual

/-- A bound on the turns that an instruction can bring about. -/
def weight : Instruction → Nat
  | .say _ | .suspend _ | .fail _ => 0
  | .giveWay => 2
  | .spawn _ body handler => 9 + weights body + handlerWeight handler

def weights : List Instruction → Nat
  | [] => 0
  | i :: is => weight i + weights is

def handlerWeight : Option (List Instruction) → Nat
  | none => 0
  | some is => weights is

end

end Instruction

/-- What a script is for. -/
inductive Purpose where
  /-- It is the body of a task; `hasWaited` once it has waited. -/
  | body (hasWaited : Bool)
  | handler

/-- A script that is carried out for a task. -/
structure Routine where
  purpose : Purpose
  rest : Script

namespace Routine

def body (script : Script) : Routine := ⟨.body false, script⟩

def handler (script : Script) : Routine := ⟨.handler, script⟩

def waited : Purpose → Purpose
  | .body _ => .body true
  | .handler => .handler

/-- How many turns word of its end takes: one more when a body has not waited yet, and as many out
of a handler. -/
def turns : Purpose → Nat
  | .body true => 2
  | .body false | .handler => 3

def move (purpose : Purpose) : Script → Move Routine
  | [] => ⟨[], .ends (turns purpose) (.ok ())⟩
  | .say what :: rest =>
    let m := move purpose rest
    { m with effects := .say what :: m.effects }
  | .suspend slot :: rest => ⟨[], .waits slot ⟨waited purpose, rest⟩⟩
  | .giveWay :: rest => ⟨[], .givesWay ⟨waited purpose, rest⟩⟩
  | .fail fault :: _ => ⟨[], .ends (turns purpose) (.error fault)⟩
  | .spawn name script onFailure :: rest =>
    let m := move purpose rest
    { m with effects := .spawn name (body script) (onFailure.map handler) :: m.effects }

instance : Process Routine where
  move r := move r.purpose r.rest
  resume r _ := r
  handle r _ := r

end Routine

end AsmLens
