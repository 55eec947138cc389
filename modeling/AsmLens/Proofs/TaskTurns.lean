import AsmLens.Task.Loop
import Mathlib.Data.List.Basic
import Mathlib.Order.Filter.AtTopBot.Basic

/-!
# What a loop does to one task

Whatever happens in a loop, one task sees little of it: it is started, it has its turn, or a part of it comes in
line again after it waited or gave way (`Task.Goes`, `Loop.perform_goes`). The tasks in line have their turns in
order, so as long as the loop takes steps each of them has its turn at last, and until then nothing happens to it
(`Loop.turn_comes`).
-/

namespace AsmLens

open Filter

/-- What an event tells of the task of a number. -/
def LoopEvent.about? (n : Nat) : LoopEvent → Option TaskEvent
  | .task m e => if m = n then some e else none
  | .passed _ | .noSlot _ => none

def Effect.told? {σ : Type} : Effect σ → Option TaskEvent
  | .say what => some (.said what)
  | .spawn _ _ _ => none

def Turned.told {σ : Type} (r : Turned σ) : List TaskEvent := r.events ++ r.effects.filterMap Effect.told?

namespace Stage

variable {σ : Type}

def isInLine : Stage σ → Bool
  | .starts _ | .resumes _ _ _ | .comesBack _ _ | .ended _ _ _ | .hears _ _ => true
  | .waits _ _ | .givesWay _ _ | .settled => false

end Stage

/-! ### One task -/

namespace Task

variable {σ : Type} [Process σ] {t : Task σ}

/-- All that can happen to one task at once, with what is told of it. -/
inductive Goes : Option (Task σ) → List TaskEvent → Option (Task σ) → Prop where
  | rests (t : Option (Task σ)) : Goes t [] t
  | begins (name : String) (body : σ) (handler : Option σ) :
      Goes none [.spawned] (some (.begin name body handler))
  | turns (t : Task σ) : Goes (some t) t.turn.told (some t.turn.task)
  | waited {t : Task σ} {part : Part} {process : σ} (hstage : t.stage = .waits part process) (value : Option Json) :
      Goes (some t) [] (some { t with stage := .resumes part value (Process.resume process value) })
  | gaveWay {t : Task σ} {part : Part} {process : σ} (hstage : t.stage = .givesWay part process) :
      Goes (some t) [] (some { t with stage := .comesBack part process })

theorem resume_goes (t : Task σ) (value : Option Json) : Goes (some t) [] (some (t.resume value)) := by
  unfold resume
  split
  · exact .waited ‹_› value
  · exact .rests _

theorem comeBack_goes (t : Task σ) : Goes (some t) [] (some t.comeBack) := by
  unfold comeBack
  split
  · exact .gaveWay ‹_›
  · exact .rests _

theorem resume_of_isInLine (h : t.stage.isInLine = true) (value : Option Json) : t.resume value = t := by
  obtain ⟨name, handler, stage, body, handling, done⟩ := t
  cases stage with
  | waits part process => nomatch h
  | _ => rfl

theorem next_act (t : Task σ) (part : Part) (events : List TaskEvent) (process : σ)
    (h : (t.act part events process).task.stage.isInLine = true) :
    (t.act part events process).next = .inLine := by
  unfold act at h ⊢
  generalize Process.move process = m at h ⊢
  obtain ⟨effects, pause⟩ := m
  cases pause with
  | waits slot rest => nomatch h
  | givesWay rest => nomatch h
  | ends turns result => rfl

theorem next_turn (h : t.turn.task.stage.isInLine = true) : t.turn.next = .inLine := by
  obtain ⟨name, handler, stage, body, handling, done⟩ := t
  cases stage with
  | starts process => exact next_act _ _ _ _ h
  | resumes part value process => exact next_act _ _ _ _ h
  | comesBack part process => exact next_act _ _ _ _ h
  | ended part turns result => rfl
  | hears part result =>
    cases part with
    | body =>
      cases result with
      | ok _ => rfl
      | error fault =>
        cases handler with
        | none => rfl
        | some process => exact next_act _ _ _ _ h
    | handler => cases result <;> nomatch h
  | _ => nomatch h

end Task

namespace Loop

variable {σ : Type} {l : Loop σ} {n m : Nat} {t : Task σ}

/-- What is told of a task. -/
def told (l : Loop σ) (n : Nat) : List TaskEvent := l.events.filterMap (LoopEvent.about? n)

theorem told_present_self (l : Loop σ) (n : Nat) (e : TaskEvent) :
    (l.present (.task n e)).told n = l.told n ++ [e] := by
  simp [told, present, LoopEvent.about?]

theorem told_present_of_ne (l : Loop σ) (hne : m ≠ n) (e : TaskEvent) :
    (l.present (.task m e)).told n = l.told n := by
  simp [told, present, LoopEvent.about?, hne]

/-! ### Tasks that are started, from outside or by others -/

theorem spawn_of_some (l : Loop σ) (ht : l.tasks[n]? = some t) (name : String) (body : σ) (handler : Option σ) :
    (l.spawn name body handler).2.tasks[n]? = some t ∧ (l.spawn name body handler).2.told n = l.told n := by
  have hlt : n < l.tasks.length := (List.getElem?_eq_some_iff.1 ht).1
  exact ⟨(List.getElem?_append_left hlt).trans ht, told_present_of_ne _ (Nat.ne_of_gt hlt) .spawned⟩

theorem spawn_of_none (l : Loop σ) (hn : l.tasks[n]? = none) (name : String) (body : σ) (handler : Option σ) :
    ((l.spawn name body handler).2.tasks[n]? = some (.begin name body handler) ∧
      (l.spawn name body handler).2.told n = l.told n ++ [.spawned]) ∨
    ((l.spawn name body handler).2.tasks[n]? = none ∧ (l.spawn name body handler).2.told n = l.told n) := by
  rcases Nat.eq_or_lt_of_le (List.getElem?_eq_none_iff.1 hn) with rfl | hlt
  · exact .inl ⟨List.getElem?_concat_length, told_present_self _ _ .spawned⟩
  · refine .inr ⟨List.getElem?_eq_none_iff.2 ?_, told_present_of_ne _ (Nat.ne_of_lt hlt) .spawned⟩
    exact Nat.le_trans (Nat.le_of_eq List.length_append) hlt

theorem foldl_carryOut_of_some (l : Loop σ) (ht : l.tasks[n]? = some t) (es : List (Effect σ)) :
    (es.foldl (carryOut m) l).tasks[n]? = some t ∧
      (es.foldl (carryOut m) l).told n = l.told n ++ if m = n then es.filterMap Effect.told? else [] := by
  induction es generalizing l with
  | nil => simp [ht]
  | cons e es ih =>
    cases e with
    | say what =>
      obtain ⟨htasks, hall⟩ := ih (l.present (.task m (.said what))) ht
      refine ⟨htasks, hall.trans ?_⟩
      by_cases hmn : m = n
      · subst hmn
        simp [told_present_self, Effect.told?]
      · simp [told_present_of_ne l hmn, hmn]
    | spawn name body handler =>
      obtain ⟨htask, htold⟩ := l.spawn_of_some ht name body handler
      obtain ⟨htasks, hall⟩ := ih _ htask
      exact ⟨htasks, hall.trans (by rw [htold]; rfl)⟩

section

variable [Process σ]

theorem foldl_carryOut_of_none (l : Loop σ) (hn : l.tasks[n]? = none) (hne : m ≠ n) (es : List (Effect σ)) :
    ∃ told, Task.Goes none told (es.foldl (carryOut m) l).tasks[n]? ∧
      (es.foldl (carryOut m) l).told n = l.told n ++ told := by
  induction es generalizing l with
  | nil => exact ⟨[], hn ▸ .rests none, (List.append_nil _).symm⟩
  | cons e es ih =>
    cases e with
    | say what =>
      obtain ⟨told, hgoes, htold⟩ := ih (l.present (.task m (.said what))) hn
      exact ⟨told, hgoes, htold.trans (by rw [l.told_present_of_ne hne])⟩
    | spawn name body handler =>
      rcases l.spawn_of_none hn name body handler with ⟨htask, htold⟩ | ⟨hnone, htold⟩
      · obtain ⟨htasks, hall⟩ := foldl_carryOut_of_some (m := m) _ htask es
        rw [if_neg hne, List.append_nil, htold] at hall
        exact ⟨[.spawned], htasks ▸ .begins name body handler, hall⟩
      · obtain ⟨told, hgoes, hall⟩ := ih _ hnone
        exact ⟨told, hgoes, hall.trans (by rw [htold])⟩

end

/-! ### Turns -/

theorem tasks_place (l : Loop σ) (n : Nat) (next : Next) : (l.place n next).tasks = l.tasks := by
  cases next <;> rfl

theorem told_place (l : Loop σ) (m n : Nat) (next : Next) : (l.place m next).told n = l.told n := by
  cases next <;> rfl

theorem told_record (l : Loop σ) (m n : Nat) (r : Turned σ) :
    (l.record m r).told n = l.told n ++ if m = n then r.events else [] := by
  by_cases hmn : m = n <;> simp [told, record, LoopEvent.about?, Function.comp_def, hmn]

variable [Process σ]

theorem take_self (ht : l.tasks[n]? = some t) :
    (l.take n).tasks[n]? = some t.turn.task ∧ (l.take n).told n = l.told n ++ t.turn.told := by
  have hlt : n < l.tasks.length := (List.getElem?_eq_some_iff.1 ht).1
  have htask : (l.record n t.turn).tasks[n]? = some t.turn.task := List.getElem?_set_self hlt
  obtain ⟨htasks, hall⟩ := foldl_carryOut_of_some (m := n) _ htask t.turn.effects
  rw [told_record, if_pos rfl, if_pos rfl, List.append_assoc] at hall
  unfold take
  rw [ht]
  exact ⟨(congrArg (·[n]?) (tasks_place _ _ _)).trans htasks, (told_place _ _ _ _).trans hall⟩

theorem take_of_some (hn : l.tasks[n]? = some t) (hne : m ≠ n) :
    (l.take m).tasks[n]? = some t ∧ (l.take m).told n = l.told n := by
  unfold take
  split
  · exact ⟨hn, rfl⟩
  · rename_i t' ht'
    have htask : (l.record m t'.turn).tasks[n]? = some t := (List.getElem?_set_ne hne).trans hn
    obtain ⟨htasks, hall⟩ := foldl_carryOut_of_some (m := m) _ htask t'.turn.effects
    rw [told_record, if_neg hne, if_neg hne, List.append_nil, List.append_nil] at hall
    exact ⟨(congrArg (·[n]?) (tasks_place _ _ _)).trans htasks, (told_place _ _ _ _).trans hall⟩

theorem take_of_none (l : Loop σ) (hn : l.tasks[n]? = none) (m : Nat) :
    ∃ told, Task.Goes none told (l.take m).tasks[n]? ∧ (l.take m).told n = l.told n ++ told := by
  unfold take
  split
  · exact ⟨[], hn ▸ .rests none, (List.append_nil _).symm⟩
  · rename_i t' ht'
    have hne : m ≠ n := by
      rintro rfl
      nomatch hn.symm.trans ht'
    have htask : (l.record m t'.turn).tasks[n]? = none := (List.getElem?_set_ne hne).trans hn
    obtain ⟨told, hgoes, hall⟩ := foldl_carryOut_of_none _ htask hne t'.turn.effects
    rw [told_record, if_neg hne, List.append_nil] at hall
    exact ⟨told, by rw [tasks_place]; exact hgoes, (told_place _ _ _ _).trans hall⟩

/-! ### Whatever happens -/

end Loop

/-- What happens to a loop: something is asked of it from outside, or it takes a step. -/
inductive LoopAct (σ : Type) where
  | spawn (name : String) (body : σ) (handler : Option σ)
  /-- Something that is not a task is to have its turn. -/
  | post (what : Json)
  | complete (slot : String) (value : Option Json)
  | step

namespace Loop

variable {σ : Type} {l : Loop σ} {n m : Nat} {t : Task σ}

section

variable [Process σ]

def perform (l : Loop σ) : LoopAct σ → Loop σ
  | .spawn name body handler => (l.spawn name body handler).2
  | .post what => l.post what
  | .complete slot value => l.complete slot value
  | .step => l.step.getD l

/-- A loop that was empty at first, after as many things as `i` have happened. -/
def after (acts : Nat → LoopAct σ) : Nat → Loop σ
  | 0 => {}
  | i + 1 => (after acts i).perform (acts i)

theorem step_cases (l : Loop σ) :
    (∃ m ready, l.ready = m :: ready ∧ l.perform .step = { l with ready }.take m) ∨
    (∃ w waiters, l.ready = [] ∧ l.perform .step = { l with waiters }.letIn w) ∨
    (l.ready = [] ∧ l.perform .step = l) := by
  unfold perform step
  cases hready : l.ready with
  | cons m ready => exact .inl ⟨m, ready, rfl, rfl⟩
  | nil =>
    cases hwaiters : l.waiters with
    | cons w waiters => exact .inr (.inl ⟨w, waiters, rfl, rfl⟩)
    | nil => exact .inr (.inr ⟨rfl, rfl⟩)

/-- A change of one task, as all tasks see it. -/
theorem change_goes {f : Task σ → Task σ} (hf : ∀ t : Task σ, Task.Goes (some t) [] (some (f t))) (l : Loop σ)
    (m n : Nat) : Task.Goes l.tasks[n]? [] (l.change m f).tasks[n]? := by
  unfold change
  rw [List.getElem?_modify]
  cases l.tasks[n]? with
  | none => exact .rests none
  | some t =>
    show Task.Goes (some t) [] (some (if m = n then f t else t))
    split
    · exact hf t
    · exact .rests _

theorem spawn_goes (l : Loop σ) (n : Nat) (name : String) (body : σ) (handler : Option σ) :
    ∃ told, Task.Goes l.tasks[n]? told (l.spawn name body handler).2.tasks[n]? ∧
      (l.spawn name body handler).2.told n = l.told n ++ told := by
  cases hn : l.tasks[n]? with
  | none =>
    rcases l.spawn_of_none hn name body handler with ⟨htask, htold⟩ | ⟨hnone, htold⟩
    · exact ⟨[.spawned], htask ▸ .begins name body handler, htold⟩
    · exact ⟨[], hnone ▸ .rests none, htold.trans (List.append_nil _).symm⟩
  | some t =>
    obtain ⟨htask, htold⟩ := l.spawn_of_some hn name body handler
    exact ⟨[], htask ▸ .rests _, htold.trans (List.append_nil _).symm⟩

theorem complete_goes (l : Loop σ) (n : Nat) (slot : String) (value : Option Json) :
    Task.Goes l.tasks[n]? [] (l.complete slot value).tasks[n]? ∧ (l.complete slot value).told n = l.told n := by
  unfold complete
  split
  · exact ⟨.rests _, by simp [told, present, LoopEvent.about?]⟩
  · exact ⟨.rests _, rfl⟩
  · exact ⟨change_goes (f := (Task.resume · value)) (fun t => t.resume_goes value) _ _ n, rfl⟩

theorem letIn_goes (l : Loop σ) (n : Nat) (w : Waiter) :
    Task.Goes l.tasks[n]? [] (l.letIn w).tasks[n]? ∧ (l.letIn w).told n = l.told n := by
  cases w with
  | other what => exact ⟨.rests _, by simp [told, letIn, present, LoopEvent.about?]⟩
  | task m => exact ⟨change_goes Task.comeBack_goes l m n, rfl⟩

theorem take_goes (l : Loop σ) (m n : Nat) :
    ∃ told, Task.Goes l.tasks[n]? told (l.take m).tasks[n]? ∧ (l.take m).told n = l.told n ++ told := by
  cases hn : l.tasks[n]? with
  | none => exact l.take_of_none hn m
  | some t =>
    by_cases hne : m = n
    · subst hne
      obtain ⟨htask, htold⟩ := take_self hn
      exact ⟨_, htask ▸ .turns t, htold⟩
    · obtain ⟨htask, htold⟩ := take_of_some hn hne
      exact ⟨[], htask ▸ .rests _, htold.trans (List.append_nil _).symm⟩

/-- Whatever happens to a loop, this is what happens to one task. -/
theorem perform_goes (l : Loop σ) (a : LoopAct σ) (n : Nat) :
    ∃ told, Task.Goes l.tasks[n]? told (l.perform a).tasks[n]? ∧ (l.perform a).told n = l.told n ++ told := by
  cases a with
  | spawn name body handler => exact l.spawn_goes n name body handler
  | post what => exact ⟨[], .rests _, (List.append_nil _).symm⟩
  | complete slot value =>
    obtain ⟨hgoes, htold⟩ := l.complete_goes n slot value
    exact ⟨[], hgoes, htold.trans (List.append_nil _).symm⟩
  | step =>
    obtain ⟨m, ready, -, hstep⟩ | ⟨w, waiters, -, hstep⟩ | ⟨-, hstep⟩ := l.step_cases
    · rw [hstep]
      exact take_goes { l with ready } m n
    · rw [hstep]
      obtain ⟨hgoes, htold⟩ := letIn_goes { l with waiters } n w
      exact ⟨[], hgoes, htold.trans (List.append_nil _).symm⟩
    · rw [hstep]
      exact ⟨[], .rests _, (List.append_nil _).symm⟩

end

/-! ### Tasks in line -/

/-- Each task that is to have a turn is in line. -/
def Queued (l : Loop σ) : Prop := ∀ n t, l.tasks[n]? = some t → t.stage.isInLine = true → n ∈ l.ready

theorem change_of_eq {f : Task σ → Task σ} (ht : l.tasks[n]? = some t) (hf : f t = t) (m : Nat) :
    (l.change m f).tasks[n]? = some t := by
  unfold change
  rw [List.getElem?_modify, ht]
  simp [hf]

theorem Queued.change (hl : l.Queued) (m : Nat) (f : Task σ → Task σ) : ((l.change m f).enqueue m).Queued := by
  intro n t ht hline
  show n ∈ l.ready ++ [m]
  by_cases hne : m = n
  · exact List.mem_append_right _ (List.mem_singleton.2 hne.symm)
  · have htask : l.tasks[n]? = some t := by
      have hmodify : (l.tasks.modify m f)[n]? = l.tasks[n]? := by
        rw [List.getElem?_modify]
        simp [hne]
      exact hmodify.symm.trans ht
    exact List.mem_append_left _ (hl n t htask hline)

theorem foldl_carryOut_ready (m : Nat) (l : Loop σ) (es : List (Effect σ)) :
    ∃ new, (es.foldl (carryOut m) l).ready = l.ready ++ new ∧
      ∀ n, l.tasks.length ≤ n → n < (es.foldl (carryOut m) l).tasks.length → n ∈ new := by
  induction es generalizing l with
  | nil => exact ⟨[], (List.append_nil _).symm, fun n hle hlt => absurd hlt (Nat.not_lt.2 hle)⟩
  | cons e es ih =>
    cases e with
    | say what => exact ih (l.present (.task m (.said what)))
    | spawn name body handler =>
      obtain ⟨new, hready, hnew⟩ := ih (l.spawn name body handler).2
      refine ⟨l.tasks.length :: new, hready.trans (List.append_assoc _ [_] _), fun n hle hlt => ?_⟩
      rcases Nat.eq_or_lt_of_le hle with rfl | hlt'
      · exact List.mem_cons_self
      · exact List.mem_cons_of_mem _ (hnew n (Nat.le_trans (Nat.le_of_eq List.length_append) hlt') hlt)

variable [Process σ]

theorem take_ready (l : Loop σ) (m : Nat) :
    ∃ new, (l.take m).ready = l.ready ++ new ∧
      (∀ n, l.tasks.length ≤ n → n < (l.take m).tasks.length → n ∈ new) ∧
      ∀ t, l.tasks[m]? = some t → t.turn.next = .inLine → m ∈ new := by
  unfold take
  split
  · rename_i hm
    exact ⟨[], (List.append_nil _).symm, fun n hle hlt => absurd hlt (Nat.not_lt.2 hle),
      fun t ht => nomatch hm.symm.trans ht⟩
  · rename_i t ht
    obtain ⟨new, hready, hnew⟩ := foldl_carryOut_ready m (l.record m t.turn) t.turn.effects
    rw [tasks_place]
    have hstarted : ∀ n, l.tasks.length ≤ n →
        n < (t.turn.effects.foldl (carryOut m) (l.record m t.turn)).tasks.length → n ∈ new :=
      fun n hle => hnew n (Nat.le_trans (Nat.le_of_eq List.length_set) hle)
    generalize t.turn.effects.foldl (carryOut m) (l.record m t.turn) = l₁ at hready hstarted
    cases hnext : t.turn.next with
    | inLine =>
      refine ⟨new ++ [m], ?_, fun n hle hlt => List.mem_append_left _ (hstarted n hle hlt), fun _ _ _ => by simp⟩
      show l₁.ready ++ [m] = _
      rw [hready, List.append_assoc]
      rfl
    | _ =>
      refine ⟨new, hready, hstarted, fun t' ht' h => ?_⟩
      cases ht.symm.trans ht'
      nomatch hnext.symm.trans h

theorem Queued.take {ready : List Nat} (hl : l.Queued) (hready : l.ready = m :: ready) :
    ({ l with ready }.take m).Queued := by
  intro n t ht hline
  obtain ⟨new, htaken, hstarted, hturned⟩ := take_ready { l with ready } m
  rw [htaken]
  cases hn : l.tasks[n]? with
  | none =>
    exact List.mem_append_right _
      (hstarted n (List.getElem?_eq_none_iff.1 hn) (List.getElem?_eq_some_iff.1 ht).1)
  | some t₀ =>
    by_cases hne : m = n
    · subst hne
      obtain ⟨htask, -⟩ := take_self (l := { l with ready }) hn
      cases htask.symm.trans ht
      exact List.mem_append_right _ (hturned t₀ hn (Task.next_turn hline))
    · obtain ⟨htask, -⟩ := take_of_some (l := { l with ready }) hn hne
      cases htask.symm.trans ht
      have hmem := hl n t hn hline
      rw [hready] at hmem
      exact List.mem_append_left _ ((List.mem_cons.1 hmem).resolve_left fun h => hne h.symm)

/-- Whatever happens, each task that is to have a turn is in line. -/
theorem Queued.perform (hl : l.Queued) (a : LoopAct σ) : (l.perform a).Queued := by
  cases a with
  | spawn name body handler =>
    intro n t ht hline
    show n ∈ l.ready ++ [l.tasks.length]
    rcases Nat.lt_or_ge n l.tasks.length with hlt | hle
    · exact List.mem_append_left _ (hl n t ((List.getElem?_append_left hlt).symm.trans ht) hline)
    · have hlt : n < (l.tasks ++ [Task.begin name body handler]).length := (List.getElem?_eq_some_iff.1 ht).1
      rw [List.length_append, List.length_singleton] at hlt
      exact List.mem_append_right _ (List.mem_singleton.2 (Nat.le_antisymm (Nat.le_of_lt_succ hlt) hle))
  | post what => exact hl
  | complete slot value =>
    show (l.complete slot value).Queued
    unfold complete
    split
    · exact hl
    · exact hl
    · exact Queued.change (l := { l with slots := l.slots.put slot none }) hl _ _
  | step =>
    obtain ⟨m, ready, hready, hstep⟩ | ⟨w, waiters, -, hstep⟩ | ⟨-, hstep⟩ := l.step_cases
    · rw [hstep]
      exact hl.take hready
    · rw [hstep]
      cases w with
      | other what => exact hl
      | task m => exact Queued.change (l := { l with waiters }) hl m Task.comeBack
    · rw [hstep]
      exact hl

/-- Whatever happens, a task in line has its turn, or nothing happens to it and it keeps its place in line. With each
step it comes forward. -/
theorem Queued.turns_or_waits (hl : l.Queued) (ht : l.tasks[n]? = some t) (hline : t.stage.isInLine = true)
    (a : LoopAct σ) :
    ((l.perform a).tasks[n]? = some t.turn.task ∧ (l.perform a).told n = l.told n ++ t.turn.told) ∨
    ((l.perform a).tasks[n]? = some t ∧ (l.perform a).told n = l.told n ∧
      (l.perform a).ready.idxOf n ≤ l.ready.idxOf n ∧
      (a = .step → (l.perform a).ready.idxOf n < l.ready.idxOf n)) := by
  have hmem : n ∈ l.ready := hl n t ht hline
  have hbehind : ∀ m, (l.ready ++ [m]).idxOf n ≤ l.ready.idxOf n :=
    fun m => Nat.le_of_eq (List.idxOf_append_of_mem hmem)
  cases a with
  | spawn name body handler =>
    obtain ⟨htask, htold⟩ := l.spawn_of_some ht name body handler
    exact .inr ⟨htask, htold, hbehind _, fun h => nomatch h⟩
  | post what => exact .inr ⟨ht, rfl, Nat.le_refl _, fun h => nomatch h⟩
  | complete slot value =>
    refine .inr ⟨?_, (l.complete_goes n slot value).2, ?_, fun h => nomatch h⟩
    · show (l.complete slot value).tasks[n]? = _
      unfold complete
      split
      · exact ht
      · exact ht
      · exact change_of_eq ht (Task.resume_of_isInLine hline value) _
    · show (l.complete slot value).ready.idxOf n ≤ _
      unfold complete
      split
      · exact Nat.le_refl _
      · exact Nat.le_refl _
      · exact hbehind _
  | step =>
    obtain ⟨m, ready, hready, hstep⟩ | ⟨w, waiters, hready, -⟩ | ⟨hready, -⟩ := l.step_cases
    · rw [hstep]
      by_cases hne : m = n
      · subst hne
        exact .inl (take_self (l := { l with ready }) ht)
      · obtain ⟨htask, htold⟩ := take_of_some (l := { l with ready }) ht hne
        obtain ⟨new, htaken, -⟩ := take_ready { l with ready } m
        have hmem' : n ∈ ready := (List.mem_cons.1 (hready ▸ hmem)).resolve_left fun h => hne h.symm
        have hplace : ({ l with ready }.take m).ready.idxOf n + 1 = l.ready.idxOf n := by
          rw [htaken, hready, List.idxOf_append_of_mem hmem', List.idxOf_cons_ne _ hne]
        exact .inr ⟨htask, htold, Nat.le_of_succ_le (Nat.le_of_eq hplace), fun _ => Nat.le_of_eq hplace⟩
    · rw [hready] at hmem
      nomatch hmem
    · rw [hready] at hmem
      nomatch hmem

/-! ### Runs without end -/

variable {acts : Nat → LoopAct σ} {i : Nat}

theorem queued_after (acts : Nat → LoopAct σ) (i : Nat) : (after acts i).Queued := by
  induction i with
  | zero => exact fun n t ht => nomatch ht
  | succ i ih => exact ih.perform (acts i)

theorem turns_before_or_waits (ht : (after acts i).tasks[n]? = some t) (hline : t.stage.isInLine = true) {j : Nat}
    (hij : i ≤ j) :
    (∃ k, i ≤ k ∧ k < j ∧ (after acts (k + 1)).tasks[n]? = some t.turn.task ∧
      (after acts (k + 1)).told n = (after acts i).told n ++ t.turn.told) ∨
    ((after acts j).tasks[n]? = some t ∧ (after acts j).told n = (after acts i).told n ∧
      (after acts j).ready.idxOf n ≤ (after acts i).ready.idxOf n) := by
  induction j, hij using Nat.le_induction with
  | base => exact .inr ⟨ht, rfl, Nat.le_refl _⟩
  | succ j hij ih =>
    rcases ih with ⟨k, hik, hkj, hturned⟩ | ⟨htask, htold, hplace⟩
    · exact .inl ⟨k, hik, Nat.lt_succ_of_lt hkj, hturned⟩
    · rcases (queued_after acts j).turns_or_waits htask hline (acts j) with
        ⟨htask', htold'⟩ | ⟨htask', htold', hplace', -⟩
      · exact .inl ⟨j, hij, Nat.lt_succ_self j, htask', htold ▸ htold'⟩
      · exact .inr ⟨htask', htold'.trans htold, Nat.le_trans hplace' hplace⟩

/-- As long as a loop takes steps, each task in line has its turn at last. -/
theorem turn_comes (hsteps : ∃ᶠ j in atTop, acts j = .step) (ht : (after acts i).tasks[n]? = some t)
    (hline : t.stage.isInLine = true) :
    ∃ j, i ≤ j ∧ (after acts (j + 1)).tasks[n]? = some t.turn.task ∧
      (after acts (j + 1)).told n = (after acts i).told n ++ t.turn.told := by
  -- With each step the task comes forward by one place at least.
  induction hplace : (after acts i).ready.idxOf n using Nat.strongRecOn generalizing i with
  | ind place ih =>
    obtain ⟨j, hij, hstep⟩ := frequently_atTop.1 hsteps i
    rcases turns_before_or_waits ht hline hij with ⟨k, hik, -, hturned⟩ | ⟨htask, htold, hj⟩
    · exact ⟨k, hik, hturned⟩
    · rcases (queued_after acts j).turns_or_waits htask hline (acts j) with
        ⟨htask', htold'⟩ | ⟨htask', htold', -, hforward⟩
      · exact ⟨j, hij, htask', htold ▸ htold'⟩
      · have hlt : (after acts (j + 1)).ready.idxOf n < place :=
          Nat.lt_of_lt_of_le (hforward hstep) (hplace ▸ hj)
        obtain ⟨k, hjk, htask'', htold''⟩ := ih _ hlt (i := j + 1) htask' rfl
        exact ⟨k, Nat.le_trans (Nat.le_succ_of_le hij) hjk, htask'',
          htold''.trans (congrArg (· ++ t.turn.told) (htold'.trans htold))⟩

end Loop

end AsmLens
