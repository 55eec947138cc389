import AsmLens.Proofs.TaskTurns
import Mathlib.Tactic

/-!
# What becomes of a task

What is told of a task is what has become of its parts, and nothing else (`Task.Fits`): that it was started, that its
body was called, and if the body has failed, this with its very fault, the call of the handler with the same fault, and
a failure of the handler. A task goes from stage to stage and never back (`Task.Goes.phase_le`), and as long as the
loop takes steps it comes to rest only where a part waits or gives way, or at the end (`Loop.comes_to_rest`).
-/

namespace AsmLens

open Filter

namespace TaskEvent

/-- Whether an event tells how far a task has come, and not what a part does on its way. -/
def isMilestone : TaskEvent → Bool
  | .spawned | .began | .failed _ | .handling _ | .handlerFailed _ => true
  | .said _ | .resumed _ | .cameBack => false

end TaskEvent

theorem Turned.filter_told {σ : Type} (r : Turned σ) :
    r.told.filter TaskEvent.isMilestone = r.events.filter TaskEvent.isMilestone := by
  have heffects : ∀ e ∈ r.effects.filterMap Effect.told?, e.isMilestone = false := by
    intro e he
    obtain ⟨effect, -, heffect⟩ := List.mem_filterMap.1 he
    cases effect with
    | say what => cases heffect; rfl
    | spawn name body handler => nomatch heffect
  have hnone : (r.effects.filterMap Effect.told?).filter TaskEvent.isMilestone = [] :=
    List.filter_eq_nil_iff.2 fun e he => by simp [heffects e he]
  unfold told
  rw [List.filter_append, hnone, List.append_nil]

/-! ### Processes and their ends -/

namespace Process

variable {σ : Type} [Process σ]

/-- What a process goes on as when it is given whatever it waits for. -/
inductive GoesOnAs (p : σ) : σ → Prop where
  | refl : GoesOnAs p p
  | waited {q rest : σ} {slot : String} (h : GoesOnAs p q) (hpause : (move q).pause = .waits slot rest)
      (value : Option Json) : GoesOnAs p (resume rest value)
  | gaveWay {q rest : σ} (h : GoesOnAs p q) (hpause : (move q).pause = .givesWay rest) : GoesOnAs p rest

/-- A process comes to its end with this result when it is given the right values. -/
def EndsWith (p : σ) (result : Except Fault Unit) : Prop :=
  ∃ q turns, GoesOnAs p q ∧ (move q).pause = .ends turns result

/-- A process can come out like this: if there is a result, it comes to its end with it. -/
def ComesTo (p : σ) (outcome : Outcome Unit) : Prop := ∀ result, outcome = .ofExcept result → EndsWith p result

theorem comesTo_pending (p : σ) : ComesTo p .pending := fun result h => by cases result <;> nomatch h

theorem EndsWith.comesTo {p : σ} {result : Except Fault Unit} (h : EndsWith p result) :
    ComesTo p (.ofExcept result) := fun result' hresult => by
  cases result <;> cases result' <;> cases hresult <;> exact h

end Process

open Process

/-! ### Stages -/

/-- Where the stages of a part begin in the order of the stages. -/
def Part.phase : Part → Nat
  | .body => 1
  | .handler => 4

namespace Stage

variable {σ : Type}

/-- The part that is under way at a stage. -/
def part? : Stage σ → Option Part
  | .resumes part _ _ | .comesBack part _ | .waits part _ | .givesWay part _ => some part
  | .starts _ | .ended _ _ _ | .hears _ _ | .settled => none

/-- Whether a task may stay at a stage for good, or at others of the same part. -/
def mayLast : Stage σ → Bool
  | .resumes _ _ _ | .comesBack _ _ | .waits _ _ | .givesWay _ _ | .settled => true
  | .starts _ | .ended _ _ _ | .hears _ _ => false

/-- The word that is under way at a stage: of which part, and with which result. -/
def word? : Stage σ → Option (Part × Except Fault Unit)
  | .ended part _ result | .hears part result => some (part, result)
  | .starts _ | .resumes _ _ _ | .comesBack _ _ | .waits _ _ | .givesWay _ _ | .settled => none

/-- The order of the stages. -/
def phase : Stage σ → Nat
  | .starts _ => 0
  | .resumes part _ _ | .comesBack part _ | .waits part _ | .givesWay part _ => part.phase
  | .ended part _ _ => part.phase + 1
  | .hears part _ => part.phase + 2
  | .settled => 7

theorem phase_of_part? {stage : Stage σ} {part : Part} (h : stage.part? = some part) : stage.phase = part.phase := by
  cases stage <;> cases h <;> rfl

theorem phase_of_word? {stage : Stage σ} {part : Part} {result : Except Fault Unit}
    (h : stage.word? = some (part, result)) : stage.phase = part.phase + 1 ∨ stage.phase = part.phase + 2 := by
  cases stage with
  | ended => cases h; exact .inl rfl
  | hears => cases h; exact .inr rfl
  | _ => nomatch h

theorem part?_of_phase {stage : Stage σ} {part : Part} (h : stage.phase = part.phase) : stage.part? = some part := by
  have hinjective : ∀ part' : Part, part'.phase = part.phase → part' = part := fun part' h => by
    cases part <;> cases part' <;> first | rfl | nomatch h
  cases stage with
  | resumes part' value process => exact congrArg some (hinjective part' h)
  | comesBack part' process => exact congrArg some (hinjective part' h)
  | waits part' process => exact congrArg some (hinjective part' h)
  | givesWay part' process => exact congrArg some (hinjective part' h)
  | ended part' turns result => cases part <;> cases part' <;> nomatch h
  | hears part' result => cases part <;> cases part' <;> nomatch h
  | _ => cases part <;> nomatch h

theorem not_mayLast_of_word? {stage : Stage σ} {word : Part × Except Fault Unit} (h : stage.word? = some word) :
    ¬ stage.mayLast = true := by
  cases stage with
  | ended => nofun
  | hears => nofun
  | _ => nomatch h

theorem phase_le (stage : Stage σ) : stage.phase ≤ 7 := by
  have hpart : ∀ part : Part, part.phase + 2 ≤ 7 := fun part => by cases part <;> decide
  cases stage with
  | starts process => exact Nat.zero_le 7
  | settled => exact Nat.le_refl 7
  | ended part turns result => exact Nat.le_of_succ_le (hpart part)
  | hears part result => exact hpart part
  | resumes part value process => exact Nat.le_trans (Nat.le_add_right _ 2) (hpart part)
  | comesBack part process => exact Nat.le_trans (Nat.le_add_right _ 2) (hpart part)
  | waits part process => exact Nat.le_trans (Nat.le_add_right _ 2) (hpart part)
  | givesWay part process => exact Nat.le_trans (Nat.le_add_right _ 2) (hpart part)

/-- A part is under way that was started as the process `p`. -/
inductive Runs [Process σ] (part : Part) (p : σ) : Stage σ → Prop where
  | resumes {q : σ} (value : Option Json) (h : GoesOnAs p q) : Runs part p (.resumes part value q)
  | comesBack {q : σ} (h : GoesOnAs p q) : Runs part p (.comesBack part q)
  | waits {q rest : σ} {slot : String} (h : GoesOnAs p q) (hpause : (move q).pause = .waits slot rest) :
      Runs part p (.waits part rest)
  | givesWay {q rest : σ} (h : GoesOnAs p q) (hpause : (move q).pause = .givesWay rest) :
      Runs part p (.givesWay part rest)

theorem Runs.part? [Process σ] {part : Part} {p : σ} {stage : Stage σ} (h : stage.Runs part p) :
    stage.part? = some part := by
  cases h <;> rfl

end Stage

/-! ### One task -/

namespace Task

section

variable {σ : Type} {t t' t'' : Task σ}

/-- What is told of a task when its body and what was done about a failure of it have come out in this way. -/
def milestones (body handling : Outcome Unit) (hasHandler : Bool) : List TaskEvent :=
  let aboutHandler := match handling with
    | .rejected fault => [.handlerFailed fault]
    | _ => []
  let aboutBody := match body with
    | .rejected fault => .failed fault :: if hasHandler then .handling fault :: aboutHandler else []
    | _ => []
  .spawned :: .began :: aboutBody

theorem length_milestones_le (body handling : Outcome Unit) (hasHandler : Bool) :
    (milestones body handling hasHandler).length ≤ 5 := by
  cases body <;> cases handling <;> cases hasHandler <;> simp [milestones]

theorem report_cases (t : Task σ) (part : Part) (result : Except Fault Unit) (turns : Nat) :
    ∃ stage : Stage σ, stage.word? = some (part, result) ∧ t.report part result turns = { t with stage } := by
  cases turns with
  | zero => exact ⟨.hears part result, rfl, rfl⟩
  | succ turns => exact ⟨.ended part turns result, rfl, rfl⟩

/-- A task keeps its name and its handler, and a part that has come out stays as it has come out. -/
structure Keeps (t t' : Task σ) : Prop where
  name : t'.name = t.name
  handler : t'.handler = t.handler
  body : t.body ≠ .pending → t'.body = t.body
  handling : t.handling ≠ .pending → t'.handling = t.handling

theorem Keeps.refl (t : Task σ) : Keeps t t := ⟨rfl, rfl, fun _ => rfl, fun _ => rfl⟩

theorem Keeps.trans (h : Keeps t t') (h' : Keeps t' t'') : Keeps t t'' where
  name := h'.name.trans h.name
  handler := h'.handler.trans h.handler
  body hne := (h'.body (h.body hne ▸ hne)).trans (h.body hne)
  handling hne := (h'.handling (h.handling hne ▸ hne)).trans (h.handling hne)

theorem keeps_of_stage (t : Task σ) (stage : Stage σ) : Keeps t { t with stage } :=
  ⟨rfl, rfl, fun _ => rfl, fun _ => rfl⟩

theorem keeps_report (t : Task σ) (part : Part) (result : Except Fault Unit) (turns : Nat) :
    Keeps t (t.report part result turns) := by
  obtain ⟨stage, -, hreport⟩ := t.report_cases part result turns
  exact hreport ▸ t.keeps_of_stage stage

theorem keeps_comeOut (t : Task σ) (part : Part) (result : Except Fault Unit) (turns : Nat) :
    Keeps t (t.comeOut part result turns) := by
  refine Keeps.trans ?_ (keeps_report _ part result turns)
  cases part with
  | body => exact ⟨rfl, rfl, fun hne => Outcome.settle_of_ne_pending hne _, fun _ => rfl⟩
  | handler => exact ⟨rfl, rfl, fun _ => rfl, fun hne => Outcome.settle_of_ne_pending hne _⟩

/-- What has become of a task where nothing more comes of it until a part goes on. -/
structure AtRest (t : Task σ) (told : List TaskEvent) : Prop where
  told : told = milestones t.body t.handling t.handler.isSome
  body : t.body = .pending ↔ t.stage.part? = some .body
  handling : (∃ fault, t.body = .rejected fault) ∧ t.handling = .pending ↔ t.stage.part? = some .handler
  unhandled : (¬ ∃ fault, t.body = .rejected fault) → t.handling = .pending
  done : t.done = .pending ↔
    t.body = .pending ∨ t.handler.isSome ∧ (∃ fault, t.body = .rejected fault) ∧ t.handling = .pending

/-- As long as a task is at rest, what has become of its parts stays. -/
theorem AtRest.stays {told told' : List TaskEvent} (h : AtRest t told) (h' : AtRest t' told') (hkeeps : Keeps t t')
    (hphase : t'.stage.phase = t.stage.phase) : t'.body = t.body ∧ t'.handling = t.handling := by
  have hpart : ∀ {part : Part}, t.stage.part? = some part → t'.stage.part? = some part := fun hpart =>
    Stage.part?_of_phase (hphase.trans (Stage.phase_of_part? hpart))
  have hbody : t'.body = t.body := by
    by_cases hpending : t.body = .pending
    · rw [hpending]
      exact h'.body.2 (hpart (h.body.1 hpending))
    · exact hkeeps.body hpending
  refine ⟨hbody, ?_⟩
  by_cases hpending : t.handling = .pending
  · rw [hpending]
    by_cases hfailed : ∃ fault, t.body = .rejected fault
    · exact (h'.handling.2 (hpart (h.handling.1 ⟨hfailed, hpending⟩))).2
    · exact h'.unhandled (hbody ▸ hfailed)
  · exact hkeeps.handling hpending

theorem phase_report (t : Task σ) (part : Part) (result : Except Fault Unit) (turns : Nat) :
    part.phase < (t.report part result turns).stage.phase := by
  obtain ⟨stage, hstage, hreport⟩ := t.report_cases part result turns
  rw [hreport]
  rcases Stage.phase_of_word? hstage with hphase | hphase <;> rw [hphase] <;> omega

end

variable {σ : Type} [Process σ] {t t' : Task σ} {told : List TaskEvent} {p q : σ}

theorem events_act (t : Task σ) (part : Part) (events : List TaskEvent) (process : σ) :
    (t.act part events process).events = events := by
  unfold act
  generalize move process = m
  obtain ⟨effects, pause⟩ := m
  cases pause <;> rfl

/-- A part that was started as the process `p` does something: it is under way still, or it has come to its end. -/
theorem act_cases (t : Task σ) (part : Part) (events : List TaskEvent) (h : GoesOnAs p q) :
    (∃ stage : Stage σ, stage.Runs part p ∧ (t.act part events q).task = { t with stage }) ∨
    ∃ turns result, EndsWith p result ∧ (t.act part events q).task = t.comeOut part result turns := by
  cases hpause : (move q).pause with
  | waits slot rest => exact .inl ⟨_, .waits h hpause, by simp only [act, hpause]⟩
  | givesWay rest => exact .inl ⟨_, .givesWay h hpause, by simp only [act, hpause]⟩
  | ends turns result => exact .inr ⟨turns, result, ⟨q, turns, h, hpause⟩, by simp only [act, hpause]⟩

/-! ### No way back -/

theorem phase_act (t : Task σ) (part : Part) (events : List TaskEvent) (process : σ) :
    part.phase ≤ (t.act part events process).task.stage.phase := by
  obtain ⟨stage, hstage, hact⟩ | ⟨turns, result, -, hact⟩ := t.act_cases part events (.refl (p := process))
  · rw [hact]
    exact Nat.le_of_eq (Stage.phase_of_part? hstage.part?).symm
  · rw [hact]
    exact Nat.le_of_lt (phase_report _ part result turns)

theorem phase_hearBody (t : Task σ) (result : Except Fault Unit) : 4 ≤ (t.hearBody result).task.stage.phase := by
  obtain ⟨name, handler, stage, body, handling, done⟩ := t
  cases result with
  | ok _ => exact (by decide : 4 ≤ 6)
  | error fault =>
    cases handler with
    | none => exact (by decide : 4 ≤ 5)
    | some process => exact phase_act _ .handler _ _

theorem phase_turn (t : Task σ) : t.stage.phase ≤ t.turn.task.stage.phase := by
  obtain ⟨name, handler, stage, body, handling, done⟩ := t
  cases stage with
  | starts process => exact Nat.zero_le _
  | resumes part value process => exact phase_act _ part _ process
  | comesBack part process => exact phase_act _ part _ process
  | ended part turns result => exact phase_report _ part result turns
  | hears part result =>
    cases part with
    | body => exact Nat.le_of_succ_le (phase_hearBody _ result)
    | handler => cases result <;> exact (by decide : 6 ≤ 7)
  | waits part process => exact Nat.le_refl _
  | givesWay part process => exact Nat.le_refl _
  | settled => exact Nat.le_refl _

/-- A task never goes back. -/
theorem Goes.phase_le {new : List TaskEvent} (h : Goes (some t) new (some t')) : t.stage.phase ≤ t'.stage.phase := by
  cases h with
  | rests => exact Nat.le_refl _
  | turns => exact phase_turn t
  | waited hstage value => rw [hstage]; exact Nat.le_refl _
  | gaveWay hstage => rw [hstage]; exact Nat.le_refl _

theorem keeps_act (t : Task σ) (part : Part) (events : List TaskEvent) (process : σ) :
    Keeps t (t.act part events process).task := by
  obtain ⟨stage, -, hact⟩ | ⟨turns, result, -, hact⟩ := t.act_cases part events (.refl (p := process))
  · exact hact ▸ t.keeps_of_stage stage
  · exact hact ▸ t.keeps_comeOut part result turns

theorem keeps_hearBody (t : Task σ) (result : Except Fault Unit) : Keeps t (t.hearBody result).task := by
  obtain ⟨name, handler, stage, body, handling, done⟩ := t
  cases result with
  | ok _ => exact keeps_of_stage _ _
  | error fault =>
    cases handler with
    | none => exact keeps_comeOut _ .handler (.ok ()) 2
    | some process => exact keeps_act _ .handler _ _

theorem keeps_turn (t : Task σ) : Keeps t t.turn.task := by
  obtain ⟨name, handler, stage, body, handling, done⟩ := t
  cases stage with
  | starts process => exact keeps_act _ .body _ process
  | resumes part value process => exact keeps_act _ part _ process
  | comesBack part process => exact keeps_act _ part _ process
  | ended part turns result => exact keeps_report _ part result turns
  | hears part result =>
    cases part with
    | body => exact keeps_hearBody _ result
    | handler => cases result <;> exact ⟨rfl, rfl, fun _ => rfl, fun _ => rfl⟩
  | _ => exact .refl _

theorem Goes.keeps {new : List TaskEvent} (h : Goes (some t) new (some t')) : Keeps t t' := by
  cases h with
  | rests => exact .refl t
  | turns => exact t.keeps_turn
  | waited => exact t.keeps_of_stage _
  | gaveWay => exact t.keeps_of_stage _

/-! ### What is told of a task, and what has become of it -/

/-- What is done about a fault comes to an end with this result. -/
def HandlesWith (handler : Option σ) (fault : Fault) (result : Except Fault Unit) : Prop :=
  match handler with
  | none => result = .ok ()
  | some process => EndsWith (handle process fault) result

theorem HandlesWith.comesTo {handler : Option σ} {fault fault' : Fault} {process : σ} {result : Except Fault Unit}
    (h : HandlesWith handler fault result) (hfault : Outcome.rejected (α := Unit) fault = .rejected fault')
    (hhandler : handler = some process) : ComesTo (handle process fault') (.ofExcept result) := by
  cases hfault
  cases hhandler
  exact EndsWith.comesTo h

/-- How the parts of a task stand to its stage, and what is told of it, when its body was started as the process `p`. -/
inductive Fits (p : σ) : Task σ → List TaskEvent → Prop where
  | begins (name : String) (handler : Option σ) : Fits p (.begin name p handler) [.spawned]
  | runs {name : String} {handler : Option σ} {stage : Stage σ} (hstage : stage.Runs .body p) :
      Fits p ⟨name, handler, stage, .pending, .pending, .pending⟩ (milestones .pending .pending handler.isSome)
  | hasRun {name : String} {handler : Option σ} {stage : Stage σ} {result : Except Fault Unit}
      (hstage : stage.word? = some (.body, result)) (hbody : EndsWith p result) :
      Fits p ⟨name, handler, stage, .ofExcept result, .pending, .pending⟩
        (milestones .pending .pending handler.isSome)
  | handles {name : String} {process : σ} {stage : Stage σ} {fault : Fault}
      (hstage : stage.Runs .handler (handle process fault)) (hbody : EndsWith p (.error fault)) :
      Fits p ⟨name, some process, stage, .rejected fault, .pending, .pending⟩
        (milestones (.rejected fault) .pending true)
  | hasHandled {name : String} {stage : Stage σ} {fault : Fault} (handler : Option σ) (result : Except Fault Unit)
      (hstage : stage.word? = some (.handler, result)) (hbody : EndsWith p (.error fault))
      (hresult : HandlesWith handler fault result) :
      Fits p ⟨name, handler, stage, .rejected fault, .ofExcept result, .pending⟩
        (milestones (.rejected fault) .pending handler.isSome)
  | isWell {name : String} {handler : Option σ} (hbody : EndsWith p (.ok ())) :
      Fits p ⟨name, handler, .hears .handler (.ok ()), .resolved (), .pending, .pending⟩
        (milestones (.resolved ()) .pending handler.isSome)
  | settledWell {name : String} {handler : Option σ} (hbody : EndsWith p (.ok ())) :
      Fits p ⟨name, handler, .settled, .resolved (), .pending, .resolved ()⟩
        (milestones (.resolved ()) .pending handler.isSome)
  | settledHandled {name : String} {fault : Fault} (handler : Option σ) (result : Except Fault Unit)
      (hbody : EndsWith p (.error fault)) (hresult : HandlesWith handler fault result) :
      Fits p ⟨name, handler, .settled, .rejected fault, .ofExcept result, .resolved ()⟩
        (milestones (.rejected fault) (.ofExcept result) handler.isSome)

theorem Fits.eq_of_starts {body : σ} (h : t.Fits p told) (hstarts : t.stage = .starts body) : p = body := by
  cases h with
  | begins => cases hstarts; rfl
  | runs hstage => cases hstarts; nomatch hstage
  | hasRun hstage => cases hstarts; nomatch hstage
  | handles hstage => cases hstarts; nomatch hstage
  | hasHandled handler result hstage => cases hstarts; nomatch hstage
  | _ => nomatch hstarts

theorem Fits.done (h : t.Fits p told) : t.done = .pending ∨ t.done = .resolved () := by
  cases h with
  | settledWell => exact .inr rfl
  | settledHandled => exact .inr rfl
  | _ => exact .inl rfl

theorem Fits.comesTo (h : t.Fits p told) : ComesTo p t.body ∧
    ∀ fault process, t.body = .rejected fault → t.handler = some process →
      ComesTo (handle process fault) t.handling := by
  cases h with
  | hasRun _ hbody => exact ⟨hbody.comesTo, fun _ _ _ _ => comesTo_pending _⟩
  | handles _ hbody => exact ⟨hbody.comesTo, fun _ _ _ _ => comesTo_pending _⟩
  | hasHandled handler result _ hbody hresult => exact ⟨hbody.comesTo, fun _ _ => hresult.comesTo⟩
  | isWell hbody => exact ⟨hbody.comesTo, fun _ _ _ _ => comesTo_pending _⟩
  | settledWell hbody => exact ⟨hbody.comesTo, fun _ _ _ _ => comesTo_pending _⟩
  | settledHandled handler result hbody hresult => exact ⟨hbody.comesTo, fun _ _ => hresult.comesTo⟩
  | _ => exact ⟨comesTo_pending p, fun _ _ _ _ => comesTo_pending _⟩

theorem Fits.atRest (h : t.Fits p told) (hlasts : t.stage.mayLast = true) : AtRest t told := by
  cases h with
  | begins => nomatch hlasts
  | hasRun hstage => exact absurd hlasts (Stage.not_mayLast_of_word? hstage)
  | hasHandled handler result hstage => exact absurd hlasts (Stage.not_mayLast_of_word? hstage)
  | isWell => nomatch hlasts
  | runs hstage =>
    have hpart := hstage.part?
    constructor <;> simp [hpart]
  | handles hstage =>
    have hpart := hstage.part?
    constructor <;> simp [hpart]
  | settledWell => constructor <;> simp [Stage.part?]
  | settledHandled handler result => cases result <;> constructor <;> simp [Stage.part?, Outcome.ofExcept]

theorem act_body_fits (name : String) (handler : Option σ) (stage : Stage σ) (events : List TaskEvent)
    (hq : GoesOnAs p q)
    (htold : told ++ events.filter TaskEvent.isMilestone = milestones .pending .pending handler.isSome) :
    let turned := act ⟨name, handler, stage, .pending, .pending, .pending⟩ .body events q
    turned.task.Fits p (told ++ turned.events.filter TaskEvent.isMilestone) := by
  intro turned
  rw [show turned.events = events from events_act _ _ _ _, htold]
  obtain ⟨stage', hstage, hact⟩ | ⟨turns, result, hbody, hact⟩ :=
    act_cases ⟨name, handler, stage, .pending, .pending, .pending⟩ .body events hq
  · rw [show turned.task = _ from hact]
    exact .runs hstage
  · obtain ⟨stage', hstage, hreport⟩ :=
      report_cases ⟨name, handler, stage, .ofExcept result, .pending, .pending⟩ .body result turns
    rw [show turned.task = _ from hact.trans hreport]
    exact .hasRun hstage hbody

theorem act_handler_fits (name : String) (process : σ) (stage : Stage σ) {fault : Fault} (events : List TaskEvent)
    (hbody : EndsWith p (.error fault)) (hq : GoesOnAs (handle process fault) q)
    (htold : told ++ events.filter TaskEvent.isMilestone = milestones (.rejected fault) .pending true) :
    let turned := act ⟨name, some process, stage, .rejected fault, .pending, .pending⟩ .handler events q
    turned.task.Fits p (told ++ turned.events.filter TaskEvent.isMilestone) := by
  intro turned
  rw [show turned.events = events from events_act _ _ _ _, htold]
  obtain ⟨stage', hstage, hact⟩ | ⟨turns, result, hresult, hact⟩ :=
    act_cases ⟨name, some process, stage, .rejected fault, .pending, .pending⟩ .handler events hq
  · rw [show turned.task = _ from hact]
    exact .handles hstage hbody
  · obtain ⟨stage', hstage, hreport⟩ :=
      report_cases ⟨name, some process, stage, .rejected fault, .ofExcept result, .pending⟩ .handler result turns
    rw [show turned.task = _ from hact.trans hreport]
    exact .hasHandled (some process) result hstage hbody hresult

theorem Fits.turn (h : t.Fits p told) :
    t.turn.task.Fits p (told ++ t.turn.told.filter TaskEvent.isMilestone) := by
  rw [Turned.filter_told]
  -- The invariant leaves few stages open in each case, and at those that are not in line nothing happens.
  cases h with
  | begins name handler => exact act_body_fits name handler _ [.began] .refl rfl
  | @runs name handler stage hstage =>
    cases hstage with
    | resumes value hq => exact act_body_fits name handler _ [.resumed value] hq (List.append_nil _)
    | comesBack hq => exact act_body_fits name handler _ [.cameBack] hq (List.append_nil _)
    | waits hq hpause => exact (List.append_nil _).symm ▸ .runs (.waits hq hpause)
    | givesWay hq hpause => exact (List.append_nil _).symm ▸ .runs (.givesWay hq hpause)
  | @hasRun name handler stage result hstage hbody =>
    cases stage with
    | ended part turns result =>
      cases hstage
      cases turns <;> exact (List.append_nil _).symm ▸ .hasRun rfl hbody
    | hears part result =>
      cases hstage
      cases result with
      | ok _ => exact (List.append_nil _).symm ▸ .isWell hbody
      | error fault =>
        cases handler with
        | none => exact .hasHandled none (.ok ()) rfl hbody rfl
        | some process =>
          exact act_handler_fits name process _ [.failed fault, .handling fault] hbody .refl rfl
    | _ => nomatch hstage
  | @handles name process stage fault hstage hbody =>
    cases hstage with
    | resumes value hq => exact act_handler_fits name process _ [.resumed value] hbody hq (List.append_nil _)
    | comesBack hq => exact act_handler_fits name process _ [.cameBack] hbody hq (List.append_nil _)
    | waits hq hpause => exact (List.append_nil _).symm ▸ .handles (.waits hq hpause) hbody
    | givesWay hq hpause => exact (List.append_nil _).symm ▸ .handles (.givesWay hq hpause) hbody
  | @hasHandled name stage fault handler result hstage hbody hresult =>
    cases stage with
    | ended part turns result =>
      cases hstage
      cases turns <;> exact (List.append_nil _).symm ▸ .hasHandled handler result rfl hbody hresult
    | hears part result =>
      cases hstage
      cases result with
      | ok _ => exact (List.append_nil _).symm ▸ .settledHandled handler (.ok ()) hbody hresult
      | error other =>
        cases handler with
        | none => nomatch hresult
        | some process => exact .settledHandled (some process) (.error other) hbody hresult
    | _ => nomatch hstage
  | isWell hbody => exact (List.append_nil _).symm ▸ .settledWell hbody
  | settledWell hbody => exact (List.append_nil _).symm ▸ .settledWell hbody
  | settledHandled handler result hbody hresult =>
    exact (List.append_nil _).symm ▸ .settledHandled handler result hbody hresult

/-- Whatever happens to a task, what is told of it is in step with what has become of it. -/
theorem Fits.goes {new : List TaskEvent} (h : t.Fits p told) (hgoes : Goes (some t) new (some t')) :
    t'.Fits p (told ++ new.filter TaskEvent.isMilestone) := by
  cases hgoes with
  | rests => exact (List.append_nil _).symm ▸ h
  | turns => exact h.turn
  | waited hwaits value =>
    refine (List.append_nil _).symm ▸ ?_
    cases h with
    | runs hstage =>
      cases hwaits
      cases hstage with
      | waits hq hpause => exact .runs (.resumes value (hq.waited hpause value))
    | handles hstage hbody =>
      cases hwaits
      cases hstage with
      | waits hq hpause => exact .handles (.resumes value (hq.waited hpause value)) hbody
    | hasRun hstage => cases hwaits; nomatch hstage
    | hasHandled handler result hstage => cases hwaits; nomatch hstage
    | _ => nomatch hwaits
  | gaveWay hgives =>
    refine (List.append_nil _).symm ▸ ?_
    cases h with
    | runs hstage =>
      cases hgives
      cases hstage with
      | givesWay hq hpause => exact .runs (.comesBack (hq.gaveWay hpause))
    | handles hstage hbody =>
      cases hgives
      cases hstage with
      | givesWay hq hpause => exact .handles (.comesBack (hq.gaveWay hpause)) hbody
    | hasRun hstage => cases hgives; nomatch hstage
    | hasHandled handler result hstage => cases hgives; nomatch hstage
    | _ => nomatch hgives

end Task

/-! ### Runs without end -/

namespace LoopAct

variable {σ : Type}

/-- Something happens to a loop, and then it takes steps ever after. -/
def first (a : LoopAct σ) : Nat → LoopAct σ
  | 0 => a
  | _ + 1 => .step

theorem frequently_first (a : LoopAct σ) : ∃ᶠ j in atTop, a.first j = .step :=
  frequently_atTop.2 fun i => ⟨i + 1, Nat.le_succ i, rfl⟩

end LoopAct

namespace Loop

variable {σ : Type} {n : Nat}

def milestones (l : Loop σ) (n : Nat) : List TaskEvent := (l.told n).filter TaskEvent.isMilestone

theorem milestones_of_told {l l' : Loop σ} {new : List TaskEvent} (h : l'.told n = l.told n ++ new) :
    l'.milestones n = l.milestones n ++ new.filter TaskEvent.isMilestone := by
  rw [milestones, h, List.filter_append, milestones]

variable [Process σ] {acts : Nat → LoopAct σ} {i j : Nat} {t : Task σ}

theorem goes_after (ht : (after acts i).tasks[n]? = some t) :
    ∃ t' new, (after acts (i + 1)).tasks[n]? = some t' ∧ Task.Goes (some t) new (some t') ∧
      (after acts (i + 1)).milestones n = (after acts i).milestones n ++ new.filter TaskEvent.isMilestone := by
  obtain ⟨new, hgoes, htold⟩ := (after acts i).perform_goes (acts i) n
  rw [ht] at hgoes
  cases hn : ((after acts i).perform (acts i)).tasks[n]? with
  | none => rw [hn] at hgoes; nomatch hgoes
  | some t' => exact ⟨t', new, hn, hn ▸ hgoes, milestones_of_told htold⟩

theorem stays (ht : (after acts i).tasks[n]? = some t) (hij : i ≤ j) :
    ∃ t', (after acts j).tasks[n]? = some t' ∧ t.Keeps t' ∧ t.stage.phase ≤ t'.stage.phase ∧
      (after acts i).milestones n <+: (after acts j).milestones n := by
  induction j, hij using Nat.le_induction with
  | base => exact ⟨t, ht, .refl t, Nat.le_refl _, List.prefix_rfl⟩
  | succ j hij ih =>
    obtain ⟨t', ht', hkeeps, hphase, htold⟩ := ih
    obtain ⟨t'', new, ht'', hgoes, hnew⟩ := goes_after ht'
    refine ⟨t'', ht'', hkeeps.trans hgoes.keeps, Nat.le_trans hphase hgoes.phase_le, htold.trans ?_⟩
    exact ⟨_, hnew.symm⟩

theorem fits_of_le {p : σ} (ht : (after acts i).tasks[n]? = some t) (hfits : t.Fits p ((after acts i).milestones n))
    (hij : i ≤ j) : ∃ t', (after acts j).tasks[n]? = some t' ∧ t'.Fits p ((after acts j).milestones n) := by
  induction j, hij using Nat.le_induction with
  | base => exact ⟨t, ht, hfits⟩
  | succ j hij ih =>
    obtain ⟨t', ht', hfits'⟩ := ih
    obtain ⟨t'', new, ht'', hgoes, hnew⟩ := goes_after ht'
    exact ⟨t'', ht'', hnew ▸ hfits'.goes hgoes⟩

theorem fits_after (acts : Nat → LoopAct σ) (n i : Nat) :
    ((after acts i).tasks[n]? = none ∧ (after acts i).milestones n = []) ∨
    ∃ t p, (after acts i).tasks[n]? = some t ∧ t.Fits p ((after acts i).milestones n) := by
  induction i with
  | zero => exact .inl ⟨rfl, rfl⟩
  | succ i ih =>
    rcases ih with ⟨hnone, hempty⟩ | ⟨t, p, ht, hfits⟩
    · obtain ⟨new, hgoes, htold⟩ := (after acts i).perform_goes (acts i) n
      have hnew : (after acts (i + 1)).milestones n = new.filter TaskEvent.isMilestone := by
        rw [← List.nil_append (new.filter _), ← hempty]
        exact milestones_of_told htold
      rw [hnew]
      generalize hn : ((after acts i).perform (acts i)).tasks[n]? = t at hgoes
      rw [hnone] at hgoes
      cases hgoes with
      | rests => exact .inl ⟨hn, rfl⟩
      | begins name body handler => exact .inr ⟨_, body, hn, .begins name handler⟩
    · obtain ⟨t', ht', hfits'⟩ := fits_of_le ht hfits (Nat.le_succ i)
      exact .inr ⟨t', p, ht', hfits'⟩

theorem fits_begin {name : String} {body : σ} {handler : Option σ}
    (ht : (after acts i).tasks[n]? = some (.begin name body handler)) :
    (Task.begin name body handler).Fits body ((after acts i).milestones n) := by
  obtain ⟨hnone, -⟩ | ⟨t, p, ht', hfits⟩ := fits_after acts n i
  · nomatch hnone.symm.trans ht
  · cases ht'.symm.trans ht
    cases hfits.eq_of_starts rfl
    exact hfits

/-- As long as a loop takes steps, a task that may not stay where it is goes on from there. -/
theorem moves_on (hsteps : ∃ᶠ j in atTop, acts j = .step) (ht : (after acts i).tasks[n]? = some t)
    (hlasts : t.stage.mayLast = false) :
    ∃ j, i ≤ j ∧ ∃ t', (after acts j).tasks[n]? = some t' ∧ t.stage.phase < t'.stage.phase := by
  obtain ⟨name, handler, stage, body, handling, done⟩ := t
  cases stage with
  | starts process =>
    obtain ⟨j, hij, ht', -⟩ := turn_comes hsteps ht rfl
    exact ⟨j + 1, Nat.le_succ_of_le hij, _, ht', Task.phase_act _ .body _ process⟩
  | ended part turns result =>
    -- Word of the end comes nearer with each turn.
    induction turns generalizing i with
    | zero =>
      obtain ⟨j, hij, ht', -⟩ := turn_comes hsteps ht rfl
      exact ⟨j + 1, Nat.le_succ_of_le hij, _, ht', Nat.lt_succ_self _⟩
    | succ turns ih =>
      obtain ⟨j, hij, ht', -⟩ := turn_comes hsteps ht rfl
      obtain ⟨k, hjk, t', ht'', hphase⟩ := ih ht' rfl
      exact ⟨k, Nat.le_trans (Nat.le_succ_of_le hij) hjk, t', ht'', hphase⟩
  | hears part result =>
    obtain ⟨j, hij, ht', -⟩ := turn_comes hsteps ht rfl
    refine ⟨j + 1, Nat.le_succ_of_le hij, _, ht', ?_⟩
    cases part with
    | body => exact Task.phase_hearBody _ result
    | handler => cases result <;> exact Nat.lt_succ_self 6
  | _ => nomatch hlasts

/-- As long as a loop takes steps, a task comes to rest at last: from then on it never goes further than it has come,
and it is where it may stay. -/
theorem comes_to_rest (hsteps : ∃ᶠ j in atTop, acts j = .step) (ht : (after acts i).tasks[n]? = some t) :
    ∃ j, i ≤ j ∧ ∃ t', (after acts j).tasks[n]? = some t' ∧ ∀ k, j ≤ k → ∃ t'', (after acts k).tasks[n]? = some t'' ∧
      t'.Keeps t'' ∧ t''.stage.phase = t'.stage.phase ∧ t''.stage.mayLast = true := by
  -- It cannot go further for ever, because there is a last stage.
  induction hleft : 7 - t.stage.phase using Nat.strongRecOn generalizing i t with
  | ind left ih =>
    by_cases hmoves : ∃ j, i ≤ j ∧ ∃ t', (after acts j).tasks[n]? = some t' ∧ t.stage.phase < t'.stage.phase
    · obtain ⟨j, hij, t', ht', hlt⟩ := hmoves
      have hle := t'.stage.phase_le
      obtain ⟨k, hjk, hrest⟩ := ih (7 - t'.stage.phase) (by omega) ht' rfl
      exact ⟨k, Nat.le_trans hij hjk, hrest⟩
    · refine ⟨i, Nat.le_refl i, t, ht, fun k hik => ?_⟩
      obtain ⟨t', ht', hkeeps, hphase, -⟩ := stays ht hik
      have hsame : t'.stage.phase = t.stage.phase :=
        Nat.le_antisymm (Nat.le_of_not_lt fun hlt => hmoves ⟨k, hik, t', ht', hlt⟩) hphase
      refine ⟨t', ht', hkeeps, hsame, Bool.of_not_eq_false fun hlasts => ?_⟩
      obtain ⟨j, hkj, t'', ht'', hlt⟩ := moves_on hsteps ht' hlasts
      exact hmoves ⟨j, Nat.le_trans hik hkj, t'', ht'', hsame ▸ hlt⟩

/-- A task is a sealed box. Whoever starts it goes on before its body is called. Whatever its body and its handler come
to, in whatever loop and whatever else happens in it, what has become of the task never is a failure, and as long as
the loop takes steps, what is told of the task is in the end just what its parts came to: that the body was called and,
if it failed, first this, then the call of the handler, once and with the very fault, and a failure of the handler,
once. The task stays without an end just if the body does, or the handler after a failure of the body. -/
theorem spawned_tasks_are_sealed (name : String) (body : σ) (handler : Option σ) :
    (∀ l : Loop σ, l.spawn name body handler =
      (⟨l.tasks.length, name⟩, { l with
        tasks := l.tasks ++ [.begin name body handler]
        ready := l.ready ++ [l.tasks.length]
        events := l.events ++ [.task l.tasks.length .spawned] })) ∧
    ∀ (acts : Nat → LoopAct σ) (i n : Nat), (∃ᶠ j in atTop, acts j = .step) →
      (after acts i).tasks[n]? = some (.begin name body handler) →
      ∃ outcome handling : Outcome Unit,
        Process.ComesTo body outcome ∧
        (∀ fault process, outcome = .rejected fault → handler = some process →
          Process.ComesTo (Process.handle process fault) handling) ∧
        (∀ j, i ≤ j → ∃ t, (after acts j).tasks[n]? = some t ∧ (t.done = .pending ∨ t.done = .resolved ()) ∧
          (after acts j).milestones n <+: Task.milestones outcome handling handler.isSome) ∧
        ∀ᶠ j in atTop, ∃ t, (after acts j).tasks[n]? = some t ∧
          (after acts j).milestones n = Task.milestones outcome handling handler.isSome ∧
          (outcome = .pending ↔ t.stage.part? = some .body) ∧
          ((∃ fault, outcome = .rejected fault) ∧ handling = .pending ↔ t.stage.part? = some .handler) ∧
          (t.done = .pending ↔
            outcome = .pending ∨ handler.isSome ∧ (∃ fault, outcome = .rejected fault) ∧ handling = .pending) := by
  refine ⟨fun l => rfl, fun acts i n hsteps ht => ?_⟩
  have hfits : ∀ {k t'}, i ≤ k → (after acts k).tasks[n]? = some t' → t'.Fits body ((after acts k).milestones n) ∧
      t'.handler = handler := by
    intro k t' hik ht'
    obtain ⟨t₁, ht₁, hfits⟩ := fits_of_le ht (fits_begin ht) hik
    obtain ⟨t₂, ht₂, hkeeps, -⟩ := stays ht hik
    cases ht₁.symm.trans ht'
    cases ht₂.symm.trans ht'
    exact ⟨hfits, hkeeps.handler⟩
  obtain ⟨j, hij, t, htj, hrest⟩ := comes_to_rest hsteps ht
  obtain ⟨hfitsj, hhandlerj⟩ := hfits hij htj
  have hatRestj : t.AtRest ((after acts j).milestones n) := by
    obtain ⟨t', ht', -, -, hlasts⟩ := hrest j (Nat.le_refl j)
    cases ht'.symm.trans htj
    exact hfitsj.atRest hlasts
  -- From `j` on the parts stay as they have come out there, so that is what they come to.
  have hatRest : ∀ k, j ≤ k → ∃ t', (after acts k).tasks[n]? = some t' ∧ t'.AtRest ((after acts k).milestones n) ∧
      t'.handler = handler ∧ t'.body = t.body ∧ t'.handling = t.handling := by
    intro k hjk
    obtain ⟨t', ht', hkeeps, hphase, hlasts⟩ := hrest k hjk
    have hatRest := (hfits (Nat.le_trans hij hjk) ht').1.atRest hlasts
    exact ⟨t', ht', hatRest, hkeeps.handler.trans hhandlerj, hatRestj.stays hatRest hkeeps hphase⟩
  refine ⟨t.body, t.handling, hfitsj.comesTo.1, ?_, fun k hik => ?_, eventually_atTop.2 ⟨j, fun k hjk => ?_⟩⟩
  · exact fun fault process hfault hhandler => hfitsj.comesTo.2 fault process hfault (hhandlerj.trans hhandler)
  · -- What is told at `k` is a part of what is told at a time when the task is at rest.
    obtain ⟨t', ht', -⟩ := stays ht hik
    obtain ⟨t₁, -, hatRest₁, hhandler, hbody, hhandling⟩ := hatRest (max j k) (Nat.le_max_left j k)
    obtain ⟨-, -, -, -, htold⟩ := stays ht' (Nat.le_max_right j k)
    refine ⟨t', ht', (hfits hik ht').1.done, ?_⟩
    rw [← hbody, ← hhandling, ← hhandler, ← hatRest₁.told]
    exact htold
  · obtain ⟨t', ht', hatRest', hhandler, hbody, hhandling⟩ := hatRest k hjk
    rw [← hbody, ← hhandling, ← hhandler]
    exact ⟨t', ht', hatRest'.told, hatRest'.body, hatRest'.handling, hatRest'.done⟩

/-- A task whose body fails with nothing, and whose handler fails too. -/
theorem failing_task_is_sealed :
    let body := Routine.body [.fail .nothing]
    let handler := some (Routine.handler [.fail (.value .null)])
    let acts := (LoopAct.spawn "compile" body handler).first
    (∃ᶠ j in atTop, acts j = .step) ∧ (after acts 1).tasks[0]? = some (.begin "compile" body handler) ∧
      ∀ᶠ j in atTop, (after acts j).milestones 0 =
        [.spawned, .began, .failed .nothing, .handling .nothing, .handlerFailed (.value .null)] := by
  intro body handler acts
  have hsteps : ∃ᶠ j in atTop, acts j = .step := LoopAct.frequently_first _
  obtain ⟨outcome, handling, -, -, htold, hrest⟩ :=
    (spawned_tasks_are_sealed "compile" body handler).2 acts 1 0 hsteps rfl
  refine ⟨hsteps, rfl, hrest.mono fun j hj => ?_⟩
  obtain ⟨-, -, hall, -⟩ := hj
  rw [hall]
  -- All of it has been told after ten steps, and there never is more to tell.
  obtain ⟨-, -, -, hten⟩ := htold 10 (by decide)
  have hrun : (after acts 10).milestones 0 =
      [.spawned, .began, .failed .nothing, .handling .nothing, .handlerFailed (.value .null)] := by
    cbv
  rw [hrun] at hten
  exact (hten.eq_of_length_le (Task.length_milestones_le _ _ _)).symm

end Loop

end AsmLens
