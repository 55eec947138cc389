import AsmLens.Proofs.Prompting

/-!
# Answers to prompts

The user may turn to any prompt at any time, also to one that was answered before. `Workbench.Turn` says what one
act does about the prompts and the tasks that wait for them: an answer to an open prompt takes it away and makes
the task go on that waits for it, an answer to a closed one does nothing at all, and the task that goes on poses
one prompt at most. So every prompt that is open is shown and waited for (`Workbench.Attended`), and each was shown
once, and taken away once if it is closed (`Window.Chronicled`).
-/

namespace AsmLens

open Window

/-! ### Prompts in the window -/

namespace Window

variable {w w' : Window} {n : Nat} {p : Prompt} {n? : Option Nat}

/-- What the program did about the prompt with a number so far, in order. -/
def about (w : Window) (n : Nat) : List Event := w.events.filter fun e => e.prompt? = some n

theorem about_eq (w : Window) (n : Nat) : w.about n = w.prompted.filter fun e => e.prompt? = some n := by
  rw [about, prompted, List.filter_filter]
  congr 1
  funext e
  rw [Event.isPrompt]
  cases e.prompt? <;> simp

theorem about_of_prompted {l : List Event} (h : w'.prompted = w.prompted ++ l) (n : Nat) :
    w'.about n = w.about n ++ l.filter fun e => e.prompt? = some n := by
  rw [about_eq, about_eq, h, List.filter_append]

theorem dismiss_prompted (w : Window) (n : Nat) (p : Prompt) :
    (w.dismiss n p).prompted = w.prompted ++ [.promptDisposed n] := List.filter_append _ _

theorem dismiss_getElem? (hp : w.prompts[n]? = some p) (k : Nat) :
    (w.dismiss n p).prompts[k]? = if k = n then some p.finished else w.prompts[k]? := by
  show (w.prompts.set n p.finished)[k]? = _
  by_cases hk : k = n
  · subst hk
    rw [if_pos rfl, List.getElem?_set_self (List.getElem?_eq_some_iff.1 hp).1]
  · rw [if_neg hk, List.getElem?_set_ne (Ne.symm hk)]

theorem dismiss_length (w : Window) (n : Nat) (p : Prompt) :
    (w.dismiss n p).prompts.length = w.prompts.length := List.length_set

theorem getElem?_concat_eq_some {α : Type} {l : List α} {a b : α} {k : Nat} (h : (l ++ [a])[k]? = some b) :
    l[k]? = some b ∨ k = l.length ∧ b = a := by
  rw [List.getElem?_append] at h
  split at h
  · exact .inl h
  · rw [List.getElem?_singleton] at h
    split at h
    · exact .inr ⟨by omega, (Option.some.inj h).symm⟩
    · nomatch h

theorem Poses.getElem? (h : Poses n? w w') {k : Nat} (hk : k < w.prompts.length) :
    w'.prompts[k]? = w.prompts[k]? := by
  cases n? with
  | none => rw [h.prompts]
  | some n =>
    obtain ⟨kind, e, -, -, hprompts, -⟩ := h
    rw [hprompts, List.getElem?_append_left hk]

theorem Poses.length_le (h : Poses n? w w') : w.prompts.length ≤ w'.prompts.length := by
  cases n? with
  | none => exact Nat.le_of_eq (congrArg List.length h.prompts).symm
  | some n =>
    obtain ⟨kind, e, -, -, hprompts, -⟩ := h
    rw [hprompts, List.length_append]
    exact Nat.le_add_right _ _

theorem Poses.of_getElem? (h : Poses n? w w') {k : Nat} (hp : w'.prompts[k]? = some p) :
    w.prompts[k]? = some p ∨ k = w.prompts.length ∧ n? = some k ∧ p.state = .shown := by
  cases n? with
  | none => exact .inl (h.prompts ▸ hp)
  | some n =>
    obtain ⟨kind, e, rfl, -, hprompts, -⟩ := h
    rcases getElem?_concat_eq_some (hprompts ▸ hp) with hp | ⟨rfl, rfl⟩
    · exact .inl hp
    · exact .inr ⟨rfl, rfl, rfl⟩

/-- The prompt with a number was answered and taken away. -/
def Closed (w : Window) (n : Nat) : Prop := w.prompts[n]?.map (·.state) = some .closed

instance (w : Window) (n : Nat) : Decidable (w.Closed n) := inferInstanceAs (Decidable (_ = _))

/-- The numbers of the prompts that were not taken away. -/
def openPrompts (w : Window) : List Nat := (List.range w.prompts.length).filter fun n => ¬ w.Closed n

theorem not_closed_of_getElem? (hp : w.prompts[n]? = some p) (hshown : p.state = .shown) : ¬ w.Closed n := by
  rw [Closed, hp, Option.map_some, hshown]
  nofun

theorem dismiss_closed_iff (hp : w.prompts[n]? = some p) (k : Nat) :
    (w.dismiss n p).Closed k ↔ k = n ∨ w.Closed k := by
  rw [Closed, dismiss_getElem? hp]
  split
  · rename_i hk
    exact iff_of_true rfl (.inl hk)
  · rename_i hk
    exact (or_iff_right hk).symm

theorem Poses.closed_iff (h : Poses n? w w') (k : Nat) : w'.Closed k ↔ w.Closed k := by
  by_cases hk : k < w.prompts.length
  · rw [Closed, Closed, h.getElem? hk]
  · have hnone : w.prompts[k]? = none := List.getElem?_eq_none (Nat.le_of_not_lt hk)
    rw [Closed, Closed, hnone]
    refine iff_of_false (fun hclosed => ?_) nofun
    obtain ⟨q, hq, hstate⟩ := Option.map_eq_some_iff.1 hclosed
    rcases h.of_getElem? hq with hold | ⟨-, -, hshown⟩
    · exact nomatch hnone.symm.trans hold
    · exact nomatch hstate.symm.trans hshown

/-- Each prompt was shown once, and is taken away once if it is closed. -/
structure Chronicled (w : Window) : Prop where
  shown : ∀ n p, w.prompts[n]? = some p →
    ∃ e, e.Shows n p.kind ∧ w.about n = e :: if p.state = .closed then [.promptDisposed n] else []
  unheard : ∀ n, w.prompts.length ≤ n → w.about n = []

theorem Chronicled.dismiss (h : w.Chronicled) (hp : w.prompts[n]? = some p) (hshown : p.state = .shown) :
    (w.dismiss n p).Chronicled where
  shown k q hq := by
    rw [dismiss_getElem? hp] at hq
    rw [about_of_prompted (dismiss_prompted w n p)]
    split at hq
    · rename_i hk
      subst hk
      cases hq
      obtain ⟨e, he, habout⟩ := h.shown k p hp
      refine ⟨e, he, ?_⟩
      rw [habout, hshown]
      simp [Event.prompt?]
    · rename_i hk
      obtain ⟨e, he, habout⟩ := h.shown k q hq
      refine ⟨e, he, ?_⟩
      rw [habout]
      simp [Event.prompt?, Ne.symm hk]
  unheard k hk := by
    rw [dismiss_length] at hk
    have hn := (List.getElem?_eq_some_iff.1 hp).1
    rw [about_of_prompted (dismiss_prompted w n p), h.unheard k hk]
    simp [Event.prompt?, show n ≠ k by omega]

theorem Chronicled.poses (h : w.Chronicled) (hposes : Poses n? w w') : w'.Chronicled := by
  cases n? with
  | none =>
    have habout : ∀ n, w'.about n = w.about n := fun n => by
      rw [about_eq, about_eq, show w'.prompted = w.prompted from hposes.keeps]
    exact ⟨fun n p hp => habout n ▸ h.shown n p (hposes.prompts ▸ hp),
      fun n hn => (habout n).trans (h.unheard n (hposes.prompts ▸ hn))⟩
  | some n =>
    obtain ⟨kind, e, rfl, he, hprompts, hprompted⟩ := hposes
    have habout : ∀ k, w'.about k = w.about k ++ if k = w.prompts.length then [e] else [] := fun k => by
      rw [about_of_prompted hprompted, List.filter_cons, he.prompt?, List.filter_nil]
      by_cases hk : k = w.prompts.length
      · simp [hk]
      · simp [hk, Ne.symm hk]
    refine ⟨fun k p hp => ?_, fun k hk => ?_⟩
    · rcases getElem?_concat_eq_some (hprompts ▸ hp) with hold | ⟨rfl, rfl⟩
      · rw [habout, if_neg (Nat.ne_of_lt (List.getElem?_eq_some_iff.1 hold).1), List.append_nil]
        exact h.shown k p hold
      · refine ⟨e, he, ?_⟩
        rw [habout, h.unheard _ (Nat.le_refl _), if_pos rfl]
        rfl
    · rw [hprompts, List.length_append, List.length_singleton] at hk
      rw [habout, if_neg (by omega), List.append_nil]
      exact h.unheard k (by omega)

end Window

/-! ### Answers -/

namespace Step

/-- The answer that the user gives by a step to the prompt with a number, whether or not it is still open. -/
def outcome? (step : Step) (n : Nat) (w : Window) : Option Answer := do
  let (named, read) ← step.reading?
  if w.promptFor? named = some n then return read (← w.prompts[n]?) else none

variable {w : Window} {step : Step} {named : Option Nat} {read : Prompt → Answer}

theorem outcome?_of_reading (h : step.reading? = some (named, read)) (n : Nat) :
    step.outcome? n w = if w.promptFor? named = some n then w.prompts[n]?.map read else none := by
  unfold outcome?
  rw [h]
  show (if w.promptFor? named = some n then _ else _) = _
  split
  · cases w.prompts[n]? <;> rfl
  · rfl

theorem outcome?_of_no_reading (h : step.reading? = none) (n : Nat) : step.outcome? n w = none := by
  unfold outcome?
  rw [h]
  rfl

end Step

/-- The answer to the prompt with a number that the program gets notice of. -/
def Notice.answer? (n : Nat) : Notice → Option Answer
  | .answered k answer => if k = n then some answer else none
  | _ => none

theorem Step.perform_of_no_reading {step : Step} (h : step.reading? = none) (n : Nat) (w : Window) :
    Gives step.perform w fun l _ => l.filterMap (Notice.answer? n) = [] := by
  refine (perform_brings step w).mono fun l _ hl => List.filterMap_eq_nil_iff.2 fun m hm => ?_
  cases hl m hm with
  | answered hreading =>
    rw [h] at hreading
    nomatch hreading
  | _ => rfl

namespace Act

/-- The answer that the user gives by an act to the prompt with a number. -/
def outcome? (a : Act) (n : Nat) (b : Workbench) : Option Answer :=
  match a with
  | .step s => s.outcome? n b.window
  | _ => none

/-- The answers to the prompt with a number that the program gets notice of. -/
def answers (a : Act) (n : Nat) (b : Workbench) : List Answer :=
  match a with
  | .step s => (s.perform b.window).1.filterMap (Notice.answer? n)
  | _ => []

/-- The tasks that go on by an act with an answer to the prompt with a number, and their answers. -/
def resumes (a : Act) (n : Nat) (b : Workbench) : List (Job × Answer) :=
  (b.jobs.filter (·.prompt? = some n)).product (a.answers n b)

end Act

namespace Workbench

variable {b : Workbench}

/-- Every prompt that was made and not taken away is shown, and one of the tasks waits for it. -/
structure Attended (w : Window) (jobs : List Job) : Prop where
  displayed : ∀ p ∈ w.prompts, p.state ≠ .made
  awaited : ∀ n p, w.prompts[n]? = some p → p.state = .shown → ∃ job ∈ jobs, job.prompt? = some n

/-- A task goes on by an act with an answer to the prompt with a number, and the others keep waiting. -/
def Resumes (b : Workbench) (a : Act) (n : Nat) (job : Job) (answer : Answer) : Prop :=
  ∃ before after p, b.jobs = before ++ job :: after ∧ b.window.prompts[n]? = some p ∧
    let r := contain job.name (onAnswer answer job) { b with window := b.window.dismiss n p }
    b.after a = { r.2 with jobs := before ++ r.1.toList ++ after }

/-- What an act does about the prompts and the tasks that wait for them. -/
inductive Turn (b : Workbench) (a : Act) : Prop where
  /-- A prompt that is open is answered and taken away, and the task goes on that waits for it. -/
  | answered {n : Nat} {p : Prompt} {answer : Answer} {before after : List Job} {job : Job} {j : Option Job}
    (houtcome : ∀ m, a.outcome? m b = if m = n then some answer else none)
    (hanswers : ∀ m, a.answers m b = if m = n then [answer] else [])
    (hprompt : b.window.prompts[n]? = some p) (hshown : p.state = .shown)
    (hjobs : b.jobs = before ++ job :: after) (hwaits : job.prompt? = some n)
    (hresumes : b.Resumes a n job answer)
    (hafter : (b.after a).jobs = before ++ j.toList ++ after)
    (hposes : Poses (j.bind Job.prompt?) (b.window.dismiss n p) (b.after a).window)
  /-- No prompt is answered that is open, and at most one other task goes on. -/
  | unanswered {before after : List Job} {i j : Option Job}
    (houtcome : ∀ n, (a.outcome? n b).isSome = true → b.window.Closed n)
    (hanswers : ∀ n, a.answers n b = [])
    (hjobs : b.jobs = before ++ i.toList ++ after) (hwaits : i.bind Job.prompt? = none)
    (hafter : (b.after a).jobs = before ++ j.toList ++ after)
    (hposes : Poses (j.bind Job.prompt?) b.window (b.after a).window)

theorem lt_of_promptFor? {w : Window} {named : Option Nat} {n : Nat} (h : w.promptFor? named = some n) :
    n < w.prompts.length := by
  unfold promptFor? at h
  cases named with
  | some k =>
    dsimp only at h
    split at h
    · cases h
      assumption
    · nomatch h
  | none =>
    have hmem := List.mem_of_find?_eq_some h
    rw [List.mem_reverse, List.mem_range] at hmem
    exact hmem

theorem turn_of_quiet {a : Act}
    (houtcome : ∀ n, (a.outcome? n b).isSome = true → b.window.Closed n)
    (hanswers : ∀ n, a.answers n b = []) (hjobs : KeepsJobs b (b.after a))
    (hwindow : InWindow Unprompted b (b.after a)) : b.Turn a :=
  have hall : b.jobs = b.jobs ++ (none : Option Job).toList ++ [] := by simp
  .unanswered houtcome hanswers hall rfl (j := none) (hjobs.trans hall) hwindow

theorem after_step (step : Step) (b : Workbench) : b.after (.step step) =
    ((step.perform b.window).1.forM onNotice { b with window := (step.perform b.window).2 }).2 :=
  congrArg Prod.snd (perform_eq step b)

section reading

variable {step : Step} {named : Option Nat} {read : Prompt → Answer} {n : Nat} {p : Prompt}
  (hreading : step.reading? = some (named, read))

include hreading

theorem turn_of_no_prompt (hfor : b.window.promptFor? named = none) : b.Turn (.step step) := by
  have hperform : Gives step.perform b.window fun l w => l = [] ∧ Unprompted b.window w := by
    rw [Step.perform_of_reading hreading]
    refine .look ?_
    rw [hfor]
    exact ⟨rfl, emit_untouched rfl b.window⟩
  have hafter := after_step step b
  rw [hperform.1] at hafter
  refine turn_of_quiet (fun m hsome => ?_) (fun m => ?_) (hafter ▸ rfl) (hafter ▸ hperform.2)
  · rw [show (Act.step step).outcome? m b = _ from Step.outcome?_of_reading hreading m, hfor] at hsome
    nomatch hsome
  · show (step.perform b.window).1.filterMap _ = []
    rw [hperform.1]
    rfl

variable (hfor : b.window.promptFor? named = some n) (hp : b.window.prompts[n]? = some p)

include hfor hp

theorem outcome?_of_promptFor? (m : Nat) :
    (Act.step step).outcome? m b = if m = n then some (read p) else none := by
  refine (Step.outcome?_of_reading hreading m).trans ?_
  by_cases hm : m = n
  · subst hm
    rw [if_pos hfor, if_pos rfl, hp, Option.map_some]
  · rw [if_neg (by rw [hfor]; exact fun h => hm (Option.some.inj h).symm), if_neg hm]

theorem turn_of_closed (hclosed : p.state = .closed) : b.Turn (.step step) := by
  have hperform : step.perform b.window = ([], b.window) := by
    rw [Step.perform_of_reading hreading, Step.answerPrompt_of_not_shown read hfor hp (by rw [hclosed]; nofun)]
  have hafter := after_step step b
  rw [hperform] at hafter
  change b.after (.step step) = b at hafter
  refine turn_of_quiet (fun m hsome => ?_) (fun m => ?_) ?_ ?_
  · rw [outcome?_of_promptFor? hreading hfor hp] at hsome
    split at hsome
    · rename_i hm
      rw [hm, Closed, hp, Option.map_some, hclosed]
    · nomatch hsome
  · show (step.perform b.window).1.filterMap _ = []
    rw [hperform]
    rfl
  · rw [hafter]
    exact Frame.refl b
  · rw [hafter]
    exact Frame.refl (R := Unprompted) b.window

theorem Valid.turn_of_shown (hb : b.Valid) (hattended : Attended b.window b.jobs) (hshown : p.state = .shown) :
    b.Turn (.step step) := by
  have hperform : step.perform b.window = ([.answered n (read p)], b.window.dismiss n p) := by
    rw [Step.perform_of_reading hreading, Step.answerPrompt_eq_of_shown read hfor hp hshown]
  obtain ⟨job, hmem, hprompt⟩ := hattended.awaited n p hp hshown
  have hanswered : job.AnsweredBy b.window step (.answered n (read p)) :=
    ⟨by rw [hperform], (Job.prompt?_eq_some_iff.1 hprompt).symm⟩
  obtain ⟨before, after, what, hjobs, hwait, hn, -, -, hresult⟩ := hb.goes_on hmem hanswered
  rw [hperform] at hresult
  have hposes := contain_posing job.name (go_posing hn hwait) { b with window := b.window.dismiss n p }
  refine .answered (outcome?_of_promptFor? hreading hfor hp) (fun m => ?_) hp hshown hjobs hprompt
    ⟨before, after, p, hjobs, hp, hresult⟩ (congrArg Workbench.jobs hresult) (hresult ▸ hposes)
  show (step.perform b.window).1.filterMap _ = _
  rw [hperform, List.filterMap_cons, List.filterMap_nil]
  by_cases hm : n = m
  · simp [Notice.answer?, hm]
  · simp [Notice.answer?, hm, Ne.symm hm]

end reading

theorem Valid.turn_of_no_reading (hb : b.Valid) {step : Step} (hreading : step.reading? = none) :
    b.Turn (.step step) := by
  have hwindow : Unprompted b.window (step.perform b.window).2 :=
    Step.perform_untouched (p := Event.isPrompt) rfl hreading b.window
  have hnone : ∀ m, (Act.step step).answers m b = [] := fun m => Step.perform_of_no_reading hreading m b.window
  have houtcome : ∀ m : Nat, ((Act.step step).outcome? m b).isSome = true → b.window.Closed m := by
    intro m hsome
    rw [show (Act.step step).outcome? m b = none from Step.outcome?_of_no_reading hreading m] at hsome
    nomatch hsome
  by_cases hanswered : ∃ n, ∃ job ∈ b.jobs, job.AnsweredBy b.window step n
  · obtain ⟨n, job, hmem, hanswered⟩ := hanswered
    obtain ⟨before, after, what, hjobs, hwait, hn, -, -, hresult⟩ := hb.goes_on hmem hanswered
    have hposes := contain_posing job.name (go_posing hn hwait) { b with window := (step.perform b.window).2 }
    refine .unanswered (i := some job) houtcome hnone (hjobs.trans (by simp)) ?_
      (congrArg Workbench.jobs hresult) (hresult ▸ hposes.after hwindow)
    -- An answer to a prompt would have been noticed.
    refine Option.eq_none_iff_forall_ne_some.2 fun k hk => ?_
    have hk' : n.wakes? = some (.prompt k) := by
      rw [hn, ← hwait]
      exact Job.prompt?_eq_some_iff.1 hk
    have hnotice := hnone k
    change (step.perform b.window).1.filterMap _ = [] at hnotice
    rw [hanswered.1] at hnotice
    cases n with
    | answered m answer =>
      cases hk'
      rw [List.filterMap_cons, Notice.answer?, if_pos rfl] at hnotice
      nomatch hnotice
    | _ => nomatch hk'
  · have hjobs := hb.unanswered (R := KeepsJobs) hanswered fun n _ b' hn _ => (onNotice_heard hn b').jobs
    have hheard := hb.unanswered (R := InWindow Unprompted) hanswered fun n _ b' hn _ => onNotice_displays hn b'
    exact turn_of_quiet houtcome hnone hjobs (Frame.trans (R := Unprompted) hwindow hheard)

theorem tellUnawaited_unprompted (text : String) : Within Unprompted (tellUnawaited text) :=
  tellUnawaited_framed (R := Unprompted) (fun _ => emit_untouched rfl) text

/-- A command begins at most one task, and poses no prompt but the one that this task waits for. -/
theorem invoke_posing (id : String) (arguments : List Json) (b : Workbench) :
    Gives (invoke id arguments) b fun _ b' =>
      ∃ j : Option Job, b'.jobs = b.jobs ++ j.toList ∧ Poses (j.bind Job.prompt?) b.window b'.window := by
  have hidle : ∀ {b' : Workbench}, b'.jobs = b.jobs → Unprompted b.window b'.window →
      ∃ j : Option Job, b'.jobs = b.jobs ++ j.toList ∧ Poses (j.bind Job.prompt?) b.window b'.window :=
    fun hjobs hwindow => ⟨none, hjobs.trans (List.append_nil _).symm, hwindow⟩
  unfold invoke
  refine look ?_
  split
  · unfold runCommand
    refine look ?_
    split
    · exact hidle rfl (tellUnawaited_unprompted _ b.window)
    · exact spawn_posing (f := fun r : Compile.Run × Compile.Stage => .compile r.1 r.2) "compile"
        (Compile.start_posing _ _ _) b
    · exact hidle rfl (tellUnawaited_unprompted _ b.window)
    · exact spawn_posing (f := fun r : Format.Run × Format.Stage => .format r.1 r.2) "format"
        (Format.start_posing _ _) b
    · exact hidle rfl (Frame.refl b.window)
    · exact spawn_posing "tooltip" (.of_holds (Tooltip.start_framed _ _ _) Job.prompt?_tooltip) b
    · exact hidle rfl (Controller.finishWhere_framed (R := Unprompted) b.highlights _ b.window)
  · exact hidle rfl (emit_untouched rfl b.window)

theorem Valid.turn (hb : b.Valid) (hattended : Attended b.window b.jobs) (a : Act) : b.Turn a := by
  cases a with
  | step step =>
    cases hreading : step.reading? with
    | none => exact hb.turn_of_no_reading hreading
    | some reading =>
      obtain ⟨named, read⟩ := reading
      cases hfor : b.window.promptFor? named with
      | none => exact turn_of_no_prompt hreading hfor
      | some n =>
        obtain ⟨p, hp⟩ : ∃ p, b.window.prompts[n]? = some p :=
          ⟨_, List.getElem?_eq_getElem (lt_of_promptFor? hfor)⟩
        cases hstate : p.state with
        | made => exact absurd hstate (hattended.displayed p (List.mem_of_getElem? hp))
        | shown => exact hb.turn_of_shown hreading hfor hp hattended hstate
        | closed => exact turn_of_closed hreading hfor hp hstate
  | invoke id arguments =>
    obtain ⟨j, hjobs, hposes⟩ := invoke_posing id arguments b
    have hall : b.jobs = b.jobs ++ (none : Option Job).toList ++ [] := by simp
    exact .unanswered (fun _ => nofun) (fun _ => rfl) hall rfl (hjobs.trans (List.append_nil _).symm) hposes
  | deactivate =>
    exact turn_of_quiet (fun _ => nofun) (fun _ => rfl) rfl (deactivate_framed (R := Unprompted) b)
  | dispose =>
    exact turn_of_quiet (fun _ => nofun) (fun _ => rfl) (dispose_keepsJobs b) (dispose_framed (R := Unprompted) b)

/-! ### What a turn keeps -/

variable {a : Act}

theorem Turn.chronicled (h : b.Turn a) (hb : b.window.Chronicled) : (b.after a).window.Chronicled := by
  cases h with
  | answered _ _ hprompt hshown _ _ _ _ hposes => exact (hb.dismiss hprompt hshown).poses hposes
  | unanswered _ _ _ _ _ hposes => exact hb.poses hposes

section Attended

variable {w w' : Window} {before after : List Job} {n : Nat} {p : Prompt}

theorem Attended.answered {job : Job} (h : Attended w (before ++ job :: after)) (hp : w.prompts[n]? = some p)
    (hwaits : job.prompt? = some n) : Attended (w.dismiss n p) (before ++ after) := by
  refine ⟨fun q hq => ?_, fun k q hq hshown => ?_⟩
  · rcases List.mem_or_eq_of_mem_set hq with hq | rfl
    · exact h.displayed q hq
    · nofun
  · rw [dismiss_getElem? hp] at hq
    split at hq
    · cases hq
      nomatch hshown
    · rename_i hne
      obtain ⟨job', hjob', hwaits'⟩ := h.awaited k q hq hshown
      refine ⟨job', ?_, hwaits'⟩
      rcases List.mem_append.1 hjob' with hjob' | hjob'
      · exact List.mem_append_left _ hjob'
      · rcases List.mem_cons.1 hjob' with rfl | hjob'
        · exact absurd (Option.some.inj (hwaits'.symm.trans hwaits)) hne
        · exact List.mem_append_right _ hjob'

theorem Attended.unanswered {i : Option Job} (h : Attended w (before ++ i.toList ++ after))
    (hi : i.bind Job.prompt? = none) : Attended w (before ++ after) := by
  refine ⟨h.displayed, fun k q hq hshown => ?_⟩
  obtain ⟨job, hjob, hwaits⟩ := h.awaited k q hq hshown
  refine ⟨job, ?_, hwaits⟩
  simp only [List.mem_append, Option.mem_toList] at hjob ⊢
  rcases hjob with (hjob | rfl) | hjob
  · exact .inl hjob
  · exact nomatch hwaits.symm.trans hi
  · exact .inr hjob

theorem Attended.poses {j : Option Job} (h : Attended w (before ++ after))
    (hposes : Poses (j.bind Job.prompt?) w w') : Attended w' (before ++ j.toList ++ after) := by
  refine ⟨fun q hq => ?_, fun k q hq hshown => ?_⟩
  · obtain ⟨k, hk⟩ := List.mem_iff_getElem?.1 hq
    rcases hposes.of_getElem? hk with hk | ⟨-, -, hstate⟩
    · exact h.displayed q (List.mem_of_getElem? hk)
    · rw [hstate]
      nofun
  · rcases hposes.of_getElem? hq with hk | ⟨-, hk, -⟩
    · obtain ⟨job, hjob, hwaits⟩ := h.awaited k q hk hshown
      refine ⟨job, ?_, hwaits⟩
      simp only [List.mem_append] at hjob ⊢
      exact hjob.imp_left .inl
    · obtain ⟨job, rfl, hwaits⟩ := Option.bind_eq_some_iff.1 hk
      exact ⟨job, by simp, hwaits⟩

end Attended

theorem Turn.attended (h : b.Turn a) (hb : Attended b.window b.jobs) :
    Attended (b.after a).window (b.after a).jobs := by
  cases h with
  | answered _ _ hprompt _ hjobs hwaits _ hafter hposes =>
    rw [hjobs] at hb
    exact hafter ▸ (hb.answered hprompt hwaits).poses hposes
  | unanswered _ _ hjobs hwaits hafter hposes =>
    rw [hjobs] at hb
    exact hafter ▸ (hb.unanswered hwaits).poses hposes

theorem Turn.length_le (h : b.Turn a) : b.window.prompts.length ≤ (b.after a).window.prompts.length := by
  cases h with
  | answered _ _ _ _ _ _ _ _ hposes => exact (dismiss_length ..) ▸ hposes.length_le
  | unanswered _ _ _ _ _ hposes => exact hposes.length_le

theorem Turn.answers_eq_nil (h : b.Turn a) {n : Nat} (hn : b.window.prompts.length ≤ n) :
    a.answers n b = [] := by
  cases h with
  | answered _ hanswers hprompt _ _ _ _ _ _ =>
    have hlt := (List.getElem?_eq_some_iff.1 hprompt).1
    rw [hanswers, if_neg (by omega)]
  | unanswered _ hanswers _ _ _ _ => exact hanswers n

theorem resumes_of_no_answer {n : Nat} (h : a.answers n b = []) : a.resumes n b = [] := by
  simp [Act.resumes, h, List.product]

section Valid

variable {before after : List Job} {job : Job} {n : Nat}

/-- No two tasks wait for one prompt. -/
theorem Valid.eq_of_prompt? (hb : b.Valid) (hjobs : b.jobs = before ++ job :: after)
    (hwaits : job.prompt? = some n) {k : Job} (hk : k ∈ b.jobs) (hkwaits : k.prompt? = some n) : k = job := by
  have hothers := hb.others hjobs (Job.prompt?_eq_some_iff.1 hwaits)
  rw [hjobs] at hk
  rcases List.mem_append.1 hk with hk | hk
  · exact absurd (Job.prompt?_eq_some_iff.1 hkwaits) (hothers k (List.mem_append_left _ hk))
  · rcases List.mem_cons.1 hk with rfl | hk
    · rfl
    · exact absurd (Job.prompt?_eq_some_iff.1 hkwaits) (hothers k (List.mem_append_right _ hk))

theorem Valid.resumes_of_answer (hb : b.Valid) (hjobs : b.jobs = before ++ job :: after)
    (hwaits : job.prompt? = some n) {answers : List Answer} (hanswers : a.answers n b = answers) :
    a.resumes n b = answers.map (job, ·) := by
  have hothers := hb.others hjobs (Job.prompt?_eq_some_iff.1 hwaits)
  have hnone : ∀ l : List Job, (∀ k ∈ l, k ∈ before ++ after) → l.filter (·.prompt? = some n) = [] := by
    refine fun l hl => List.filter_eq_nil_iff.2 fun k hk => ?_
    rw [decide_eq_true_eq, Job.prompt?_eq_some_iff]
    exact hothers k (hl k hk)
  have hfilter : b.jobs.filter (·.prompt? = some n) = [job] := by
    rw [hjobs, List.filter_append, List.filter_cons_of_pos (by simpa using hwaits),
      hnone before fun _ => List.mem_append_left _, hnone after fun _ => List.mem_append_right _]
    rfl
  rw [Act.resumes, hfilter, hanswers]
  simp [List.product]

end Valid

end Workbench

end AsmLens
