import AsmLens.Proofs.Configuration
import AsmLens.Proofs.Answering

/-!
# What comes of a command

A command begins one task at most, and when the task has gone on there is one task at most that came of it. So
after all of a list there is one task at most that was led there from the command (`Led.eq`), and when it ends
there is none ever after (`Led.over`).
-/

namespace AsmLens

open Window

/-! ### An answer uses up what was waited for -/

theorem Step.isNew_of_answer {step : Step} {w : Window} {n : Notice} {what other : Wait}
    (hl : (step.perform w).1 = [n]) (hn : n.wakes? = some what) (h : other.IsNew (step.perform w).2) :
    other.IsNew w := by
  have hupholds := step.perform_upholds w
  unfold Gives at hupholds
  cases other with
  | request k => exact Nat.le_trans (Nat.le_of_eq hupholds.requests.symm) h
  | prompt k => exact Nat.le_trans (Nat.le_of_eq hupholds.prompts.symm) h
  | message k =>
    refine Nat.le_trans (Nat.le_of_eq ?_) h
    cases perform_brings step w n (hl ▸ List.mem_cons_self) with
    | replied hrequest => rw [perform_reply _ hrequest]
    | answered hreading =>
      obtain ⟨⟨named, read⟩, hreading⟩ := Option.isSome_iff_exists.1 hreading
      rw [perform_of_reading hreading]
      show Gives (answerPrompt named read) w fun _ w' => w.messages = w'.messages
      refine Gives.look ?_
      cases w.promptFor? named with
      | none => rfl
      | some m =>
        refine (close_gives m read w).bind fun r w' hw => .pure ?_
        obtain ⟨-, rfl⟩ | ⟨p, -, -, -, rfl⟩ := hw <;> rfl
    | actionChosen => rfl
    | _ => nomatch hn

/-- A task at a later stage of its run. -/
inductive Job.Continues : Job → Job → Prop where
  | compile {run : Compile.Run} {stage stage' : Compile.Stage} : Continues (.compile run stage) (.compile run stage')
  | format {run : Format.Run} {stage stage' : Format.Stage} : Continues (.format run stage) (.format run stage')
  | tooltip {stage stage' : Tooltip.Stage} : Continues (.tooltip stage) (.tooltip stage')

theorem Job.continues_refl (job : Job) : job.Continues job := by cases job <;> constructor

theorem Job.Continues.trans {job job' job'' : Job} (h : job.Continues job') (h' : job'.Continues job'') :
    job.Continues job'' := by
  cases h <;> cases h' <;> constructor

namespace Workbench

variable {b : Workbench} {w : Window} {first acts : List Act} {a : Act} {job job' : Job} {step : Step} {n : Notice}

theorem Valid.left_behind (hb : b.Valid) (hjob : job ∈ b.jobs) (hanswered : job.AnsweredBy b.window step n) :
    job ∉ (b.after (.step step)).jobs := by
  obtain ⟨before, after, what, hjobs, hwait, hn, -, hleaves, hafter⟩ := hb.goes_on hjob hanswered
  have hbegins := (contain_goes hn hwait (hb.toWired.leaves hleaves)).2
  rw [hafter]
  intro hmem
  rw [List.mem_append, List.mem_append, or_right_comm, ← List.mem_append] at hmem
  rcases hmem with hmem | hmem
  · exact hb.others hjobs hwait job hmem hwait
  · have hnew := (hbegins job (Option.mem_toList.1 hmem)).2 what hwait
    exact (hb.waits job hjob).not_new hwait (Step.isNew_of_answer hanswered.1 hn hnew)

/-! ### A run stays what it is -/

theorem continueCompile_continues {run : Compile.Run} {stage : Compile.Stage} {x : Host Compile.Stage} :
    Ends (show Work Job from do continueCompile run (← x)) b
      (fun job' _ => (Job.compile run stage).Continues job') fun _ _ => True := by
  refine Ends.anyhow.bind (fun stage' b₁ _ => ?_) fun _ _ h => h
  unfold continueCompile
  split
  · exact Ends.anyhow.bind (fun _ _ _ => .pure .compile) fun _ _ h => h
  · exact .pure .compile

theorem go_continues (n : Notice) (job : Job) (b : Workbench) :
    Ends (n.go job) b (fun job' _ => job.Continues job') fun _ _ => True := by
  have hgo : ∀ {σ : Type} {x : Work σ} {f : σ → Job}, (∀ a, job.Continues (f a)) →
      Ends (show Work Job from do return f (← x)) b (fun job' _ => job.Continues job') fun _ _ => True :=
    fun hf => Ends.anyhow.bind (fun a _ _ => .pure (hf a)) fun _ _ h => h
  cases n with
  | replied k reply =>
    cases job with
    | compile run stage => exact continueCompile_continues
    | format run stage => exact hgo fun _ => .format
    | tooltip stage =>
      cases stage with
      | fetching k set opcode => exact hgo fun _ => .tooltip
      | _ => exact .pure .tooltip
  | answered k answer =>
    cases job with
    | compile run stage => exact continueCompile_continues
    | format run stage => exact hgo fun _ => .format
    | tooltip stage => exact .pure .tooltip
  | actionChosen k chosen =>
    cases job with
    | tooltip stage =>
      cases stage with
      | linking k link => exact hgo fun _ => .tooltip
      | _ => exact .pure .tooltip
    | _ => exact .pure (Job.continues_refl _)
  | _ => exact .pure job.continues_refl

theorem outcome_continues (b : Workbench) (job : Job) (step : Step) (n : Notice) :
    ∀ job' ∈ b.outcome job step n, job.Continues job' := by
  have hcontain : Gives (contain job.name (n.go job)) { b with window := (step.perform b.window).2 } fun j _ =>
      ∀ job' ∈ j, job.Continues job' := by
    refine contain_gives (go_continues n job _) (fun job' _ h _ => ?_) (fun _ _ _ _ _ h => nomatch h)
      fun fault b' _ => ?_
    · rintro _ ⟨⟩
      exact h
    · exact (onWindow_gives (reportFault_gives job.name fault b'.window)).mono fun _ _ _ _ h => nomatch h
  exact hcontain

theorem Led.begun (hw : w.Fresh) (h : Led w first acts job) : ∃ command arguments later begun,
    acts = first ++ .invoke (Command.id command) arguments :: later ∧
      (Workbench.run w first).Begun arguments command begun ∧ begun.Continues job := by
  induction h with
  | @begins id arguments job hnew hjob =>
    rw [run_concat] at hjob
    obtain ⟨command, rfl, hbegun⟩ := (invoke_begins id arguments _ job hjob).resolve_left hnew
    exact ⟨command, arguments, [], job, rfl, hbegun, job.continues_refl⟩
  | @waits acts a _ _ _ ih =>
    obtain ⟨command, arguments, later, begun, rfl, hbegun, hcontinues⟩ := ih
    exact ⟨command, arguments, later ++ [a], begun, by simp, hbegun, hcontinues⟩
  | @goes acts step n job job' h hanswered hnew hjob ih =>
    rw [run_concat] at hjob
    have hbecomes := (reachable_run hw acts).valid.mem_or_outcome h.mem hanswered hjob
    have hlater := outcome_continues _ job step n job' (hbecomes.resolve_left hnew)
    obtain ⟨command, arguments, later, begun, rfl, hbegun, hcontinues⟩ := ih
    exact ⟨command, arguments, later ++ [.step step], begun, by simp, hbegun, hcontinues.trans hlater⟩

/-! ### One task for a command -/

theorem Valid.one_new (hb : b.Valid) (hnew : job ∉ b.jobs) (hjob : job ∈ (b.after a).jobs) (hnew' : job' ∉ b.jobs)
    (hjob' : job' ∈ (b.after a).jobs) : job = job' := by
  have hone : ∀ j : Option Job, (∀ k ∈ (b.after a).jobs, k ∈ b.jobs ∨ k ∈ j) → job = job' := fun j hj =>
    Option.some.inj (((hj job hjob).resolve_left hnew).symm.trans ((hj job' hjob').resolve_left hnew'))
  obtain hold | ⟨id, arguments, rfl⟩ | ⟨step, n, what, job₀, rfl, hmem, hanswered, -⟩ := hb.job_after hjob
  · exact absurd hold hnew
  · obtain ⟨j, hjobs, -⟩ := invoke_posing id arguments b
    refine hone j fun k hk => ?_
    change k ∈ (Workbench.invoke id arguments b).2.jobs at hk
    rwa [hjobs, List.mem_append, Option.mem_toList] at hk
  · exact hone _ fun k hk => hb.mem_or_outcome hmem hanswered hk

theorem Led.length_lt (h : Led w first acts job) : first.length < acts.length := by
  obtain ⟨id, arguments, later, rfl⟩ := h.has_command
  simp

/-- After all of a list there is one task at most that was led there from a command. -/
theorem Led.eq (hw : w.Fresh) (h : Led w first acts job) (h' : Led w first acts job') : job = job' := by
  induction acts using List.reverseRecOn generalizing job job' with
  | nil => nomatch h.mem
  | append_singleton acts a ih =>
    have hvalid := (reachable_run hw acts).valid
    have hmem := h.mem
    have hmem' := h'.mem
    rw [run_concat] at hmem hmem'
    -- A task that waits is neither just begun nor the one that was answered.
    have hwaits : ∀ {k k' : Job}, Led w first acts k → k ∈ ((Workbench.run w acts).after a).jobs →
        ((∃ id arguments, a = .invoke id arguments) ∧ first = acts ∨
          ∃ step n job₀, a = .step step ∧ Led w first acts job₀ ∧
            job₀.AnsweredBy (Workbench.run w acts).window step n) → k = k' := by
      intro k k' hk hmem hcame
      obtain ⟨-, rfl⟩ | ⟨step, n, job₀, rfl, h₀, hanswered⟩ := hcame
      · exact absurd hk.length_lt (Nat.lt_irrefl _)
      · cases ih hk h₀
        exact absurd hmem (hvalid.left_behind hk.mem hanswered)
    obtain h | ⟨hnew, h⟩ := h.concat
    · obtain h' | ⟨-, h'⟩ := h'.concat
      · exact ih h h'
      · exact hwaits h hmem h'
    · obtain h' | ⟨hnew', -⟩ := h'.concat
      · exact (hwaits h' hmem' h).symm
      · exact hvalid.one_new hnew hmem hnew' hmem'

/-! ### How a task goes on -/

/-- After all of a list a task that was led there from a command goes on by a step. -/
structure MovesOn (w : Window) (first acts : List Act) (job : Job) (step : Step) (n : Notice) : Prop where
  led : Led w first acts job
  answered : job.AnsweredBy (Workbench.run w acts).window step n

/-- A task that is over is not there ever after. -/
theorem Led.over (hw : w.Fresh) (h : MovesOn w first acts job step n)
    (hover : (Workbench.run w acts).outcome job step n = none) (rest : List Act) (job' : Job) :
    ¬ Led w first (acts ++ .step step :: rest) job' := by
  induction rest using List.reverseRecOn generalizing job' with
  | nil =>
    intro h'
    have hvalid := (reachable_run hw acts).valid
    have hmem := h'.mem
    rw [run_concat] at hmem
    obtain h' | ⟨hnew, -⟩ := h'.concat
    · exact hvalid.left_behind h.led.mem h.answered (h.led.eq hw h' ▸ hmem)
    · have hgone := (hvalid.mem_or_outcome h.led.mem h.answered hmem).resolve_left hnew
      rw [hover] at hgone
      nomatch hgone
  | append_singleton rest a ih =>
    intro h'
    rw [← List.cons_append, ← List.append_assoc] at h'
    obtain h' | ⟨-, ⟨-, heq⟩ | ⟨_, _, job₀, -, h', -⟩⟩ := h'.concat
    · exact ih job' h'
    · have hlt := h.led.length_lt
      rw [heq, List.length_append] at hlt
      omega
    · exact ih job₀ h'

end Workbench

end AsmLens
