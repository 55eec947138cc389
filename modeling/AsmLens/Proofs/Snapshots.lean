import AsmLens.Proofs.Provenance
import AsmLens.Proofs.Requests

/-!
# What a compilation posts

The source of a compilation is taken when its command is given, and what is posted is this source, with the
language, the compiler and the arguments that the user chose in the prompts of the task. `Came` follows a task
from its command through the answers that came for it, whatever else has happened in between: the documents,
the selections, the settings and the prompts of other tasks are not part of it. So what is posted does not
depend on them (`compile_posts_snapshot`).
-/

namespace AsmLens

open Window

namespace Compile

/-- A run is what the command to compile keeps of the program, when it is given with these arguments. -/
def Run.IsIssued (run : Run) (b : Workbench) (arguments : List Json) : Prop :=
  ∃ n document selection, Workbench.activeDocument? b.window = some (n, document, selection) ∧
    Source.ofLines document.lines selection (LineRange.ofArguments arguments) = .ok run.source ∧
    run.config = b.window.config ∧ run.uri = document.uri ∧ run.fileName = document.fileName

/-- The stage to which a run comes when this is noticed in a window. -/
inductive Run.Goes (run : Run) (w : Window) : Stage → Notice → Stage → Prop where
  | languages {k : Nat} {body : Option Json} {languages : List Language}
      (h : Catalog.read "languages" Language.read body = .ok (.ok languages)) :
      Goes run w (.fetchingLanguages k) (.replied k (.ok body))
        (.choosingLanguage w.prompts.length (languagesFor run languages))
  | language {k i : Nat} {offered : List Language} {language : Language} (h : offered[i]? = some language) :
      Goes run w (.choosingLanguage k offered) (.answered k (.chosen i))
        (.fetchingCompilers w.requests.length language)
  | compilers {k : Nat} {language : Language} {body : Option Json} {compilers : List Compiler}
      (h : Catalog.read "compilers" Compiler.read body = .ok (.ok compilers)) :
      Goes run w (.fetchingCompilers k language) (.replied k (.ok body))
        (.choosingCompiler w.prompts.length language compilers)
  /-- One of them was chosen in this prompt, and the arguments are asked for in another one. -/
  | compiler {k i : Nat} {language : Language} {offered : List Compiler} {compiler : Compiler}
      (h : offered[i]? = some compiler) :
      Goes run w (.choosingCompiler k language offered) (.answered k (.chosen i))
        (.enteringArguments w.prompts.length language compiler)
  | arguments {k : Nat} {language : Language} {compiler : Compiler} (arguments : String) :
      Goes run w (.enteringArguments k language compiler) (.answered k (.entered arguments))
        (.compiling w.requests.length language compiler arguments)

/-- A run has gone to a stage when this was noticed, unless it waits for nothing there. -/
def Run.MayGo (run : Run) (w : Window) (stage : Stage) (n : Notice) (stage' : Stage) : Prop :=
  (Job.compile run stage').wait?.isSome = true → run.Goes w stage n stage'

/-! ### Stages that go on -/

variable {run : Run} {w : Window}

theorem fetchedCatalog_reads {α : Type} (q : Query) (what : String) (read : Json → Except Fault (Option α))
    (reply : Reply) (w : Window) :
    Ends (q.fetchedCatalog what read reply) w (fun r w' => ∀ catalog, r = .ok catalog →
      w' = w ∧ ∃ body, reply = .ok body ∧ Catalog.read what read body = .ok (.ok catalog)) fun _ _ => True := by
  cases reply with
  | ok body =>
    refine (Ends.ofExcept _).mono (fun r w' h catalog hr => ⟨h.1, body, rfl, ?_⟩) fun _ _ _ => trivial
    rw [h.2, hr]
  | error fault =>
    have hfailed : Ends (q.fetched (.error fault)) w (fun r _ => ∃ e, r = .error e) fun _ _ => True :=
      (Ends.lift (logError_quiet _ _ w)).bind
        (fun _ _ _ => (Ends.ofExcept _).bind (fun text _ _ => .pure ⟨_, rfl⟩) fun _ _ _ => trivial)
        fun _ _ h => h
    refine hfailed.bind (fun r w' hr => ?_) fun _ _ h => h
    obtain ⟨e, rfl⟩ := hr
    exact .pure nofun

theorem refuse_mayGo (why : String) (stage : Stage) (n : Notice) (w' : Window) :
    Ends (refuse why) w' (fun stage' _ => run.MayGo w stage n stage') fun _ _ => True := by
  refine (refuse_ends why w').mono (fun stage' _ h => ?_) fun _ _ _ => trivial
  rw [h.1]
  exact nofun

theorem onReply_mayGo (stage : Stage) (reply : Reply) {k : Nat}
    (hwait : (Job.compile run stage).wait? = some (.request k)) :
    Ends (onReply run stage reply) w (fun stage' _ => run.MayGo w stage (.replied k reply) stage')
      fun _ _ => True := by
  cases stage with
  | fetchingLanguages n =>
    cases hwait
    refine (fetchedCatalog_reads _ _ _ reply w).bind (fun r w₁ hr => ?_) fun _ _ h => h
    cases r with
    | error e => exact refuse_mayGo e _ _ w₁
    | ok languages =>
      obtain ⟨rfl, body, rfl, hread⟩ := hr languages rfl
      show Ends (offerLanguages run languages) w₁ _ _
      unfold offerLanguages
      dsimp only
      split
      · exact refuse_mayGo _ _ _ w₁
      · refine (Prompt.askChoice_ends _ _ _ w₁).bind (fun n w' h => .pure fun _ => ?_) fun _ _ _ => trivial
        rw [h.2.1]
        exact .languages hread
  | fetchingCompilers n language =>
    cases hwait
    refine (fetchedCatalog_reads _ _ _ reply w).bind (fun r w₁ hr => ?_) fun _ _ h => h
    cases r with
    | error e => exact refuse_mayGo e _ _ w₁
    | ok compilers =>
      obtain ⟨rfl, body, rfl, hread⟩ := hr compilers rfl
      show Ends (offerCompilers run language compilers) w₁ _ _
      unfold offerCompilers
      split
      · exact refuse_mayGo _ _ _ w₁
      · refine (Prompt.askChoice_ends _ _ _ w₁).bind (fun n w' h => .pure fun _ => ?_) fun _ _ _ => trivial
        rw [h.2.1]
        exact .compilers hread
  | compiling n language compiler arguments =>
    refine (onReply_compiling_ends run n language compiler arguments reply w).mono (fun stage' w' h => ?_)
      fun _ _ _ => trivial
    obtain ⟨output, -, rfl, -⟩ | ⟨-, rfl, -⟩ := h <;> exact nofun
  | _ => nomatch hwait

theorem onAnswer_mayGo (stage : Stage) (answer : Answer) {k : Nat}
    (hwait : (Job.compile run stage).wait? = some (.prompt k)) :
    Ends (onAnswer run stage answer) w (fun stage' _ => run.MayGo w stage (.answered k answer) stage')
      fun _ _ => True := by
  have hover : Ends (pure .finished : Host Stage) w
      (fun stage' _ => run.MayGo w stage (.answered k answer) stage') fun _ _ => True := .pure nofun
  unfold onAnswer
  split
  · rename_i n offered i
    cases hwait
    cases hi : offered[i]? with
    | none => exact hover
    | some language =>
      refine (Ends.lift ((Query.compilers language.id).send_gives w)).bind (fun n w' h => .pure fun _ => ?_)
        fun _ _ h => h
      rw [h.2.1]
      exact .language hi
  · rename_i n language offered i
    cases hwait
    cases hi : offered[i]? with
    | none => exact hover
    | some compiler =>
      refine (Prompt.askText_ends _ _ w).bind (fun n w' h => .pure fun _ => ?_) fun _ _ _ => trivial
      rw [h.2.1]
      exact .compiler hi
  · rename_i n language compiler arguments
    cases hwait
    have hlog : Gives (log [announcement run compiler]) w fun _ w₁ => w₁.requests = w.requests := rfl
    refine (Ends.lift hlog).bind (fun _ w₁ h₁ => ?_) fun _ _ h => h
    refine (Ends.lift ((query run language compiler arguments).send_gives w₁)).bind
      (fun n w' h => .pure fun _ => ?_) fun _ _ h => h
    rw [h.2.1, h₁]
    exact .arguments arguments
  · exact hover

theorem Run.Goes.of_lengths {w₁ : Window} {stage stage' : Stage} {n : Notice} (h : run.Goes w₁ stage n stage')
    (hrequests : w₁.requests.length = w.requests.length) (hprompts : w₁.prompts.length = w.prompts.length) :
    run.Goes w stage n stage' := by
  cases h with
  | languages h => exact hprompts ▸ .languages h
  | language h => exact hrequests ▸ .language h
  | compilers h => exact hprompts ▸ .compilers h
  | compiler h => exact hprompts ▸ .compiler h
  | arguments arguments => exact hrequests ▸ .arguments arguments

end Compile

namespace Workbench

/-- After all of a list has happened, the task of a run is at a stage, to which it came from its command by
the answers to its own requests and prompts. -/
inductive Came (w : Window) : List Act → Compile.Run → Compile.Stage → Prop where
  | issued {acts : List Act} {arguments : List Json} {run : Compile.Run} {stage : Compile.Stage}
      (h : run.IsIssued (Workbench.run w acts) arguments)
      (hstage : stage = .fetchingLanguages (Workbench.run w acts).window.requests.length)
      (hjob : Job.compile run stage ∈ (Workbench.run w (acts ++ [.invoke Command.compile.id arguments])).jobs) :
      Came w (acts ++ [.invoke Command.compile.id arguments]) run stage
  | waits {acts : List Act} {a : Act} {run : Compile.Run} {stage : Compile.Stage} (h : Came w acts run stage)
      (hjob : Job.compile run stage ∈ (Workbench.run w (acts ++ [a])).jobs) : Came w (acts ++ [a]) run stage
  | goes {acts : List Act} {step : Step} {n : Notice} {run : Compile.Run} {stage stage' : Compile.Stage}
      (h : Came w acts run stage)
      (hanswered : (Job.compile run stage).AnsweredBy (Workbench.run w acts).window step n)
      (hgoes : run.Goes (Workbench.run w acts).window stage n stage')
      (hjob : Job.compile run stage' ∈ (Workbench.run w (acts ++ [.step step])).jobs) :
      Came w (acts ++ [.step step]) run stage'

/-! ### Tasks that go on -/

variable {b : Workbench} {n : Notice} {job : Job} {run : Compile.Run} {stage stage' : Compile.Stage}

/-- If a task is a compilation that waits for something, it came from its last stage when this was noticed. -/
def ComesFrom (job' : Job) (w : Window) (n : Notice) (job : Job) : Prop :=
  ∀ run stage', job' = .compile run stage' → job'.wait?.isSome = true →
    ∃ stage, job = .compile run stage ∧ run.Goes w stage n stage'

theorem continueCompile_comesFrom {x : Host Compile.Stage}
    (hx : Ends x b.window (fun stage' _ => run.MayGo b.window stage n stage') fun _ _ => True) :
    Ends (show Work Job from do continueCompile run (← x)) b
      (fun job' _ => ComesFrom job' b.window n (.compile run stage)) fun _ _ => True := by
  refine (onHost_ends hx).bind (fun stage' b₁ hb => ?_) fun _ _ _ => trivial
  by_cases hcompiled : ∃ compiler output, stage' = .compiled compiler output
  · -- An output is published, and nothing is waited for any more.
    obtain ⟨compiler, output, rfl⟩ := hcompiled
    refine Ends.anyhow.bind (fun _ _ _ => .pure ?_) fun _ _ h => h
    rintro _ _ ⟨⟩
    exact nofun
  · rw [continueCompile_eq run fun compiler output heq => hcompiled ⟨compiler, output, heq⟩]
    refine .pure ?_
    rintro _ _ ⟨⟩ hwaits
    exact ⟨stage, rfl, hb.1 hwaits⟩

theorem go_comesFrom {what : Wait} (hn : n.wakes? = some what) (hwait : job.wait? = some what) (b : Workbench) :
    Ends (n.go job) b (fun job' _ => ComesFrom job' b.window n job) fun _ _ => True := by
  have hother : ∀ {σ : Type} {x : Work σ} {f : σ → Job}, (∀ a run stage', f a ≠ .compile run stage') →
      Ends (show Work Job from do return f (← x)) b (fun job' _ => ComesFrom job' b.window n job)
        fun _ _ => True := fun hf =>
    Ends.anyhow.bind (fun a _ _ => .pure fun run stage' heq => absurd heq (hf a run stage')) fun _ _ h => h
  cases n with
  | replied k reply =>
    cases hn
    cases job with
    | compile run stage => exact continueCompile_comesFrom (Compile.onReply_mayGo stage reply hwait)
    | format run stage => exact hother fun _ _ _ => nofun
    | tooltip stage =>
      cases stage with
      | fetching k set opcode => exact hother fun _ _ _ => nofun
      | _ => nomatch hwait
  | answered k answer =>
    cases hn
    cases job with
    | compile run stage => exact continueCompile_comesFrom (Compile.onAnswer_mayGo stage answer hwait)
    | format run stage => exact hother fun _ _ _ => nofun
    | tooltip stage => cases stage <;> nomatch hwait
  | actionChosen k chosen =>
    cases hn
    cases job with
    | compile run stage => cases stage <;> nomatch hwait
    | format run stage => cases stage <;> nomatch hwait
    | tooltip stage =>
      cases stage with
      | linking k link => exact hother fun _ _ _ => nofun
      | _ => nomatch hwait
  | _ => nomatch hn

theorem contain_comesFrom {what : Wait} (hn : n.wakes? = some what) (hwait : job.wait? = some what)
    (b : Workbench) : Gives (contain job.name (n.go job)) b fun j _ => ∀ run stage',
      j = some (.compile run stage') → ∃ stage, job = .compile run stage ∧ run.Goes b.window stage n stage' := by
  refine contain_gives (go_comesFrom hn hwait b) ?_ (fun _ _ _ _ _ _ => nofun) fun _ _ _ => ?_
  · rintro job' _ h hwaits run stage' ⟨⟩
    exact h run stage' rfl hwaits
  · intro _ _
    exact nofun

/-! ### Tasks that begin -/

theorem start_issues {k : Nat} {document : Document} {selection : Selection} {arguments : List Json}
    (hactive : activeDocument? b.window = some (k, document, selection)) :
    Ends (Compile.start document selection (LineRange.ofArguments arguments)) b.window
      (fun r _ => r.1.IsIssued b arguments ∧ r.2 = .fetchingLanguages b.window.requests.length)
      fun _ _ => True := by
  refine .look ((Ends.ofExcept _).bind (fun source w₁ hw => ?_) fun _ _ _ => trivial)
  obtain ⟨rfl, hsource⟩ := hw
  refine (Ends.lift (Query.languages.send_gives b.window)).bind (fun n w' h => .pure ⟨?_, ?_⟩) fun _ _ h => h
  · exact ⟨k, document, selection, hactive, hsource, rfl, rfl, rfl⟩
  · rw [h.2.1]

theorem spawn_jobs (name : String) {σ : Type} {x : Host σ} {f : σ → Job} {Q : Job → Prop}
    (h : Ends x b.window (fun a _ => Q (f a)) fun _ _ => True) :
    Gives (spawn name do return f (← x)) b fun _ b' => ∀ job ∈ b'.jobs, job ∈ b.jobs ∨ Q job := by
  have hbegins : Ends (show Work Job from do return f (← x)) b (fun job b' => Q job ∧ b.Rests b')
      fun _ b' => b.Rests b' :=
    (onHost_ends h).bind (fun _ _ h => .pure h) fun _ _ h => h.2
  have hcontain : Gives (contain name do return f (← x)) b fun j _ => ∀ job ∈ j, Q job := by
    refine contain_gives hbegins (fun job b' h _ => ?_) (fun _ _ _ _ _ h => nomatch h) fun fault b' _ => ?_
    · rintro _ ⟨⟩
      exact h.1
    · exact (onWindow_gives (reportFault_gives name fault b'.window)).mono fun _ _ _ _ h => nomatch h
  have hrests := hbegins.mono (fun _ _ h => h.2) fun _ _ h => h
  refine (spawn_gives hrests (Q := fun j _ => ∀ job ∈ j, Q job) hcontain).mono fun _ b' h job hjob => ?_
  obtain ⟨j, hjobs, hnew⟩ := h
  rw [hjobs, List.mem_append] at hjob
  exact hjob.imp_right fun hjob => hnew job (Option.mem_toList.1 hjob)

/-- The task with which a command begins. -/
inductive Begun (b : Workbench) (arguments : List Json) : Command → Job → Prop where
  | compile {run : Compile.Run} (hissued : run.IsIssued b arguments) :
      Begun b arguments .compile (.compile run (.fetchingLanguages b.window.requests.length))
  | format {k : Nat} {document : Document} {selection : Selection} {stage : Format.Stage}
      (hactive : activeDocument? b.window = some (k, document, selection)) :
      Begun b arguments .format (.format ⟨b.window.config, k, document.uri, document.text⟩ stage)
  | showTooltip {stage : Tooltip.Stage} : Begun b arguments .showTooltip (.tooltip stage)

theorem invoke_begins (id : String) (arguments : List Json) (b : Workbench) :
    Gives (invoke id arguments) b fun _ b' =>
      ∀ job ∈ b'.jobs, job ∈ b.jobs ∨ ∃ command : Command, command.id = id ∧ b.Begun arguments command job := by
  have hsame : ∀ {x : Action Unit}, Gives (onWindow x) b fun _ b' => ∀ job ∈ b'.jobs,
      job ∈ b.jobs ∨ ∃ command : Command, command.id = id ∧ b.Begun arguments command job := fun _ h => .inl h
  unfold invoke
  refine look ?_
  split
  · rename_i command hcommand
    have hid : command.id = id := by
      split at hcommand
      · simpa using List.find?_some hcommand
      · nomatch hcommand
    unfold runCommand
    refine look ?_
    split
    · exact hsame
    · rename_i k document selection hactive
      refine spawn_jobs "compile" ((start_issues hactive).mono (fun r _ h => ?_) fun _ _ h => h)
      rw [h.2]
      exact ⟨_, hid, .compile h.1⟩
    · exact hsame
    · rename_i k document selection hactive
      refine spawn_jobs "format" ((Format.start_ends k document b.window).mono (fun r _ h => ?_) fun _ _ h => h.elim)
      rw [h.1]
      exact ⟨_, hid, .format hactive⟩
    · exact .pure fun _ h => .inl h
    · exact spawn_jobs "tooltip" (Ends.anyhow.mono (fun _ _ _ => ⟨_, hid, .showTooltip⟩) fun _ _ h => h)
    · exact fun _ h => .inl h
  · exact hsame

/-- If a task is a compilation, then the command to compile has issued it. -/
def IsIssuedBy (b : Workbench) (id : String) (arguments : List Json) (job : Job) : Prop :=
  ∀ run stage, job = .compile run stage → id = Command.compile.id ∧ run.IsIssued b arguments ∧
    stage = .fetchingLanguages b.window.requests.length

theorem invoke_jobs (id : String) (arguments : List Json) (b : Workbench) :
    Gives (invoke id arguments) b fun _ b' =>
      ∀ job ∈ b'.jobs, job ∈ b.jobs ∨ b.IsIssuedBy id arguments job := by
  refine (invoke_begins id arguments b).mono fun _ b' h job hjob => (h job hjob).imp_right ?_
  rintro ⟨command, rfl, hbegun⟩ run stage rfl
  cases hbegun with
  | compile hissued => exact ⟨rfl, hissued, rfl⟩

/-- What becomes of a task that goes on, if it is not over. -/
def outcome (b : Workbench) (job : Job) (step : Step) (n : Notice) : Option Job :=
  (contain job.name (n.go job) { b with window := (step.perform b.window).2 }).1

/-- Only the task that was answered goes on, and the tasks before and after it stay what they are. -/
theorem Valid.mem_or_outcome (hb : b.Valid) {job job' : Job} {step : Step} {n : Notice} (hjob : job ∈ b.jobs)
    (hanswered : job.AnsweredBy b.window step n) (hmem : job' ∈ (b.after (.step step)).jobs) :
    job' ∈ b.jobs ∨ job' ∈ b.outcome job step n := by
  obtain ⟨before, after, what, hjobs, -, -, -, -, hafter⟩ := hb.goes_on hjob hanswered
  rw [hafter] at hmem
  change _ ∈ before ++ _ ++ after at hmem
  rw [List.mem_append, List.mem_append, Option.mem_toList] at hmem
  rcases hmem with (hmem | hmem) | hmem
  · exact .inl (hjobs ▸ List.mem_append_left _ hmem)
  · exact .inr hmem
  · exact .inl (hjobs ▸ List.mem_append_right _ (List.mem_cons_of_mem _ hmem))

theorem Valid.job_after (hb : b.Valid) {a : Act} {job' : Job} (hjob : job' ∈ (b.after a).jobs) :
    job' ∈ b.jobs ∨ (∃ id arguments, a = .invoke id arguments) ∨
      ∃ step n what job, a = .step step ∧ job ∈ b.jobs ∧ job.AnsweredBy b.window step n ∧
        job.wait? = some what ∧ n.wakes? = some what ∧ job' ∈ b.outcome job step n := by
  cases a with
  | step step =>
    by_cases hanswered : ∃ n, ∃ job ∈ b.jobs, job.AnsweredBy b.window step n
    · obtain ⟨n, job, hmem, hanswered⟩ := hanswered
      obtain ⟨-, -, what, -, hwait, hn, -, -, -⟩ := hb.goes_on hmem hanswered
      exact (hb.mem_or_outcome hmem hanswered hjob).imp_right fun hnew =>
        .inr ⟨step, n, what, job, rfl, hmem, hanswered, hwait, hn, hnew⟩
    · have hkeeps := hb.unanswered (R := KeepsJobs) hanswered fun n _ b' hn _ => (onNotice_heard hn b').jobs
      exact .inl (hkeeps ▸ hjob)
  | invoke id arguments => exact .inr (.inl ⟨id, arguments, rfl⟩)
  | deactivate => exact .inl hjob
  | dispose => exact .inl (dispose_keepsJobs b ▸ hjob)

theorem Valid.compile_after (hb : b.Valid) {a : Act} (hjob : Job.compile run stage ∈ (b.after a).jobs) :
    Job.compile run stage ∈ b.jobs ∨
      (∃ arguments, a = .invoke Command.compile.id arguments ∧ run.IsIssued b arguments ∧
        stage = .fetchingLanguages b.window.requests.length) ∨
      ∃ step n stage₀, a = .step step ∧ Job.compile run stage₀ ∈ b.jobs ∧
        (Job.compile run stage₀).AnsweredBy b.window step n ∧ run.Goes b.window stage₀ n stage := by
  obtain hold | ⟨id, arguments, rfl⟩ | ⟨step, n, what, job, rfl, hmem, hanswered, hwait, hn, hcame⟩ :=
    hb.job_after hjob
  · exact .inl hold
  · obtain hold | hnew := invoke_jobs id arguments b _ hjob
    · exact .inl hold
    · obtain ⟨rfl, hissued, hstage⟩ := hnew run stage rfl
      exact .inr (.inl ⟨arguments, rfl, hissued, hstage⟩)
  · obtain ⟨stage₀, rfl, hgoes⟩ := contain_comesFrom hn hwait _ run stage hcame
    have hupholds := step.perform_upholds b.window
    unfold Gives at hupholds
    exact .inr (.inr ⟨step, n, stage₀, rfl, hmem, hanswered,
      hgoes.of_lengths hupholds.requests hupholds.prompts⟩)

/-! ### What is posted -/

variable {w : Window} {acts : List Act}

theorem Came.mem (h : Came w acts run stage) : Job.compile run stage ∈ (Workbench.run w acts).jobs := by
  cases h with
  | issued _ _ hjob => exact hjob
  | waits _ hjob => exact hjob
  | goes _ _ _ hjob => exact hjob

/-- Every compilation came to its stage from its command. -/
theorem came_of_mem (hw : w.Fresh) (hjob : Job.compile run stage ∈ (Workbench.run w acts).jobs) :
    Came w acts run stage := by
  induction acts using List.reverseRecOn generalizing stage with
  | nil => nomatch hjob
  | append_singleton acts a ih =>
    have hafter := hjob
    rw [run_concat] at hafter
    -- The task was there before, or its command was given just now, or it has gone to its next stage.
    obtain hold | ⟨arguments, rfl, hissued, hstage⟩ | ⟨step, n, stage₀, rfl, hold, hanswered, hgoes⟩ :=
      (reachable_run hw acts).valid.compile_after hafter
    · exact .waits (ih hold) hjob
    · exact .issued hissued hstage hjob
    · exact .goes (ih hold) hanswered hgoes hjob

/-- After all of a list has happened, a step enters the arguments for the compiler into the prompt of a task. -/
def Enters (w : Window) (acts : List Act) (step : Step) (run : Compile.Run) (language : Language)
    (compiler : Compiler) (arguments : String) : Prop :=
  ∃ prompt, Came w acts run (.enteringArguments prompt language compiler) ∧
    (step.perform (Workbench.run w acts).window).1 = [.answered prompt (.entered arguments)]

/-- The request by which a source is posted to a compiler. -/
def compileRequest (b : Workbench) (run : Compile.Run) (language : Language) (compiler : Compiler)
    (arguments : String) : Request :=
  (Query.compile compiler.id run.source.text language.id (some arguments)).request b.window.config
    b.window.environment

end Workbench

def Request.IsFormat (request : Request) : Prop :=
  ∃ formatter source style config environment,
    request = (Query.format formatter source style).request config environment

namespace Workbench

variable {b : Workbench} {n : Notice} {job : Job} {run : Compile.Run} {w : Window} {acts : List Act}

theorem not_isFormat_compileRequest (b : Workbench) (run : Compile.Run) (language : Language)
    (compiler : Compiler) (arguments : String) :
    ¬ (compileRequest b run language compiler arguments).IsFormat := by
  rintro ⟨formatter, source, style, config, environment, heq⟩
  have hbody : some (Query.compileBody _ _ _) = some (Query.formatBody _ _) := congrArg Request.body heq
  simp [Query.compileBody, Query.formatBody] at hbody

theorem query?_posts {q : Query} (hq : job.query? n = some q) (hbody : q.body?.isSome = true) :
    (∃ formatter source style, q = .format formatter source style) ∨
      ∃ run prompt language compiler k arguments,
        job = .compile run (.enteringArguments prompt language compiler) ∧
          n = .answered k (.entered arguments) ∧ q = Compile.query run language compiler arguments := by
  unfold Job.query? at hq
  split at hq
  · obtain ⟨language, -, rfl⟩ := Option.map_eq_some_iff.1 hq
    nomatch hbody
  · rename_i run prompt language compiler k arguments
    cases hq
    exact .inr ⟨run, prompt, language, compiler, k, arguments, rfl, rfl, rfl⟩
  · obtain ⟨formatter, -, hq⟩ := Option.bind_eq_some_iff.1 hq
    split at hq
    · cases hq
      exact .inl ⟨_, _, _, rfl⟩
    · nomatch hq
  · obtain ⟨style, -, rfl⟩ := Option.map_eq_some_iff.1 hq
    exact .inl ⟨_, _, _, rfl⟩
  · nomatch hq

/-- What is posted by something that happens is a text to format, or the source of a compilation. -/
theorem Valid.posts_after (hb : b.Valid) (a : Act) {k : Nat} {request : Request}
    (hsent : .request k request ∈ (b.after a).window.sent) (hbody : request.body.isSome = true) :
    .request k request ∈ b.window.sent ∨ request.IsFormat ∨
      ∃ step run prompt language compiler arguments, a = .step step ∧
        Job.compile run (.enteringArguments prompt language compiler) ∈ b.jobs ∧
        (step.perform b.window).1 = [.answered prompt (.entered arguments)] ∧
        request = compileRequest b run language compiler arguments := by
  obtain hunsent | ⟨id, arguments, rfl, q, hsends, hnone⟩ | ⟨step, n, job, rfl, hjob, hanswered, hsends⟩ :=
    hb.sends_after a
  · rw [hunsent] at hsent
    exact .inl hsent
  · refine (hsends.of_mem hsent).imp_right ?_
    rintro ⟨q', hq', rfl⟩
    rw [show (q'.request b.window.config b.window.environment).body = none from hnone q' hq'] at hbody
    nomatch hbody
  · refine (hsends.of_mem hsent).imp_right ?_
    rintro ⟨q', hq', rfl⟩
    obtain ⟨formatter, source, style, rfl⟩ | ⟨run, prompt, language, compiler, k, arguments, rfl, rfl, rfl⟩ :=
      query?_posts hq' hbody
    · exact .inl ⟨formatter, source, style, _, _, rfl⟩
    · obtain ⟨hstep, hwakes⟩ := hanswered
      cases hwakes
      exact .inr ⟨step, run, prompt, language, compiler, arguments, rfl, hjob, hstep, rfl⟩

theorem Enters.posts (hw : w.Fresh) {step : Step} {language : Language} {compiler : Compiler}
    {arguments : String} (h : Enters w acts step run language compiler arguments) :
    (Workbench.run w (acts ++ [.step step])).window.sent = (Workbench.run w acts).window.sent ++
      [.request (Workbench.run w acts).window.requests.length
        (compileRequest (Workbench.run w acts) run language compiler arguments)] := by
  obtain ⟨prompt, hcame, hstep⟩ := h
  rw [run_concat]
  exact (reachable_run hw acts).valid.goes_sends hcame.mem ⟨hstep, rfl⟩

theorem eq_nil_of_steps {id id' : String} {arguments arguments' : List Json} {steps : List Step}
    {before after : List Act}
    (h : .invoke id arguments :: steps.map .step = before ++ .invoke id' arguments' :: after) : before = [] := by
  cases before with
  | nil => rfl
  | cons a before =>
    obtain ⟨-, h⟩ := List.cons.inj h
    have hinvoke : Act.invoke id' arguments' ∈ steps.map .step := h ▸ List.mem_append_cons_self
    obtain ⟨step, -, hstep⟩ := List.mem_map.1 hinvoke
    nomatch hstep

theorem Came.has_command {stage : Compile.Stage} (h : Came w acts run stage) : ∃ before arguments after,
    acts = before ++ .invoke Command.compile.id arguments :: after ∧
      run.IsIssued (Workbench.run w before) arguments := by
  induction h with
  | @issued acts arguments run stage hissued => exact ⟨acts, arguments, [], rfl, hissued⟩
  | @waits acts a run stage _ _ ih =>
    obtain ⟨before, arguments, after, rfl, hissued⟩ := ih
    exact ⟨before, arguments, after ++ [a], by simp, hissued⟩
  | @goes acts step n run stage stage' _ _ _ _ ih =>
    obtain ⟨before, arguments, after, rfl, hissued⟩ := ih
    exact ⟨before, arguments, after ++ [.step step], by simp, hissued⟩

/-- What is posted is a text to format, or the source that a command has taken, with the language, the
compiler and the arguments that were chosen in the prompts of its task. When the arguments are entered it is
posted, and two sources that are the same are posted with the same body, if the language and the arguments
are the same, whatever else has happened. -/
theorem compile_posts_snapshot (hw : w.Fresh) (hsent : w.sent = []) (acts : List Act) :
    (∀ k request, .request k request ∈ (Workbench.run w acts).window.events → request.body.isSome = true →
        request.IsFormat ∨ ∃ before step after run language compiler arguments,
          acts = before ++ .step step :: after ∧ Enters w before step run language compiler arguments ∧
            (∃ earlier lines later, before = earlier ++ .invoke Command.compile.id lines :: later ∧
              run.IsIssued (Workbench.run w earlier) lines) ∧
            request = compileRequest (Workbench.run w before) run language compiler arguments) ∧
      (∀ step run language compiler arguments, Enters w acts step run language compiler arguments →
        (Workbench.run w (acts ++ [.step step])).window.sent = (Workbench.run w acts).window.sent ++
            [.request (Workbench.run w acts).window.requests.length
              (compileRequest (Workbench.run w acts) run language compiler arguments)] ∧
          ¬ (compileRequest (Workbench.run w acts) run language compiler arguments).IsFormat) ∧
      ∀ w' acts' step step' run run' language language' compiler compiler' arguments arguments', w'.Fresh →
        Enters w acts step run language compiler arguments →
        Enters w' acts' step' run' language' compiler' arguments' →
        run.source.text = run'.source.text → language.id = language'.id → arguments = arguments' →
        ∃ k k' request request',
          (Workbench.run w (acts ++ [.step step])).window.sent =
              (Workbench.run w acts).window.sent ++ [.request k request] ∧
            (Workbench.run w' (acts' ++ [.step step'])).window.sent =
              (Workbench.run w' acts').window.sent ++ [.request k' request'] ∧
            request.body = request'.body := by
  refine ⟨fun k request hevent hbody => ?_, fun step run language compiler arguments h =>
    ⟨h.posts hw, not_isFormat_compileRequest _ _ _ _ _⟩, ?_⟩
  · have hmem : .request k request ∈ (Workbench.run w acts).window.sent := List.mem_filter.2 ⟨hevent, rfl⟩
    clear hevent
    -- The last request is that of a task that is there, and by `came_of_mem` it came from its command.
    induction acts using List.reverseRecOn with
    | nil =>
      change _ ∈ (activate w).window.sent at hmem
      rw [sent_activate, hsent] at hmem
      nomatch hmem
    | append_singleton acts a ih =>
      rw [run_concat] at hmem
      obtain hold | hformat | ⟨step, run, prompt, language, compiler, arguments, rfl, hjob, hstep, hrequest⟩ :=
        (reachable_run hw acts).valid.posts_after a hmem hbody
      · refine (ih hold).imp_right ?_
        rintro ⟨before, step, after, run, language, compiler, arguments, rfl, h⟩
        exact ⟨before, step, after ++ [a], run, language, compiler, arguments, by simp, h⟩
      · exact .inl hformat
      · have hcame := came_of_mem hw hjob
        exact .inr ⟨acts, step, [], run, language, compiler, arguments, rfl, ⟨prompt, hcame, hstep⟩,
          hcame.has_command, hrequest⟩
  · intro w' acts' step step' run run' language language' compiler compiler' arguments arguments' hw' h h' htext
      hlanguage harguments
    refine ⟨_, _, _, _, h.posts hw, h'.posts hw', ?_⟩
    show some (Query.compileBody _ _ _) = some (Query.compileBody _ _ _)
    rw [htext, hlanguage, harguments]

/-- While a source is compiled its document is changed, and closed in the end. -/
def editedActs : List Act :=
  compileActs.take 1 ++ [.step (.changeText (.file "/main.py") "f = None")] ++ (compileActs.drop 1).take 4 ++
    [.step (.close (.file "/main.py"))]

def posting? : Job → Option (Nat × String × String × String)
  | .compile run (.enteringArguments prompt language compiler) =>
    some (prompt, run.source.text, language.id, compiler.id)
  | _ => none

theorem of_posting? {job : Job} {prompt : Nat} {source language compiler : String}
    (h : posting? job = some (prompt, source, language, compiler)) :
    ∃ run l c, job = .compile run (.enteringArguments prompt l c) ∧ run.source.text = source ∧
      l.id = language ∧ c.id = compiler := by
  unfold posting? at h
  split at h
  · cases h
    exact ⟨_, _, _, rfl, rfl, rfl, rfl⟩
  · nomatch h

/-- The text is posted that the document had when the command was given. -/
theorem edited_source_is_posted : ∃ k request,
    (Workbench.run sourceWindow (editedActs ++ [.step (.enter none (some "-O1"))])).window.sent =
      (Workbench.run sourceWindow editedActs).window.sent ++ [.request k request] ∧
    request.body = some (.obj [("source", .str "f = lambda: 0\nf()"), ("lang", .str "python"),
      ("options", .obj [("userArguments", .str "-O1"),
        ("compilerOptions", .obj [("skipAsm", .bool false), ("executorRequest", .bool false)]),
        ("filters", .obj [("binary", .bool false), ("commentOnly", .bool true), ("demangle", .bool true),
          ("directives", .bool true), ("execute", .bool false), ("intel", .bool true), ("labels", .bool true),
          ("libraryCode", .bool true), ("trim", .bool false)]),
        ("tools", .arr []), ("libraries", .arr [])]),
      ("allowStoreCodeDebug", .bool true)]) := by
  have hjobs : (Workbench.run sourceWindow editedActs).jobs.map posting? =
      [some (2, "f = lambda: 0\nf()", "python", "cpython")] := by decide +kernel
  obtain ⟨job, hjob, hposting⟩ := List.map_eq_singleton_iff.1 hjobs
  obtain ⟨run, language, compiler, rfl, hsource, hlanguage, -⟩ := of_posting? hposting
  have hw : sourceWindow.Fresh := fresh_ofDocument rfl
  have hprompt : (Workbench.run sourceWindow editedActs).window.promptFor? none = some 2 := by decide +kernel
  have hshown : (Workbench.run sourceWindow editedActs).window.prompts[2]?.map
      (fun p => (p.state, (p.withText "-O1").accepted none)) = some (.shown, .entered "-O1") := by
    decide +kernel
  obtain ⟨p, hp, hstate⟩ := Option.map_eq_some_iff.1 hshown
  obtain ⟨hstate, hanswer⟩ := Prod.mk.inj hstate
  have hstep := Step.answerPrompt_of_shown (fun p => (p.withText "-O1").accepted none) hprompt hp hstate
  rw [hanswer] at hstep
  have henters : Enters sourceWindow editedActs (.enter none (some "-O1")) run language compiler "-O1" :=
    ⟨2, came_of_mem hw (hjob ▸ List.mem_cons_self), hstep⟩
  refine ⟨_, _, ((compile_posts_snapshot hw rfl editedActs).2.1 _ _ _ _ _ henters).1, ?_⟩
  show some (Query.compileBody _ _ _) = _
  rw [hsource, hlanguage]
  rfl

end Workbench

end AsmLens
