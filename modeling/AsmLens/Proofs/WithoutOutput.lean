import AsmLens.Proofs.Reachable

/-!
# Compiling without an output

As long as a compilation has no output, it only asks. What the program keeps about outputs stays as it
is (`Workbench.SameOutput`): the contents, the instruction sets, the sessions, the compiler messages, the
documents and the panes. `Workbench.Settled` says how the task comes out of each of its steps. It goes on
and says nothing, it was turned down and ends silently, or it ends with one message about an error.
-/

namespace AsmLens

open Window

/-- What came is the output that a compilation waits for. -/
def Job.Outputs (job : Job) (n : Notice) : Prop :=
  ∃ run k language compiler arguments request reply output,
    job = .compile run (.compiling k language compiler arguments) ∧ n = .replied request reply ∧
      Compile.Accepts reply output

/-- A prompt was turned down, or accepted with nothing chosen. -/
def Notice.Dismisses (n : Notice) : Prop := ∃ prompt, n = .answered prompt .nothing

namespace Workbench

/-- What the program keeps about outputs is the same. -/
structure SameOutput (b b' : Workbench) : Prop where
  contents : b'.contents = b.contents
  instructionSets : b'.instructionSets = b.instructionSets
  highlights : b'.highlights = b.highlights
  diagnostics : b'.window.diagnostics = b.window.diagnostics
  documents : b'.window.documents = b.window.documents
  panes : b'.window.panes = b.window.panes

def ShowsError (b b' : Workbench) : Prop :=
  ∃ k text, b'.window.shown = b.window.shown ++ [.message k .error text false []]

/-- How a task comes out of one of its steps, among the tasks before and after it. -/
inductive Settled (next : Job → Prop) (dismissed : Prop) (before after : List Job) (b b' : Workbench) :
    Prop where
  /-- It goes on, and nothing is said. -/
  | goesOn (job : Job) (hnext : next job) (hdismissed : ¬ dismissed)
      (hjobs : b'.jobs = before ++ job :: after) (hshown : b'.window.shown = b.window.shown)
  /-- It was turned down and is over, and nothing is said. -/
  | dismissed (hdismissed : dismissed) (hjobs : b'.jobs = before ++ after)
      (hshown : b'.window.shown = b.window.shown)
  /-- It is over, and the user is told why, when that was not made to fail. -/
  | failed (hdismissed : ¬ dismissed) (hjobs : b'.jobs = before ++ after)
      (hshown : b.window.failures.get? .showError = none → b.ShowsError b')

variable {b b' : Workbench} {next : Job → Prop} {dismissed : Prop}

/-- A part of a task that goes on silently, or is over: it was turned down, or the user was told. -/
def Comes (next : Job → Prop) (dismissed : Prop) (w : Window) (job : Job) (w' : Window) : Prop :=
  ¬ dismissed ∧ next job ∧ job.wait?.isSome = true ∧ Quiet w w' ∨
    job.wait? = none ∧ (dismissed ∧ Quiet w w' ∨ ¬ dismissed ∧ Told w w')

/-- What is left of a task after a part of it, with what was said. -/
def Left (next : Job → Prop) (dismissed : Prop) (w : Window) (j : Option Job) (w' : Window) : Prop :=
  Asks w w' ∧ ((∃ job, j = some job ∧ next job ∧ ¬ dismissed ∧ w'.shown = w.shown) ∨
    j = none ∧ dismissed ∧ w'.shown = w.shown ∨
    j = none ∧ ¬ dismissed ∧ (w.failures.get? .showError = none → Told w w'))

theorem SameOutput.of_rests {w : Window} {b₁ : Workbench} (hanswered : Step.Answered b.window w)
    (hasks : Asks w b₁.window) (hrests : Rests { b with window := w } b₁) (jobs : List Job) :
    b.SameOutput { b₁ with jobs } := by
  obtain ⟨w₁, rfl⟩ : ∃ w₁, b₁ = { b with window := w₁ } := ⟨_, hrests⟩
  exact ⟨rfl, rfl, rfl, hasks.diagnostics.trans hanswered.diagnostics,
    hasks.documents.trans hanswered.documents, hasks.panes.trans hanswered.panes⟩

theorem Left.settled {w : Window} {j : Option Job} {b₁ : Workbench}
    (hanswered : Step.Answered b.window w) (h : Left next dismissed w j b₁.window)
    (before after : List Job) :
    Settled next dismissed before after b { b₁ with jobs := before ++ j.toList ++ after } := by
  obtain ⟨-, ⟨job, rfl, hnext, hnot, hshown⟩ | ⟨rfl, hdismissed, hshown⟩ | ⟨rfl, hnot, htold⟩⟩ := h
  · refine .goesOn job hnext hnot ?_ (hshown.trans hanswered.shown)
    rw [Option.toList_some, List.append_assoc]
    rfl
  · refine .dismissed hdismissed ?_ (hshown.trans hanswered.shown)
    rw [Option.toList_none, List.append_nil]
  · refine .failed hnot ?_ fun hunarmed => ?_
    · rw [Option.toList_none, List.append_nil]
    · rw [← hanswered.failures] at hunarmed
      obtain ⟨k, text, hshown⟩ := (htold hunarmed).shown
      exact ⟨k, text, hanswered.shown ▸ hshown⟩

theorem contain_left (name : String) {x : Work Job}
    (h : Ends x b (fun job b' => Comes next dismissed b.window job b'.window ∧ b.Rests b')
      fun e b' => (¬ dismissed ∧ Quiet b.window b'.window ∧ e.HasMessage) ∧ b.Rests b') :
    Gives (contain name x) b fun j b' => Left next dismissed b.window j b'.window ∧ b.Rests b' := by
  refine contain_gives h ?_ ?_ ?_
  · rintro job b' ⟨⟨hnot, hnext, -, hquiet⟩ | ⟨hover, -⟩, hrests⟩ hwaits
    · exact ⟨⟨hquiet.toAsks, .inl ⟨job, rfl, hnext, hnot, hquiet.shown⟩⟩, hrests⟩
    · rw [hover] at hwaits
      nomatch hwaits
  · rintro job b' ⟨⟨-, -, hwaits, -⟩ | ⟨-, ⟨hdismissed, hquiet⟩ | ⟨hnot, htold⟩⟩, hrests⟩ hover
    · rw [hover] at hwaits
      nomatch hwaits
    · exact ⟨⟨hquiet.toAsks, .inr (.inl ⟨rfl, hdismissed, hquiet.shown⟩)⟩, hrests⟩
    · exact ⟨⟨htold.toAsks, .inr (.inr ⟨rfl, hnot, fun _ => htold⟩)⟩, hrests⟩
  · rintro fault b' ⟨⟨hnot, hquiet, hmessage⟩, hrests⟩
    refine (onWindow_gives (reportFault_gives name fault b'.window)).mono fun _ b'' h => ?_
    obtain ⟨⟨⟨hasks, htold⟩, -⟩, hrests'⟩ := h
    refine ⟨⟨Frame.trans hquiet.toAsks hasks, .inr (.inr ⟨rfl, hnot, fun hunarmed => ?_⟩)⟩,
      Frame.trans hrests hrests'⟩
    exact hquiet.told (htold hmessage (hquiet.unarmed _ hunarmed))

/-! ### The stages of a compilation -/

theorem comes_of_begins {run : Compile.Run} {stage : Compile.Stage} {w w' : Window} (hnot : ¬ dismissed)
    (hbegins : (Job.compile run stage).Begins w w') (hquiet : Quiet w w') :
    Comes (fun job => ∃ stage, job = .compile run stage) dismissed w (.compile run stage) w' :=
  .inl ⟨hnot, ⟨stage, rfl⟩, hbegins.1.isSome, hquiet⟩

theorem begin_comes (document : Document) (selection : Selection) (range : Option LineRange)
    (b : Workbench) :
    Ends (show Work Job from do
      let (run, stage) ← Compile.start document selection range
      return .compile run stage) b
      (fun job b' => Comes (fun job => ∃ run stage, job = .compile run stage) False b.window job b'.window ∧
        b.Rests b')
      fun e b' => (¬ False ∧ Quiet b.window b'.window ∧ e.HasMessage) ∧ b.Rests b' := by
  refine (onHost_ends (Compile.start_ends document selection range b.window)).bind
    (fun r b' h => .pure ⟨?_, h.2⟩) fun e b' h => ⟨⟨id, h.1⟩, h.2⟩
  obtain ⟨⟨hquiet, hbegins⟩, -⟩ := h
  exact .inl ⟨id, ⟨r.1, r.2, rfl⟩, hbegins.1.isSome, hquiet⟩

theorem not_compiled_of_begins {run : Compile.Run} {stage : Compile.Stage} {w w' : Window}
    (hbegins : (Job.compile run stage).Begins w w') (compiler : Compiler) (output : CompileOutput) :
    stage ≠ .compiled compiler output := by
  rintro rfl
  exact hbegins.1

theorem onReply_comes {run : Compile.Run} {stage : Compile.Stage} {k request : Nat} (reply : Reply)
    (hwait : (Job.compile run stage).wait? = some (.request k))
    (hout : ¬ (Job.compile run stage).Outputs (.replied request reply)) (b : Workbench) :
    Ends (onReply reply (.compile run stage)) b
      (fun job b' => Comes (fun job => ∃ stage, job = .compile run stage) False b.window job b'.window ∧
        b.Rests b')
      fun e b' => (¬ False ∧ Quiet b.window b'.window ∧ e.HasMessage) ∧ b.Rests b' := by
  by_cases hcompiling : ∃ k language compiler arguments, stage = .compiling k language compiler arguments
  · obtain ⟨k, language, compiler, arguments, rfl⟩ := hcompiling
    have h := Compile.onReply_compiling_ends run k language compiler arguments reply b.window
    refine (onHost_ends h).bind (fun stage b₁ hb => ?_) fun e b' hb => ⟨⟨id, hb.1.2⟩, hb.2⟩
    obtain ⟨⟨output, haccepts, -⟩ | ⟨-, rfl, htold⟩, hrests⟩ := hb
    · exact absurd ⟨run, k, language, compiler, arguments, request, reply, output, rfl, rfl, haccepts⟩ hout
    · exact .pure ⟨.inr ⟨rfl, .inr ⟨id, htold⟩⟩, hrests⟩
  · have h := Compile.onReply_ends run stage reply b.window hwait fun k language compiler arguments heq =>
      hcompiling ⟨k, language, compiler, arguments, heq⟩
    refine (onHost_ends h).bind (fun stage b₁ hb => ?_) fun e b' hb => ⟨⟨id, hb.1⟩, hb.2⟩
    obtain ⟨⟨rfl, htold⟩ | ⟨hquiet, hbegins⟩, hrests⟩ := hb
    · exact .pure ⟨.inr ⟨rfl, .inr ⟨id, htold⟩⟩, hrests⟩
    · rw [continueCompile_eq run (not_compiled_of_begins hbegins)]
      exact .pure ⟨comes_of_begins id hbegins hquiet, hrests⟩

theorem onAnswer_comes {run : Compile.Run} {stage : Compile.Stage} {k : Nat} (answer : Answer)
    (hwait : (Job.compile run stage).wait? = some (.prompt k))
    (hfits : answer.Fits (Job.compile run stage).choices?) (b : Workbench) :
    Ends (onAnswer answer (.compile run stage)) b
      (fun job b' => Comes (fun job => ∃ stage, job = .compile run stage) (answer = .nothing) b.window job
        b'.window ∧ b.Rests b')
      fun e b' => (¬ answer = .nothing ∧ Quiet b.window b'.window ∧ e.HasMessage) ∧ b.Rests b' := by
  refine (onHost_ends (Compile.onAnswer_ends run stage answer b.window hwait)).bind (fun stage b₁ hb => ?_)
    fun e b' hb => hb
  obtain ⟨⟨hquiet, ⟨hnot, hbegins⟩ | ⟨rfl, hnothing⟩⟩, hrests⟩ := hb
  · rw [continueCompile_eq run (not_compiled_of_begins hbegins)]
    exact .pure ⟨comes_of_begins hnot hbegins hquiet, hrests⟩
  · exact .pure ⟨.inr ⟨rfl, .inl ⟨hnothing hfits, hquiet⟩⟩, hrests⟩

theorem fits_of_leaves {job : Job} {n : Notice} {w w' : Window} (hwaits : job.Waits w)
    (hleaves : Step.Leaves w [n] w') {k : Nat} {answer : Answer} (hn : n = .answered k answer)
    (hwait : job.wait? = some (.prompt k)) : answer.Fits job.choices? := by
  obtain ⟨p, hp, -, hfits⟩ := hleaves.fits k answer (hn ▸ List.mem_cons_self)
  unfold Job.Waits at hwaits
  rw [hwait] at hwaits
  obtain ⟨q, hq, -, hchoices⟩ := hwaits
  cases hp.symm.trans hq
  exact hchoices ▸ hfits

theorem go_comes {run : Compile.Run} {stage : Compile.Stage} {n : Notice} {what : Wait}
    (hwait : (Job.compile run stage).wait? = some what) (hn : n.wakes? = some what)
    (hfits : ∀ {k answer}, n = .answered k answer → (Job.compile run stage).wait? = some (.prompt k) →
      answer.Fits (Job.compile run stage).choices?)
    (hout : ¬ (Job.compile run stage).Outputs n) (b : Workbench) :
    Ends (n.go (.compile run stage)) b
      (fun job b' => Comes (fun job => ∃ stage, job = .compile run stage) n.Dismisses b.window job b'.window ∧
        b.Rests b')
      fun e b' => (¬ n.Dismisses ∧ Quiet b.window b'.window ∧ e.HasMessage) ∧ b.Rests b' := by
  cases n with
  | replied request reply =>
    cases hn
    have hdismisses : (Notice.replied request reply).Dismisses = False :=
      eq_false fun ⟨_, h⟩ => nomatch h
    rw [hdismisses]
    exact onReply_comes reply hwait hout b
  | answered prompt answer =>
    cases hn
    have hdismisses : (Notice.answered prompt answer).Dismisses = (answer = .nothing) := by
      refine propext ⟨?_, fun h => ⟨prompt, by rw [h]⟩⟩
      rintro ⟨_, h⟩
      cases h
      rfl
    rw [hdismisses]
    exact onAnswer_comes answer hwait (hfits rfl hwait) b
  | actionChosen message chosen =>
    cases hn
    cases stage <;> nomatch hwait
  | _ => nomatch hn

/-! ### Steps of a compilation -/

theorem answered_refl (w : Window) : Step.Answered w w := ⟨rfl, rfl, rfl, rfl, rfl, rfl, rfl⟩

theorem spawn_settled (name : String) {x : Work Job}
    (h : Ends x b (fun job b' => Comes next dismissed b.window job b'.window ∧ b.Rests b')
      fun e b' => (¬ dismissed ∧ Quiet b.window b'.window ∧ e.HasMessage) ∧ b.Rests b') :
    Gives (spawn name x) b fun _ b' => b.SameOutput b' ∧ Settled next dismissed b.jobs [] b b' := by
  obtain ⟨hleft, hrests⟩ := contain_left name h
  unfold Gives
  rw [spawn_eq]
  have hjobs : (contain name x b).2.jobs = b.jobs := by rw [hrests]
  refine ⟨.of_rests (answered_refl _) hleft.1 hrests _, ?_⟩
  have hsettled := hleft.settled (answered_refl _) b.jobs []
  rw [List.append_nil, ← hjobs] at hsettled
  exact hjobs ▸ hsettled

theorem invoke_settled (arguments : List Json) (b : Workbench) :
    Gives (invoke Command.compile.id arguments) b fun _ b' => b.SameOutput b' ∧
      (b.isRegistered = true →
        Settled (fun job => ∃ run stage, job = .compile run stage) False b.jobs [] b b') := by
  have hcommand : Command.ofId? Command.compile.id = some .compile := rfl
  unfold invoke
  refine look ?_
  rw [hcommand]
  cases hregistered : b.isRegistered with
  | false =>
    have hasks := (emit_quiet (.noCommand Command.compile.id) rfl rfl b.window).toAsks
    exact ⟨⟨rfl, rfl, rfl, hasks.diagnostics, hasks.documents, hasks.panes⟩, nofun⟩
  | true =>
    rw [if_pos rfl]
    show Gives (runCommand .compile arguments) b _
    unfold runCommand
    refine look ?_
    cases activeDocument? b.window with
    | none =>
      refine (onWindow_gives (tellUnawaited_gives _ b.window)).mono fun _ b' h => ?_
      obtain ⟨⟨hasks, htold⟩, hrests⟩ := h
      have hjobs : b'.jobs = b.jobs ++ [] := by rw [hrests, List.append_nil]
      refine ⟨?_, fun _ => .failed id hjobs fun hunarmed => (htold hunarmed).shown⟩
      rw [Rests] at hrests
      exact ⟨by rw [hrests], by rw [hrests], by rw [hrests], hasks.diagnostics, hasks.documents, hasks.panes⟩
    | some found =>
      obtain ⟨n, document, selection⟩ := found
      have hbegin := begin_comes document selection (LineRange.ofArguments arguments) b
      exact (spawn_settled "compile" hbegin).mono fun _ b' h => ⟨h.1, fun _ => h.2⟩

theorem step_settled (hb : b.Valid) {before after : List Job} {run : Compile.Run} {stage : Compile.Stage}
    {step : Step} {n : Notice} (hjobs : b.jobs = before ++ .compile run stage :: after)
    (hanswered : (Job.compile run stage).AnsweredBy b.window step n)
    (hout : ¬ (Job.compile run stage).Outputs n) :
    Gives (perform step) b fun _ b' => b.SameOutput b' ∧
      Settled (fun job => ∃ stage, job = .compile run stage) n.Dismisses before after b b' := by
  obtain ⟨w, what, -, hwait, hn, hsame, hleaves, hperform⟩ := hb.answered hjobs hanswered
  have hmem : Job.compile run stage ∈ b.jobs := hjobs ▸ List.mem_append_cons_self
  unfold Gives
  rw [hperform]
  obtain ⟨hleft, hrests⟩ := contain_left (Job.compile run stage).name
    (go_comes hwait hn (fits_of_leaves (hb.waits _ hmem) hleaves) hout { b with window := w })
  exact ⟨.of_rests hsame hleft.1 hrests _, hleft.settled hsame before after⟩

/-- A compilation that has no output yet changes nothing of what is kept about outputs, neither when it
is begun by its command nor in any step of its own, and says no more than why it is over. -/
theorem compile_changes_nothing_without_output (hb : b.Reachable) :
    (∀ arguments, b.SameOutput (b.after (.invoke Command.compile.id arguments)) ∧
      (b.isRegistered = true → Settled (fun job => ∃ run stage, job = .compile run stage) False b.jobs [] b
        (b.after (.invoke Command.compile.id arguments)))) ∧
    ∀ before run stage after step n, b.jobs = before ++ .compile run stage :: after →
      (Job.compile run stage).AnsweredBy b.window step n → ¬ (Job.compile run stage).Outputs n →
      b.SameOutput (b.after (.step step)) ∧
        Settled (fun job => ∃ stage, job = .compile run stage) n.Dismisses before after b
          (b.after (.step step)) := by
  refine ⟨fun arguments => invoke_settled arguments b, ?_⟩
  intro before run stage after step n hjobs hanswered hout
  exact step_settled hb.valid hjobs hanswered hout

/-- A document is being compiled, and its language is to be chosen. -/
def choosingLanguage : Workbench :=
  run (.ofDocument ⟨.file "/main.cpp", "int f();", "/main.cpp", false, true⟩)
    [.invoke Command.compile.id [], .step (.reply none (.ok (some (.arr
      [.obj [("id", .str "c++"), ("extensions", .arr [.str ".cpp"])]]))))]

theorem choosingLanguage_hidden : ∃ after, after = choosingLanguage.after (.step (.hide none)) ∧
    choosingLanguage.SameOutput after ∧ after.jobs = [] ∧
    after.window.shown = choosingLanguage.window.shown := by
  have hreachable : choosingLanguage.Reachable := reachable_run (fresh_ofDocument rfl) _
  have hjob : choosingLanguage.jobs.map (fun job => (job.name, job.wait?)) =
      [("compile", some (.prompt 0))] := by decide +kernel
  have hperform : (Step.perform (.hide none) choosingLanguage.window).1 = [.answered 0 .nothing] :=
    Step.perform_hide (by decide +kernel) (by decide +kernel)
  obtain ⟨job, hjobs, hnamed⟩ := List.map_eq_singleton_iff.1 hjob
  obtain ⟨hname, hwait⟩ := Prod.mk.inj hnamed
  cases job with
  | compile run stage =>
    have hout : ¬ (Job.compile run stage).Outputs (.answered 0 .nothing) :=
      fun ⟨_, _, _, _, _, _, _, _, _, hn, _⟩ => nomatch hn
    obtain ⟨hsame, hsettled⟩ := (compile_changes_nothing_without_output hreachable).2 [] run stage []
      (.hide none) (.answered 0 .nothing) hjobs ⟨hperform, hwait.symm⟩ hout
    refine ⟨_, rfl, hsame, ?_⟩
    cases hsettled with
    | goesOn job hnext hdismissed => exact absurd ⟨0, rfl⟩ hdismissed
    | dismissed _ hjobs hshown => exact ⟨hjobs, hshown⟩
    | failed hdismissed => exact absurd ⟨0, rfl⟩ hdismissed
  | format run stage =>
    change "format" = "compile" at hname
    exact absurd hname (by decide)
  | tooltip stage =>
    change "tooltip" = "compile" at hname
    exact absurd hname (by decide)

end Workbench

end AsmLens
