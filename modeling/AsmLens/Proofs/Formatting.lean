import AsmLens.Proofs.Reachable

/-!
# Formatting a document that is edited meanwhile

Between the command and the answer of the formatter the document can be edited. When the answer comes,
only whether the document takes edits at all is looked at. So `Format.KeepsEdits` holds just of an answer
that is refused, or that is for a document which has still the text that was sent.
-/

namespace AsmLens

open Window

/-- Unless the document has still the text that was sent, nothing is replaced, and the user is told. -/
def Format.KeepsEdits (run : Run) (w w' : Window) : Prop :=
  (run.target w).text ≠ run.text →
    w'.documents = w.documents ∧ ∃ n, w'.shown = w.shown ++ [.message n .error notReplaced false []]

/-- A formatter that succeeded has answered the task. -/
def Format.Stage.Formats (stage : Stage) (n : Notice) (output : FormatOutput) : Prop :=
  ∃ k formatter style request reply, stage = .formatting k formatter style ∧
    n = .replied request reply ∧ Succeeds reply output

theorem Format.Applies.answered {run : Run} {answer : String} {w w₁ w' : Window}
    (hdocuments : w₁.documents = w.documents) (hfailures : w₁.failures = w.failures)
    (h : Applies run answer w₁ w') : Applies run answer w w' := by
  have htarget : run.target w₁ = run.target w := by rw [Run.target, Run.target, hdocuments]
  obtain ⟨hrefuses, hnew, hunarmed⟩ | ⟨hrefuses, hnew, hunarmed⟩ | ⟨hnew, harmed⟩ := h
  · refine .replaced (htarget ▸ hrefuses) ?_ (hfailures ▸ hunarmed)
    rw [hnew, setText, setText, hdocuments]
  · exact .kept (htarget ▸ hrefuses) (hnew.trans hdocuments) (hfailures ▸ hunarmed)
  · exact .failed (hnew.trans hdocuments) (hfailures ▸ harmed)

namespace Workbench

variable {b b' : Workbench} {run : Format.Run} {stage : Format.Stage} {n : Notice} {output : FormatOutput}

theorem notReplaced_ne (text : String) : s!"Compiler Explorer: {text}" ≠ Format.notReplaced := by
  intro h
  have hlist := congrArg String.toList h
  rw [show s!"Compiler Explorer: {text}" = "Compiler Explorer: " ++ text from rfl,
    String.toList_append] at hlist
  have hhead := congrArg List.head? hlist
  rw [show ("Compiler Explorer: ".toList ++ text.toList).head? = some 'C' from rfl] at hhead
  exact absurd hhead (by decide)

/-- The message that nothing was replaced is the last one. -/
def TellsNotReplaced (w w' : Window) : Prop :=
  ∃ n, w'.shown = w.shown ++ [.message n .error Format.notReplaced false []]

theorem ReportsFault.not_tellsNotReplaced {w w' : Window} (h : ReportsFault w w') :
    ¬ TellsNotReplaced w w' := by
  rintro ⟨n, heq⟩
  obtain hsame | ⟨k, text, htold⟩ := h
  · rw [hsame] at heq
    exact List.cons_ne_nil _ _ (List.self_eq_append_right.1 heq)
  · rw [htold] at heq
    have hlast := List.append_cancel_left heq
    injection hlast with hmessage
    injection hmessage with _ _ htext
    exact notReplaced_ne text htext

theorem contain_apply (name : String) (run : Format.Run) (formatter : Formatter) (style answer : String)
    (b : Workbench) :
    Gives (contain name (show Work Job from do
      return .format run (← Format.apply run formatter style answer))) b fun _ b' =>
      Format.Applies run answer b.window b'.window ∧
        (TellsNotReplaced b.window b'.window ↔ run.IsRefused b.window) := by
  have hends : Ends (show Work Job from do return .format run (← Format.apply run formatter style answer)) b
      (fun _ b' => Format.Applies run answer b.window b'.window ∧
        (TellsNotReplaced b.window b'.window ↔ run.IsRefused b.window))
      fun _ b' => Format.Applies run answer b.window b'.window ∧ b'.window.shown = b.window.shown ∧
        ¬ run.IsRefused b.window := by
    refine (onHost_ends (Format.apply_ends run formatter style answer b.window)).bind
      (fun stage b' h => .pure ⟨h.1.2.2.1, ?_⟩) fun _ _ he => he.1.2
    obtain ⟨⟨-, -, -, ⟨hnot, n, text, hshown⟩ | ⟨hrefused, htells⟩⟩, -⟩ := h
    · refine iff_of_false ?_ hnot
      rintro ⟨k, heq⟩
      rw [hshown] at heq
      have hlast := List.append_cancel_left heq
      injection hlast with hmessage
      injection hmessage with _ hkind
      nomatch hkind
    · exact iff_of_true htells hrefused
  refine contain_gives hends (fun _ _ h _ => h) (fun _ _ h _ => h) fun fault b₁ h => ?_
  obtain ⟨happlies, hshown, hnot⟩ := h
  refine (onWindow_gives (reportFault_gives name fault b₁.window)).mono fun _ b' hreport => ?_
  obtain ⟨⟨⟨hasks, -⟩, hreports⟩, -⟩ := hreport
  refine ⟨?_, iff_of_false ?_ hnot⟩
  · obtain ⟨hrefuses, hdocuments, hunarmed⟩ | ⟨hrefuses, hdocuments, hunarmed⟩ | ⟨hdocuments, harmed⟩ :=
      happlies
    · exact .replaced hrefuses (hasks.documents.trans hdocuments) hunarmed
    · exact .kept hrefuses (hasks.documents.trans hdocuments) hunarmed
    · exact .failed (hasks.documents.trans hdocuments) harmed
  · unfold ReportsFault at hreports
    rw [hshown] at hreports
    exact ReportsFault.not_tellsNotReplaced hreports

theorem contain_asks {what : Wait} (name : String) (hwait : (Job.format run stage).wait? = some what)
    (hn : n.wakes? = some what) (hnone : ∀ output, ¬ stage.Formats n output) (b : Workbench) :
    Gives (contain name (n.go (.format run stage))) b fun _ b' => Asks b.window b'.window := by
  have hends : Ends (n.go (.format run stage)) b (fun _ b' => Asks b.window b'.window)
      fun _ b' => Asks b.window b'.window := by
    cases n with
    | replied request reply =>
      cases hn
      refine (onHost_ends (Format.onReply_proceeds run stage reply b.window hwait ?_)).bind
        (fun _ b' h => .pure h.1.1) fun _ _ he => he.1
      rintro k formatter style output rfl hsucceeds
      exact hnone output ⟨k, formatter, style, request, reply, rfl, rfl, hsucceeds⟩
    | answered prompt answer =>
      exact (onHost_ends (Format.onAnswer_proceeds run stage answer b.window)).bind
        (fun _ b' h => .pure h.1.1) fun _ _ he => he.1
    | _ => exact .pure (Frame.refl b.window)
  refine contain_gives hends (fun _ _ h _ => h) (fun _ _ h _ => h) fun fault b₁ h => ?_
  exact (onWindow_gives (reportFault_gives name fault b₁.window)).mono
    fun _ b' hreport => Frame.trans h hreport.1.1.1

variable {before after : List Job} {step : Step}

/-- The answer of a formatter that succeeded is applied to the document as it is by then. -/
theorem Valid.applies (hb : b.Valid) (hjobs : b.jobs = before ++ .format run stage :: after)
    (hanswered : (Job.format run stage).AnsweredBy b.window step n) (hformats : stage.Formats n output) :
    Format.Applies run output.answer b.window (b.after (.step step)).window ∧
      (TellsNotReplaced b.window (b.after (.step step)).window ↔ run.IsRefused b.window) := by
  obtain ⟨w, what, -, -, -, hsame, -, hperform⟩ := hb.answered hjobs hanswered
  obtain ⟨k, formatter, style, request, reply, rfl, rfl, hsucceeds⟩ := hformats
  have happlies := contain_apply "format" run formatter style output.answer { b with window := w }
  have hgo : (Notice.replied request reply).go (.format run (.formatting k formatter style)) =
      (show Work Job from do return .format run (← Format.apply run formatter style output.answer)) := by
    rw [← Format.onReply_of_succeeds run k formatter style hsucceeds]
    rfl
  rw [← hgo] at happlies
  have hafter : (b.after (.step step)).window =
      (contain "format" ((Notice.replied request reply).go (.format run (.formatting k formatter style)))
        { b with window := w }).2.window := congrArg (fun r => r.2.window) hperform
  rw [hafter]
  obtain ⟨happlies, htells⟩ := happlies
  refine ⟨happlies.answered hsame.documents hsame.failures, ?_⟩
  unfold TellsNotReplaced Format.Run.IsRefused Format.Run.target at htells ⊢
  dsimp only at htells
  rw [hsame.shown, hsame.documents, hsame.failures] at htells
  exact htells

/-- When the answer of the formatter comes, no edit is lost just when there was none or the document
refuses the answer. A document that takes edits takes the answer, whatever its text is by then, and
nothing else that a run does touches a document. -/
theorem formatting_keeps_edits_iff (hb : b.Reachable)
    (hjobs : b.jobs = before ++ .format run stage :: after)
    (hanswered : (Job.format run stage).AnsweredBy b.window step n) :
    (∀ output, stage.Formats n output →
      (Format.KeepsEdits run b.window (b.after (.step step)).window ↔
        (run.target b.window).text = run.text ∨ run.IsRefused b.window) ∧
      ((run.target b.window).refusesEdits = false → b.window.failures.get? .edit = none →
        (b.after (.step step)).window.documents =
          (b.window.setText run.document output.answer).documents)) ∧
    ((∀ output, ¬ stage.Formats n output) →
      (b.after (.step step)).window.documents = b.window.documents) := by
  refine ⟨fun output hformats => ?_, fun hnone => ?_⟩
  · obtain ⟨happlies, htells⟩ := hb.valid.applies hjobs hanswered hformats
    refine ⟨⟨fun hkeeps => ?_, ?_⟩, fun htakes hunarmed => ?_⟩
    · by_cases htext : (run.target b.window).text = run.text
      · exact .inl htext
      · exact .inr (htells.1 (hkeeps htext).2)
    · rintro (htext | hrefused) hne
      · exact absurd htext hne
      · refine ⟨?_, htells.2 hrefused⟩
        obtain ⟨hrefuses, -, -⟩ | ⟨-, hdocuments, -⟩ | ⟨hdocuments, -⟩ := happlies
        · exact absurd (hrefuses.symm.trans hrefused.1) (by decide)
        · exact hdocuments
        · exact hdocuments
    · obtain ⟨-, hdocuments, -⟩ | ⟨hrefuses, -, -⟩ | ⟨-, harmed⟩ := happlies
      · exact hdocuments
      · exact absurd (htakes.symm.trans hrefuses) (by decide)
      · rw [hunarmed] at harmed
        nomatch harmed
  · obtain ⟨w, what, -, hwait, hn, hsame, -, hperform⟩ := hb.valid.answered hjobs hanswered
    have hasks := contain_asks "format" hwait hn hnone { b with window := w }
    have hafter : (b.after (.step step)).window.documents =
        (contain "format" (n.go (.format run stage)) { b with window := w }).2.window.documents :=
      congrArg (fun r => r.2.window.documents) hperform
    rw [hafter]
    exact hasks.documents.trans hsame.documents

/-- The text of a document was sent to a formatter, and then the document was edited. -/
def editedMeanwhile : Workbench :=
  Workbench.run (.ofDocument ⟨.file "/main.go", "package  main", "/main.go", false, true⟩)
    [.invoke Command.format.id [],
      .step (.reply none (.ok (some (.arr [.obj [("type", .str "gofmt")]])))),
      .step (.pick none [0]),
      .step (.changeText (.file "/main.go") "package other")]

theorem reachable_editedMeanwhile : editedMeanwhile.Reachable := reachable_run (fresh_ofDocument rfl) _

def formattedReply : Reply := .ok (some (.obj [("answer", .str "package main"), ("exit", .num 0)]))

def formatting? : Job → Option (Format.Run × Nat)
  | .format run (.formatting k _ _) => some (run, k)
  | _ => none

theorem of_formatting? {job : Job} {run : Format.Run} {k : Nat} (h : formatting? job = some (run, k)) :
    ∃ formatter style, job = .format run (.formatting k formatter style) := by
  cases job with
  | format run' stage =>
    cases stage with
    | formatting k' formatter style =>
      cases h
      exact ⟨formatter, style, rfl⟩
    | _ => nomatch h
  | _ => nomatch h

theorem editedMeanwhile_formats : ∃ after run stage,
    editedMeanwhile.jobs = [] ++ .format run stage :: after ∧
      (Job.format run stage).AnsweredBy editedMeanwhile.window (.reply none formattedReply)
        (.replied 1 formattedReply) ∧
      stage.Formats (.replied 1 formattedReply) ⟨"package main", 0⟩ ∧
      run.document = 0 ∧ run.text = "package  main" := by
  have hjob : (editedMeanwhile.jobs.head?.bind formatting?).map
      (fun r => decide (r.2 = 1 ∧ r.1.document = 0 ∧ r.1.text = "package  main")) = some true := by
    decide +kernel
  have hrequest : editedMeanwhile.window.requestFor? none = some 1 := by decide +kernel
  obtain ⟨⟨run, k⟩, hfound, hdecide⟩ := Option.map_eq_some_iff.1 hjob
  obtain ⟨rfl, hrun⟩ := of_decide_eq_true hdecide
  obtain ⟨job, hhead, hformatting⟩ := Option.bind_eq_some_iff.1 hfound
  obtain ⟨formatter, style, rfl⟩ := of_formatting? hformatting
  obtain ⟨after, hjobs⟩ := List.head?_eq_some_iff.1 hhead
  have hanswered := congrArg (fun r => r.1) (Step.perform_reply formattedReply hrequest)
  exact ⟨after, run, .formatting 1 formatter style, hjobs, ⟨hanswered, rfl⟩,
    ⟨1, formatter, style, 1, formattedReply, rfl, rfl, rfl, rfl⟩, hrun⟩

theorem editedMeanwhile_target {run : Format.Run} (hdocument : run.document = 0) :
    (run.target editedMeanwhile.window).text = "package other" ∧
      (run.target editedMeanwhile.window).refusesEdits = false := by
  unfold Format.Run.target
  rw [hdocument]
  decide +kernel

/-- The answer for the text that was sent replaces what the user has written since. -/
theorem edited_text_is_replaced : ∃ run w',
    w' = (editedMeanwhile.after (.step (.reply none formattedReply))).window ∧
      run.text = "package  main" ∧ (run.target editedMeanwhile.window).text = "package other" ∧
      ¬ Format.KeepsEdits run editedMeanwhile.window w' ∧
      w'.documents = (editedMeanwhile.window.setText 0 "package main").documents := by
  obtain ⟨_, run, stage, hjobs, hanswered, hformats, hdocument, htext⟩ := editedMeanwhile_formats
  obtain ⟨hedited, htakes⟩ := editedMeanwhile_target hdocument
  have h := (formatting_keeps_edits_iff reachable_editedMeanwhile hjobs hanswered).1 _ hformats
  have hunarmed : editedMeanwhile.window.failures.get? .edit = none := by decide +kernel
  refine ⟨run, _, rfl, htext, hedited, fun hkeeps => ?_, hdocument ▸ h.2 htakes hunarmed⟩
  rcases h.1.1 hkeeps with hsame | ⟨hrefuses, -⟩
  · rw [hedited, htext] at hsame
    exact absurd hsame (by decide)
  · rw [htakes] at hrefuses
    nomatch hrefuses

/-- Not every run of the command keeps all edits. -/
theorem formatting_loses_edits : ¬ ∀ (b : Workbench) (before after : List Job) (run : Format.Run)
    (stage : Format.Stage) (step : Step) (n : Notice) (output : FormatOutput), b.Reachable →
      b.jobs = before ++ .format run stage :: after →
      (Job.format run stage).AnsweredBy b.window step n → stage.Formats n output →
      Format.KeepsEdits run b.window (b.after (.step step)).window := by
  intro hall
  obtain ⟨_, run, stage, hjobs, hanswered, hformats, hdocument, htext⟩ := editedMeanwhile_formats
  obtain ⟨hedited, htakes⟩ := editedMeanwhile_target hdocument
  have hne : (run.target editedMeanwhile.window).text ≠ run.text := by
    rw [hedited, htext]
    decide
  have hkeeps := hall _ _ _ _ _ _ _ _ reachable_editedMeanwhile hjobs hanswered hformats hne
  obtain ⟨-, htells⟩ := reachable_editedMeanwhile.valid.applies hjobs hanswered hformats
  obtain ⟨hrefuses, -⟩ := htells.1 hkeeps.2
  rw [htakes] at hrefuses
  nomatch hrefuses

end Workbench

end AsmLens
