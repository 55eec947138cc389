import AsmLens.Proofs.Formatting
import AsmLens.Proofs.Succession

/-!
# Formatting is all or nothing

A run of the command to format edits its document at most once, when a formatter that succeeded has answered
(`Format.Stage.Receives`). If the document takes edits, then its text is the answer afterwards, whatever it was by
then, and the user is told. With any other answer, and with this one if the edit is refused or fails, the run
changes no document, and once the answer has come the run is over (`formatting_is_all_or_nothing`).
-/

namespace AsmLens

open Window

/-! ### Edits -/

def Event.isReplacement : Event → Bool
  | .replaced _ _ _ _ => true
  | _ => false

namespace Window

variable {w w' : Window}

def replacements (w : Window) : List Event := w.events.filter Event.isReplacement

def reported (w : Window) : List Event := w.events.filter fun e => e.isReplacement || e.isMessage

def Unedited (w w' : Window) : Prop := Keeps Event.isReplacement w w'

instance : Displaying Unedited :=
  displaying_keeps (p := Event.isReplacement) (fun e he => by cases e <;> first | rfl | nomatch he)
    fun e he => by cases e <;> first | rfl | nomatch he

theorem not_isReplacement_of_isPrompt {e : Event} (h : e.isPrompt = true) : e.isReplacement = false := by
  cases e <;> first | rfl | nomatch h

instance : Asking Unedited where
  tell {e} he := emit_keeps (by cases e <;> first | rfl | nomatch he)
  askChoice := askChoice_keeps fun _ => not_isReplacement_of_isPrompt
  askText := askText_keeps fun _ => not_isReplacement_of_isPrompt

instance : Sending Unedited where
  send _ _ := emit_keeps rfl

/-- Documents keep their places and their addresses. -/
def KeepsPlaces (w w' : Window) : Prop :=
  ∀ (i : Nat) (d : Document), w.documents[i]? = some d → ∃ d', w'.documents[i]? = some d' ∧ d'.uri = d.uri

instance : Frame KeepsPlaces where
  refl _ _ d hd := ⟨d, hd, rfl⟩
  trans := by
    intro w w' w'' h h' i d hd
    obtain ⟨d', hd', huri⟩ := h i d hd
    obtain ⟨d'', hd'', huri'⟩ := h' i d' hd'
    exact ⟨d'', hd'', huri'.trans huri⟩

theorem Stays.keepsPlaces (h : Stays w w') : KeepsPlaces w w' := fun i d hd =>
  (h i d hd).elim fun _ hd' => ⟨_, hd', rfl⟩

theorem Asks.reported (h : Asks w w') (hunedited : Unedited w w') {messages : List Event}
    (hshown : w'.shown = w.shown ++ messages) : w'.reported = w.reported ++ messages := by
  obtain ⟨added, hadded⟩ := h.events
  have hnone : added.filter Event.isReplacement = [] := by
    have hsame := Eq.trans (congrArg (List.filter Event.isReplacement) hadded) hunedited
    rwa [List.filter_append, List.append_right_eq_self] at hsame
  have hmessages : added.filter Event.isMessage = messages := by
    have hsame := (congrArg (List.filter Event.isMessage) hadded).trans hshown
    rw [List.filter_append] at hsame
    exact List.append_cancel_left hsame
  have hboth : (added.filter fun e => e.isReplacement || e.isMessage) = messages := by
    rw [← hmessages]
    refine List.filter_congr fun e he => ?_
    rw [Bool.eq_false_iff.2 (List.filter_eq_nil_iff.1 hnone e he), Bool.false_or]
  rw [Window.reported, ← hadded, List.filter_append, hboth]
  rfl

end Window

/-! ### The answer of a formatter -/

namespace Format

/-- A run that the command begins in a window. -/
def Run.IsIssued (run : Run) (w : Window) : Prop :=
  ∃ n document selection, Workbench.activeDocument? w = some (n, document, selection) ∧
    run = ⟨w.config, n, document.uri, document.text⟩

/-- A formatter answers with a text, and with no exit status that is a number other than zero. -/
def Stage.Receives (stage : Stage) (n : Notice) (formatter : Formatter) (style answer : String) : Prop :=
  ∃ k request fields, stage = .formatting k formatter style ∧
    n = .replied request (.ok (some (.obj fields))) ∧
    (Json.obj fields).field? "answer" = some (.str answer) ∧
    ∀ x, (Json.obj fields).field? "exit" = some (.num x) → x = 0

def doneText (formatter : Formatter) (style : String) : String :=
  s!"Text formatted using {formatter.name} and style {style}"

/-- What a run makes of its document with the answer of a formatter. -/
inductive Run.Edits (run : Run) (formatter : Formatter) (style answer : String) (w w' : Window) : Prop where
  /-- All that the document holds by then is replaced by the answer, and then the user is told, unless that
  fails. -/
  | replaced {d : Document} (hd : w.documents[run.document]? = some d) (huri : d.uri = run.uri)
      (htakes : d.refusesEdits = false) (hunarmed : w.failures.get? .edit = none)
      (hwhole : d.textWith d.wholeRange answer = answer)
      (hdocuments : w'.documents = w.documents.set run.document { d with text := answer })
      (hreplacements : w'.replacements = w.replacements ++ [.replaced d.uri d.wholeRange answer true])
      (hreported : w.failures.get? .showInformation = none → ∃ k, w'.reported = w.reported ++
        [.replaced d.uri d.wholeRange answer true, .message k .information (doneText formatter style) false []])
  | refused {d : Document} (hd : w.documents[run.document]? = some d) (huri : d.uri = run.uri)
      (hrefuses : d.refusesEdits = true) (hunarmed : w.failures.get? .edit = none)
      (hdocuments : w'.documents = w.documents)
      (hreplacements : w'.replacements = w.replacements ++ [.replaced d.uri d.wholeRange answer false])
  /-- The edit was made to fail. -/
  | failed (harmed : (w.failures.get? .edit).isSome) (hdocuments : w'.documents = w.documents)
      (hunedited : Unedited w w')

variable {run : Run} {stage : Stage} {n : Notice} {formatter : Formatter} {style answer : String} {w w₁ w' : Window}

theorem exit_eq_zero_iff (body : Json) :
    (body.numberField? "exit").getD 0 = 0 ↔ ∀ x, body.field? "exit" = some (.num x) → x = 0 := by
  simp only [← Json.numberField?_eq_some_iff]
  cases body.numberField? "exit" <;> simp

theorem read_eq_ok_iff {body : Option Json} {output : FormatOutput} : FormatOutput.read body = .ok output ↔
    ∃ fields, body = some (.obj fields) ∧ (Json.obj fields).field? "answer" = some (.str output.answer) ∧
      output.exit = ((Json.obj fields).numberField? "exit").getD 0 := by
  constructor
  · intro h
    unfold FormatOutput.read at h
    split at h
    · cases h
    · rename_i value hobject
      split at h
      · cases h
      · rename_i text hanswer
        obtain ⟨rfl, hvalue⟩ := Option.filter_eq_some_iff.1 hobject
        cases value <;> cases hvalue
        cases h
        exact ⟨_, rfl, Json.stringField?_eq_some_iff.1 hanswer, rfl⟩
  · rintro ⟨fields, rfl, hanswer, hexit⟩
    unfold FormatOutput.read
    rw [show (some (Json.obj fields)).filter Json.isObject = some (.obj fields) from rfl]
    dsimp only
    rw [Json.stringField?_eq_some_iff.2 hanswer, ← hexit]

/-- Such an answer is the output of a formatter that succeeded, and there is no other one. -/
theorem Stage.receives_iff : stage.Receives n formatter style answer ↔
    ∃ k request reply output, stage = .formatting k formatter style ∧ n = .replied request reply ∧
      Succeeds reply output ∧ output.answer = answer := by
  constructor
  · rintro ⟨k, request, fields, rfl, rfl, hanswer, hexit⟩
    refine ⟨k, request, _, ⟨answer, ((Json.obj fields).numberField? "exit").getD 0⟩, rfl, rfl, ⟨?_, ?_⟩, rfl⟩
    · exact congrArg Except.ok (read_eq_ok_iff.2 ⟨fields, rfl, hanswer, rfl⟩)
    · exact (exit_eq_zero_iff _).2 hexit
  · rintro ⟨k, request, reply, output, rfl, rfl, ⟨hread, hexit⟩, rfl⟩
    cases reply with
    | error fault => nomatch hread
    | ok body =>
      obtain ⟨fields, rfl, hanswer, hstatus⟩ := read_eq_ok_iff.1 (Except.ok.inj hread)
      exact ⟨k, request, fields, rfl, rfl, hanswer, (exit_eq_zero_iff _).1 (hstatus ▸ hexit)⟩

/-! ### What becomes of the document -/

/-- An answer is applied to the document as a whole. When this fails, then what the fault is reported by changes
nothing of what became of the document. -/
theorem apply_edits {d : Document} (hd : w.documents[run.document]? = some d) (huri : d.uri = run.uri)
    (formatter : Formatter) (style answer : String) :
    Ends (apply run formatter style answer) w
      (fun stage w' => stage = .finished ∧ run.Edits formatter style answer w w')
      fun _ w₁ => ∀ w', w'.documents = w₁.documents → Unedited w₁ w' → run.Edits formatter style answer w w' := by
  have hreplace := Document.replaceAll_exactly run.document (Text.lines answer) w
  simp only [hd, Option.getD_some, Text.joinLines_lines] at hreplace
  refine hreplace.bind (fun applied w₁ h => ?_) fun _ w₁ he w' hdocuments hunedited => ?_
  · obtain ⟨hunarmed, happlied, hw₁⟩ := h
    rw [← happlied] at hw₁
    have hevents : w₁.events = w.events ++ [.replaced d.uri d.wholeRange answer applied] := by
      rw [hw₁]
      split <;> rfl
    have hfailures : w₁.failures = w.failures := by
      rw [hw₁]
      split <;> rfl
    have hreplacements : ∀ {w'}, Unedited w₁ w' →
        w'.replacements = w.replacements ++ [.replaced d.uri d.wholeRange answer applied] := by
      intro w' hunedited
      refine (show w'.replacements = w₁.replacements from hunedited).trans ?_
      rw [replacements, hevents, List.filter_append]
      rfl
    cases applied with
    | true =>
      have htakes : d.refusesEdits = false := by simpa using happlied
      have hwhole := d.textWith_wholeRange answer
      have hset : w₁.documents = w.documents.set run.document { d with text := answer } := by
        rw [hw₁, if_pos rfl, setText, List.modify_eq_set, hd]
        rfl
      have htell := (Message.tellDone_ends (doneText formatter style) w₁).and
        (Message.tellDone_framed (R := Unedited) _ w₁)
      refine htell.bind (fun _ w' htold => .pure ⟨rfl, ?_⟩) fun _ w₂ he w' hsame hunedited' => ?_
      · obtain ⟨⟨hasks, k, hshown⟩, hunedited⟩ := htold
        refine .replaced hd huri htakes hunarmed hwhole (hasks.documents.trans hset) (hreplacements hunedited)
          fun _ => ⟨k, ?_⟩
        rw [hasks.reported hunedited hshown, reported, hevents, List.filter_append, List.append_assoc]
        rfl
      · obtain ⟨⟨hquiet, harmed⟩, hunedited⟩ := he
        refine .replaced hd huri htakes hunarmed hwhole (hsame.trans (hquiet.documents.trans hset))
          (hreplacements (Frame.trans hunedited hunedited')) fun hnone => ?_
        rw [hfailures, hnone] at harmed
        exact absurd harmed Bool.false_ne_true
    | false =>
      have hrefuses : d.refusesEdits = true := by simpa using happlied
      have hrefused : ∀ w', w'.documents = w₁.documents → Unedited w₁ w' →
          run.Edits formatter style answer w w' := fun w' hsame hunedited =>
        .refused hd huri hrefuses hunarmed (hsame.trans (by rw [hw₁]; rfl)) (hreplacements hunedited)
      refine ((refuse_ends notReplaced w₁).and (refuse_framed (R := Unedited) notReplaced w₁)).mono
        (fun stage w' h => ⟨h.1.1, hrefused w' h.1.2.1.documents h.2⟩) fun _ w₂ he w' hsame hunedited => ?_
      exact hrefused w' (hsame.trans he.1.1.documents) (Frame.trans he.2 hunedited)
  · obtain ⟨rfl, -, harmed⟩ := he
    exact .failed harmed hdocuments hunedited

end Format

theorem Format.Run.Edits.after {run : Run} {formatter : Formatter} {style answer : String} {w w₁ w' : Window}
    (hdocuments : w₁.documents = w.documents) (hfailures : w₁.failures = w.failures)
    (hreplacements : w₁.replacements = w.replacements) (hreported : w₁.reported = w.reported)
    (h : run.Edits formatter style answer w₁ w') : run.Edits formatter style answer w w' := by
  cases h with
  | replaced hd huri htakes hunarmed hwhole hdocuments' hreplacements' hreported' =>
    rw [hdocuments] at hd hdocuments'
    rw [hfailures] at hunarmed hreported'
    rw [hreplacements] at hreplacements'
    rw [hreported] at hreported'
    exact .replaced hd huri htakes hunarmed hwhole hdocuments' hreplacements' hreported'
  | refused hd huri hrefuses hunarmed hdocuments' hreplacements' =>
    rw [hdocuments] at hd hdocuments'
    rw [hreplacements] at hreplacements'
    exact .refused hd huri hrefuses (hfailures ▸ hunarmed) hdocuments' hreplacements'
  | failed harmed hdocuments' hunedited =>
    exact .failed (hfailures ▸ harmed) (hdocuments'.trans hdocuments) (hunedited.trans hreplacements)

/-! ### Documents keep their places -/

theorem Step.perform_keepsPlaces (step : Step) : Within KeepsPlaces step.perform := fun w => by
  have hsame : ∀ {w' : Window}, w'.documents = w.documents → KeepsPlaces w w' := fun h =>
    (stays_of_same h).keepsPlaces
  have hanswer : ∀ named read, Gives (answerPrompt named read) w fun _ w' => KeepsPlaces w w' := fun named read =>
    (answerPrompt_answered named read w).mono fun _ _ h => hsame h.documents
  cases step with
  | reply named reply =>
    refine Gives.look ?_
    cases w.requestFor? named <;> exact hsame rfl
  | openDocument uri text fileName =>
    exact Stays.keepsPlaces (presents_addDocument w ⟨uri, text, fileName, false, true⟩).documents
  | showDocument uri selection =>
    refine Gives.look ?_
    cases w.findDocument? uri <;> exact hsame rfl
  | select uri selections =>
    cases selections with
    | nil => exact hsame rfl
    | cons selection rest =>
      show KeepsPlaces w (w.setSelection uri selection)
      unfold setSelection
      split <;> exact hsame rfl
  | close uri =>
    have hclosed : ∀ n, KeepsPlaces w (w.closeDocument n) := fun n i d hd => by
      refine ⟨if n = i then { d with isOpen := false } else d, ?_, by split <;> rfl⟩
      show (w.documents.modify n _)[i]? = _
      rw [List.getElem?_modify, hd]
      split <;> rfl
    refine (closeAt_closing uri w).mono fun l w' h => ?_
    cases h with
    | missing hn => exact hsame rfl
    | @active n hn hactive => exact hclosed n
    | @inactive n hn => exact hclosed n
  | changeText uri text =>
    refine Gives.look ?_
    cases w.findDocument? uri with
    | none => exact hsame rfl
    | some n => exact Stays.keepsPlaces (presents_setText w n text).documents
  | pick named positions => exact hanswer named _
  | enter named text => exact hanswer named _
  | hide named => exact hanswer named _
  | _ => exact hsame rfl

namespace Workbench

variable {b : Workbench} {w : Window} {first acts : List Act} {a : Act} {job : Job} {step : Step} {n : Notice}
  {run : Format.Run} {stage : Format.Stage} {formatter : Formatter} {style answer : String}

theorem Valid.keepsPlaces (hb : b.Valid) (a : Act) : KeepsPlaces b.window (b.after a).window := by
  cases a with
  | step step =>
    have hstep := step.perform_keepsPlaces b.window
    exact Frame.trans (R := KeepsPlaces) hstep (hb.records_perform step).1.keepsPlaces
  | invoke id arguments =>
    obtain ⟨w, c, jobs, hafter, hstays, -⟩ := invoke_commanded id arguments b
    unfold Workbench.after act
    rw [hafter]
    exact hstays.keepsPlaces
  | deactivate => exact (stays_of_same (log_quiet _ b.window).documents).keepsPlaces
  | dispose => exact (dispose_unrecorded b).2.keepsPlaces

theorem run_keepsPlaces (hw : w.Fresh) (acts later : List Act) :
    KeepsPlaces (Workbench.run w acts).window (Workbench.run w (acts ++ later)).window := by
  induction later using List.reverseRecOn with
  | nil =>
    rw [List.append_nil]
    exact Frame.refl (R := KeepsPlaces) _
  | append_singleton later a ih =>
    rw [← List.append_assoc, run_concat]
    exact Frame.trans ih ((reachable_run hw _).valid.keepsPlaces a)

/-! ### Who edits -/

theorem go_unedited
    (hnone : ∀ run stage, job = .format run stage → ∀ formatter style answer,
      ¬ stage.Receives n formatter style answer) : Holds (InWindow Unedited) (n.go job) := by
  cases n with
  | replied k reply =>
    cases job with
    | compile run stage =>
      exact .bind (holds_onHost (Compile.onReply_framed run stage reply)) fun _ => continueCompile_framed run _
    | format run stage =>
      refine .bind (holds_onHost (Format.onReply_framed_of_not_succeeds run ?_)) fun _ => .pure _
      rintro k' formatter style output rfl hsucceeds
      exact hnone run _ rfl formatter style output.answer
        (Format.Stage.receives_iff.2 ⟨k', k, reply, output, rfl, rfl, hsucceeds, rfl⟩)
    | tooltip stage =>
      cases stage with
      | fetching n set opcode =>
        exact .bind (holds_onHost (Tooltip.onReply_framed set opcode reply)) fun _ => .pure _
      | _ => exact .pure _
  | answered k answer => exact onAnswer_framed answer job
  | actionChosen k chosen => exact onChoice_framed chosen job
  | _ => exact .pure _

theorem Valid.unedited_step (hb : b.Valid)
    (hnone : ∀ run stage n, Job.format run stage ∈ b.jobs → (Job.format run stage).AnsweredBy b.window step n →
      ∀ formatter style answer, ¬ stage.Receives n formatter style answer) :
    Unedited b.window (b.after (.step step)).window := by
  have hstep : Unedited b.window (step.perform b.window).2 :=
    step.perform_keeps (p := Event.isReplacement) rfl rfl (fun _ => rfl) b.window
  refine Frame.trans hstep ?_
  by_cases hanswered : ∃ n, ∃ job ∈ b.jobs, job.AnsweredBy b.window step n
  · obtain ⟨n, job, hmem, hanswered⟩ := hanswered
    obtain ⟨_, _, _, -, -, -, -, -, hafter⟩ := hb.goes_on hmem hanswered
    rw [hafter]
    refine contain_framed (R := Unedited) job.name (go_unedited ?_) { b with window := (step.perform b.window).2 }
    rintro run stage rfl
    exact hnone run stage n hmem hanswered
  · exact hb.unanswered (R := InWindow Unedited) hanswered fun n _ b' hn _ => onNotice_displays hn b'

theorem invoke_documents (id : String) (arguments : List Json) (b : Workbench) :
    (b.after (.invoke id arguments)).window.documents = b.window.documents :=
  invoke_within (R := fun b' => b'.window.documents = b.window.documents) id arguments b
    (fun _ _ _ hasks => hasks.documents)
    ((b.highlights.finishWhere_gives _ b.window).mono fun _ _ h => h.2.2.2.1.documents)

theorem unedited_invoke (id : String) (arguments : List Json) (b : Workbench) :
    Unedited b.window (b.after (.invoke id arguments)).window :=
  invoke_framed (R := Unedited) (tellUnawaited_framed fun _ => emit_keeps rfl) id arguments b

/-! ### What a run does -/

theorem contain_edits (name : String) {d : Document} (hd : b.window.documents[run.document]? = some d)
    (huri : d.uri = run.uri) (hreceives : stage.Receives n formatter style answer) :
    Gives (contain name (n.go (.format run stage))) b fun j b' =>
      j = none ∧ run.Edits formatter style answer b.window b'.window := by
  obtain ⟨k, request, reply, output, rfl, rfl, hsucceeds, rfl⟩ := Format.Stage.receives_iff.1 hreceives
  have happly := Format.apply_edits hd huri formatter style output.answer
  rw [← Format.onReply_of_succeeds run k formatter style hsucceeds] at happly
  have hends : Ends ((Notice.replied request reply).go (.format run (.formatting k formatter style))) b
      (fun job b' => job.wait? = none ∧ run.Edits formatter style output.answer b.window b'.window)
      fun _ b₁ => ∀ w', w'.documents = b₁.window.documents → Unedited b₁.window w' →
        run.Edits formatter style output.answer b.window w' :=
    (onHost_ends happly).bind (fun stage b' h => .pure ⟨by rw [h.1.1]; rfl, h.1.2⟩) fun _ _ he => he.1
  refine contain_gives hends (fun job b' h hwaits => ?_) (fun job b' h _ => ⟨rfl, h.2⟩) fun fault b₁ h => ?_
  · rw [h.1] at hwaits
    nomatch hwaits
  · refine (onWindow_gives ((reportFault_gives name fault b₁.window).and
      (reportFault_framed (R := Unedited) name fault b₁.window))).mono fun _ b' hreport => ?_
    obtain ⟨⟨⟨⟨hasks, -⟩, -⟩, hunedited⟩, -⟩ := hreport
    exact ⟨rfl, h _ hasks.documents hunedited⟩

/-- A run edits its document when a formatter has answered, and is over then. -/
theorem Valid.edits (hb : b.Valid) (hjob : Job.format run stage ∈ b.jobs)
    (hanswered : (Job.format run stage).AnsweredBy b.window step n) {d : Document}
    (hd : b.window.documents[run.document]? = some d) (huri : d.uri = run.uri)
    (hreceives : stage.Receives n formatter style answer) :
    b.outcome (.format run stage) step n = none ∧
      run.Edits formatter style answer b.window (b.after (.step step)).window := by
  obtain ⟨_, _, _, -, -, -, hsame, -, hafter⟩ := hb.goes_on hjob hanswered
  rw [← hsame.documents] at hd
  obtain ⟨hover, hedits⟩ := contain_edits (b := { b with window := (step.perform b.window).2 }) "format" hd huri
    hreceives
  refine ⟨hover, ?_⟩
  rw [hafter]
  refine hedits.after hsame.documents hsame.failures ?_ ?_
  · exact step.perform_keeps (p := Event.isReplacement) rfl rfl (fun _ => rfl) b.window
  · exact step.perform_keeps (p := fun e => e.isReplacement || e.isMessage) rfl rfl (fun _ => rfl) b.window

theorem Valid.documents_of_not_receives (hb : b.Valid) (hjob : Job.format run stage ∈ b.jobs)
    (hanswered : (Job.format run stage).AnsweredBy b.window step n)
    (hnone : ∀ formatter style answer, ¬ stage.Receives n formatter style answer) :
    (b.after (.step step)).window.documents = b.window.documents := by
  obtain ⟨_, _, what, -, hwait, hn, hsame, -, hafter⟩ := hb.goes_on hjob hanswered
  have hasks := contain_asks "format" hwait hn (fun output hformats => ?_)
    { b with window := (step.perform b.window).2 }
  · rw [hafter]
    exact hasks.documents.trans hsame.documents
  · obtain ⟨k, formatter, style, request, reply, rfl, rfl, hsucceeds⟩ := hformats
    exact hnone formatter style output.answer
      (Format.Stage.receives_iff.2 ⟨k, request, reply, output, rfl, rfl, hsucceeds, rfl⟩)

/-! ### From the command to the edit -/

theorem Led.format_iff (hw : w.Fresh) (h : Led w first acts job) :
    (∃ arguments later, acts = first ++ .invoke Command.format.id arguments :: later) ↔
      ∃ run stage, job = .format run stage := by
  obtain ⟨command, arguments, later, begun, rfl, hbegun, hcontinues⟩ := h.begun hw
  constructor
  · rintro ⟨arguments', later', heq⟩
    obtain ⟨hid, -⟩ := Act.invoke.inj (List.cons.inj (List.append_cancel_left heq)).1
    cases hbegun with
    | format _ =>
      cases hcontinues
      exact ⟨_, _, rfl⟩
    | compile _ => exact absurd hid (by decide)
    | showTooltip => exact absurd hid (by decide)
  · rintro ⟨run, stage, rfl⟩
    cases hcontinues
    cases hbegun
    exact ⟨arguments, later, rfl⟩

theorem Led.issued (hw : w.Fresh) (h : Led w first acts (.format run stage)) :
    run.IsIssued (Workbench.run w first).window := by
  obtain ⟨command, arguments, later, begun, -, hbegun, hcontinues⟩ := h.begun hw
  cases hcontinues
  cases hbegun with
  | format hactive => exact ⟨_, _, _, hactive, rfl⟩

/-- The document of a run is still in its place under its address. -/
theorem Led.document (hw : w.Fresh) (h : Led w first acts (.format run stage)) :
    ∃ d, (Workbench.run w acts).window.documents[run.document]? = some d ∧ d.uri = run.uri := by
  obtain ⟨k, document, selection, hactive, rfl⟩ := h.issued hw
  obtain ⟨id, arguments, later, rfl⟩ := h.has_command
  obtain ⟨p, -, hfound⟩ := Option.bind_eq_some_iff.1 hactive
  obtain ⟨d, hd, heq⟩ := Option.bind_eq_some_iff.1 hfound
  cases heq
  exact run_keepsPlaces hw first _ _ _ hd

/-- After the first things have happened the command of a task was given, and after all of a list the task edits a
document by a step, whether or not the document takes it. -/
def EditsBy (w : Window) (first before : List Act) (step : Step) : Prop :=
  ∃ job n, MovesOn w first before job step n ∧
    ¬ Unedited (Workbench.run w before).window (Workbench.run w (before ++ [.step step])).window

theorem exists_receives (hw : w.Fresh)
    (h : ¬ Unedited (Workbench.run w acts).window (Workbench.run w (acts ++ [a])).window) :
    ∃ step n first run stage formatter style answer, a = .step step ∧
      MovesOn w first acts (.format run stage) step n ∧ stage.Receives n formatter style answer := by
  rw [run_concat] at h
  cases a with
  | step step =>
    by_contra hnone
    refine h ((reachable_run hw acts).valid.unedited_step fun run stage n hjob hanswered formatter style answer hr => ?_)
    obtain ⟨first, hled⟩ := led_of_mem hw hjob
    exact hnone ⟨step, n, first, run, stage, formatter, style, answer, rfl, ⟨hled, hanswered⟩, hr⟩
  | invoke id arguments => exact absurd (unedited_invoke id arguments _) h
  | deactivate => exact absurd (deactivate_framed (R := Unedited) _) h
  | dispose => exact absurd (dispose_framed (R := Unedited) _) h

theorem EditsBy.over {before : List Act} (hw : w.Fresh) (h : EditsBy w first before step) (rest : List Act) (job : Job) :
    ¬ Led w first (before ++ .step step :: rest) job := by
  obtain ⟨job₀, n, hmoves, hedited⟩ := h
  obtain ⟨_, n', first', run, stage, formatter, style, answer, ⟨⟩, hmoves', hreceives⟩ := exists_receives hw hedited
  have hvalid := (reachable_run hw before).valid
  obtain ⟨rfl, rfl⟩ := hvalid.eq_of_answered hmoves.led.mem hmoves'.led.mem hmoves.answered hmoves'.answered
  obtain ⟨d, hd, huri⟩ := hmoves.led.document hw
  exact Led.over hw hmoves (hvalid.edits hmoves.led.mem hmoves.answered hd huri hreceives).1 rest job

theorem EditsBy.unique {before before' after after' : List Act} {step' : Step} (hw : w.Fresh)
    (h : EditsBy w first before step) (h' : EditsBy w first before' step')
    (hacts : before ++ .step step :: after = before' ++ .step step' :: after') : before = before' := by
  have hlater : ∀ {before before' added after after' : List Act} {step step' : Step},
      EditsBy w first before step → EditsBy w first before' step' → before' = before ++ added →
      .step step :: after = added ++ .step step' :: after' → before = before' := by
    intro before before' added after after' step step' h h' hbefore hadded
    cases added with
    | nil => rw [hbefore, List.append_nil]
    | cons a added =>
      obtain ⟨rfl, -⟩ := List.cons.inj hadded
      obtain ⟨job, n, hmoves, -⟩ := h'
      exact absurd (hbefore ▸ hmoves.led) (h.over hw added job)
  obtain ⟨added, hbefore, hadded⟩ | ⟨added, hbefore, hadded⟩ := List.append_eq_append_iff.1 hacts
  · exact hlater h h' hbefore hadded
  · exact (hlater h' h hbefore hadded).symm

/-- The command to format changes nothing itself. Whatever happens afterwards, its task edits at most one document,
once, and only the one it was given for. When a formatter has answered with a text, then this document takes the
text for all that it holds by then, and the user is told, unless the edit is refused or fails. Else the task changes
no document. Nothing else in the program edits documents. -/
theorem formatting_is_all_or_nothing (hw : w.Fresh) (first : List Act) (arguments : List Json) :
    let given := first ++ [.invoke Command.format.id arguments]
    ((Workbench.run w given).window.documents = (Workbench.run w first).window.documents ∧
      Unedited (Workbench.run w first).window (Workbench.run w given).window) ∧
    (∀ before job step n, given <+: before → MovesOn w first before job step n →
      let w₀ := (Workbench.run w before).window
      let w₁ := (Workbench.run w (before ++ [.step step])).window
      ∃ run stage, job = .format run stage ∧ run.IsIssued (Workbench.run w first).window ∧
        (∀ formatter style answer, stage.Receives n formatter style answer →
          run.Edits formatter style answer w₀ w₁) ∧
        ((∀ formatter style answer, ¬ stage.Receives n formatter style answer) →
          w₁.documents = w₀.documents ∧ Unedited w₀ w₁)) ∧
    (∀ before step after before' step' after', before ++ .step step :: after = before' ++ .step step' :: after' →
      EditsBy w first before step → EditsBy w first before' step' → before = before') ∧
    ∀ acts a, ¬ Unedited (Workbench.run w acts).window (Workbench.run w (acts ++ [a])).window →
      ∃ first arguments later step, acts = first ++ .invoke Command.format.id arguments :: later ∧
        a = .step step ∧ EditsBy w first acts step := by
  refine ⟨⟨?_, ?_⟩, fun before job step n hgiven hmoves => ?_, ?_, fun acts a hedited => ?_⟩
  · rw [run_concat]
    exact invoke_documents _ arguments _
  · rw [run_concat]
    exact unedited_invoke _ arguments _
  · obtain ⟨later, rfl⟩ := hgiven
    rw [List.append_assoc] at hmoves
    obtain ⟨run, stage, rfl⟩ := (hmoves.led.format_iff hw).1 ⟨arguments, later, rfl⟩
    obtain ⟨d, hd, huri⟩ := hmoves.led.document hw
    have hvalid := (reachable_run hw (first ++ ([.invoke Command.format.id arguments] ++ later))).valid
    rw [List.append_assoc, run_concat]
    refine ⟨run, stage, rfl, hmoves.led.issued hw, fun formatter style answer hreceives => ?_, fun hnone => ⟨?_, ?_⟩⟩
    · exact (hvalid.edits hmoves.led.mem hmoves.answered hd huri hreceives).2
    · exact hvalid.documents_of_not_receives hmoves.led.mem hmoves.answered hnone
    · refine hvalid.unedited_step fun run' stage' n' hjob' hanswered' => ?_
      obtain ⟨heq, rfl⟩ := hvalid.eq_of_answered hmoves.led.mem hjob' hmoves.answered hanswered'
      cases heq
      exact hnone
  · exact fun before step after before' step' after' hacts h h' => h.unique hw h' hacts
  · obtain ⟨step, n, first, run, stage, -, -, -, rfl, hmoves, -⟩ := exists_receives hw hedited
    obtain ⟨arguments, later, hacts⟩ := (hmoves.led.format_iff hw).2 ⟨run, stage, rfl⟩
    exact ⟨first, arguments, later, step, hacts, rfl, _, n, hmoves, hedited⟩

def goWindow : Window := .ofDocument ⟨.file "/main.go", "package  main\n", "/main.go", false, true⟩

/-- The text is sent to a formatter, and then the user writes another one of three lines. -/
def rewriting : List Step :=
  [.reply none (.ok (some (.arr [.obj [("type", .str "gofmt")]]))), .pick none [0],
    .changeText (.file "/main.go") "package other\n\nfunc main() \x7b\x7d"]

def rewrittenActs : List Act := .invoke Command.format.id [] :: rewriting.map .step

/-- A text that ends with two line feeds, and an exit status that is no number. -/
def endedReply : Reply := .ok (some (.obj [("answer", .str "package main\n\n"), ("exit", .str "done")]))

theorem rewrittenActs_moves : ∃ run stage formatter style,
    MovesOn goWindow [] rewrittenActs (.format run stage) (.reply none endedReply) (.replied 1 endedReply) ∧
      stage.Receives (.replied 1 endedReply) formatter style "package main\n\n" := by
  have hw : goWindow.Fresh := fresh_ofDocument rfl
  have hjob : ((Workbench.run goWindow rewrittenActs).jobs.map formatting?).map (Option.map (·.2)) = [some 1] := by
    decide +kernel
  have hrequest : (Workbench.run goWindow rewrittenActs).window.requestFor? none = some 1 := by decide +kernel
  obtain ⟨found, hfound, hnumber⟩ := List.map_eq_singleton_iff.1 hjob
  obtain ⟨job, hjobs, rfl⟩ := List.map_eq_singleton_iff.1 hfound
  obtain ⟨⟨run, k⟩, hformatting, rfl⟩ := Option.map_eq_some_iff.1 hnumber
  obtain ⟨formatter, style, rfl⟩ := of_formatting? hformatting
  obtain ⟨first, hled⟩ := led_of_mem hw (hjobs ▸ List.mem_cons_self)
  obtain ⟨id, arguments, later, heq⟩ := hled.has_command
  obtain rfl := eq_nil_of_steps heq
  refine ⟨run, _, formatter, style, ⟨hled, congrArg (·.1) (Step.perform_reply endedReply hrequest), rfl⟩,
    1, 1, _, rfl, rfl, rfl, fun x hx => ?_⟩
  nomatch hx

/-- The answer takes the place of what the user has written since, to its last line feed. -/
theorem rewritten_document_becomes_answer : goWindow.Fresh ∧
    (Workbench.run goWindow (rewrittenActs ++ [.step (.reply none endedReply)])).window.documents.map (·.text) =
      ["package main\n\n"] := by
  have hw : goWindow.Fresh := fresh_ofDocument rfl
  obtain ⟨run, stage, formatter, style, hmoves, hreceives⟩ := rewrittenActs_moves
  obtain ⟨-, hanswered, -, -⟩ := formatting_is_all_or_nothing hw [] []
  obtain ⟨_, _, ⟨⟩, hissued, hedits, -⟩ := hanswered rewrittenActs _ _ _ ⟨_, rfl⟩ hmoves
  have hplace : run.document = 0 := by
    obtain ⟨k, document, selection, hactive, rfl⟩ := hissued
    have hfirst : (activeDocument? (Workbench.run goWindow []).window).map (·.1) = some 0 := by decide +kernel
    rw [hactive] at hfirst
    exact Option.some.inj hfirst
  have htakes : (Workbench.run goWindow rewrittenActs).window.documents.map (·.refusesEdits) = [false] := by
    decide +kernel
  obtain ⟨d₀, hdocuments₀, hrefuses₀⟩ := List.map_eq_singleton_iff.1 htakes
  have hunarmed₀ : (Workbench.run goWindow rewrittenActs).window.failures.get? .edit = none := by decide +kernel
  refine ⟨hw, ?_⟩
  cases hedits formatter style _ hreceives with
  | replaced _ _ _ _ _ hdocuments _ _ =>
    rw [hdocuments, hdocuments₀, hplace]
    rfl
  | refused hd _ hrefuses _ _ _ =>
    rw [hdocuments₀, hplace] at hd
    cases hd
    rw [hrefuses₀] at hrefuses
    nomatch hrefuses
  | failed harmed _ _ =>
    rw [hunarmed₀] at harmed
    nomatch harmed

end Workbench

end AsmLens
