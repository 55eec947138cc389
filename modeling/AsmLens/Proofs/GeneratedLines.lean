import AsmLens.Proofs.Completion
import AsmLens.Proofs.Correlation

/-!
# The lines of generated documents

The text of a generated document is put together from the texts of the assembly, and the lookups of a session
number the entries of the assembly. The two numberings agree as long as each text is one line. A text with a
line feed in it takes two lines of the document but is one entry, and then the entries below it are not where
the session looks for them (`entry_of_two_lines_drifts`).

Whatever fails while an output is published, a generated document that is open has the text of the output.
-/

namespace AsmLens

open Window

/-- Each entry of an assembly is the line of a text that has its number. -/
def AsmLine.InStep (asm : List AsmLine) (text : String) : Prop :=
  ∀ (i : Nat) (line : AsmLine), asm[i]? = some line → (Text.lines text)[i]? = some line.text

theorem AsmLine.inStep_joinLines_iff (asm : List AsmLine) :
    InStep asm (Text.joinLines (asm.map (·.text))) ↔ ∀ line ∈ asm, '\n' ∉ line.text.toList := by
  have h := Text.getElem?_lines_joinLines_iff (asm.map (·.text))
  rw [List.forall_mem_map] at h
  rw [← h]
  refine ⟨fun hstep i text hi => ?_, fun htexts i line hi => htexts i line.text ?_⟩
  · rw [List.getElem?_map] at hi
    obtain ⟨line, hline, rfl⟩ := Option.map_eq_some_iff.1 hi
    exact hstep i line hline
  · rw [List.getElem?_map, hi, Option.map_some]

/-! ### What is opened -/

namespace Document

/-- Between two windows a document was opened with a text, if none was open under its address, unless opening
it was made to fail. -/
structure Opens (uri : Uri) (text : String) (w w' : Window) : Prop where
  text : ∀ d, w'.openDocument? uri = some d → w.openDocument? uri = some d ∨ d.text = text
  isOpen : w.failures.get? .openDocument = none → (w'.openDocument? uri).isSome = true

theorem displayGenerated_opens (uri : Uri) (content : String) {w : Window} (hw : w.Sound) :
    Ends (displayGenerated uri content) w (fun _ w' => Opens uri content w w')
      fun _ w' => Opens uri content w w' := by
  refine .look ?_
  by_cases hshown : (w.findPane? uri).isSome = true
  · rw [if_pos hshown]
    exact .pure ⟨fun d hd => .inl hd, fun _ => hw.openDocument?_isSome hshown⟩
  · rw [if_neg hshown]
    refine (openAt_ends uri content w).bind (fun n w₁ h₁ => ?_) fun e w' he => ⟨fun d hd => ?_, fun hnone => ?_⟩
    · obtain ⟨-, -, hopen, -⟩ := h₁
      have hopens : ∀ w', w'.documents = w₁.documents → Opens uri content w w' := by
        intro w' hsame
        rw [← openDocument?_eq_of_documents hsame] at hopen
        refine ⟨fun d hd => ?_, fun _ => ?_⟩
        · rw [hopen] at hd
          cases hfound : w.openDocument? uri with
          | some d' =>
            rw [hfound, Option.some_or] at hd
            exact .inl hd
          | none =>
            rw [hfound, Option.none_or] at hd
            cases hd
            exact .inr rfl
        · rw [hopen]
          cases w.openDocument? uri <;> rfl
      refine .look ((Ends.lift (emit_quiet _ rfl rfl w₁)).bind (fun _ w₂ h₂ => ?_) fun _ _ he => he)
      refine (attempt_exactly .showDocument w₂).bind (fun _ w₃ h₃ => ?_) fun _ w₃ h₃ => ?_
      · refine (Ends.modify _).mono (fun _ w' h => hopens w' ?_) fun _ _ he => he
        rw [h, h₃.1]
        exact h₂.documents
      · refine hopens w₃ ?_
        rw [h₃.1]
        exact h₂.documents
    · rw [he.1.toAsks.openDocument?] at hd
      exact .inl hd
    · rw [hnone] at he
      nomatch he.2

end Document

namespace Workbench

variable {run : Compile.Run} {compiler : Compiler} {output : CompileOutput} {b b' : Workbench}

def KeepsDocuments (b b' : Workbench) : Prop := b'.window.documents = b.window.documents

instance : Frame KeepsDocuments where
  refl _ := rfl
  trans h h' := h'.trans h

theorem startSession_keepsDocuments (source generated : Uri) (index : LineIndex) (color : String) :
    Holds KeepsDocuments (startSession source generated index color) := fun b =>
  (startSession_ends source generated index color b).mono (fun _ _ h => h.2.1.documents)
    fun _ _ h => h.2.1.documents

theorem report_keepsDocuments (source : Uri) (stderr : List Json) (offset : Number) :
    Holds KeepsDocuments (report source stderr offset) := fun b =>
  (report_ends source stderr offset b).mono (fun _ _ h => h.2.documents) fun _ _ h => h.2.documents

theorem tell_keepsDocuments (run : Compile.Run) (compiler : Compiler) (output : CompileOutput) :
    Holds KeepsDocuments (tellOutput run compiler output) := by
  have htell : ∀ text, Holds KeepsDocuments (onHost (Message.tellDone text)) := fun text b =>
    (onHost_ends (Message.tellDone_ends text b.window)).mono (fun _ _ h => h.1.1.documents)
      fun _ _ h => h.1.1.documents
  exact holds_tellOutput htell (fun _ _ => rfl)
    (holds_linkOutput (startSession_keepsDocuments _ _) (report_keepsDocuments _))

/-- A generated document that is open has the text of an output, and it is open unless opening it was made to
fail. -/
structure Generates (run : Compile.Run) (output : CompileOutput) (b b' : Workbench) : Prop where
  text : ∀ d, b'.window.openDocument? run.uri.generated = some d →
    d.text = Text.joinLines (output.asm.map (·.text))
  isOpen : b.window.failures.get? .openDocument = none →
    (b'.window.openDocument? run.uri.generated).isSome = true

theorem Generates.arms {b₁ : Workbench} (h : Generates run output b₁ b')
    (hfailures : b.window.failures.get? .openDocument = none →
      b₁.window.failures.get? .openDocument = none) : Generates run output b b' :=
  ⟨h.text, fun hnone => h.isOpen (hfailures hnone)⟩

theorem Generates.keepsDocuments {b₁ : Workbench} (h : Generates run output b b₁)
    (hkeeps : KeepsDocuments b₁ b') : Generates run output b b' := by
  have hsame : b'.window.openDocument? run.uri.generated = b₁.window.openDocument? run.uri.generated :=
    openDocument?_eq_of_documents hkeeps
  exact ⟨hsame ▸ h.text, hsame ▸ h.isOpen⟩

theorem show_generates (run : Compile.Run) (compiler : Compiler) (output : CompileOutput) {b : Workbench}
    (hsound : b.window.Sound)
    (hprovided : b.provided run.uri.generated = Text.joinLines (output.asm.map (·.text)))
    (htext : ∀ d, b.window.openDocument? run.uri.generated = some d →
      d.text = Text.joinLines (output.asm.map (·.text))) :
    Ends (showOutput run compiler output) b
      (fun _ b' => Generates run output b b') fun _ b' => Generates run output b b' := by
  have hcurrent : Gives current b fun a b' => a = b ∧ b' = b := ⟨rfl, rfl⟩
  refine (Ends.lift hcurrent).bind (fun _ b₀ h₀ => ?_) fun _ _ he => he
  obtain ⟨rfl, rfl⟩ := h₀
  have hgenerates : ∀ b' : Workbench,
      Document.Opens run.uri.generated (b₀.provided run.uri.generated) b₀.window b'.window →
        Generates run output b₀ b' := by
    refine fun b' hopens => ⟨fun d hd => ?_, hopens.isOpen⟩
    rcases hopens.text d hd with hbefore | hafter
    · exact htext d hbefore
    · rw [hafter, hprovided]
  have hdisplay := onHost_ends (Document.displayGenerated_opens run.uri.generated
    (b₀.provided run.uri.generated) hsound)
  refine hdisplay.bind (fun _ b₁ h₁ => ?_) fun _ b₁ h₁ => hgenerates b₁ h₁.1
  exact (tell_keepsDocuments run compiler output b₁).mono
    (fun _ _ h => (hgenerates b₁ h₁.1).keepsDocuments h) fun _ _ h => (hgenerates b₁ h₁.1).keepsDocuments h

theorem publish_generates (run : Compile.Run) (compiler : Compiler) (output : CompileOutput) (b : Workbench)
    (hwired : b.Wired) (hregistered : b.isRegistered = true) :
    Ends (publish run compiler output) b (fun _ b' => Generates run output b b')
      fun _ b' => Generates run output b b' := by
  rw [publish_eq]
  -- The session of the two documents ends.
  have hfinish := onHighlights_gives (f := (·.finish (Uri.sessionKey run.uri run.uri.generated)))
    (b.highlights.finishWhere_gives _ b.window)
  refine (Ends.lift hfinish).bind (fun _ b₁ h₁ => ?_) fun _ _ he => he
  obtain ⟨⟨-, -, -, hdraws₁, -⟩, hb₁⟩ := h₁
  obtain ⟨w₁, c₁, rfl⟩ : ∃ w c, b₁ = { b with window := w, highlights := c } := ⟨_, _, hb₁⟩
  have hsound₁ := hdraws₁.sound hwired.draws hwired.sound
  -- The contents take the text of the output, and so does the document if it is open.
  have hreplace := replaceContents_gives run.uri.generated (output.asm.map (·.text))
    { b with window := w₁, highlights := c₁ }
  refine (Ends.lift hreplace).bind (fun _ b₂ h₂ => ?_) fun _ _ he => he
  obtain ⟨hb₂, hpresents₂, -, hopen₂⟩ := h₂
  obtain ⟨w₂, rfl⟩ : ∃ w, b₂ = { b with
      window := w, highlights := c₁
      contents := b.contents.replace run.uri.generated (output.asm.map (·.text)) } := ⟨_, hb₂⟩
  rw [if_neg (hwired.listeners hregistered)] at hopen₂
  refine (show_generates run compiler output (hpresents₂.sound hsound₁) ?_ fun d hd => ?_).mono
    (fun _ _ h => h.arms ?_) fun _ _ h => h.arms ?_
  · rw [provided, if_pos hregistered, Contents.textOf_replace]
  · rw [hopen₂] at hd
    obtain ⟨d', -, rfl⟩ := Option.map_eq_some_iff.1 hd
    rfl
  all_goals exact fun hnone => hpresents₂.unarmed _ (hdraws₁.unarmed _ hnone)

theorem Valid.generates {a : Act} (hb : b.Valid) (hregistered : b.isRegistered = true)
    (hdelivers : a.Delivers b run compiler output) : Generates run output b (b.after a) := by
  obtain ⟨step, k, language, arguments, reply, w, jobs, -, -, haccepts, hsame, hwired, hafter⟩ :=
    hb.delivered hdelivers
  have hpublishes := onReply_of_publish run k language compiler arguments haccepts
    (publish_generates run compiler output { b with window := w } hwired hregistered)
  have hcontain : Gives
      (contain "compile" (onReply reply (.compile run (.compiling k language compiler arguments))))
      { b with window := w } fun _ b' => Generates run output { b with window := w } b' := by
    refine contain_gives hpublishes (fun _ _ h _ => h.2) (fun _ _ h _ => h.2) fun fault b' h => ?_
    refine (onWindow_gives (reportFault_gives "compile" fault b'.window)).mono fun _ b'' h' => ?_
    exact h.keepsDocuments h'.1.1.1.documents
  rw [hafter]
  refine ⟨hcontain.text, fun hnone => hcontain.isOpen ?_⟩
  show w.failures.get? .openDocument = none
  rw [hsame.failures, hnone]

/-! ### The lines of a generated document -/

/-- After an output was published, a session of its source knows each entry as the line with its number. -/
theorem Published.index_of_live (h : Published run output b b') {e : Entry DecorationCanvas}
    (he : e ∈ b'.highlights.live) (hkey : e.key = Uri.sessionKey run.uri run.uri.generated) :
    e.session.index = .ofLines (AnnotatedLine.ofAsm output.asm) := by
  obtain ⟨hmem, hlive⟩ := List.mem_filter.1 he
  obtain ⟨old, new, hentries, hends, -, hnew⟩ := h.entries
  rw [hentries] at hmem
  rcases List.mem_append.1 hmem with hmem | hmem
  · -- The sessions that were there before have ended.
    obtain ⟨e₀, -, hfollows, hended, -⟩ := forall₂_exists_left hends hmem
    have hkey₀ : e₀.key = Uri.sessionKey run.uri run.uri.generated := by
      rw [← hkey, Entry.key_eq hfollows.source hfollows.generated]
    rw [hended (decide_eq_true hkey₀)] at hlive
    nomatch hlive
  · obtain rfl | ⟨k, l, rfl, -⟩ := hnew
    · nomatch hmem
    · rw [List.mem_singleton.1 hmem]
      rfl

/-- When an output comes, a session of its source knows entry `i` of the assembly as the line `i`. The generated
document, which is open unless opening it was made to fail, has the text of this entry as its line `i`, for all
entries, exactly if no entry has a line feed in its text. -/
theorem generated_lines_are_entries_iff {w : Window} (hw : w.Fresh) (acts : List Act) {a : Act}
    (hregistered : (Workbench.run w acts).isRegistered = true)
    (hdelivers : a.Delivers (Workbench.run w acts) run compiler output) :
    ((Workbench.run w acts).window.failures.get? .openDocument = none →
        ((Workbench.run w (acts ++ [a])).window.openDocument? run.uri.generated).isSome = true) ∧
      (∀ d, (Workbench.run w (acts ++ [a])).window.openDocument? run.uri.generated = some d →
        d.text = (Workbench.run w (acts ++ [a])).contents.textOf run.uri.generated ∧
          (AsmLine.InStep output.asm d.text ↔ ∀ line ∈ output.asm, '\n' ∉ line.text.toList)) ∧
      ∀ e ∈ (Workbench.run w (acts ++ [a])).highlights.live,
        e.key = Uri.sessionKey run.uri run.uri.generated →
          ∀ (i : Nat) (line : AsmLine), output.asm[i]? = some line →
            e.session.index.sourceLine? ((i + 1 : Nat) : Number) = AnnotatedLine.lineOf line.source := by
  have hvalid := (reachable_run hw acts).valid
  obtain ⟨_, b₁, jobs, -, -, hpublished, -, hafter⟩ := hvalid.receives hdelivers
  have hgenerates := hvalid.generates hregistered hdelivers
  rw [← run_concat] at hafter hgenerates
  have hcontents : (Workbench.run w (acts ++ [a])).contents.textOf run.uri.generated =
      Text.joinLines (output.asm.map (·.text)) := by
    rw [hafter]
    show b₁.contents.textOf _ = _
    rw [hpublished.contents, Contents.textOf_replace]
  refine ⟨hgenerates.isOpen, fun d hd => ?_, fun e he hkey i line hline => ?_⟩
  · have htext := hgenerates.text d hd
    refine ⟨htext.trans hcontents.symm, ?_⟩
    rw [htext]
    exact AsmLine.inStep_joinLines_iff output.asm
  · rw [hafter] at he
    rw [hpublished.index_of_live he hkey, AnnotatedLine.sourceLine?_ofAsm hline]

/-- The three entries of an output are the lines of its generated document. -/
theorem outputReply_in_step : ∃ (run : Compile.Run) (output : CompileOutput) (d : Document),
    (Workbench.run sourceWindow (compileActs ++ [.step (.reply none outputReply)])).window.openDocument?
        run.uri.generated = some d ∧
      output.asm.length = 3 ∧ AsmLine.InStep output.asm d.text := by
  obtain ⟨hjobs, hrequest, hcalm⟩ := compileActs_compiling
  obtain ⟨run, compiler, hdelivers⟩ := delivers_of_outputRequest? outputReply hjobs hrequest rfl
  have hregistered : (Workbench.run sourceWindow compileActs).isRegistered = true := by decide +kernel
  obtain ⟨hopen, hdocument, -⟩ :=
    generated_lines_are_entries_iff (fresh_ofDocument rfl) compileActs hregistered hdelivers
  obtain ⟨d, hd⟩ := Option.isSome_iff_exists.1 (hopen (hcalm _))
  exact ⟨run, _, d, hd, rfl, (hdocument d hd).2.2 (by decide +kernel)⟩

/-- An output whose first entry has two lines. -/
def twoLineReply : Reply :=
  .ok (some (.obj [("asm", .arr [.obj [("text", .str "RESUME\nNOP"), ("source", .null)],
    .obj [("text", .str "RETURN_VALUE"), ("source", .obj [("line", .num 1)])]])]))

/-- The session takes the second line for the entry below the first one, but the document has the rest of the
first entry there. -/
theorem entry_of_two_lines_drifts : ¬ ∀ (w : Window) (acts : List Act) (a : Act) (run : Compile.Run)
    (compiler : Compiler) (output : CompileOutput), w.Fresh → (Workbench.run w acts).isRegistered = true →
      a.Delivers (Workbench.run w acts) run compiler output → (Workbench.run w acts).window.Calm →
        ∀ d, (Workbench.run w (acts ++ [a])).window.openDocument? run.uri.generated = some d →
          AsmLine.InStep output.asm d.text := by
  intro hall
  obtain ⟨hjobs, hrequest, hcalm⟩ := compileActs_compiling
  obtain ⟨run, compiler, hdelivers⟩ := delivers_of_outputRequest? twoLineReply hjobs hrequest rfl
  have hregistered : (Workbench.run sourceWindow compileActs).isRegistered = true := by decide +kernel
  have hw : sourceWindow.Fresh := fresh_ofDocument rfl
  have hgenerates := (reachable_run hw compileActs).valid.generates hregistered hdelivers
  rw [← run_concat] at hgenerates
  obtain ⟨d, hd⟩ := Option.isSome_iff_exists.1 (hgenerates.isOpen (hcalm _))
  have hstep := hall _ _ _ _ _ _ hw hregistered hdelivers hcalm d hd
  rw [hgenerates.text d hd, AsmLine.inStep_joinLines_iff] at hstep
  have hfeed : ∃ line ∈ ([⟨"RESUME\nNOP", .null⟩, ⟨"RETURN_VALUE", .obj [("line", .num 1)]⟩] : List AsmLine),
      '\n' ∈ line.text.toList := ⟨_, List.mem_cons_self, by decide +kernel⟩
  obtain ⟨line, hline, hmem⟩ := hfeed
  exact hstep line hline hmem

end Workbench

end AsmLens
