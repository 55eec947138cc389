import AsmLens.Proofs.Ledger
import AsmLens.Proofs.Snapshots
import AsmLens.Proofs.Textless

/-!
# Outputs that are carried through

When no call of the host was made to fail, only one thing can end a task after its output has come: what the
compiler wrote about the source is read last, and an entry that is nothing, or names a column that has no
text, cannot be read (`Diagnostic.IsUnreadable`). Up to then everything of the output is in place and the
user was told that the compilation is done. So an output is carried through just when all its entries can be
read (`accepted_output_is_carried_through`).
-/

namespace AsmLens

open Window

namespace Window

variable {w w' : Window}

theorem Calm.of_unarmed (h : w.Calm)
    (hunarmed : ∀ call, w.failures.get? call = none → w'.failures.get? call = none) : w'.Calm :=
  fun call => hunarmed call (h call)

/-- The user was told of something that is done, and nothing else that is notable left the program. -/
def TellsDone (text : String) (w w' : Window) : Prop :=
  ∃ n, w'.notable = w.notable ++ [.message n .information text false []]

theorem TellsDone.unnoted {text : String} {w₁ w₂ : Window} (h : TellsDone text w w₁) (h' : Unnoted w₁ w₂) :
    TellsDone text w w₂ := by
  obtain ⟨n, hn⟩ := h
  exact ⟨n, by rw [h', hn]⟩

end Window

/-- The compiler messages that an output has for its source, where the lines of the source are. -/
def Compile.Run.remarks (run : Compile.Run) (output : CompileOutput) : Except Fault (List Diagnostic) :=
  Diagnostic.ofStderr (run.source.range.first - 1) output.stderr

/-- What leaves the program when a fault has ended a task: it is logged, and the user is told. -/
def TaskEvent.failure (name : String) (fault : Fault) (n : Nat) (text : String) : List Event :=
  [.logError (failureText name) (some fault), .logError s!"Compiler Explorer: {text}" none,
    .message n .error s!"Compiler Explorer: {text}" false []]

theorem concat_of_notable {e : Event} (h : e.isNotable = true) (events : List Event) :
    (events ++ [e]).filter Event.isNotable = events.filter Event.isNotable ++ [e] := by
  rw [List.filter_append, List.filter_cons_of_pos h, List.filter_nil]

namespace Message

theorem showMessage_notable (kind : MessageKind) (text : String) (actions : List String) {w : Window}
    (hw : w.Calm) :
    Ends (showMessage kind text actions) w
      (fun n w' => w'.notable = w.notable ++ [.message n kind text false actions]) fun _ _ => False := by
  refine (attempt_exactly (callOf kind) w).bind (fun _ w₁ h => ?_) fun _ _ he => hw.not_armed he.2.2
  obtain ⟨rfl, -⟩ := h
  exact concat_of_notable rfl w₁.events

theorem tellDone_notable (text : String) {w : Window} (hw : w.Calm) :
    Ends (tellDone text) w (fun _ w' => TellsDone text w w') fun _ _ => False := by
  have hlog : Gives (log [text]) w fun _ w₁ => Unnoted w w₁ ∧ w₁.Calm := ⟨log_unnoted [text] w, hw⟩
  refine (Ends.lift hlog).bind (fun _ w₁ h₁ => ?_) fun _ _ he => he
  refine (showMessage_notable .information text [] h₁.2).discard.mono ?_ fun _ _ he => he
  rintro _ w' ⟨n, hn⟩
  exact ⟨n, by rw [hn, h₁.1]⟩

theorem tellError_notable (text : String) {w : Window} (hw : w.Calm) :
    Ends (tellError text) w
      (fun _ w' => ∃ n, w'.notable = w.notable ++ [.logError text none, .message n .error text false []])
      fun _ _ => False := by
  have hlog : Gives (logError text none) w fun _ w₁ =>
      w₁.notable = w.notable ++ [.logError text none] ∧ w₁.Calm := ⟨concat_of_notable rfl w.events, hw⟩
  refine (Ends.lift hlog).bind (fun _ w₁ h₁ => ?_) fun _ _ he => he
  refine (showMessage_notable .error text [] h₁.2).discard.mono ?_ fun _ _ he => he
  rintro _ w' ⟨n, hn⟩
  exact ⟨n, by rw [hn, h₁.1, List.append_assoc]; rfl⟩

end Message

namespace Workbench

variable {run : Compile.Run} {compiler : Compiler} {output : CompileOutput} {b b' : Workbench}

theorem reportFault_notable (name : String) {fault : Fault} (hfault : fault.HasMessage) {w : Window}
    (hw : w.Calm) : Gives (reportFault name fault) w fun _ w' =>
      ∃ n text, w'.notable = w.notable ++ TaskEvent.failure name fault n text := by
  obtain ⟨text, htext⟩ := hfault
  have hlog : Gives (logError (TaskEvent.failureText name) (some fault)) w fun _ w₁ =>
      w₁.notable = w.notable ++ [.logError (TaskEvent.failureText name) (some fault)] ∧ w₁.Calm :=
    ⟨concat_of_notable rfl w.events, hw⟩
  refine hlog.bind fun _ w₁ h₁ => ?_
  have htell : Ends (do Message.tellError s!"Compiler Explorer: {← fault.message}" : Host Unit) w₁
      (fun _ w' => ∃ n, w'.notable = w₁.notable ++ [.logError s!"Compiler Explorer: {text}" none,
        .message n .error s!"Compiler Explorer: {text}" false []]) fun _ _ => False := by
    refine (Ends.ofExcept _).bind (fun text' w₂ h₂ => ?_) fun _ _ he => ?_
    · obtain ⟨rfl, htext'⟩ := h₂
      cases htext.symm.trans htext'
      exact Message.tellError_notable _ h₁.2
    · rw [htext] at he
      nomatch he.2
  unfold Ends at htell
  refine htell.bind fun r w₂ h₂ => ?_
  cases r with
  | ok _ =>
    obtain ⟨n, hn⟩ := h₂
    exact .pure ⟨n, text, by rw [hn, h₁.1, List.append_assoc]; rfl⟩
  | error e => exact h₂.elim

/-! ### Publishing in a calm window -/

theorem report_reads (source : Uri) (stderr : List Json) (offset : Number) (b : Workbench) :
    Ends (report source stderr offset) b
      (fun _ b' => (∃ messages, Diagnostic.ofStderr offset stderr = .ok messages) ∧ Unnoted b.window b'.window)
      fun e b' => Diagnostic.ofStderr offset stderr = .error e ∧ b' = b := by
  refine (Ends.ofExcept _).bind (fun messages b₁ h₁ => ?_) fun _ _ he => he.symm
  obtain ⟨rfl, hread⟩ := h₁
  have hpublish := within_onWindow (Diagnostic.publish_framed (R := Unnoted) source messages) b₁
  refine (Ends.lift hpublish).bind (fun _ b₂ h₂ => ?_) fun _ _ he => he
  split
  · exact (Ends.lift (within_onWindow (log_unnoted _) b₂)).mono
      (fun _ _ h => ⟨⟨messages, hread⟩, Frame.trans h₂ h⟩) fun _ _ he => he
  · exact .pure ⟨⟨messages, hread⟩, h₂⟩

theorem link_reads (run : Compile.Run) (output : CompileOutput) {b : Workbench} (hcalm : b.window.Calm) :
    Ends (linkOutput run output) b
      (fun _ b' => (∃ messages, run.remarks output = .ok messages) ∧ Unnoted b.window b'.window)
      fun e b' => run.remarks output = .error e ∧
        Unnoted b.window b'.window ∧ b'.window.Calm := by
  have hreport : ∀ b₁, Unnoted b.window b₁.window → b₁.window.Calm →
      Ends (report run.uri output.stderr (run.source.range.first - 1)) b₁
        (fun _ b' => (∃ messages, run.remarks output = .ok messages) ∧ Unnoted b.window b'.window)
        fun e b' => run.remarks output = .error e ∧
          Unnoted b.window b'.window ∧ b'.window.Calm := by
    intro b₁ hunnoted hcalm₁
    refine (report_reads _ _ _ b₁).mono (fun _ _ h => ⟨h.1, Frame.trans hunnoted h.2⟩) ?_
    rintro e _ ⟨he, rfl⟩
    exact ⟨he, hunnoted, hcalm₁⟩
  unfold linkOutput
  dsimp only
  split
  · have hstart := (startSession_ends run.uri run.uri.generated (.ofLines (AnnotatedLine.ofAsm output.asm))
      run.config.highlightStyle b).and (startSession_framed (R := Unnoted) _ _ _ _ b)
    refine hstart.bind (fun _ b₁ h₁ => ?_) fun _ _ he => absurd he.1.2.2.2.2.2 hcalm.not_armed
    obtain ⟨⟨-, hdraws, -⟩, hunnoted⟩ := h₁
    exact hreport b₁ hunnoted (hcalm.of_unarmed hdraws.unarmed)
  · exact hreport b (Frame.refl b.window) hcalm

/-- In a calm window an output is published and the user is told, unless its messages cannot be read. Then
publishing fails in the end. -/
theorem publish_reads (run : Compile.Run) (compiler : Compiler) (output : CompileOutput) {b : Workbench}
    (hwired : b.Wired) (hcalm : b.window.Calm) :
    Ends (publish run compiler output) b
      (fun _ b' => (∃ messages, run.remarks output = .ok messages) ∧
        TellsDone s!"Compilation done {compiler.name}" b.window b'.window)
      fun e b' => run.remarks output = .error e ∧
        TellsDone s!"Compilation done {compiler.name}" b.window b'.window ∧ b'.window.Calm := by
  rw [publish_eq]
  -- The session of the two documents ends.
  have hfinish : Gives (onHighlights (·.finish (Uri.sessionKey run.uri run.uri.generated))) b fun _ b₁ =>
      Unnoted b.window b₁.window ∧ b₁.window.Calm ∧ b₁.window.Sound := by
    have hgives := onHighlights_gives (f := (·.finish (Uri.sessionKey run.uri run.uri.generated)))
      (b.highlights.finishWhere_gives _ b.window)
    obtain ⟨⟨-, -, -, hdraws, -⟩, -⟩ := hgives
    exact ⟨within_onHighlights (R := Unnoted) (fun c => c.finishWhere_framed _) b, hcalm.of_unarmed hdraws.unarmed,
      hdraws.sound hwired.draws hwired.sound⟩
  refine (Ends.lift hfinish).bind (fun _ b₁ h₁ => ?_) fun _ _ he => he
  obtain ⟨hunnoted₁, hcalm₁, hsound₁⟩ := h₁
  -- The contents take the text of the output.
  have hreplace : Gives (replaceContents run.uri.generated (output.asm.map (·.text))) b₁ fun _ b₂ =>
      Unnoted b₁.window b₂.window ∧ b₂.window.Calm ∧ b₂.window.Sound := by
    obtain ⟨-, hpresents, -⟩ := replaceContents_gives run.uri.generated (output.asm.map (·.text)) b₁
    exact ⟨replaceContents_framed (R := Unnoted) _ _ b₁, hcalm₁.of_unarmed hpresents.unarmed,
      hpresents.sound hsound₁⟩
  refine (Ends.lift hreplace).bind (fun _ b₂ h₂ => ?_) fun _ _ he => he
  obtain ⟨hunnoted₂, hcalm₂, hsound₂⟩ := h₂
  -- The generated document is shown.
  refine (Ends.lift (Q := fun a b' => a = b₂ ∧ b' = b₂) ⟨rfl, rfl⟩).bind (fun _ b₀ h₀ => ?_) fun _ _ he => he
  obtain ⟨rfl, rfl⟩ := h₀
  have hdisplay := onHost_ends ((Document.displayGenerated_ends run.uri.generated
    (b₀.provided run.uri.generated) b₀.window).and (Document.displayGenerated_framed (R := Unnoted) _ _ b₀.window))
  refine hdisplay.bind (fun _ b₃ h₃ => ?_) fun _ _ he => ?_
  · obtain ⟨⟨⟨hpresents₃, -⟩, hunnoted₃⟩, -⟩ := h₃
    have hcalm₃ := hcalm₂.of_unarmed hpresents₃.unarmed
    -- The user is told.
    have htell := onHost_ends ((Message.tellDone_notable s!"Compilation done {compiler.name}" hcalm₃).and
      (Message.tellDone_ends _ b₃.window))
    refine htell.bind (fun _ b₄ h₄ => ?_) fun _ _ he => he.1.1.elim
    obtain ⟨⟨hdone, hasks, -⟩, -⟩ := h₄
    have hdone₄ : TellsDone s!"Compilation done {compiler.name}" b.window b₄.window := by
      obtain ⟨n, hn⟩ := hdone
      exact ⟨n, by rw [hn, hunnoted₃, hunnoted₂, hunnoted₁]⟩
    have hremember : Gives (rememberInstructionSet run.uri.generated compiler.instructionSet) b₄ fun _ b₅ =>
      b₅.window = b₄.window := rfl
    refine (Ends.lift hremember).bind (fun _ b₅ h₅ => ?_) fun _ _ he => he
    have hdone₅ : ∀ {w'}, Unnoted b₅.window w' →
        TellsDone s!"Compilation done {compiler.name}" b.window w' := (h₅ ▸ hdone₄).unnoted
    refine (link_reads run output (h₅ ▸ hcalm₃.asks hasks)).mono ?_ ?_
    · exact fun _ _ h => ⟨h.1, hdone₅ h.2⟩
    · exact fun _ _ h => ⟨h.1, hdone₅ h.2.1, h.2.2⟩
  · obtain ⟨⟨⟨-, -, harmed | harmed⟩, -⟩, -⟩ := he
    · exact absurd harmed hcalm₂.not_armed
    · exact absurd harmed hcalm₂.not_armed

/-! ### Outputs that come -/

/-- The compiler messages are those of the output, and the user was told that the compilation is done, and
nothing else. -/
def Completes (run : Compile.Run) (compiler : Compiler) (output : CompileOutput) (b b' : Workbench) : Prop :=
  ∃ messages, run.remarks output = .ok messages ∧
    b'.window.diagnostics.get? run.uri.text = some messages ∧
    TellsDone s!"Compilation done {compiler.name}" b.window b'.window

/-- The compiler messages are still those that were there before, and after the user was told that the
compilation is done, a fault ended the task. -/
def FailsLate (run : Compile.Run) (compiler : Compiler) (output : CompileOutput) (b b' : Workbench) : Prop :=
  ∃ fault, run.remarks output = .error fault ∧
    b'.window.diagnostics.get? run.uri.text = b.window.diagnostics.get? run.uri.text ∧
    ∃ n m text, b'.window.notable = b.window.notable ++
      .message n .information s!"Compilation done {compiler.name}" false [] ::
        TaskEvent.failure "compile" fault m text

theorem contain_reads (run : Compile.Run) (k : Nat) (language : Language) (compiler : Compiler)
    (arguments : String) {reply : Reply} (haccepts : Compile.Accepts reply output) (hwired : b.Wired)
    (hcalm : b.window.Calm) :
    Gives (contain "compile" (onReply reply (.compile run (.compiling k language compiler arguments)))) b
      fun _ b' => (∃ messages, run.remarks output = .ok messages) ∧
          TellsDone s!"Compilation done {compiler.name}" b.window b'.window ∨
        ∃ fault, run.remarks output = .error fault ∧
          ∃ n m text, b'.window.notable = b.window.notable ++
            .message n .information s!"Compilation done {compiler.name}" false [] ::
              TaskEvent.failure "compile" fault m text := by
  have hreads : Ends (onReply reply (.compile run (.compiling k language compiler arguments))) b
      (fun _ b' => (∃ messages, run.remarks output = .ok messages) ∧
        TellsDone s!"Compilation done {compiler.name}" b.window b'.window)
      fun e b' => run.remarks output = .error e ∧
        TellsDone s!"Compilation done {compiler.name}" b.window b'.window ∧ b'.window.Calm := by
    exact (onReply_of_publish run k language compiler arguments haccepts
      (publish_reads run compiler output hwired hcalm)).mono (fun _ _ h => h.2) fun _ _ h => h
  refine contain_gives hreads (fun _ _ h _ => .inl h) (fun _ _ h _ => .inl h) ?_
  rintro fault b₁ ⟨hfault, ⟨n, hn⟩, hcalm₁⟩
  have hmessage : fault.HasMessage := Diagnostic.tellable_ofStderr _ _ fault hfault
  refine (onWindow_gives (reportFault_notable "compile" hmessage hcalm₁)).mono ?_
  rintro _ b₂ ⟨⟨m, text, hm⟩, -⟩
  exact .inr ⟨fault, hfault, n, m, text, by rw [hm, hn, List.append_assoc]; rfl⟩

/-- In a calm window an output that comes is recorded, and completes its task unless its messages cannot be
read. -/
theorem Valid.completes {a : Act} (hb : b.Valid) (hcalm : b.window.Calm)
    (hdelivers : a.Delivers b run compiler output) :
    (b.after a).ledger = b.ledger.record run compiler output ∧
      (Completes run compiler output b (b.after a) ∨ FailsLate run compiler output b (b.after a)) := by
  obtain ⟨step, k, language, arguments, reply, w, jobs, rfl, hw, haccepts, hsame, hwired, hafter⟩ :=
    hb.delivered hdelivers
  have hnotable : w.notable = b.window.notable := hw ▸ (step.perform_upholds b.window).notable
  have hcalm' : w.Calm := fun call => by rw [hsame.failures]; exact hcalm call
  obtain ⟨-, hpublished, hrecorded⟩ := contain_records run k language compiler arguments haccepts hwired
  have hledger := hrecorded.ledger hpublished hcalm'
  have hreads := contain_reads (b := { b with window := w }) run k language compiler arguments haccepts
    hwired hcalm'
  unfold Gives at hreads
  rw [hafter]
  generalize (contain "compile" _ _).2 = b₁ at hledger hreads ⊢
  have hbefore : Workbench.ledger { b with window := w } = b.ledger := by
    unfold Workbench.ledger
    rw [hsame.diagnostics]
  rw [hbefore] at hledger
  have hmessages : b₁.window.diagnostics.get? run.uri.text =
      (run.messages? output).or (b.window.diagnostics.get? run.uri.text) :=
    (congrFun (congrArg Ledger.diagnostics hledger) _).trans (Ledger.record_diagnostics ..)
  refine ⟨hledger, ?_⟩
  have hread? : run.messages? output = (run.remarks output).toOption := rfl
  rw [hread?] at hmessages
  obtain ⟨⟨messages, hread⟩, n, hn⟩ | ⟨fault, hread, n, m, text, hn⟩ := hreads
  · rw [hread] at hmessages
    exact .inl ⟨messages, hread, hmessages, n, by rw [← hnotable]; exact hn⟩
  · rw [hread] at hmessages
    exact .inr ⟨fault, hread, hmessages, n, m, text, by rw [← hnotable]; exact hn⟩

/-- In a calm window an output that comes is carried through: the contents, the instruction set and the
session are those of the output, the session if the whole document was compiled and sessions were wanted when
the command was given. If all that the compiler wrote can be read, the compiler messages are replaced and the
task completes. If not, the messages stay those of an older output, and the task fails after the user was
told that it is done. -/
theorem accepted_output_is_carried_through {w : Window} (hw : w.Fresh) (acts : List Act) {a : Act}
    (hdelivers : a.Delivers (Workbench.run w acts) run compiler output)
    (hcalm : (Workbench.run w acts).window.Calm) :
    (∃ before arguments after, acts = before ++ .invoke Command.compile.id arguments :: after ∧
        run.IsIssued (Workbench.run w before) arguments) ∧
      (Workbench.run w (acts ++ [a])).contents.texts.get? run.uri.generated.text =
        some (Text.joinLines (output.asm.map (·.text))) ∧
      (Workbench.run w (acts ++ [a])).instructionSets.get? run.uri.generated.text = compiler.knownSet? ∧
      links (Workbench.run w (acts ++ [a])).highlights.entries (Uri.sessionKey run.uri run.uri.generated) =
        (if run.config.liveCorrelation && run.source.isWhole then
          [(run.uri, run.uri.generated, .ofLines (AnnotatedLine.ofAsm output.asm))] else []) ∧
      ((∀ entry ∈ output.stderr, ¬ Diagnostic.IsUnreadable entry) →
        Completes run compiler output (Workbench.run w acts) (Workbench.run w (acts ++ [a]))) ∧
      ((∃ entry ∈ output.stderr, Diagnostic.IsUnreadable entry) →
        FailsLate run compiler output (Workbench.run w acts) (Workbench.run w (acts ++ [a]))) := by
  have hvalid := (reachable_run hw acts).valid
  obtain ⟨hledger, hends⟩ := hvalid.completes hcalm hdelivers
  rw [← run_concat] at hledger hends
  have hcontents := (congrFun (congrArg Ledger.contents hledger) _).trans (Ledger.record_contents ..)
  have hsets := (congrFun (congrArg Ledger.instructionSets hledger) _).trans (Ledger.record_instructionSets ..)
  have hsessions := (congrFun (congrArg Ledger.sessions hledger) _).trans (Ledger.record_sessions ..)
  have hunreadable : Fails (run.remarks output) ↔ _ := Diagnostic.fails_ofStderr_iff _ output.stderr
  refine ⟨?_, hcontents, hsets, hsessions, fun hreadable => hends.resolve_right ?_,
    fun hentry => hends.resolve_left ?_⟩
  · obtain ⟨named, k, language, arguments, reply, rfl, -, hjob, -⟩ := hdelivers
    exact (came_of_mem hw hjob).has_command
  · rintro ⟨fault, hfault, -⟩
    obtain ⟨entry, hentry, h⟩ := hunreadable.1 ⟨fault, hfault⟩
    exact hreadable entry hentry h
  · rintro ⟨messages, hmessages, -⟩
    obtain ⟨fault, hfault⟩ := hunreadable.2 hentry
    rw [hmessages] at hfault
    nomatch hfault

/-- The number of the request for the output that a task waits for. -/
def outputRequest? : Job → Option Nat
  | .compile _ (.compiling k _ _ _) => some k
  | _ => none

theorem delivers_of_outputRequest? {k : Nat} (reply : Reply) (hjobs : b.jobs.map outputRequest? = [some k])
    (hrequest : b.window.requestFor? none = some k) (haccepts : Compile.Accepts reply output) :
    ∃ run compiler, (Act.step (.reply none reply)).Delivers b run compiler output := by
  obtain ⟨job, hjob, hk⟩ := List.map_eq_singleton_iff.1 hjobs
  unfold outputRequest? at hk
  split at hk
  · rename_i run k' language compiler arguments
    cases hk
    exact ⟨run, compiler, none, k, language, arguments, reply, rfl, hrequest, hjob ▸ List.mem_cons_self,
      haccepts⟩
  · nomatch hk

theorem compileActs_compiling : (Workbench.run sourceWindow compileActs).jobs.map outputRequest? = [some 2] ∧
    (Workbench.run sourceWindow compileActs).window.requestFor? none = some 2 ∧
    (Workbench.run sourceWindow compileActs).window.Calm := by
  have hfailures : (Workbench.run sourceWindow compileActs).window.failures = [] := by
    rw [← List.isEmpty_iff]
    decide +kernel
  exact ⟨by decide +kernel, by decide +kernel, fun call => by rw [hfailures]; rfl⟩

/-- What a compiler says of the first line is there, and the task completes. -/
theorem remarked_output_completes : ∃ run compiler output,
    Completes run compiler output (Workbench.run sourceWindow compileActs)
        (Workbench.run sourceWindow (compileActs ++ [.step (.reply none remarkReply)])) ∧
      output.stderr ≠ [] := by
  obtain ⟨hjobs, hrequest, hcalm⟩ := compileActs_compiling
  obtain ⟨run, compiler, hdelivers⟩ := delivers_of_outputRequest? remarkReply hjobs hrequest rfl
  have hcarried := accepted_output_is_carried_through (fresh_ofDocument rfl) compileActs hdelivers hcalm
  refine ⟨run, compiler, _, hcarried.2.2.2.2.1 fun entry hentry => ?_, List.cons_ne_nil _ _⟩
  rw [List.mem_singleton.1 hentry]
  rintro (hnull | ⟨tag, htag, -, hcolumn⟩)
  · nomatch hnull
  · cases htag
    nomatch hcolumn

def nothingReply : Reply := .ok (some (.obj [("asm", .arr []), ("stderr", .arr [.null])]))

/-- The task fails after the user was told that it is done, and there are no messages. -/
theorem output_with_nothing_fails : ¬ ∀ (w : Window) (acts : List Act) (a : Act) (run : Compile.Run)
    (compiler : Compiler) (output : CompileOutput), w.Fresh →
      a.Delivers (Workbench.run w acts) run compiler output → (Workbench.run w acts).window.Calm →
        Completes run compiler output (Workbench.run w acts) (Workbench.run w (acts ++ [a])) := by
  intro hall
  obtain ⟨hjobs, hrequest, hcalm⟩ := compileActs_compiling
  obtain ⟨run, compiler, hdelivers⟩ := delivers_of_outputRequest? nothingReply hjobs hrequest rfl
  have hw : sourceWindow.Fresh := fresh_ofDocument rfl
  obtain ⟨messages, -, hmessages, -⟩ := hall _ _ _ _ _ _ hw hdelivers hcalm
  have hnone : (Workbench.run sourceWindow
      (compileActs ++ [.step (.reply none nothingReply)])).window.diagnostics = [] := by
    rw [← List.isEmpty_iff]
    decide +kernel
  rw [hnone] at hmessages
  nomatch hmessages

end Workbench

end AsmLens
