import AsmLens.Proofs.Frames
import AsmLens.Proofs.Tasks

/-!
# What the program does in the window

For each function that the program is made of there is one lemma here: it stays in every frame that takes in the
kinds of things it does.
-/

namespace AsmLens

open Window

variable {R : Window → Window → Prop}

section Displaying

variable [Displaying R]

theorem modify_framed {f : Window → Window} (h : ∀ w, Still w (f w)) : Within R (modify f) := fun w =>
  Displaying.still (h w)

theorem modify_holds {f : Window → Window} (h : ∀ w, Still w (f w)) : Holds R (modify f) := fun w =>
  Displaying.still (R := R) (h w)

theorem emit_framed {e : Event} (h : e.isDisplay = true) : Within R (emit e) := Displaying.display h

theorem log_framed (texts : List String) : Within R (log texts) := emit_framed rfl

theorem attempt_framed (call : HostCall) : Holds R (attempt call) := fun w =>
  (attempt_exactly call w).mono (fun _ w' h => by rw [h.1]; exact Frame.refl w) fun _ w' h => by
    rw [h.1]
    exact Displaying.still (still_of_same rfl rfl rfl rfl)

/-! ### What is displayed -/

namespace Document

theorem openAt_framed (uri : Uri) (content : String) : Holds R (openAt uri content) := by
  refine Holds.bind (.lift (emit_framed rfl)) fun _ => (attempt_framed _).bind fun _ => fun w => .look ?_
  cases w.findDocument? uri with
  | none => exact Displaying.still (R := R) (still_of_same rfl rfl rfl rfl)
  | some n => exact Frame.refl (R := R) w

theorem refresh_framed (uri : Uri) (content : String) : Within R (refresh uri content) := by
  refine (emit_framed rfl).bind fun _ => fun w => .look ?_
  cases w.findDocument? uri with
  | none => exact Frame.refl w
  | some n => exact Displaying.still (still_of_same rfl rfl rfl rfl)

theorem display_framed (n : Nat) (options : ShowOptions) : Holds R (display n options) :=
  .look fun _ => (Holds.lift (emit_framed rfl)).bind fun _ => (attempt_framed _).bind fun _ =>
    modify_holds fun w => still_addPane w n default

theorem displayGenerated_framed (uri : Uri) (content : String) :
    Holds R (displayGenerated uri content) := by
  refine .look fun w => ?_
  split
  · exact .pure ()
  · exact (openAt_framed uri content).bind fun _ => display_framed _ _

theorem replaceAll_framed [Replacing R] (n : Nat) (lines : List String) : Holds R (replaceAll n lines) := by
  refine .look fun w => (attempt_framed _).bind fun _ =>
    (Holds.lift (Replacing.replace _ _ _ _)).bind fun _ => ?_
  split
  · exact Holds.bind (modify_holds fun _ => still_of_same rfl rfl rfl rfl) fun _ => .pure _
  · exact .pure _

end Document

namespace DecorationCanvas

theorem create_framed (uri : Uri) (color : String) : Holds R (create uri color) :=
  (Displaying.create color).bind fun _ => .pure _

theorem skip_framed (c : DecorationCanvas) (line : String) : Within R (c.skip line) :=
  (log_framed _).bind fun _ => .pure c

theorem render_framed (c : DecorationCanvas) : Within R c.render := Displaying.draw _ _ _

theorem draw_framed (c : DecorationCanvas) (line : Number) : Within R (c.draw line) := by
  refine .look fun w => ?_
  split
  · exact c.skip_framed _
  · exact (render_framed _).bind fun _ => .pure _

theorem clear_framed (c : DecorationCanvas) : Within R c.clear := by
  unfold clear
  split
  · exact .pure c
  · exact (render_framed _).bind fun _ => .pure _

theorem release_framed (c : DecorationCanvas) : Within R c.release :=
  (Displaying.dispose _).bind fun _ => .pure _

end DecorationCanvas

namespace Session

variable (s : Session DecorationCanvas)

theorem wipe_framed (role : Role) : Within R (s.wipe role) :=
  (DecorationCanvas.clear_framed _).bind fun _ => .pure _

theorem cursorMoved_framed (origin : Role) (line : Number) : Within R (s.cursorMoved origin line) := by
  unfold cursorMoved
  split
  · exact .pure s
  · refine (s.wipe_framed _).bind fun s => Within.bind ?_ fun _ => .pure _
    exact .foldlM DecorationCanvas.draw_framed _ _

theorem cursorLeft_framed (origin : Role) : Within R (s.cursorLeft origin) := by
  unfold cursorLeft
  split
  · exact .pure s
  · exact s.wipe_framed _

theorem finish_framed : Within R s.finish := by
  unfold finish
  split
  · exact .pure s
  · exact (s.wipe_framed _).bind fun s => (s.wipe_framed _).bind fun _ =>
      (DecorationCanvas.release_framed _).bind fun _ =>
        (DecorationCanvas.release_framed _).bind fun _ => .pure _

end Session

namespace Controller

variable (c : Controller DecorationCanvas)

theorem mapEntries_framed {f : Entry DecorationCanvas → Action (Entry DecorationCanvas)}
    (h : ∀ e, Within R (f e)) : Within R (c.mapEntries f) :=
  (Within.mapM fun e _ => h e).bind fun _ => .pure _

theorem finishEntry_framed (e : Entry DecorationCanvas) : Within R (finishEntry e) := by
  unfold finishEntry
  split
  · exact .pure e
  · exact (e.session.finish_framed).bind fun _ => (log_framed _).bind fun _ => .pure _

theorem finishWhere_framed (p : Entry DecorationCanvas → Bool) : Within R (c.finishWhere p) := by
  refine c.mapEntries_framed fun e => ?_
  split
  · exact finishEntry_framed e
  · exact .pure e

theorem start_framed (source generated : Uri) (index : LineIndex) (color : String) :
    Within R (c.start DecorationCanvas.create source generated index color) := by
  refine (c.finishWhere_framed _).bind fun c => ?_
  have hcanvases : Holds R (do
      return (← DecorationCanvas.create source color, ← DecorationCanvas.create generated color)) :=
    (DecorationCanvas.create_framed _ _).bind fun _ =>
      (DecorationCanvas.create_framed _ _).bind fun _ => .pure _
  refine hcanvases.run.bind fun r => ?_
  cases r with
  | error fault => exact .pure _
  | ok canvases => exact (log_framed _).bind fun _ => .pure _

theorem cursorLeft_framed (uri : String) : Within R (c.cursorLeft uri) := by
  refine c.mapEntries_framed fun e => ?_
  split
  · exact (e.session.cursorLeft_framed _).bind fun _ => .pure _
  · exact .pure e

theorem cursorMoved_framed (uri : String) (line : Number) : Within R (c.cursorMoved uri line) := by
  refine c.mapEntries_framed fun e => ?_
  split
  · exact (e.session.cursorMoved_framed _ _).bind fun _ => .pure _
  · exact .pure e

theorem activeChanged_framed (next : Option String) : Within R (c.activeChanged next) := by
  unfold activeChanged
  split
  · split
    · exact .pure _
    · exact (c.cursorLeft_framed _).bind fun _ => .pure _
  · exact .pure _

theorem notice_framed (n : Notice) : Within R (c.notice n) := by
  unfold notice
  split
  · exact .pure c
  · split
    · exact c.cursorMoved_framed _ _
    · exact c.activeChanged_framed _
    · exact c.finishWhere_framed _
    · exact .pure c

theorem dispose_framed : Within R c.dispose := (c.finishWhere_framed _).bind fun _ => .pure _

end Controller

namespace Diagnostic

theorem publish_framed (uri : Uri) (diagnostics : List Diagnostic) :
    Within R (publish uri diagnostics) :=
  Within.bind (modify_framed fun _ => still_of_same rfl rfl rfl rfl) fun _ => emit_framed rfl

theorem withdraw_framed (uri : Uri) : Within R (withdraw uri) :=
  Within.bind (modify_framed fun _ => still_of_same rfl rfl rfl rfl) fun _ => emit_framed rfl

theorem withdrawAll_framed : Within R withdrawAll :=
  Within.bind (modify_framed fun _ => still_of_same rfl rfl rfl rfl) fun _ => emit_framed rfl

end Diagnostic

end Displaying

/-! ### What is told -/

section Telling

variable [Telling R]

theorem emit_telling {e : Event} (h : e.isTelling = true) : Within R (emit e) := Telling.tell h

theorem logError_framed (text : String) (cause : Option Fault) : Within R (logError text cause) :=
  emit_telling rfl

namespace Message

theorem showMessage_framed (kind : MessageKind) (text : String) (actions : List String) :
    Holds R (showMessage kind text actions) :=
  .bind (attempt_framed _) fun _ => .look fun _ =>
    .bind (modify_holds fun _ => still_of_same rfl rfl rfl rfl) fun _ =>
      .bind (.lift (emit_telling rfl)) fun _ => .pure _

theorem tellError_framed (text : String) : Holds R (tellError text) :=
  .bind (.lift (logError_framed _ _)) fun _ => (showMessage_framed _ _ _).discard

theorem tellDone_framed (text : String) : Holds R (tellDone text) :=
  .bind (.lift (log_framed _)) fun _ => (showMessage_framed _ _ _).discard

theorem showLink_framed (text : String) (link : Option Json) (action : String) :
    Holds R (showLink text link action) := by
  unfold showLink
  split
  · exact .bind (showMessage_framed _ _ _) fun _ => .pure _
  · exact .bind (showMessage_framed _ _ _).discard fun _ => .pure _

theorem followLink_framed (link : Option Json) (action : String) (chosen : Option String) :
    Holds R (followLink link action chosen) := by
  unfold followLink
  split
  · exact .pure ()
  · split
    · exact .bind (attempt_framed _) fun _ => .lift (emit_framed rfl)
    · exact .throw _

end Message

namespace Query

variable {α : Type}

theorem fetched_framed (q : Query) (reply : Reply) : Holds R (q.fetched reply) := by
  cases reply with
  | ok body => exact .pure _
  | error fault => exact .bind (.lift (logError_framed _ _)) fun _ => .bind (.ofExcept _) fun _ => .pure _

theorem fetchedCatalog_framed (q : Query) (what : String) (read : Json → Except Fault (Option α))
    (reply : Reply) : Holds R (q.fetchedCatalog what read reply) := by
  refine .bind (q.fetched_framed reply) fun r => ?_
  cases r with
  | error e => exact .pure _
  | ok body => exact .ofExcept _

theorem posted_framed (q : Query) (read : Option Json → Except Fault (Except String α)) (reply : Reply) :
    Holds R (q.posted read reply) := by
  unfold posted
  cases reply.bind read with
  | ok result => exact .pure result
  | error fault => exact .bind (.lift (logError_framed _ _)) fun _ => .bind (.ofExcept _) fun _ => .pure _

end Query

/-! ### What tasks do -/

theorem Compile.refuse_framed (why : String) : Holds R (refuse why) :=
  .bind (Message.tellError_framed why) fun _ => .pure _

namespace Format

theorem refuse_framed (why : String) : Holds R (refuse why) :=
  .bind (Message.tellError_framed why) fun _ => .pure _

theorem apply_framed [Replacing R] (run : Run) (formatter : Formatter) (style answer : String) :
    Holds R (apply run formatter style answer) := by
  refine .bind (Document.replaceAll_framed _ _) fun applied => ?_
  cases applied with
  | true => exact .bind (Message.tellDone_framed _) fun _ => .pure _
  | false => exact refuse_framed _

end Format

namespace Tooltip

theorem refuse_framed (why : String) : Holds R (do Message.tellError why; return .finished : Host Stage) :=
  .bind (Message.tellError_framed why) fun _ => .pure _

theorem onReply_framed (instructionSet opcode : String) (reply : Reply) :
    Holds R (onReply instructionSet opcode reply) := by
  refine .bind (Query.fetched_framed _ reply) fun r => ?_
  match r with
  | .error e => exact refuse_framed e
  | .ok none => exact refuse_framed _
  | .ok (some documentation) =>
    refine .bind (.ofExcept _) fun text => .bind (Message.showLink_framed _ _ _) fun n => ?_
    cases n <;> exact .pure _

theorem onChoice_framed (link : Option Json) (chosen : Option String) : Holds R (onChoice link chosen) :=
  .bind (Message.followLink_framed _ _ _) fun _ => .pure _

end Tooltip

end Telling

section Asking

variable [Asking R]

namespace Compile

theorem offerLanguages_framed (run : Run) (languages : List Language) :
    Holds R (offerLanguages run languages) := by
  unfold offerLanguages
  dsimp only
  split
  · exact refuse_framed _
  · exact .bind (Asking.askChoice _ _ _) fun _ => .pure _

theorem offerCompilers_framed (run : Run) (language : Language) (compilers : List Compiler) :
    Holds R (offerCompilers run language compilers) := by
  unfold offerCompilers
  split
  · exact refuse_framed _
  · exact .bind (Asking.askChoice _ _ _) fun _ => .pure _

theorem onReply_framed (run : Run) (stage : Stage) (reply : Reply) : Holds R (onReply run stage reply) := by
  unfold onReply
  cases stage with
  | fetchingLanguages n =>
    refine .bind (Query.fetchedCatalog_framed _ _ _ reply) fun r => ?_
    cases r with
    | error e => exact refuse_framed e
    | ok languages => exact offerLanguages_framed run languages
  | fetchingCompilers n language =>
    refine .bind (Query.fetchedCatalog_framed _ _ _ reply) fun r => ?_
    cases r with
    | error e => exact refuse_framed e
    | ok compilers => exact offerCompilers_framed run language compilers
  | compiling n language compiler arguments =>
    refine .bind (Query.posted_framed _ _ reply) fun r => ?_
    cases r with
    | error e => exact refuse_framed _
    | ok output => exact .pure _
  | _ => exact .pure _

end Compile

namespace Format

theorem onReply_framed_of_not_succeeds (run : Run) {stage : Stage} {reply : Reply}
    (hnone : ∀ k formatter style output, stage = .formatting k formatter style → ¬ Succeeds reply output) :
    Holds R (onReply run stage reply) := by
  unfold onReply
  cases stage with
  | fetchingFormatters n =>
    refine .bind (Query.fetchedCatalog_framed _ _ _ reply) fun r => ?_
    match r with
    | .error e => exact refuse_framed e
    | .ok [] => exact refuse_framed _
    | .ok (formatter :: rest) => exact .bind (Asking.askChoice _ _ _) fun _ => .pure _
  | formatting n formatter style =>
    intro w
    have hposted := (Query.posted_framed (R := R) (query run formatter style)
      (fun body => .ok (FormatOutput.read body)) reply w).and (Query.posted_ends _ _ reply w)
    refine hposted.bind (fun r w₁ h => ?_) fun _ _ he => he.1
    have hrefuse := fun why => (refuse_framed (R := R) why w₁).mono (fun _ _ hw => Frame.trans h.1 hw)
      fun _ _ hw => Frame.trans h.1 hw
    cases r with
    | error e => exact hrefuse _
    | ok output =>
      dsimp only
      split
      · rename_i hexit
        exact absurd ⟨(h.2.2 output).1.1 rfl, hexit⟩ (hnone n formatter style output rfl)
      · exact hrefuse _
  | _ => exact .pure _

theorem onReply_framed [Replacing R] (run : Run) (stage : Stage) (reply : Reply) :
    Holds R (onReply run stage reply) := by
  by_cases hsucceeds : ∃ k formatter style output, stage = .formatting k formatter style ∧ Succeeds reply output
  · obtain ⟨k, formatter, style, output, rfl, hsucceeds⟩ := hsucceeds
    rw [onReply_of_succeeds run k formatter style hsucceeds]
    exact apply_framed run formatter style output.answer
  · exact onReply_framed_of_not_succeeds run fun k formatter style output heq h =>
      hsucceeds ⟨k, formatter, style, output, heq, h⟩

end Format

end Asking

/-! ### What is sent -/

section Sending

variable [Telling R] [Sending R]

theorem Query.send_framed (q : Query) : Within R q.send := fun w => by
  have hlog : R w { w with events := w.events ++ [.log [q.announcement (w.config.baseUrl w.environment)]] } :=
    Displaying.display rfl w
  refine Frame.trans hlog (Frame.trans (Displaying.still ?_) (Sending.send _ _ _))
  exact still_of_same rfl rfl rfl rfl

theorem Compile.start_framed (document : Document) (selection : Selection) (range : Option LineRange) :
    Holds R (start document selection range) :=
  .look fun _ => .bind (.ofExcept _) fun _ => .bind (.lift (Query.send_framed _)) fun _ => .pure _

namespace Format

theorem start_framed (n : Nat) (document : Document) : Holds R (start n document) :=
  .look fun _ => .bind (.lift (Query.send_framed _)) fun _ => .pure _

theorem sendText_framed (run : Run) (formatter : Formatter) (style : String) :
    Holds R (sendText run formatter style) :=
  .bind (.lift (log_framed _)) fun _ => .bind (.lift (Query.send_framed _)) fun _ => .pure _

end Format

theorem Tooltip.start_framed (instructionSet : Option String) (lines : List String) (cursor : Position) :
    Holds R (start instructionSet lines cursor) := by
  unfold start
  dsimp only
  split
  · exact refuse_framed _
  · split
    · exact .throw _
    · split
      · exact .pure _
      · exact .bind (.lift (Query.send_framed _)) fun _ => .pure _

end Sending

section Answers

variable [Asking R] [Sending R]

theorem Compile.onAnswer_framed (run : Run) (stage : Stage) (answer : Answer) :
    Holds R (onAnswer run stage answer) := by
  unfold onAnswer
  split
  · split
    · exact .pure _
    · exact .bind (.lift (Query.send_framed _)) fun _ => .pure _
  · split
    · exact .pure _
    · exact .bind (Asking.askText _ _) fun _ => .pure _
  · exact .bind (.lift (log_framed _)) fun _ => .bind (.lift (Query.send_framed _)) fun _ => .pure _
  · exact .pure _

theorem Format.onAnswer_framed (run : Run) (stage : Stage) (answer : Answer) :
    Holds R (onAnswer run stage answer) := by
  unfold onAnswer
  split
  · split
    · exact .pure _
    · split
      · exact sendText_framed run _ _
      · exact .bind (Asking.askChoice _ _ _) fun _ => .pure _
  · split
    · exact .pure _
    · exact sendText_framed run _ _
  · exact .pure _

end Answers

/-! ### What the program does -/

/-- Whether a command works on the document in the active pane, and says so when there is none. -/
def Command.needsDocument : Command → Bool
  | .compile | .format => true
  | .showTooltip | .clearHighlights => false

namespace Workbench

def InWindow (R : Window → Window → Prop) (b b' : Workbench) : Prop := R b.window b'.window

section InWindow

variable {α : Type}

instance [Frame R] : Frame (InWindow R) where
  refl b := Frame.refl b.window
  trans h h' := Frame.trans (R := R) h h'

theorem within_onWindow {x : Action α} (h : Within R x) : Within (InWindow R) (onWindow x) :=
  fun b => h b.window

theorem holds_onHost {x : Host α} (h : Holds R x) : Holds (InWindow R) (onHost x) := fun b =>
  (onHost_ends (h b.window)).mono (fun _ _ h => h.1) fun _ _ h => h.1

theorem within_onHighlights {f : Controller DecorationCanvas → Action (Controller DecorationCanvas)}
    (h : ∀ c, Within R (f c)) : Within (InWindow R) (onHighlights f) := fun b => h b.highlights b.window

variable [Frame R]

theorem within_current : Within (InWindow R) current := fun b => Frame.refl b.window

theorem within_change {f : Workbench → Workbench} (h : ∀ b, (f b).window = b.window) :
    Within (InWindow R) (change f) := fun b => by
  show R b.window (f b).window
  rw [h]
  exact Frame.refl b.window

end InWindow

section Displaying

variable [Displaying R]

theorem replaceContents_framed (uri : Uri) (lines : List String) :
    Within (InWindow R) (replaceContents uri lines) := by
  unfold replaceContents
  refine Within.bind (within_change fun _ => rfl) fun _ => within_current.bind fun b => ?_
  exact .forM fun _ _ => within_onWindow (Document.refresh_framed _ _)

theorem startSession_framed (source generated : Uri) (index : LineIndex) (color : String) :
    Holds (InWindow R) (startSession source generated index color) := by
  refine .bind (.lift within_current) fun b => ?_
  refine .bind (.lift (within_onWindow (b.highlights.start_framed source generated index color))) fun r => ?_
  exact .bind (.lift (within_change fun _ => rfl)) fun _ => .ofExcept _

theorem report_framed (source : Uri) (stderr : List Json) (offset : Number) :
    Holds (InWindow R) (report source stderr offset) := by
  refine .bind (.ofExcept _) fun diagnostics =>
    .bind (.lift (within_onWindow (Diagnostic.publish_framed _ _))) fun _ => ?_
  split
  · exact .lift (within_onWindow (log_framed _))
  · exact .pure ()

theorem onClosed_framed (uri : Uri) : Within (InWindow R) (onClosed uri) := by
  unfold onClosed
  refine within_current.bind fun b => ?_
  split
  · exact .pure ()
  · split
    · exact within_change fun _ => rfl
    · exact within_onWindow (Diagnostic.withdraw_framed uri)

theorem onNotice_displays {n : Notice} (hn : n.wakes? = none) : Within (InWindow R) (onNotice n) := by
  unfold onNotice
  refine .bind (within_onHighlights fun c => c.notice_framed n) fun _ => ?_
  cases n with
  | closed uri => exact onClosed_framed uri
  | selectionChanged uri selections => exact .pure ()
  | activeChanged uri => exact .pure ()
  | _ => nomatch hn

theorem dispose_framed : Within (InWindow R) dispose := by
  unfold dispose
  refine within_current.bind fun b => ?_
  split
  · exact .pure ()
  · refine Within.bind (within_change fun _ => rfl) fun _ => ?_
    refine Within.bind (within_onHighlights fun c => c.dispose_framed) fun _ => ?_
    exact Within.bind (within_onWindow Diagnostic.withdrawAll_framed) fun _ => within_change fun _ => rfl

theorem deactivate_framed : Within (InWindow R) deactivate :=
  Within.bind (within_onWindow (log_framed _)) fun _ => within_change fun _ => rfl

end Displaying

/-- The tasks stay what they are. -/
def KeepsJobs (b b' : Workbench) : Prop := b'.jobs = b.jobs

instance : Frame KeepsJobs where
  refl _ := rfl
  trans h h' := h'.trans h

theorem dispose_keepsJobs : Within KeepsJobs dispose := by
  unfold dispose
  refine fun b => look ?_
  split
  · exact .pure (Frame.refl b)
  · exact Eq.refl b.jobs

section Telling

variable [Telling R]

theorem publish_framed (run : Compile.Run) (compiler : Compiler) (output : CompileOutput) :
    Holds (InWindow R) (publish run compiler output) := by
  have hlink : Holds (InWindow R) (linkOutput run output) :=
    holds_linkOutput (startSession_framed _ _) (report_framed _)
  exact holds_publish (fun _ => within_onHighlights fun c => c.finishWhere_framed _) (replaceContents_framed _)
    (fun _ => holds_onHost (Document.displayGenerated_framed _ _))
    (holds_tellOutput (fun _ => holds_onHost (Message.tellDone_framed _)) (fun _ => within_change fun _ => rfl) hlink)

theorem continueCompile_framed (run : Compile.Run) (stage : Compile.Stage) :
    Holds (InWindow R) (continueCompile run stage) := by
  unfold continueCompile
  split
  · exact .bind (publish_framed _ _ _) fun _ => .pure _
  · exact .pure _

theorem reportFault_framed (name : String) (fault : Fault) : Within R (reportFault name fault) := by
  have htell : Holds R (do Message.tellError s!"Compiler Explorer: {← fault.message}" : Host Unit) :=
    .bind (.ofExcept _) fun _ => Message.tellError_framed _
  refine (logError_framed _ _).bind fun _ => htell.run.bind fun r => ?_
  cases r with
  | ok _ => exact .pure ()
  | error fault => exact logError_framed _ _

theorem contain_framed (name : String) {x : Work Job} (h : Holds (InWindow R) x) :
    Within (InWindow R) (contain name x) := by
  refine h.run.bind fun r => ?_
  cases r with
  | ok job => exact .pure _
  | error fault => exact (within_onWindow (reportFault_framed name fault)).bind fun _ => .pure _

theorem spawn_framed (name : String) {x : Work Job} (h : Holds (InWindow R) x) :
    Within (InWindow R) (spawn name x) :=
  (contain_framed name h).bind fun _ => within_change fun _ => rfl

theorem wake_framed (what : Wait) {go : Job → Work Job} (h : ∀ job, Holds (InWindow R) (go job)) :
    Within (InWindow R) (wake what go) := by
  refine within_current.bind fun b => .bind (.filterMapM fun job _ => ?_) fun _ => within_change fun _ => rfl
  split
  · exact contain_framed _ (h job)
  · exact .pure _

theorem tellUnawaited_framed (hunhandled : ∀ fault, Within R (emit (.unhandled fault))) (text : String) :
    Within R (tellUnawaited text) := by
  refine (Message.tellError_framed text).run.bind fun r => ?_
  cases r with
  | ok _ => exact .pure ()
  | error fault => exact hunhandled fault

theorem runCommand_of_no_document {command : Command} (hneeds : command.needsDocument = true) {b : Workbench}
    (hnone : activeDocument? b.window = none) (arguments : List Json) {Q : Unit → Workbench → Prop}
    (h : ∀ text, Gives (onWindow (tellUnawaited text)) b Q) : Gives (runCommand command arguments) b Q := by
  unfold runCommand
  refine look ?_
  rw [hnone]
  cases command with
  | compile => exact h _
  | format => exact h _
  | _ => nomatch hneeds

theorem runCommand_framed [Sending R] (command : Command) (arguments : List Json) {b : Workbench}
    (hdocument : command.needsDocument = true → activeDocument? b.window ≠ none) :
    Gives (runCommand command arguments) b fun _ b' => InWindow R b b' := by
  unfold runCommand
  refine look ?_
  split
  · rename_i hnone
    exact absurd hnone (hdocument rfl)
  · exact spawn_framed _ (.bind (holds_onHost (Compile.start_framed _ _ _)) fun _ => .pure _) b
  · rename_i hnone
    exact absurd hnone (hdocument rfl)
  · exact spawn_framed _ (.bind (holds_onHost (Format.start_framed _ _)) fun _ => .pure _) b
  · exact .pure (Frame.refl b)
  · exact spawn_framed _ (.bind (holds_onHost (Tooltip.start_framed _ _ _)) fun _ => .pure _) b
  · exact within_onHighlights (fun c => c.finishWhere_framed _) b

theorem invoke_framed [Sending R] (htell : ∀ text, Within R (tellUnawaited text)) (id : String)
    (arguments : List Json) : Within (InWindow R) (invoke id arguments) := fun b => by
  unfold invoke
  refine look ?_
  split
  · rename_i command _
    by_cases hdocument : command.needsDocument = true → activeDocument? b.window ≠ none
    · exact runCommand_framed command arguments hdocument
    · simp only [Classical.not_imp, not_not] at hdocument
      exact runCommand_of_no_document hdocument.1 hdocument.2 arguments fun text => within_onWindow (htell text) b
  · exact within_onWindow (emit_framed rfl) b

theorem onChoice_framed (chosen : Option String) (job : Job) : Holds (InWindow R) (onChoice chosen job) := by
  cases job with
  | tooltip stage =>
    cases stage with
    | linking n link => exact .bind (holds_onHost (Tooltip.onChoice_framed link chosen)) fun _ => .pure _
    | _ => exact .pure _
  | _ => exact .pure _

end Telling

theorem onReply_framed [Asking R] [Replacing R] (reply : Reply) (job : Job) : Holds (InWindow R) (onReply reply job) := by
  cases job with
  | compile run stage =>
    exact .bind (holds_onHost (Compile.onReply_framed run stage reply)) fun _ => continueCompile_framed run _
  | format run stage => exact .bind (holds_onHost (Format.onReply_framed run stage reply)) fun _ => .pure _
  | tooltip stage =>
    cases stage with
    | fetching n set opcode =>
      exact .bind (holds_onHost (Tooltip.onReply_framed set opcode reply)) fun _ => .pure _
    | _ => exact .pure _

section Answers

variable [Asking R] [Sending R]

theorem onAnswer_framed (answer : Answer) (job : Job) : Holds (InWindow R) (onAnswer answer job) := by
  cases job with
  | compile run stage =>
    exact .bind (holds_onHost (Compile.onAnswer_framed run stage answer)) fun _ => continueCompile_framed run _
  | format run stage => exact .bind (holds_onHost (Format.onAnswer_framed run stage answer)) fun _ => .pure _
  | tooltip stage => exact .pure _

theorem onNotice_framed [Replacing R] (n : Notice) : Within (InWindow R) (onNotice n) := by
  unfold onNotice
  refine .bind (within_onHighlights fun c => c.notice_framed n) fun _ => ?_
  cases n with
  | replied request reply => exact wake_framed _ (onReply_framed reply)
  | answered prompt answer => exact wake_framed _ (onAnswer_framed answer)
  | actionChosen message chosen => exact wake_framed _ (onChoice_framed chosen)
  | closed uri => exact onClosed_framed uri
  | _ => exact .pure ()

/-- What happens in the window, with all that the program does then. -/
theorem perform_framed [Replacing R] {step : Step} (h : Within R step.perform) : Within (InWindow R) (perform step) :=
  (within_onWindow h).bind fun _ => .forM fun _ _ => onNotice_framed _

end Answers

end Workbench

end AsmLens
