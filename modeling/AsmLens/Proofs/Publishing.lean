import AsmLens.Proofs.Following
import AsmLens.Proofs.Stages
import AsmLens.Workbench.Publish

/-!
# Publishing, step by step

What is there after an output was published. Publishing can fail half-way, so most of this is said of
both ends at once: the contents are those of the output, the sessions of the same two documents have
ended, and if there is a new session, it is one for this output. `Published` collects this.

When nothing is made to fail, `Linked` says what a whole document gets: its new session is there, and the
generated document has the text that the session is about.
-/

namespace AsmLens

open Window

/-! ### Steps on the window as steps of the program -/

namespace Workbench

variable {α : Type} {b b' b'' : Workbench}

/-- Only the window changed. -/
def Rests (b b' : Workbench) : Prop := b' = { b with window := b'.window }

instance : Frame Rests where
  refl _ := rfl
  trans h h' := by rw [Rests, h', h]

theorem change_gives (f : Workbench → Workbench) (b : Workbench) :
    Gives (change f) b fun _ b' => b' = f b := rfl

theorem look {f : Workbench → Shell α} {Q : α → Workbench → Prop} (h : Gives (f b) b Q) :
    Gives (current >>= f) b Q := h

theorem onWindow_gives {x : Action α} {Q : α → Window → Prop} (h : Gives x b.window Q) :
    Gives (onWindow x) b fun a b' => Q a b'.window ∧ b.Rests b' := ⟨h, rfl⟩

theorem onHost_ends {x : Host α} {Q : α → Window → Prop} {F : Fault → Window → Prop}
    (h : Ends x b.window Q F) :
    Ends (onHost x) b (fun a b' => Q a b'.window ∧ b.Rests b') fun e b' => F e b'.window ∧ b.Rests b' := by
  refine (onWindow_gives h).mono fun r b' hr => ?_
  cases r <;> exact hr

theorem onHighlights_gives {f : Controller DecorationCanvas → Action (Controller DecorationCanvas)}
    {Q : Controller DecorationCanvas → Window → Prop} (h : Gives (f b.highlights) b.window Q) :
    Gives (onHighlights f) b fun _ b' => Q b'.highlights b'.window ∧
      b' = { b with window := b'.window, highlights := b'.highlights } := ⟨h, rfl⟩

/-! ### The parts of publishing -/

/-- What is left of publishing once the user was told: a session is started, when there is to be one, and the
compiler messages are replaced. -/
def linkOutput (run : Compile.Run) (output : CompileOutput) : Work Unit := do
  if run.config.liveCorrelation && run.source.isWhole then
    startSession run.uri run.uri.generated (.ofLines (AnnotatedLine.ofAsm output.asm))
      run.config.highlightStyle
  report run.uri output.stderr (run.source.range.first - 1)

def tellOutput (run : Compile.Run) (compiler : Compiler) (output : CompileOutput) : Work Unit := do
  Message.tellDone s!"Compilation done {compiler.name}"
  rememberInstructionSet run.uri.generated compiler.instructionSet
  linkOutput run output

/-- What is left once the contents have the text of the output. -/
def showOutput (run : Compile.Run) (compiler : Compiler) (output : CompileOutput) : Work Unit := do
  Document.displayGenerated run.uri.generated ((← current).provided run.uri.generated)
  tellOutput run compiler output

theorem publish_eq (run : Compile.Run) (compiler : Compiler) (output : CompileOutput) :
    publish run compiler output = (do
      onHighlights (·.finish (Uri.sessionKey run.uri run.uri.generated))
      replaceContents run.uri.generated (output.asm.map (·.text))
      showOutput run compiler output) := rfl

section Frame

variable {R : Workbench → Workbench → Prop} [Frame R] {run : Compile.Run} {compiler : Compiler}
  {output : CompileOutput}

theorem holds_linkOutput
    (hstart : ∀ index color, Holds R (startSession run.uri run.uri.generated index color))
    (hreport : ∀ stderr offset, Holds R (report run.uri stderr offset)) : Holds R (linkOutput run output) := by
  unfold linkOutput
  dsimp only
  split
  · exact .bind (hstart _ _) fun _ => hreport _ _
  · exact hreport _ _

theorem holds_tellOutput (htell : ∀ text, Holds R (onHost (Message.tellDone text)))
    (hremember : ∀ set, Within R (rememberInstructionSet run.uri.generated set))
    (hlink : Holds R (linkOutput run output)) : Holds R (tellOutput run compiler output) :=
  .bind (htell _) fun _ => .bind (.lift (hremember _)) fun _ => hlink

theorem holds_publish
    (hfinish : ∀ key, Within R (onHighlights (·.finish key)))
    (hreplace : ∀ lines, Within R (replaceContents run.uri.generated lines))
    (hdisplay : ∀ content, Holds R (onHost (Document.displayGenerated run.uri.generated content)))
    (htell : Holds R (tellOutput run compiler output)) : Holds R (publish run compiler output) := by
  have hcurrent : Within R current := fun b => Frame.refl b
  rw [publish_eq]
  exact .bind (.lift (hfinish _)) fun _ => .bind (.lift (hreplace _)) fun _ =>
    .bind (.lift hcurrent) fun _ => .bind (hdisplay _) fun _ => htell

end Frame

end Workbench

/-! ### The window while an output is published -/

namespace Window

/-- More was added, and documents were changed only under one address, and decorations only of the types
in `T`. -/
structure Advances (uri : Uri) (T : Nat → Prop) (w w' : Window) : Prop where
  grows : Grows w w'
  decorationTypes : w.decorationTypes ≤ w'.decorationTypes
  unarmed : ∀ call, w.failures.get? call = none → w'.failures.get? call = none
  elsewhere : Document.SameElsewhere uri w w'
  untouched : ∀ p' ∈ w'.panes, ∀ n, ¬ T n → p'.decorations.get? n = none ∨
    ∃ p ∈ w.panes, p'.decorations.get? n = p.decorations.get? n
  sound : (∀ n, T n → n < w.decorationTypes) → w.Sound → w'.Sound

variable {uri : Uri} {T : Nat → Prop} {w w' : Window}

instance : Frame (Advances uri T) where
  refl w := ⟨Frame.refl w, Nat.le_refl _, fun _ h => h, fun _ _ => rfl, fun p hp _ _ => .inr ⟨p, hp, rfl⟩,
    fun _ h => h⟩
  trans := by
    intro w w' w'' h h'
    refine ⟨Frame.trans h.grows h'.grows, Nat.le_trans h.decorationTypes h'.decorationTypes,
      fun call hc => h'.unarmed call (h.unarmed call hc),
      fun uri' hne => (h'.elsewhere uri' hne).trans (h.elsewhere uri' hne), fun p'' hp'' n hn => ?_,
      fun hT hw => h'.sound (fun n hn => Nat.lt_of_lt_of_le (hT n hn) h.decorationTypes) (h.sound hT hw)⟩
    obtain hnone | ⟨p', hp', heq⟩ := h'.untouched p'' hp'' n hn
    · exact .inl hnone
    · rw [heq]
      exact h.untouched p' hp' n hn

theorem Advances.undecorated (h : Advances uri T w w') (hT : ∀ n, T n → n < w.decorationTypes)
    (hw : w.Sound) {n : Nat} (hn : w.decorationTypes ≤ n) :
    ∀ p' ∈ w'.panes, p'.decorations.get? n = none := by
  intro p' hp'
  obtain hnone | ⟨p, hp, heq⟩ := h.untouched p' hp' n fun hTn => absurd (hT n hTn) (Nat.not_lt.2 hn)
  · exact hnone
  · rw [heq]
    exact hw.undecorated p hp n hn

theorem Presents.advances (h : Presents w w') (hsame : Document.SameElsewhere uri w w') :
    Advances uri T w w' := by
  refine ⟨h.grows, Nat.le_of_eq h.decorationTypes.symm, h.unarmed, hsame, fun p hp n _ => ?_,
    fun _ => h.sound⟩
  obtain ⟨added, hadded, hopen⟩ := h.panes
  rw [hadded] at hp
  rcases List.mem_append.1 hp with hp | hp
  · exact .inr ⟨p, hp, rfl⟩
  · rw [(hopen p hp).1]
    exact .inl rfl

theorem Asks.advances (h : Asks w w') : Advances uri T w w' :=
  h.presents.advances fun uri' _ => h.openDocument? uri'

theorem Redecorates.grows (h : Redecorates T w w') : Grows w w' :=
  ⟨h.requests ▸ List.prefix_rfl, h.prompts ▸ List.prefix_rfl, Nat.le_of_eq h.messages.symm⟩

theorem Redecorates.advances (h : Redecorates T w w') : Advances uri T w w' := by
  refine ⟨h.grows, h.decorationTypes, h.unarmed, fun _ _ => h.openDocument?, fun p' hp' n hn => ?_, h.sound⟩
  obtain ⟨p, hp, hlike⟩ := h.of_mem hp'
  exact .inr ⟨p, hp, hlike.decorations n hn⟩

/-- Only compiler messages changed, and something was logged. -/
structure Remarks (w w' : Window) : Prop where
  same : w' = { w with diagnostics := w'.diagnostics, events := w'.events }
  painted : w'.painted = w.painted

instance : Frame Remarks where
  refl _ := ⟨rfl, rfl⟩
  trans h h' := ⟨by rw [h'.same, h.same], h'.painted.trans h.painted⟩

theorem Remarks.documents (h : Remarks w w') : w'.documents = w.documents := by rw [h.same]

theorem Remarks.openDocument? (h : Remarks w w') (uri : Uri) :
    w'.openDocument? uri = w.openDocument? uri := by
  rw [openDocument?_eq, openDocument?_eq, h.documents]

theorem Remarks.carries (h : Remarks w w') : Carries w w' := by
  rw [h.same]
  exact carries_of_same rfl rfl

theorem Remarks.advances (h : Remarks w w') : Advances uri T w w' := by
  rw [h.same]
  exact ⟨⟨List.prefix_rfl, List.prefix_rfl, Nat.le_refl _⟩, Nat.le_refl _, fun _ hc => hc, fun _ _ => rfl,
    fun p hp _ _ => .inr ⟨p, hp, rfl⟩, fun _ hw => ⟨hw.open_of_visible, hw.undecorated⟩⟩

end Window

/-! ### The parts of publishing -/

theorem Contents.textOf_replace (c : Contents) (uri : Uri) (lines : List String) :
    (c.replace uri lines).textOf uri = Text.joinLines lines := by
  show ((c.texts.put uri.text _).get? uri.text).getD "" = _
  rw [Table.get?_put, if_pos rfl]
  rfl

namespace Workbench

variable {b b' : Workbench} {uri : Uri}

theorem forM_refresh_gives {α : Type} (l : List α) (uri : Uri) (content : String) (b : Workbench) :
    Gives (l.forM fun _ => (onWindow (Document.refresh uri content) : Shell Unit)) b fun _ b' =>
      b.Rests b' ∧ Presents b.window b'.window ∧ Document.SameElsewhere uri b.window b'.window ∧
      b'.window.openDocument? uri = if l = [] then b.window.openDocument? uri else
        (b.window.openDocument? uri).map fun d => { d with text := content } := by
  induction l generalizing b with
  | nil => exact .pure ⟨rfl, Frame.refl _, fun _ _ => rfl, rfl⟩
  | cons a l ih =>
    refine (onWindow_gives (Document.refresh_gives uri content b.window)).bind fun _ b₁ h₁ => ?_
    obtain ⟨⟨hpresents₁, hopen₁, hsame₁, -⟩, hrests₁⟩ := h₁
    refine (ih b₁).mono fun _ b' h => ?_
    obtain ⟨hrests, hpresents, hsame, hopen⟩ := h
    refine ⟨Frame.trans hrests₁ hrests, Frame.trans hpresents₁ hpresents,
      fun uri' hne => (hsame uri' hne).trans (hsame₁ uri' hne), ?_⟩
    rw [hopen, hopen₁, if_neg (List.cons_ne_nil a l), Option.map_map]
    split <;> rfl

theorem replaceContents_gives (uri : Uri) (lines : List String) (b : Workbench) :
    Gives (replaceContents uri lines) b fun _ b' =>
      b' = { b with window := b'.window, contents := b.contents.replace uri lines } ∧
      Presents b.window b'.window ∧ Document.SameElsewhere uri b.window b'.window ∧
      b'.window.openDocument? uri = if b.contents.listeners = [] then b.window.openDocument? uri else
        (b.window.openDocument? uri).map fun d => { d with text := Text.joinLines lines } := by
  have htext := b.contents.textOf_replace uri lines
  have hforM := forM_refresh_gives b.contents.listeners uri ((b.contents.replace uri lines).textOf uri)
    { b with contents := b.contents.replace uri lines }
  rw [htext] at hforM
  refine (change_gives _ b).bind fun _ b₁ h₁ => look ?_
  subst h₁
  dsimp only
  rw [htext]
  exact hforM

theorem remarks_emit {e : Event} (he : e.isDecoration = false) (w : Window)
    (diagnostics : Table String (List Diagnostic)) :
    Remarks w { w with diagnostics, events := w.events ++ [e] } :=
  ⟨rfl, filter_concat_of_false he w.events⟩

theorem report_ends (source : Uri) (stderr : List Json) (offset : Number) (b : Workbench) :
    Ends (report source stderr offset) b
      (fun _ b' => b.Rests b' ∧ Remarks b.window b'.window)
      fun _ b' => b.Rests b' ∧ Remarks b.window b'.window := by
  refine (Ends.ofExcept _).bind (fun diagnostics b₁ h₁ => ?_) ?_
  · obtain ⟨rfl, -⟩ := h₁
    have hpublish : Within Remarks (Diagnostic.publish source diagnostics) := fun w => remarks_emit rfl w _
    refine (Ends.lift (onWindow_gives (hpublish _))).bind (fun _ b₂ h₂ => ?_) fun _ _ he => he
    have hlog : ∀ texts, Within Remarks (log texts) := fun _ w => remarks_emit rfl w _
    split
    · refine (Ends.lift (onWindow_gives (hlog _ _))).mono (fun _ b' h => ?_) fun _ _ he => he
      exact ⟨Frame.trans h₂.2 h.2, Frame.trans h₂.1 h.1⟩
    · exact .pure ⟨h₂.2, h₂.1⟩
  · rintro _ b₁ ⟨rfl, -⟩
    exact ⟨rfl, Frame.refl _⟩

/-- A session is started, unless a decoration type cannot be made. -/
theorem startSession_ends (source generated : Uri) (index : LineIndex) (color : String) (b : Workbench) :
    Ends (startSession source generated index color) b
      (fun _ b' => b' = { b with window := b'.window, highlights := b'.highlights } ∧
        Redecorates b.highlights.Draws b.window b'.window ∧
        b'.highlights.isListening = b.highlights.isListening ∧
        ∃ old, List.Forall₂ (Controller.EndsWhere fun e => e.key = Uri.sessionKey source generated)
            b.highlights.entries old ∧
          (b.highlights.Agrees b.window → ∀ e ∈ old, e.session.Agrees b'.window) ∧
          ∃ k l, b'.highlights.entries = old ++ [Controller.newEntry source generated index k l] ∧
            b.window.decorationTypes ≤ k ∧ k < l ∧ l < b'.window.decorationTypes)
      fun _ b' => b' = { b with window := b'.window, highlights := b'.highlights } ∧
        Redecorates b.highlights.Draws b.window b'.window ∧
        b'.highlights.isListening = b.highlights.isListening ∧
        List.Forall₂ (Controller.EndsWhere fun e => e.key = Uri.sessionKey source generated)
          b.highlights.entries b'.highlights.entries ∧
        (b.highlights.Agrees b.window → ∀ e ∈ b'.highlights.entries, e.session.Agrees b'.window) ∧
        (b.window.failures.get? .createDecorationType).isSome := by
  refine (Ends.lift (Q := fun a b' => a = b ∧ b' = b) ⟨rfl, rfl⟩).bind (fun _ b₀ h₀ => ?_) fun _ _ he => he
  obtain ⟨rfl, rfl⟩ := h₀
  have hstart := b₀.highlights.start_gives source generated index color b₀.window
  refine (Ends.lift (onWindow_gives hstart)).bind (fun r b₁ h₁ => ?_) fun _ _ he => he
  obtain ⟨highlights, outcome⟩ := r
  obtain ⟨⟨hdraws, hlistening, -, old, hends, hagrees, hnew⟩, hrests⟩ := h₁
  dsimp only at hlistening hnew ⊢
  refine (Ends.lift (change_gives _ b₁)).bind (fun _ b₂ h₂ => ?_) fun _ _ he => he
  have hb₂ : b₂ = { b₀ with window := b₂.window, highlights := b₂.highlights } := by
    rw [h₂, hrests]
  have hwindow : b₂.window = b₁.window := by rw [h₂]
  have hhighlights : b₂.highlights = highlights := by rw [h₂]
  rw [← hwindow] at hdraws hagrees hnew
  rw [← hhighlights] at hlistening hnew
  obtain ⟨hentries, ⟨fault, rfl⟩, harmed⟩ | ⟨k, l, hentries, rfl, hk⟩ := hnew
  · exact .throw ⟨hb₂, hdraws, hlistening, hentries ▸ hends, hentries ▸ hagrees, harmed⟩
  · exact .pure ⟨hb₂, hdraws, hlistening, old, hends, hagrees, k, l, hentries, hk⟩

/-! ### Publishing -/

def entryFor (run : Compile.Run) (output : CompileOutput) (k l : Nat) : Entry DecorationCanvas :=
  Controller.newEntry run.uri run.uri.generated (.ofLines (AnnotatedLine.ofAsm output.asm)) k l

/-- What is there after an output was published, as far as it was. -/
structure Published (run : Compile.Run) (output : CompileOutput) (b b' : Workbench) : Prop where
  contents : b'.contents = b.contents.replace run.uri.generated (output.asm.map (·.text))
  isRegistered : b'.isRegistered = b.isRegistered
  isExposed : b'.isExposed = b.isExposed
  jobs : b'.jobs = b.jobs
  isListening : b'.highlights.isListening = b.highlights.isListening
  window : Advances run.uri.generated b.highlights.Draws b.window b'.window
  entries : ∃ old new, b'.highlights.entries = old ++ new ∧
    List.Forall₂ (Controller.EndsWhere fun e => e.key = Uri.sessionKey run.uri run.uri.generated)
      b.highlights.entries old ∧
    (b.highlights.Agrees b.window → ∀ e ∈ old, e.session.Agrees b'.window) ∧
    (new = [] ∨ ∃ k l, new = [entryFor run output k l] ∧ run.source.isWhole = true ∧
      b.window.decorationTypes ≤ k ∧ k < l ∧ l < b'.window.decorationTypes)

/-- A source is linked to what was made of it: their session was started, and the generated document is
open with its text. -/
structure Linked (run : Compile.Run) (output : CompileOutput) (b b' : Workbench) : Prop where
  entries : ∃ old k l, b'.highlights.entries = old ++ [entryFor run output k l] ∧
    List.Forall₂ Entry.Follows b.highlights.entries old ∧
    b.window.decorationTypes ≤ k ∧ k < l
  document : ∃ d, b'.window.openDocument? run.uri.generated = some d ∧
    d.text = Text.joinLines (output.asm.map (·.text))

variable {run : Compile.Run} {output : CompileOutput} {b₁ b₂ : Workbench}

theorem Published.rests (h : Published run output b b₁) (hrests : b₁.Rests b₂)
    (hadvances : Advances run.uri.generated b.highlights.Draws b₁.window b₂.window)
    (hcarries : Carries b₁.window b₂.window) : Published run output b b₂ := by
  obtain ⟨old, new, hentries, hends, hagrees, hnew⟩ := h.entries
  rw [Rests] at hrests
  rw [hrests] at hadvances hcarries ⊢
  refine ⟨h.contents, h.isRegistered, h.isExposed, h.jobs, h.isListening, Frame.trans h.window hadvances,
    old, new, hentries, hends, fun ha e he => (hagrees ha e he).carries hcarries, hnew.imp_right ?_⟩
  rintro ⟨k, l, hkl, hwhole, hk, hlt, hl⟩
  exact ⟨k, l, hkl, hwhole, hk, hlt, Nat.lt_of_lt_of_le hl hadvances.decorationTypes⟩

theorem Linked.rests (h : Linked run output b b₁) (hrests : b₁.Rests b₂)
    (hsame : b₂.window.openDocument? run.uri.generated = b₁.window.openDocument? run.uri.generated) :
    Linked run output b b₂ := by
  rw [Rests] at hrests
  refine ⟨?_, hsame ▸ h.document⟩
  rw [hrests]
  exact h.entries

theorem Published.restarts (h : Published run output b b₁)
    (hb₂ : b₂ = { b₁ with window := b₂.window, highlights := b₂.highlights })
    (hadvances : Advances run.uri.generated b.highlights.Draws b₁.window b₂.window)
    (hlistening : b₂.highlights.isListening = b₁.highlights.isListening)
    (hentries : ∃ old new, b₂.highlights.entries = old ++ new ∧
      List.Forall₂ (Controller.EndsWhere fun e => e.key = Uri.sessionKey run.uri run.uri.generated)
        b.highlights.entries old ∧
      (b.highlights.Agrees b.window → ∀ e ∈ old, e.session.Agrees b₂.window) ∧
      (new = [] ∨ ∃ k l, new = [entryFor run output k l] ∧ run.source.isWhole = true ∧
        b.window.decorationTypes ≤ k ∧ k < l ∧ l < b₂.window.decorationTypes)) :
    Published run output b b₂ := by
  obtain ⟨w, c, rfl⟩ : ∃ w c, b₂ = { b₁ with window := w, highlights := c } := ⟨_, _, hb₂⟩
  exact ⟨h.contents, h.isRegistered, h.isExposed, h.jobs, hlistening.trans h.isListening,
    Frame.trans h.window hadvances, hentries⟩

/-- No call of the host was made to fail, and what is published is linked to its source. -/
def Links (run : Compile.Run) (b : Workbench) : Prop :=
  (∀ call, b.window.failures.get? call = none) ∧ b.isRegistered = true ∧ b.contents.listeners ≠ [] ∧
    run.config.liveCorrelation = true ∧ run.source.isWhole = true

theorem link_ends (run : Compile.Run) (output : CompileOutput) {b b₁ : Workbench}
    (hpublished : Published run output b b₁)
    (hends : List.Forall₂ (Controller.EndsWhere fun e => e.key = Uri.sessionKey run.uri run.uri.generated)
      b.highlights.entries b₁.highlights.entries)
    (hagrees : b.highlights.Agrees b.window → b₁.highlights.Agrees b₁.window)
    (hdocument : Links run b → ∃ d, b₁.window.openDocument? run.uri.generated = some d ∧
      d.text = Text.joinLines (output.asm.map (·.text))) :
    Ends (linkOutput run output) b₁
      (fun _ b' => Published run output b b' ∧ (Links run b → Linked run output b b'))
      fun _ b' => Published run output b b' ∧ (Links run b → Linked run output b b') := by
  have hadvances : ∀ {w}, Redecorates b₁.highlights.Draws b₁.window w →
      Advances run.uri.generated b.highlights.Draws b₁.window w := fun h =>
    (h.mono fun n hn => Controller.draws_of_follows (hends.imp fun _ _ h => h.1) hn).advances
  have hreport : ∀ b₂, Published run output b b₂ → (Links run b → Linked run output b b₂) →
      Ends (report run.uri output.stderr (run.source.range.first - 1)) b₂
        (fun _ b' => Published run output b b' ∧ (Links run b → Linked run output b b'))
        fun _ b' => Published run output b b' ∧ (Links run b → Linked run output b b') := by
    intro b₂ hpublished₂ hlinked₂
    have hafter : ∀ b', b₂.Rests b' ∧ Remarks b₂.window b'.window →
        Published run output b b' ∧ (Links run b → Linked run output b b') := fun b' h =>
      ⟨hpublished₂.rests h.1 h.2.advances h.2.carries, fun hlinks =>
        (hlinked₂ hlinks).rests h.1 (h.2.openDocument? _)⟩
    exact (report_ends _ _ _ b₂).mono (fun _ b' => hafter b') fun _ b' => hafter b'
  unfold linkOutput
  dsimp only
  split
  · rename_i hlive
    rw [Bool.and_eq_true] at hlive
    refine (startSession_ends run.uri run.uri.generated _ run.config.highlightStyle b₁).bind
      (fun _ b₂ h₂ => ?_) fun _ b₂ h₂ => ?_
    · obtain ⟨hb₂, hdraws₂, hlistening₂, old, hends₂, hagrees₂, k, l, hentries₂, hk, hkl, hl⟩ := h₂
      have hends' := Controller.endsWhere_trans _ hends hends₂
      have hk' := Nat.le_trans hpublished.window.decorationTypes hk
      refine hreport b₂ (hpublished.restarts hb₂ (hadvances hdraws₂) hlistening₂
        ⟨old, _, hentries₂, hends', fun ha => hagrees₂ (hagrees ha),
          .inr ⟨k, l, rfl, hlive.2, hk', hkl, hl⟩⟩) fun hlinks => ⟨?_, ?_⟩
      · exact ⟨old, k, l, hentries₂, hends'.imp fun _ _ h => h.1, hk', hkl⟩
      · rw [hdraws₂.openDocument?]
        exact hdocument hlinks
    · obtain ⟨hb₂, hdraws₂, hlistening₂, hends₂, hagrees₂, harmed⟩ := h₂
      have hends' := Controller.endsWhere_trans _ hends hends₂
      refine ⟨hpublished.restarts hb₂ (hadvances hdraws₂) hlistening₂
        ⟨_, [], (List.append_nil _).symm, hends', fun ha => hagrees₂ (hagrees ha), .inl rfl⟩,
        fun hlinks => ?_⟩
      rw [hpublished.window.unarmed _ (hlinks.1 _)] at harmed
      nomatch harmed
  · rename_i hlive
    refine hreport b₁ hpublished fun hlinks => absurd ?_ hlive
    rw [Bool.and_eq_true]
    exact hlinks.2.2.2

/-- The document that is displayed then has the text of the output, also if it is a new one. -/
theorem Published.displays {d? : Option Document} (h : Published run output b b₁) (hlinks : Links run b)
    (htext : ∀ d, b₁.window.openDocument? run.uri.generated = some d →
      d.text = Text.joinLines (output.asm.map (·.text)))
    (hopen : d? = (b₁.window.openDocument? run.uri.generated).or
      (some (.ofContent run.uri.generated (b₁.provided run.uri.generated)))) :
    ∃ d, d? = some d ∧ d.text = Text.joinLines (output.asm.map (·.text)) := by
  cases hfound : b₁.window.openDocument? run.uri.generated with
  | some d =>
    rw [hfound, Option.some_or] at hopen
    exact ⟨d, hopen, htext d hfound⟩
  | none =>
    rw [hfound, Option.none_or] at hopen
    refine ⟨_, hopen, ?_⟩
    show b₁.provided run.uri.generated = _
    rw [provided, h.isRegistered, hlinks.2.1, if_pos rfl, h.contents, Contents.textOf_replace]

theorem show_ends (run : Compile.Run) (compiler : Compiler) (output : CompileOutput) {b b₁ : Workbench}
    (hpublished : Published run output b b₁) (hsound : b₁.window.Sound)
    (hends : List.Forall₂ (Controller.EndsWhere fun e => e.key = Uri.sessionKey run.uri run.uri.generated)
      b.highlights.entries b₁.highlights.entries)
    (hagrees : b.highlights.Agrees b.window → b₁.highlights.Agrees b₁.window)
    (htext : Links run b → ∀ d, b₁.window.openDocument? run.uri.generated = some d →
      d.text = Text.joinLines (output.asm.map (·.text))) :
    Ends (showOutput run compiler output) b₁
      (fun _ b' => Published run output b b' ∧ (Links run b → Linked run output b b'))
      fun _ b' => Published run output b b' ∧ (Links run b → Linked run output b b') := by
  have hcalm : Links run b → ∀ call, ¬ (b₁.window.failures.get? call).isSome = true := by
    intro hlinks call harmed
    rw [hpublished.window.unarmed _ (hlinks.1 _)] at harmed
    nomatch harmed
  have hcurrent : Gives current b₁ fun a b' => a = b₁ ∧ b' = b₁ := ⟨rfl, rfl⟩
  refine (Ends.lift hcurrent).bind (fun _ b₀ h₀ => ?_) fun _ _ he => he
  obtain ⟨rfl, rfl⟩ := h₀
  have hdisplay := onHost_ends (Document.displayGenerated_ends run.uri.generated
    (b₀.provided run.uri.generated) b₀.window)
  refine hdisplay.bind (fun _ b₂ h₂ => ?_) fun _ b₂ h₂ => ?_
  · obtain ⟨⟨hpresents₂, hopened₂, hsame₂⟩, hrests₂⟩ := h₂
    have hopen₂ := hopened₂ hsound
    have hcarries₂ := hpresents₂.carries hsound
    have hpublished₂ := hpublished.rests hrests₂ (hpresents₂.advances hsame₂) hcarries₂
    have htext₂ : Links run b → ∃ d, b₂.window.openDocument? run.uri.generated = some d ∧
        d.text = Text.joinLines (output.asm.map (·.text)) := fun hlinks =>
      hpublished.displays hlinks (htext hlinks) hopen₂
    have htell := onHost_ends (b := b₂)
      (Message.tellDone_ends s!"Compilation done {compiler.name}" b₂.window)
    refine htell.bind (fun _ b₃ h₃ => ?_) fun _ b₃ h₃ => ?_
    · obtain ⟨⟨hasks₃, -⟩, hrests₃⟩ := h₃
      have hremember : Gives (rememberInstructionSet run.uri.generated compiler.instructionSet) b₃
          fun _ b' => ∃ t, b' = { b₃ with instructionSets := t } := ⟨_, rfl⟩
      refine (Ends.lift hremember).bind (fun _ b₄ h₄ => ?_) fun _ _ he => he
      obtain ⟨t, rfl⟩ := h₄
      have hpublished₃ := hpublished₂.rests hrests₃ hasks₃.advances hasks₃.carries
      have hhighlights : b₃.highlights = b₀.highlights := by rw [hrests₃, hrests₂]
      refine link_ends run output ⟨hpublished₃.contents, hpublished₃.isRegistered, hpublished₃.isExposed,
        hpublished₃.jobs, hpublished₃.isListening, hpublished₃.window, hpublished₃.entries⟩ ?_
        (fun ha => ?_) fun hlinks => ?_
      · show List.Forall₂ _ _ b₃.highlights.entries
        rw [hhighlights]
        exact hends
      · show b₃.highlights.Agrees b₃.window
        rw [hhighlights]
        exact (hagrees ha).carries (Frame.trans hcarries₂ hasks₃.carries)
      · show ∃ d, b₃.window.openDocument? _ = _ ∧ _
        rw [hasks₃.openDocument?]
        exact htext₂ hlinks
    · have hasks₃ := h₃.1.1.toAsks
      refine ⟨hpublished₂.rests h₃.2 hasks₃.advances hasks₃.carries, fun hlinks => ?_⟩
      exact absurd (hpresents₂.armed h₃.1.2) (hcalm hlinks _)
  · obtain ⟨⟨hpresents₂, hsame₂, harmed₂⟩, hrests₂⟩ := h₂
    refine ⟨hpublished.rests hrests₂ (hpresents₂.advances hsame₂) (hpresents₂.carries hsound),
      fun hlinks => ?_⟩
    rcases harmed₂ with harmed | harmed
    · exact absurd harmed (hcalm hlinks _)
    · exact absurd harmed (hcalm hlinks _)

theorem publish_ends (run : Compile.Run) (compiler : Compiler) (output : CompileOutput) (b : Workbench)
    (hsound : b.window.Sound) (hdraws : ∀ n, b.highlights.Draws n → n < b.window.decorationTypes) :
    Ends (publish run compiler output) b
      (fun _ b' => Published run output b b' ∧ (Links run b → Linked run output b b'))
      fun _ b' => Published run output b b' ∧ (Links run b → Linked run output b b') := by
  rw [publish_eq]
  -- The session of the two documents ends.
  have hfinish := onHighlights_gives (f := (·.finish (Uri.sessionKey run.uri run.uri.generated)))
    (b.highlights.finishWhere_gives _ b.window)
  refine (Ends.lift hfinish).bind (fun _ b₁ h₁ => ?_) fun _ _ he => he
  obtain ⟨⟨hends₁, -, hlistening₁, hdraws₁, hagrees₁⟩, hb₁⟩ := h₁
  obtain ⟨w₁, c₁, rfl⟩ : ∃ w c, b₁ = { b with window := w, highlights := c } := ⟨_, _, hb₁⟩
  -- The contents take the text of the output.
  have hreplace := replaceContents_gives run.uri.generated (output.asm.map (·.text))
    { b with window := w₁, highlights := c₁ }
  refine (Ends.lift hreplace).bind (fun _ b₂ h₂ => ?_) fun _ _ he => he
  obtain ⟨hb₂, hpresents₂, hsame₂, hopen₂⟩ := h₂
  obtain ⟨w₂, rfl⟩ : ∃ w, b₂ = { b with
      window := w, highlights := c₁
      contents := b.contents.replace run.uri.generated (output.asm.map (·.text)) } := ⟨_, hb₂⟩
  have hadvances₂ : Advances run.uri.generated b.highlights.Draws b.window w₂ :=
    Frame.trans hdraws₁.advances (hpresents₂.advances hsame₂)
  have hagrees₂ : b.highlights.Agrees b.window → c₁.Agrees w₂ := fun ha =>
    (hagrees₁ ha).carries (hpresents₂.carries (hdraws₁.sound hdraws hsound))
  refine show_ends run compiler output ⟨rfl, rfl, rfl, rfl, hlistening₁, hadvances₂, _, [],
    (List.append_nil _).symm, hends₁, fun ha => (hagrees₂ ha).session, .inl rfl⟩
    (hadvances₂.sound hdraws hsound) hends₁ hagrees₂ ?_
  intro hlinks d hd
  rw [hopen₂, if_neg hlinks.2.2.1] at hd
  obtain ⟨d', -, rfl⟩ := Option.map_eq_some_iff.1 hd
  rfl

end Workbench

end AsmLens
