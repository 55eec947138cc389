import AsmLens.Proofs.Valid

/-!
# What is recorded of an output

Publishing an output is a chain of calls of the host, and each of them can be made to fail. `Recorded` says
how far it came. The contents are replaced first, and the sessions of the two documents end. Then the
generated document is shown and the user is told; when this fails, the instruction set and the compiler
messages stay those of an older output (`Recorded.stopped`). When only the new session cannot be made,
the instruction set is the new one, but not the messages (`Recorded.unlinked`). Else all is that of the
output (`Recorded.reported`).
-/

namespace AsmLens

open Window

namespace Window

variable {w w' : Window} {uri : Uri}

/-- Documents keep their place, and change in their texts only. -/
def Stays (w w' : Window) : Prop :=
  ∀ (i : Nat) (d : Document), w.documents[i]? = some d → ∃ text, w'.documents[i]? = some { d with text }

instance : Frame Stays where
  refl _ _ d hd := ⟨d.text, hd⟩
  trans := by
    intro w w' w'' h h' i d hd
    obtain ⟨text, hd'⟩ := h i d hd
    obtain ⟨text', hd''⟩ := h' i _ hd'
    exact ⟨text', hd''⟩

theorem stays_of_same (h : w'.documents = w.documents) : Stays w w' := by
  intro i d hd
  exact ⟨d.text, by rw [h, hd]⟩

theorem Stays.isOpen (h : Stays w w') (hopen : (w.openDocument? uri).isSome) :
    (w'.openDocument? uri).isSome := by
  obtain ⟨d, hd⟩ := Option.isSome_iff_exists.1 hopen
  rw [openDocument?_eq] at hd
  obtain ⟨i, hi⟩ := List.mem_iff_getElem?.1 (List.mem_of_find?_eq_some hd)
  obtain ⟨text, hd'⟩ := h i d hi
  have hat : d.isAt uri = true := List.find?_some hd
  rw [openDocument?_eq, List.find?_isSome]
  exact ⟨_, List.mem_of_getElem? hd', hat⟩

end Window

def Compiler.knownSet? (compiler : Compiler) : Option String := compiler.instructionSet.filter (· ≠ "")

/-- A run whose source is to be linked to its output. -/
def Compile.Run.isLinked (run : Compile.Run) : Bool := run.config.liveCorrelation && run.source.isWhole

/-- The compiler messages of an output, unless what the compiler wrote cannot be read. -/
def Compile.Run.messages? (run : Compile.Run) (output : CompileOutput) : Option (List Diagnostic) :=
  (Diagnostic.ofStderr (run.source.range.first - 1) output.stderr).toOption

namespace Workbench

variable {run : Compile.Run} {compiler : Compiler} {output : CompileOutput} {b b' b₁ b₂ : Workbench}
  {sets : String → Option String}

def setsWith (b : Workbench) (run : Compile.Run) (compiler : Compiler) (address : String) : Option String :=
  if run.uri.generated.text = address then compiler.knownSet? else b.instructionSets.get? address

/-- The sessions of the two documents of a run have ended, and no other one. -/
def Ended (run : Compile.Run) (b : Workbench) (entries : List (Entry DecorationCanvas)) : Prop :=
  List.Forall₂ (Controller.EndsWhere fun e => e.key = Uri.sessionKey run.uri run.uri.generated)
    b.highlights.entries entries

/-- The sessions of the two documents have ended, the instruction sets are as `sets` says, and nothing else
is recorded. -/
structure Prepared (run : Compile.Run) (sets : String → Option String) (b b' : Workbench) : Prop where
  instructionSets : ∀ address, b'.instructionSets.get? address = sets address
  diagnostics : b'.window.diagnostics = b.window.diagnostics
  ended : Ended run b b'.highlights.entries
  stays : Stays b.window b'.window
  armed : ∀ call, (b'.window.failures.get? call).isSome → (b.window.failures.get? call).isSome

theorem Prepared.presents (h : Prepared run sets b b₁) (hsets : b₂.instructionSets = b₁.instructionSets)
    (hhighlights : b₂.highlights = b₁.highlights) (hpresents : Presents b₁.window b₂.window) :
    Prepared run sets b b₂ where
  instructionSets := hsets ▸ h.instructionSets
  diagnostics := hpresents.diagnostics.trans h.diagnostics
  ended := hhighlights ▸ h.ended
  stays := Frame.trans h.stays hpresents.documents
  armed call harmed := h.armed call (hpresents.armed harmed)

theorem Prepared.rests (h : Prepared run sets b b₁) (hrests : b₁.Rests b₂)
    (hpresents : Presents b₁.window b₂.window) : Prepared run sets b b₂ := by
  rw [Rests] at hrests
  exact h.presents (by rw [hrests]) (by rw [hrests]) hpresents

/-- How far the output of a run came. -/
inductive Recorded (run : Compile.Run) (compiler : Compiler) (output : CompileOutput) (b b' : Workbench) :
    Prop where
  /-- The generated document was not shown, or the user was not told. -/
  | stopped (h : Prepared run b.instructionSets.get? b b')
      (harmed : ∃ call ∈ [HostCall.openDocument, .showDocument, .showInformation],
        (b.window.failures.get? call).isSome)
  /-- The session could not be made. -/
  | unlinked (h : Prepared run (b.setsWith run compiler) b b') (hlinked : run.isLinked = true)
      (harmed : (b.window.failures.get? .createDecorationType).isSome)
  /-- All was recorded. -/
  | reported (instructionSets : ∀ address, b'.instructionSets.get? address = b.setsWith run compiler address)
      (diagnostics : ∀ address, b'.window.diagnostics.get? address =
        ((if run.uri.text = address then run.messages? output else none).or
          (b.window.diagnostics.get? address)))
      (entries : ∃ old, Ended run b old ∧
        if run.isLinked then ∃ k l, b'.highlights.entries = old ++ [entryFor run output k l]
        else b'.highlights.entries = old)
      (stays : Stays b.window b'.window)
      (generated : (b'.window.openDocument? run.uri.generated).isSome)

theorem Recorded.stays (h : Recorded run compiler output b b') : Stays b.window b'.window := by
  cases h with
  | stopped h _ => exact h.stays
  | unlinked h _ _ => exact h.stays
  | reported _ _ _ hstays _ => exact hstays

/-- At most the session for the output is new, and then its generated document is open. -/
theorem Recorded.sessions (h : Recorded run compiler output b b') : ∃ old, Ended run b old ∧
    (b'.highlights.entries = old ∨ ∃ k l, b'.highlights.entries = old ++ [entryFor run output k l] ∧
      (b'.window.openDocument? run.uri.generated).isSome) := by
  cases h with
  | stopped h _ => exact ⟨_, h.ended, .inl rfl⟩
  | unlinked h _ _ => exact ⟨_, h.ended, .inl rfl⟩
  | reported _ _ hentries _ hgenerated =>
    obtain ⟨old, hended, hnew⟩ := hentries
    split at hnew
    · obtain ⟨k, l, hnew⟩ := hnew
      exact ⟨old, hended, .inr ⟨k, l, hnew, hgenerated⟩⟩
    · exact ⟨old, hended, .inl hnew⟩

theorem Recorded.asks (h : Recorded run compiler output b b₁) (hrests : b₁.Rests b₂)
    (hasks : Asks b₁.window b₂.window) : Recorded run compiler output b b₂ := by
  cases h with
  | stopped h harmed => exact .stopped (h.rests hrests hasks.presents) harmed
  | unlinked h hlinked harmed => exact .unlinked (h.rests hrests hasks.presents) hlinked harmed
  | reported hsets hdiagnostics hentries hstays hgenerated =>
    have hopen := hasks.presents.documents
    have hdiagnostics' := hasks.diagnostics
    rw [Rests] at hrests
    rw [hrests] at hdiagnostics' hopen ⊢
    refine .reported hsets (fun address => ?_) hentries (Frame.trans hstays hopen)
      (Stays.isOpen hopen hgenerated)
    rw [hdiagnostics']
    exact hdiagnostics address

/-! ### The parts of publishing -/

theorem rememberInstructionSet_gives (uri : Uri) (set : Option String) (b : Workbench) :
    Gives (rememberInstructionSet uri set) b fun _ b' =>
      b' = { b with instructionSets := b'.instructionSets } ∧
      ∀ address, b'.instructionSets.get? address =
        if uri.text = address then set.filter (· ≠ "") else b.instructionSets.get? address := by
  refine ⟨rfl, fun address => ?_⟩
  simp only [rememberInstructionSet, change]
  cases set.filter (· ≠ "") with
  | some set => exact Table.get?_put ..
  | none => exact Table.get?_remove ..

theorem report_records (source : Uri) (stderr : List Json) (offset : Number) (b : Workbench) :
    Ends (report source stderr offset) b
      (fun _ b' => ∀ address, b'.window.diagnostics.get? address =
        (if source.text = address then (Diagnostic.ofStderr offset stderr).toOption else none).or
          (b.window.diagnostics.get? address))
      fun _ b' => ∀ address, b'.window.diagnostics.get? address =
        (if source.text = address then (Diagnostic.ofStderr offset stderr).toOption else none).or
          (b.window.diagnostics.get? address) := by
  refine (Ends.ofExcept _).bind (fun diagnostics b₁ h₁ => ?_) ?_
  · obtain ⟨rfl, hread⟩ := h₁
    rw [hread]
    have hpublish : Gives (Diagnostic.publish source diagnostics) b₁.window fun _ w' =>
        ∀ address, w'.diagnostics.get? address =
          (if source.text = address then (.ok diagnostics : Except Fault _).toOption else none).or
            (b₁.window.diagnostics.get? address) := by
      intro address
      show (b₁.window.diagnostics.put source.text diagnostics).get? address = _
      rw [Table.get?_put]
      by_cases haddress : source.text = address
      · rw [if_pos haddress, if_pos haddress]
        rfl
      · rw [if_neg haddress, if_neg haddress, Option.none_or]
    refine (Ends.lift (onWindow_gives hpublish)).bind (fun _ b₂ h₂ => ?_) fun _ _ he => he
    split
    · exact (Ends.lift (onWindow_gives (log_quiet _ b₂.window))).mono
        (fun _ b' h => h.1.diagnostics ▸ h₂.1) fun _ _ he => he
    · exact .pure h₂.1
  · rintro e b₁ ⟨rfl, hread⟩
    rw [hread]
    intro address
    simp [Except.toOption]

theorem link_records (run : Compile.Run) (output : CompileOutput)
    (hprepared : Prepared run (b.setsWith run compiler) b b₁)
    (hgenerated : (b₁.window.openDocument? run.uri.generated).isSome) :
    Ends (linkOutput run output) b₁
      (fun _ b' => Recorded run compiler output b b') fun _ b' => Recorded run compiler output b b' := by
  have hreport : ∀ b₂, b₂.instructionSets = b₁.instructionSets →
      b₂.window.diagnostics = b₁.window.diagnostics → b₂.window.documents = b₁.window.documents →
      (∃ old, Ended run b old ∧
        if run.isLinked then ∃ k l, b₂.highlights.entries = old ++ [entryFor run output k l]
        else b₂.highlights.entries = old) →
      Ends (report run.uri output.stderr (run.source.range.first - 1)) b₂
        (fun _ b' => Recorded run compiler output b b')
        fun _ b' => Recorded run compiler output b b' := by
    intro b₂ hsets hdiagnostics hdocuments hentries
    have hafter : ∀ b', (b₂.Rests b' ∧ Remarks b₂.window b'.window) ∧
        (∀ address, b'.window.diagnostics.get? address =
          (if run.uri.text = address then run.messages? output else none).or
            (b₂.window.diagnostics.get? address)) → Recorded run compiler output b b' := by
      rintro b' ⟨⟨hrests, hremarks⟩, hreported⟩
      have hsame : b'.window.documents = b₁.window.documents := hremarks.documents.trans hdocuments
      obtain ⟨w, rfl⟩ : ∃ w, b' = { b₂ with window := w } := ⟨_, hrests⟩
      refine .reported (fun address => ?_) (fun address => ?_) hentries
        (Frame.trans hprepared.stays (stays_of_same hsame)) (Stays.isOpen (stays_of_same hsame) hgenerated)
      · rw [← hprepared.instructionSets, ← hsets]
      · rw [hreported, hdiagnostics, hprepared.diagnostics]
    exact ((report_ends _ _ _ b₂).and (report_records _ _ _ b₂)).mono (fun _ b' => hafter b')
      fun _ b' => hafter b'
  unfold linkOutput
  dsimp only
  split
  · rename_i hlinked
    refine (startSession_ends run.uri run.uri.generated _ run.config.highlightStyle b₁).bind
      (fun _ b₂ h₂ => ?_) fun _ b₂ h₂ => ?_
    · obtain ⟨hb₂, hdraws, -, old, hends, -, k, l, hentries, -⟩ := h₂
      obtain ⟨w, c, rfl⟩ : ∃ w c, b₂ = { b₁ with window := w, highlights := c } := ⟨_, _, hb₂⟩
      refine hreport _ rfl hdraws.diagnostics hdraws.documents
        ⟨old, Controller.endsWhere_trans _ hprepared.ended hends, ?_⟩
      rw [Compile.Run.isLinked, hlinked, if_pos rfl]
      exact ⟨k, l, hentries⟩
    · obtain ⟨hb₂, hdraws, -, hends, -, harmed⟩ := h₂
      obtain ⟨w, c, rfl⟩ : ∃ w c, b₂ = { b₁ with window := w, highlights := c } := ⟨_, _, hb₂⟩
      exact .unlinked ⟨hprepared.instructionSets, hdraws.diagnostics.trans hprepared.diagnostics,
        Controller.endsWhere_trans _ hprepared.ended hends,
        Frame.trans hprepared.stays (stays_of_same hdraws.documents),
        fun call hcall => hprepared.armed call (hdraws.armed hcall)⟩ hlinked (hprepared.armed _ harmed)
  · rename_i hlinked
    refine hreport b₁ rfl rfl rfl ⟨_, hprepared.ended, ?_⟩
    rw [Compile.Run.isLinked, if_neg hlinked]

theorem publish_records (run : Compile.Run) (compiler : Compiler) (output : CompileOutput) (b : Workbench)
    (hsound : b.window.Sound) (hdraws : ∀ n, b.highlights.Draws n → n < b.window.decorationTypes) :
    Ends (publish run compiler output) b (fun _ b' => Recorded run compiler output b b')
      fun _ b' => Recorded run compiler output b b' := by
  rw [publish_eq]
  -- The session of the two documents ends.
  have hfinish := onHighlights_gives (f := (·.finish (Uri.sessionKey run.uri run.uri.generated)))
    (b.highlights.finishWhere_gives _ b.window)
  refine (Ends.lift hfinish).bind (fun _ b₁ h₁ => ?_) fun _ _ he => he
  obtain ⟨⟨hends₁, -, -, hdraws₁, -⟩, hb₁⟩ := h₁
  have hprepared₁ : Prepared run b.instructionSets.get? b b₁ := by
    refine ⟨fun address => ?_, hdraws₁.diagnostics, hends₁, stays_of_same hdraws₁.documents,
      fun call => hdraws₁.armed⟩
    rw [hb₁]
  -- The contents take the text of the output.
  have hreplace := replaceContents_gives run.uri.generated (output.asm.map (·.text)) b₁
  refine (Ends.lift hreplace).bind (fun _ b₂ h₂ => ?_) fun _ _ he => he
  obtain ⟨hb₂, hpresents₂, -⟩ := h₂
  have hprepared₂ := hprepared₁.presents (by rw [hb₂]) (by rw [hb₂]) hpresents₂
  have hsound₂ := hpresents₂.sound (hdraws₁.sound hdraws hsound)
  -- The generated document is shown.
  have hcurrent : Gives current b₂ fun a b' => a = b₂ ∧ b' = b₂ := ⟨rfl, rfl⟩
  refine (Ends.lift hcurrent).bind (fun _ b₀ h₀ => ?_) fun _ _ he => he
  obtain ⟨rfl, rfl⟩ := h₀
  have hdisplay := onHost_ends (Document.displayGenerated_ends run.uri.generated
    (b₀.provided run.uri.generated) b₀.window)
  refine hdisplay.bind (fun _ b₃ h₃ => ?_) fun _ b₃ h₃ => ?_
  · obtain ⟨⟨hpresents₃, hopened₃, -⟩, hrests₃⟩ := h₃
    have hopen₃ := hopened₃ hsound₂
    have hprepared₃ := hprepared₂.rests hrests₃ hpresents₃
    have hgenerated₃ : (b₃.window.openDocument? run.uri.generated).isSome := by
      rw [hopen₃]
      cases b₀.window.openDocument? run.uri.generated <;> rfl
    -- The user is told.
    refine (onHost_ends (Message.tellDone_ends _ b₃.window)).bind (fun _ b₄ h₄ => ?_) fun _ b₄ h₄ => ?_
    · obtain ⟨⟨hasks₄, -⟩, hrests₄⟩ := h₄
      have hprepared₄ := hprepared₃.rests hrests₄ hasks₄.presents
      have hgenerated₄ := Stays.isOpen hasks₄.presents.documents hgenerated₃
      refine (Ends.lift (rememberInstructionSet_gives run.uri.generated compiler.instructionSet b₄)).bind
        (fun _ b₅ h₅ => ?_) fun _ _ he => he
      obtain ⟨hb₅, hsets₅⟩ := h₅
      obtain ⟨t, rfl⟩ : ∃ t, b₅ = { b₄ with instructionSets := t } := ⟨_, hb₅⟩
      refine link_records run output ⟨fun address => ?_, hprepared₄.diagnostics, hprepared₄.ended,
        hprepared₄.stays, hprepared₄.armed⟩ hgenerated₄
      rw [hsets₅, hprepared₄.instructionSets]
      rfl
    · have hquiet := h₄.1.1
      exact .stopped (hprepared₃.rests h₄.2 hquiet.toAsks.presents)
        ⟨.showInformation, by simp, hprepared₃.armed _ h₄.1.2⟩
  · obtain ⟨⟨hpresents₃, -, harmed₃⟩, hrests₃⟩ := h₃
    refine .stopped (hprepared₂.rests hrests₃ hpresents₃) ?_
    rcases harmed₃ with harmed | harmed
    · exact ⟨.openDocument, by simp, hprepared₂.armed _ harmed⟩
    · exact ⟨.showDocument, by simp, hprepared₂.armed _ harmed⟩

end Workbench

end AsmLens
