import AsmLens.Proofs.Reachable
import AsmLens.Proofs.Records

/-!
# Outputs come and go

Only an output that comes is recorded (`Act.Delivers`, `Recorded`). Whatever else happens is
`Workbench.Unrecorded`: under each address the text of the contents and the instruction set stay as they
are, or there is no text any more, and no session begins. Documents stay open meanwhile, but for those
that the user closes (`Valid.stays_open`).
-/

namespace AsmLens

open Window

/-- The answer to a request brings what a compiler made of a source, for a task that waits for it. -/
def Act.Delivers (a : Act) (b : Workbench) (run : Compile.Run) (compiler : Compiler)
    (output : CompileOutput) : Prop :=
  ∃ named k language arguments reply, a = .step (.reply named reply) ∧
    b.window.requestFor? named = some k ∧
    Job.compile run (.compiling k language compiler arguments) ∈ b.jobs ∧ Compile.Accepts reply output

def Act.Closes (a : Act) (uri : Uri) : Prop := ∃ closed, a = .step (.close closed) ∧ closed.text = uri.text

/-! ### Documents that are closed -/

namespace Step

variable {w : Window} {uri : Uri}

theorem closeAt_open {closed : Uri} (hne : closed.text ≠ uri.text)
    (hopen : (w.openDocument? uri).isSome) :
    Gives (closeAt closed) w fun _ w' => (w'.openDocument? uri).isSome := by
  have hclosed : ∀ n, w.findDocument? closed = some n → ((w.closeDocument n).openDocument? uri).isSome := by
    intro n hn
    obtain ⟨d, hd⟩ := Option.isSome_iff_exists.1 hopen
    rw [openDocument?_eq] at hd
    obtain ⟨i, hi⟩ := List.mem_iff_getElem?.1 (List.mem_of_find?_eq_some hd)
    have hat := List.find?_some hd
    -- The document that is closed has another address.
    have hin : n ≠ i := by
      rintro rfl
      obtain ⟨d', hd', -, htext, -⟩ := of_findDocument? hn
      cases hi.symm.trans hd'
      exact hne (htext.symm.trans (Document.isAt_iff.1 hat).2)
    rw [openDocument?_eq, List.find?_isSome]
    refine ⟨d, List.mem_of_getElem? (i := i) ?_, hat⟩
    show (w.documents.modify n _)[i]? = some d
    rw [List.getElem?_modify, hi]
    simp [hin]
  refine (closeAt_closing closed w).mono fun l w' h => ?_
  cases h with
  | missing hn => exact hopen
  | active hn hactive => exact hclosed _ hn
  | inactive hn => exact hclosed _ hn

theorem perform_open (step : Step) (hstep : ∀ closed, step = .close closed → closed.text ≠ uri.text)
    (hopen : (w.openDocument? uri).isSome) :
    Gives step.perform w fun _ w' => (w'.openDocument? uri).isSome := by
  have hanswer : ∀ named read,
      Gives (answerPrompt named read) w fun _ w' => (w'.openDocument? uri).isSome := by
    intro named read
    exact (answerPrompt_answered named read w).mono fun _ _ h =>
      (stays_of_same h.documents).isOpen hopen
  cases step with
  | reply named reply =>
    refine Gives.look ?_
    cases w.requestFor? named <;> exact hopen
  | openDocument closed text fileName =>
    exact Stays.isOpen (presents_addDocument w ⟨closed, text, fileName, false, true⟩).documents hopen
  | showDocument closed selection =>
    refine Gives.look ?_
    cases w.findDocument? closed <;> exact hopen
  | select closed selections =>
    cases selections with
    | nil => exact hopen
    | cons selection rest =>
      show ((w.setSelection closed selection).openDocument? uri).isSome
      unfold setSelection
      split <;> exact hopen
  | close closed => exact closeAt_open (hstep closed rfl) hopen
  | changeText closed text =>
    refine Gives.look ?_
    cases w.findDocument? closed with
    | none => exact hopen
    | some n => exact Stays.isOpen (presents_setText w n text).documents hopen
  | pick named positions => exact hanswer named _
  | enter named text => exact hanswer named _
  | hide named => exact hanswer named _
  | _ => exact hopen

end Step

namespace Workbench

variable {b b' b'' : Workbench} {n : Notice}

/-! ### What records nothing -/

/-- Nothing is recorded: texts were at most forgotten, and sessions at most ended. -/
structure Unrecorded (b b' : Workbench) : Prop where
  texts : ∀ address, b'.contents.texts.get? address = none ∨
    b'.contents.texts.get? address = b.contents.texts.get? address ∧
      b'.instructionSets.get? address = b.instructionSets.get? address
  entries : List.Forall₂ Entry.Follows b.highlights.entries b'.highlights.entries
  registered : b'.isRegistered = true → b.isRegistered = true

instance : Frame Unrecorded where
  refl b := ⟨fun _ => .inr ⟨rfl, rfl⟩, Controller.forall₂_follows_refl _, id⟩
  trans := by
    intro b b' b'' h h'
    have hentries : List.Forall₂ Entry.Follows b.highlights.entries b''.highlights.entries := by
      refine forall₂_trans (fun e e' e'' he he' => ?_) h.entries h'.entries
      exact he.trans he'
    refine ⟨fun address => ?_, hentries, h.registered ∘ h'.registered⟩
    rcases h'.texts address with hnone | ⟨htext', hset'⟩
    · exact .inl hnone
    · rw [htext', hset']
      exact h.texts address

theorem unrecorded_of_same (hcontents : b'.contents = b.contents)
    (hsets : b'.instructionSets = b.instructionSets)
    (hentries : List.Forall₂ Entry.Follows b.highlights.entries b'.highlights.entries)
    (hregistered : b'.isRegistered = b.isRegistered) : Unrecorded b b' :=
  ⟨fun _ => .inr ⟨by rw [hcontents], by rw [hsets]⟩, hentries, fun h => hregistered ▸ h⟩

theorem Rests.unrecorded (h : b.Rests b') : Unrecorded b b' := by
  rw [Rests] at h
  rw [h]
  exact unrecorded_of_same rfl rfl (Controller.forall₂_follows_refl _) rfl

theorem onClosed_texts (uri : Uri) (b : Workbench) :
    Gives (onClosed uri) b fun _ b' => ∀ address, b'.contents.texts.get? address = none ∨
      b'.contents.texts.get? address = b.contents.texts.get? address ∧
        b'.instructionSets.get? address = b.instructionSets.get? address := by
  unfold onClosed
  refine look ?_
  split
  · exact fun _ => .inr ⟨rfl, rfl⟩
  · split
    · intro address
      by_cases haddress : uri.text = address
      · left
        show (b.contents.texts.remove uri.text).get? address = none
        rw [Table.get?_remove, if_pos haddress]
      · right
        show (b.contents.texts.remove uri.text).get? address = _ ∧
          (b.instructionSets.remove uri.text).get? address = _
        rw [Table.get?_remove, Table.get?_remove, if_neg haddress, if_neg haddress]
        exact ⟨rfl, rfl⟩
    · exact fun _ => .inr ⟨rfl, rfl⟩

theorem onNotice_unrecorded (hn : n.wakes? = none) (b : Workbench) :
    Gives (onNotice n) b fun _ b' => Unrecorded b b' := by
  have htexts : Gives (onNotice n) b fun _ b' => ∀ address, b'.contents.texts.get? address = none ∨
      b'.contents.texts.get? address = b.contents.texts.get? address ∧
        b'.instructionSets.get? address = b.instructionSets.get? address := by
    unfold onNotice
    refine (onHighlights_gives (Q := fun _ _ => True) trivial).bind fun _ b₁ h₁ => ?_
    obtain ⟨w, c, rfl⟩ : ∃ w c, b₁ = { b with window := w, highlights := c } := ⟨_, _, h₁.2⟩
    cases n with
    | closed uri => exact onClosed_texts uri _
    | selectionChanged uri selections => exact fun _ => .inr ⟨rfl, rfl⟩
    | activeChanged uri => exact fun _ => .inr ⟨rfl, rfl⟩
    | _ => nomatch hn
  have hheard := onNotice_heard hn b
  exact ⟨htexts, hheard.entries, fun h => hheard.isRegistered ▸ h⟩

theorem unrecorded_jobs (h : Unrecorded b b') (jobs : List Job) : Unrecorded b { b' with jobs } :=
  ⟨h.texts, h.entries, h.registered⟩

theorem unrecorded_window (w : Window) : Unrecorded b { b with window := w } :=
  unrecorded_of_same rfl rfl (Controller.forall₂_follows_refl _) rfl

/-! ### An output is recorded -/

variable {run : Compile.Run} {compiler : Compiler} {output : CompileOutput}

theorem contain_records (run : Compile.Run) (k : Nat) (language : Language) (compiler : Compiler)
    (arguments : String) {reply : Reply} (haccepts : Compile.Accepts reply output) (hwired : b.Wired) :
    Gives (contain "compile" (onReply reply (.compile run (.compiling k language compiler arguments)))) b
      fun j b' => j = none ∧ Published run output b b' ∧ Recorded run compiler output b b' := by
  have hpublishes := onReply_publishes run k language compiler arguments haccepts hwired.sound hwired.draws
  have hrecords := onReply_of_publish run k language compiler arguments haccepts
    (publish_records run compiler output b hwired.sound hwired.draws)
  refine contain_gives (hpublishes.and hrecords) ?_ ?_ ?_
  · rintro job b' ⟨⟨rfl, -⟩, -⟩ hwaits
    nomatch hwaits
  · rintro job b' ⟨⟨-, hpublished, -⟩, -, hrecorded⟩ -
    exact ⟨rfl, hpublished, hrecorded⟩
  · rintro fault b' ⟨⟨hpublished, -⟩, hrecorded⟩
    refine (onWindow_gives (reportFault_gives "compile" fault b'.window)).mono fun _ b'' h => ?_
    have hasks := h.1.1.1
    exact ⟨rfl, hpublished.rests h.2 hasks.advances hasks.carries, hrecorded.asks h.2 hasks⟩

/-- An output has come and is published, when its request was answered. -/
def Receives (run : Compile.Run) (compiler : Compiler) (output : CompileOutput) (b b' : Workbench) : Prop :=
  ∃ w b₁ jobs, Step.Answered b.window w ∧ Wired { b with window := w } ∧
    Published run output { b with window := w } b₁ ∧
    Recorded run compiler output { b with window := w } b₁ ∧ b' = { b₁ with jobs }

theorem Valid.delivered {a : Act} (hb : b.Valid) (h : a.Delivers b run compiler output) :
    ∃ step k language arguments reply w jobs, a = .step step ∧ (step.perform b.window).2 = w ∧
      Compile.Accepts reply output ∧ Step.Answered b.window w ∧ Wired { b with window := w } ∧
      b.after a = { (contain "compile" (onReply reply (.compile run (.compiling k language compiler arguments)))
        { b with window := w }).2 with jobs } := by
  obtain ⟨named, k, language, arguments, reply, rfl, hrequest, hjob, haccepts⟩ := h
  obtain ⟨before, after, hjobs⟩ := List.append_of_mem hjob
  have hanswered : Job.AnsweredBy (.compile run (.compiling k language compiler arguments)) b.window
      (.reply named reply) (.replied k reply) := ⟨by rw [Step.perform_reply reply hrequest], rfl⟩
  obtain ⟨w, what, hw, -, -, hsame, hleaves, hperform⟩ := hb.answered hjobs hanswered
  exact ⟨_, k, language, arguments, reply, w, _, rfl, hw, haccepts, hsame, hb.toWired.leaves hleaves,
    congrArg Prod.snd hperform⟩

theorem Valid.receives {a : Act} (hb : b.Valid) (h : a.Delivers b run compiler output) :
    Receives run compiler output b (b.after a) := by
  obtain ⟨step, k, language, arguments, reply, w, jobs, -, -, haccepts, hsame, hwired, hafter⟩ := hb.delivered h
  obtain ⟨-, hpublished, hrecorded⟩ := contain_records run k language compiler arguments haccepts hwired
  rw [hafter]
  exact ⟨w, _, _, hsame, hwired, hpublished, hrecorded, rfl⟩

/-- A step in the window keeps to a frame that notices and stages in the window keep to, or an output comes
by it and is published. -/
theorem Valid.perform_within {R : Workbench → Workbench → Prop} [Frame R] (hb : b.Valid) (step : Step)
    (hheard : ∀ n ∈ (step.perform b.window).1, ∀ b : Workbench, n.wakes? = none → b.Wired →
      Gives (Workbench.onNotice n) b fun _ b' => R b b')
    (hrests : ∀ (b b' : Workbench) (jobs : List Job), b.Rests b' → Edits b.window b'.window →
      R b { b' with jobs }) :
    R { b with window := (step.perform b.window).2 } (Workbench.perform step b).2 ∨
      ∃ run compiler output b₁ jobs, (Act.step step).Delivers b run compiler output ∧
        Published run output { b with window := (step.perform b.window).2 } b₁ ∧
        Recorded run compiler output { b with window := (step.perform b.window).2 } b₁ ∧
        (Workbench.perform step b).2 = { b₁ with jobs } := by
  by_cases hanswered : ∃ n, ∃ job ∈ b.jobs, job.AnsweredBy b.window step n
  · obtain ⟨n, job, hjob, hanswered⟩ := hanswered
    obtain ⟨before, after, hjobs⟩ := List.append_of_mem hjob
    obtain ⟨w, what, hw, hwait, hn, -, hleaves, hperform⟩ := hb.answered hjobs hanswered
    have hwired := hb.toWired.leaves hleaves
    rw [hw, hperform]
    obtain ⟨hwent, -⟩ := contain_goes hn hwait hwired
    cases hwent with
    | rests hstays hedits => exact .inl (hrests _ _ _ hstays hedits)
    | @published run k _ language compiler arguments reply output hjob' hreplied haccepts hpublished =>
      subst hreplied hjob'
      obtain ⟨named, rfl, hrequest⟩ := Step.of_perform_replied hanswered.1
      cases hn
      cases hwait
      obtain ⟨-, -, hrecorded⟩ := contain_records run k language compiler arguments haccepts hwired
      exact .inr ⟨run, compiler, output, _, _,
        ⟨named, k, language, arguments, reply, rfl, hrequest, hjob, haccepts⟩, hpublished, hrecorded, rfl⟩
  · exact .inl (hb.unanswered hanswered hheard)

theorem Valid.perform_preserves {P : Workbench → Prop} (hb : b.Valid) (step : Step)
    (hheard : ∀ n ∈ (step.perform b.window).1, ∀ b : Workbench, n.wakes? = none → P b →
      Gives (Workbench.onNotice n) b fun _ b' => P b')
    (hrests : ∀ (b b' : Workbench) (jobs : List Job), b.Rests b' → Edits b.window b'.window → P b →
      P { b' with jobs })
    (hpublish : ∀ run compiler output, Holds (Preserves P) (publish run compiler output))
    (h : P { b with window := (step.perform b.window).2 }) : P (Workbench.perform step b).2 := by
  obtain hkeeps | ⟨run, compiler, output, -, -, hdelivers, -⟩ := hb.perform_within (R := Preserves P) step
    (fun n hn b' hwakes _ => hheard n hn b' hwakes) hrests
  · exact hkeeps h
  · obtain ⟨_, k, language, arguments, reply, w, jobs, hstep, hw, haccepts, -, -, hafter⟩ := hb.delivered hdelivers
    cases hstep
    rw [hw] at h
    have hreply := onReply_of_publish run k language compiler arguments haccepts
      ((hpublish run compiler output _).mono (fun _ _ hp => hp h) fun _ _ hp => hp h)
    have hcontain : Gives (contain "compile" _) { b with window := w } fun _ b' => P b' :=
      contain_gives hreply (fun _ _ hp _ => hp.2) (fun _ _ hp _ => hp.2) fun fault b' hp =>
        (onWindow_gives (reportFault_gives "compile" fault b'.window)).mono fun _ b'' hreport =>
          hrests b' b'' b''.jobs hreport.2 hreport.1.1.1.edits hp
    have hperform : (Workbench.perform _ b).2 = _ := hafter
    rw [hperform]
    exact hrests _ _ jobs (Frame.refl _) (Frame.refl _) hcontain

/-- Nothing is recorded, and documents stay. -/
def Idles (b b' : Workbench) : Prop := Unrecorded b b' ∧ Stays b.window b'.window

instance : Frame Idles where
  refl b := ⟨Frame.refl b, Frame.refl b.window⟩
  trans h h' := ⟨Frame.trans h.1 h'.1, Frame.trans h.2 h'.2⟩

theorem Valid.records_perform (hb : b.Valid) (step : Step) :
    Stays (step.perform b.window).2 (Workbench.perform step b).2.window ∧
      (Unrecorded b (Workbench.perform step b).2 ∨ ∃ run compiler output,
        (Act.step step).Delivers b run compiler output) := by
  have hidles := hb.perform_within (R := Idles) step
    (fun n _ b' hn _ => ⟨onNotice_unrecorded hn b', stays_of_same (onNotice_heard hn b').documents⟩)
    fun _ _ _ hrests hedits => ⟨unrecorded_jobs hrests.unrecorded _, hedits.documents⟩
  obtain ⟨hunrecorded, hstays⟩ | ⟨run, compiler, output, b₁, jobs, hdelivers, -, hrecorded, hafter⟩ := hidles
  · exact ⟨hstays, .inl (Frame.trans (unrecorded_window _) hunrecorded)⟩
  · rw [hafter]
    exact ⟨hrecorded.stays, .inr ⟨run, compiler, output, hdelivers⟩⟩

/-! ### What is no step -/

theorem spawn_within {R : Workbench → Prop} (name : String) {x : Work Job}
    (h : Ends x b (Starts b) fun _ b' => b.Rests b' ∧ Asks b.window b'.window)
    (hrests : ∀ (b' : Workbench) (jobs : List Job), b.Rests b' → Asks b.window b'.window →
      R { b' with jobs }) : Gives (spawn name x) b fun _ b' => R b' := by
  obtain ⟨hstays, -⟩ := contain_starts name h
  unfold Gives
  rw [spawn_eq]
  exact hrests _ _ hstays.1 hstays.2

theorem invoke_within {R : Workbench → Prop} (id : String) (arguments : List Json) (b : Workbench)
    (hrests : ∀ (b' : Workbench) (jobs : List Job), b.Rests b' → Asks b.window b'.window →
      R { b' with jobs })
    (hends : Gives b.highlights.finishAll b.window fun c w => R { b with window := w, highlights := c }) :
    Gives (invoke id arguments) b fun _ b' => R b' := by
  have htell : ∀ text, Gives (onWindow (tellUnawaited text)) b fun _ b' => R b' := fun text =>
    (onWindow_gives (tellUnawaited_gives text b.window)).mono fun _ b' h => hrests b' _ h.2 h.1.1
  unfold invoke
  refine look ?_
  split
  · unfold runCommand
    refine look ?_
    split
    · exact htell _
    · exact spawn_within _ (compile_starts _ _ _ b) hrests
    · exact htell _
    · exact spawn_within _ (format_starts _ _ b) hrests
    · exact .pure (hrests b b.jobs (Frame.refl b) (Frame.refl b.window))
    · exact spawn_within _ (tooltip_starts _ _ _ b) hrests
    · exact hends
  · refine (onWindow_gives (emit_quiet _ rfl rfl b.window)).mono fun _ b' h => ?_
    exact hrests b' _ h.2 h.1.toAsks

/-- The window, the tasks and the sessions changed, and documents stay. -/
def Commanded (b b' : Workbench) : Prop :=
  ∃ w c jobs, b' = { b with window := w, highlights := c, jobs } ∧ Stays b.window w ∧
    List.Forall₂ Entry.Follows b.highlights.entries c.entries

theorem invoke_commanded (id : String) (arguments : List Json) (b : Workbench) :
    Gives (invoke id arguments) b fun _ b' => Commanded b b' := by
  refine invoke_within id arguments b (fun b' jobs hrests hasks => ?_) ?_
  · have hsame : b'.highlights = b.highlights := by rw [hrests]
    refine ⟨b'.window, b.highlights, jobs, ?_, stays_of_same hasks.documents, Controller.forall₂_follows_refl _⟩
    rw [hrests]
  · refine (b.highlights.finishWhere_gives _ b.window).mono fun c w h => ?_
    exact ⟨w, c, b.jobs, rfl, stays_of_same h.2.2.2.1.documents, h.1.imp fun _ _ hends => hends.1⟩

theorem dispose_unrecorded (b : Workbench) :
    Gives dispose b fun _ b' => Unrecorded b b' ∧ Stays b.window b'.window := by
  refine (dispose_disposes (b.highlights.dispose_gives b.window)).mono fun _ b' h => ?_
  obtain rfl | ⟨c, w, w', ⟨hentries, -, hdraws, -⟩, hremarks, rfl⟩ := h
  · exact ⟨Frame.refl b', Frame.refl b'.window⟩
  · exact ⟨⟨fun address => .inl rfl, hentries, nofun⟩, stays_of_same (hremarks.documents.trans hdraws.documents)⟩

/-- Nothing is recorded when something happens, or it is an output that comes. -/
theorem Valid.records_after (hb : b.Valid) (a : Act) : Unrecorded b (b.after a) ∨
    ∃ run compiler output, a.Delivers b run compiler output := by
  cases a with
  | step step => exact (hb.records_perform step).2
  | invoke id arguments =>
    obtain ⟨w, c, jobs, hafter, -, hentries⟩ := invoke_commanded id arguments b
    refine .inl ?_
    unfold Workbench.after act
    rw [hafter]
    exact unrecorded_of_same rfl rfl hentries rfl
  | deactivate => exact .inl (unrecorded_of_same rfl rfl (Controller.forall₂_follows_refl _) rfl)
  | dispose => exact .inl (dispose_unrecorded b).1

theorem Valid.stays_open {uri : Uri} (hb : b.Valid) {a : Act} (ha : ¬ a.Closes uri)
    (hopen : (b.window.openDocument? uri).isSome) : ((b.after a).window.openDocument? uri).isSome := by
  cases a with
  | step step =>
    refine (hb.records_perform step).1.isOpen (step.perform_open (fun closed hstep htext => ha ?_) hopen)
    exact ⟨closed, by rw [hstep], htext⟩
  | invoke id arguments =>
    obtain ⟨w, c, jobs, hafter, hstays, -⟩ := invoke_commanded id arguments b
    unfold Workbench.after act
    rw [hafter]
    exact hstays.isOpen hopen
  | deactivate => exact (stays_of_same (log_quiet _ b.window).documents).isOpen hopen
  | dispose => exact (dispose_unrecorded b).2.isOpen hopen

/-! ### Outputs of a run of the program -/

/-- An output comes after the first things on a list have happened, by the next one. -/
def OutputComes (w : Window) (acts before : List Act) (run : Compile.Run) (compiler : Compiler)
    (output : CompileOutput) : Prop :=
  ∃ a after, acts = before ++ a :: after ∧ a.Delivers (Workbench.run w before) run compiler output

variable {w : Window} {acts before : List Act} {a : Act}

theorem OutputComes.concat (h : OutputComes w acts before run compiler output) (a : Act) :
    OutputComes w (acts ++ [a]) before run compiler output := by
  obtain ⟨a', after, rfl, hdelivers⟩ := h
  exact ⟨a', after ++ [a], by simp, hdelivers⟩

theorem outputComes_concat_iff : OutputComes w (acts ++ [a]) before run compiler output ↔
    OutputComes w acts before run compiler output ∨
      before = acts ∧ a.Delivers (Workbench.run w acts) run compiler output := by
  refine ⟨fun h => ?_, fun h => ?_⟩
  · obtain ⟨a', after, hacts, hdelivers⟩ := h
    rcases List.eq_nil_or_concat after with rfl | ⟨after, a'', rfl⟩
    · obtain ⟨rfl, rfl⟩ : acts = before ∧ a = a' := by simpa using hacts
      exact .inr ⟨rfl, hdelivers⟩
    · have hacts' : acts ++ [a] = (before ++ a' :: after) ++ [a''] := by simpa using hacts
      exact .inl ⟨a', after, (List.append_inj' hacts' rfl).1, hdelivers⟩
  · obtain h | ⟨rfl, hdelivers⟩ := h
    · exact h.concat a
    · exact ⟨a, [], rfl, hdelivers⟩

theorem OutputComes.length_lt (h : OutputComes w acts before run compiler output) :
    before.length < acts.length := by
  obtain ⟨a, after, rfl, -⟩ := h
  simp

/-- An output came for an address, and none has come for it since. -/
structure LastOutput (w : Window) (acts : List Act) (address : String) (before : List Act)
    (run : Compile.Run) (compiler : Compiler) (output : CompileOutput) : Prop where
  comes : OutputComes w acts before run compiler output
  generated : run.uri.generated.text = address
  last : ∀ before' run' compiler' output', OutputComes w acts before' run' compiler' output' →
    run'.uri.generated.text = address → before'.length ≤ before.length

variable {address : String}

theorem lastOutput_now (hdelivers : a.Delivers (Workbench.run w acts) run compiler output)
    (haddress : run.uri.generated.text = address) :
    LastOutput w (acts ++ [a]) address acts run compiler output where
  comes := outputComes_concat_iff.2 (.inr ⟨rfl, hdelivers⟩)
  generated := haddress
  last before' run' compiler' output' h _ := by
    have hlt := h.length_lt
    simp only [List.length_append, List.length_singleton] at hlt
    omega

theorem LastOutput.concat (h : LastOutput w acts address before run compiler output)
    (hnone : ∀ run' compiler' output', a.Delivers (Workbench.run w acts) run' compiler' output' →
      run'.uri.generated.text ≠ address) :
    LastOutput w (acts ++ [a]) address before run compiler output where
  comes := h.comes.concat a
  generated := h.generated
  last before' run' compiler' output' hcomes haddress := by
    rcases outputComes_concat_iff.1 hcomes with hcomes | ⟨-, hdelivers⟩
    · exact h.last before' run' compiler' output' hcomes haddress
    · exact absurd haddress (hnone run' compiler' output' hdelivers)

end Workbench

end AsmLens
