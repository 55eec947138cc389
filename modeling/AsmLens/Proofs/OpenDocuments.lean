import AsmLens.Proofs.InstructionSets

/-!
# The documents of a session

A session ends when one of its documents is closed, but that is only noticed when it happens. While a
source is compiled there may be no session yet. So the generated document of a session is always open, and
its source is open if it was when the output came (`sessions_have_open_documents`). A source that was
closed before is linked all the same (`closed_source_is_linked`).
-/

namespace AsmLens

open Window

namespace Workbench

variable {b b' : Workbench} {a : Act} {uri : Uri} {e' : Entry DecorationCanvas}

theorem Heard.ends_closed (h : Heard (.closed uri) b b') (hlistening : b.highlights.isListening = true)
    (he' : e' ∈ b'.highlights.entries) (hrole : (e'.role? uri.text).isSome) : e'.isLive = false := by
  obtain ⟨e, -, hfollows, hended, -⟩ := forall₂_exists_left (h.ended hlistening) he'
  rw [hfollows.role?] at hrole
  exact hended uri rfl hrole

theorem Valid.ends_closed (hb : b.Valid) (hregistered : b.isRegistered = true) (ha : a.Closes uri)
    (he' : e' ∈ (b.after a).highlights.entries) (hrole : (e'.role? uri.text).isSome) : e'.isLive = false := by
  obtain ⟨closed, rfl, htext⟩ := ha
  rw [← htext] at hrole
  have hafter : b.after (.step (.close closed)) = ((Step.closeAt closed b.window).1.forM Workbench.onNotice
      { b with window := (Step.closeAt closed b.window).2 }).2 := rfl
  rw [hafter] at he'
  have hlistening := hb.listening hregistered
  generalize (Step.closeAt closed b.window).2 = w at he'
  rcases Step.closeAt_notices closed b.window with hl | hl
  · rw [hl] at he'
    have hclosed := onNotice_heard (n := .closed closed) rfl { b with window := w }
    exact hclosed.ends_closed hlistening he' hrole
  · rw [hl] at he'
    have hleft := onNotice_heard (n := .activeChanged none) rfl { b with window := w }
    have hclosed := onNotice_heard (n := .closed closed) rfl
      (Workbench.onNotice (.activeChanged none) { b with window := w }).2
    exact hclosed.ends_closed (hleft.isListening.trans hlistening) he' hrole

theorem Valid.stays_open_for (hb : b.Valid) (hregistered : b.isRegistered = true)
    (he' : e' ∈ (b.after a).highlights.entries) (hlive : e'.isLive = true)
    (hrole : (e'.role? uri.text).isSome) (hopen : (b.window.openDocument? uri).isSome) :
    ((b.after a).window.openDocument? uri).isSome := by
  refine hb.stays_open (fun ha => ?_) hopen
  rw [hb.ends_closed hregistered ha he' hrole] at hlive
  nomatch hlive

/-- A session is about the last output for its generated document, and its documents are open, the source
if it was when the output came. -/
structure HasDocuments (w : Window) (acts : List Act) (e : Entry DecorationCanvas) (before : List Act)
    (run : Compile.Run) (output : CompileOutput) : Prop where
  source : e.source = run.uri
  generated : e.generated = run.uri.generated
  index : e.session.index = .ofLines (AnnotatedLine.ofAsm output.asm)
  generated_open : ((Workbench.run w acts).window.openDocument? e.generated).isSome
  source_open : ((Workbench.run w before).window.openDocument? e.source).isSome →
    ((Workbench.run w acts).window.openDocument? e.source).isSome

variable {w : Window} {acts before : List Act} {run : Compile.Run} {compiler : Compiler}
  {output : CompileOutput} {e : Entry DecorationCanvas}

theorem HasDocuments.concat (h : HasDocuments w acts e before run output) (hfollows : e.Follows e')
    (hvalid : (Workbench.run w acts).Valid) (hregistered : (Workbench.run w acts).isRegistered = true)
    (he' : e' ∈ ((Workbench.run w acts).after a).highlights.entries) (hlive : e'.isLive = true) :
    HasDocuments w (acts ++ [a]) e' before run output := by
  have hstays : ∀ uri, (e'.role? uri.text).isSome →
      ((Workbench.run w acts).window.openDocument? uri).isSome →
      ((Workbench.run w (acts ++ [a])).window.openDocument? uri).isSome := by
    intro uri hrole hopen
    rw [run_concat]
    exact hvalid.stays_open_for hregistered he' hlive hrole hopen
  refine ⟨hfollows.source.trans h.source, hfollows.generated.trans h.generated,
    hfollows.session.index.trans h.index, hstays _ e'.role?_generated ?_, fun hopen => ?_⟩
  · rw [hfollows.generated]
    exact h.generated_open
  · refine hstays _ e'.role?_source ?_
    rw [hfollows.source] at hopen ⊢
    exact h.source_open hopen

theorem Receives.entries (h : Receives run compiler output b b') (hb : b.Valid)
    (he' : e' ∈ b'.highlights.entries) (hlive : e'.isLive = true) :
    (∃ e ∈ b.highlights.entries, e.isLive = true ∧ e.Follows e' ∧
        run.uri.generated.text ≠ e.generated.text) ∨
      (∃ k l, e' = entryFor run output k l) ∧
        (b'.window.openDocument? run.uri.generated).isSome := by
  obtain ⟨w, b₁, jobs, -, -, -, hrecorded, rfl⟩ := h
  obtain ⟨old, hended, hnew⟩ := hrecorded.sessions
  have hold : ∀ e' ∈ old, e'.isLive = true → ∃ e ∈ b.highlights.entries, e.isLive = true ∧ e.Follows e' ∧
      run.uri.generated.text ≠ e.generated.text := by
    intro e' he' hlive
    obtain ⟨e, he, hfollows, hends, -⟩ := forall₂_exists_left hended he'
    refine ⟨e, he, hfollows.isLive hlive, hfollows, fun heq => ?_⟩
    rw [hends (decide_eq_true (hb.toWired.key_of_generated he heq))] at hlive
    nomatch hlive
  change e' ∈ b₁.highlights.entries at he'
  rcases hnew with hnew | ⟨k, l, hnew, hopen⟩
  · rw [hnew] at he'
    exact .inl (hold e' he' hlive)
  · rw [hnew] at he'
    rcases List.mem_append.1 he' with he' | he'
    · exact .inl (hold e' he' hlive)
    · exact .inr ⟨⟨k, l, List.mem_singleton.1 he'⟩, hopen⟩

theorem Receives.isRegistered (h : Receives run compiler output b b') : b'.isRegistered = b.isRegistered := by
  obtain ⟨w, b₁, jobs, -, -, hpublished, -, rfl⟩ := h
  exact hpublished.isRegistered

theorem Receives.stays (h : Receives run compiler output b b') : Stays b.window b'.window := by
  obtain ⟨w, b₁, jobs, hanswered, -, -, hrecorded, rfl⟩ := h
  exact Frame.trans (stays_of_same hanswered.documents) hrecorded.stays

/-- A session that is there after something has happened was there before, and no output came for its
generated document, or its output came. -/
theorem Valid.session_after (hb : b.Valid) (hregistered : (b.after a).isRegistered = true)
    (he' : e' ∈ (b.after a).highlights.entries) (hlive : e'.isLive = true) :
    (b.isRegistered = true ∧ ∃ e ∈ b.highlights.entries, e.isLive = true ∧ e.Follows e' ∧
        ∀ run compiler output, a.Delivers b run compiler output →
          run.uri.generated.text ≠ e.generated.text) ∨
      ∃ run compiler output, a.Delivers b run compiler output ∧ (∃ k l, e' = entryFor run output k l) ∧
        ((b.after a).window.openDocument? run.uri.generated).isSome ∧ Stays b.window (b.after a).window := by
  by_cases hnow : ∃ run compiler output, a.Delivers b run compiler output ∧
      run.uri.generated.text = e'.generated.text
  · obtain ⟨run, compiler, output, hdelivers, heq⟩ := hnow
    have hreceives := hb.receives hdelivers
    rcases hreceives.entries hb he' hlive with ⟨e, -, -, hfollows, hne⟩ | ⟨hnew, hopen⟩
    · rw [← hfollows.generated] at hne
      exact absurd heq hne
    · exact .inr ⟨run, compiler, output, hdelivers, hnew, hopen, hreceives.stays⟩
  · have hnone : ∀ run compiler output, a.Delivers b run compiler output →
        run.uri.generated.text ≠ e'.generated.text :=
      fun run compiler output hdelivers heq => hnow ⟨run, compiler, output, hdelivers, heq⟩
    left
    rcases hb.records_after a with hunrecorded | ⟨run, compiler, output, hdelivers⟩
    · obtain ⟨e, he, hfollows⟩ := forall₂_exists_left hunrecorded.entries he'
      exact ⟨hunrecorded.registered hregistered, e, he, hfollows.isLive hlive, hfollows,
        hfollows.generated ▸ hnone⟩
    · have hreceives := hb.receives hdelivers
      rcases hreceives.entries hb he' hlive with ⟨e, he, hlive', hfollows, -⟩ | ⟨⟨k, l, rfl⟩, -⟩
      · exact ⟨hreceives.isRegistered ▸ hregistered, e, he, hlive', hfollows, hfollows.generated ▸ hnone⟩
      · exact absurd rfl (hnone run compiler output hdelivers)

/-- As long as the program is registered, the generated document of a session is open, and so is the source
when it was open at the time the output came. -/
theorem sessions_have_open_documents (hw : w.Fresh) (acts : List Act)
    (hregistered : (Workbench.run w acts).isRegistered = true) :
    ∀ e ∈ (Workbench.run w acts).highlights.live, ∃ before run compiler output,
      LastOutput w acts e.generated.text before run compiler output ∧
        HasDocuments w acts e before run output := by
  induction acts using List.reverseRecOn with
  | nil => exact List.forall_mem_nil _
  | append_singleton acts a ih =>
    intro e' he'
    obtain ⟨he', hlive⟩ := List.mem_filter.1 he'
    have hvalid := (reachable_run hw acts).valid
    rw [run_concat] at he' hregistered
    obtain ⟨hregistered', e, he, hlive', hfollows, hnone⟩ |
      ⟨run, compiler, output, hdelivers, ⟨k, l, rfl⟩, hopen, hstays⟩ :=
        hvalid.session_after hregistered he' hlive
    · obtain ⟨before, run, compiler, output, hlast, hopen⟩ :=
        ih hregistered' e (List.mem_filter.2 ⟨he, hlive'⟩)
      refine ⟨before, run, compiler, output, ?_, hopen.concat hfollows hvalid hregistered' he' hlive⟩
      rw [hfollows.generated]
      exact hlast.concat hnone
    · rw [← run_concat] at hopen hstays
      exact ⟨acts, run, compiler, output, lastOutput_now hdelivers rfl, rfl, rfl, rfl, hopen, hstays.isOpen⟩

theorem amd64_session_has_open_documents : ∃ e before run compiler output,
    e ∈ (Workbench.run sourceWindow (amd64Acts ++ [.step (.reply none outputReply)])).highlights.live ∧
      LastOutput sourceWindow (amd64Acts ++ [.step (.reply none outputReply)]) e.generated.text before run
        compiler output ∧
      HasDocuments sourceWindow (amd64Acts ++ [.step (.reply none outputReply)]) e before run output ∧
      ((Workbench.run sourceWindow before).window.openDocument? e.source).isSome := by
  have hlive : (Workbench.run sourceWindow (amd64Acts ++ [.step (.reply none outputReply)])).highlights.live
      ≠ [] := by
    rw [← List.length_pos_iff]
    decide +kernel
  have hopen : ∀ before ∈ (amd64Acts ++ [Act.step (.reply none outputReply)]).inits,
      ∀ e ∈ (Workbench.run sourceWindow (amd64Acts ++ [.step (.reply none outputReply)])).highlights.live,
        ((Workbench.run sourceWindow before).window.openDocument? e.source).isSome := by
    decide +kernel
  obtain ⟨e, he⟩ := List.exists_mem_of_ne_nil _ hlive
  obtain ⟨before, run, compiler, output, hlast, hdocuments⟩ :=
    sessions_have_open_documents (fresh_ofDocument rfl) _ (by decide +kernel) e he
  exact ⟨e, before, run, compiler, output, he, hlast, hdocuments, hopen before hlast.comes.mem_inits e he⟩

/-- The source of `amd64Acts` is closed before its output comes. -/
def closedSourceActs : List Act :=
  amd64Acts ++ [.step (.close (.file "/main.py")), .step (.reply none outputReply)]

/-- A source that is closed is linked. -/
theorem closed_source_is_linked : ¬ ∀ (w : Window) (acts : List Act), w.Fresh →
    (Workbench.run w acts).isRegistered = true → ∀ e ∈ (Workbench.run w acts).highlights.live,
      ((Workbench.run w acts).window.openDocument? e.source).isSome ∧
        ((Workbench.run w acts).window.openDocument? e.generated).isSome := by
  intro hall
  have hclosed : ∃ e ∈ (Workbench.run sourceWindow closedSourceActs).highlights.live,
      ((Workbench.run sourceWindow closedSourceActs).window.openDocument? e.source).isSome = false := by
    decide +kernel
  obtain ⟨e, he, hsource⟩ := hclosed
  have hopen := (hall sourceWindow closedSourceActs (fresh_ofDocument rfl) (by decide +kernel) e he).1
  rw [hsource] at hopen
  nomatch hopen

end Workbench

end AsmLens
