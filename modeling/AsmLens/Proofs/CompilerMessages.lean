import AsmLens.Proofs.Notable
import AsmLens.Proofs.OpenDocuments

/-!
# Whose compiler messages there are

Compiler messages come with an output, under the address of the source that was compiled, and closing a
document takes them away. But an output is published whether or not its source is still open, and of a
generated document that is closed only the contents are forgotten, although it can be compiled like any
other. So messages are those of an open document as long as the source was open when the output came and no
generated document was closed at its address since (`messages_have_open_document`). A generated document that
was compiled and closed keeps its messages (`closed_document_keeps_messages`).
-/

namespace AsmLens

open Window

namespace Workbench

variable {b b' : Workbench} {a : Act} {n : Notice} {run : Compile.Run} {compiler : Compiler}
  {output : CompileOutput} {address : String} {messages : List Diagnostic}

/-- Compiler messages are at most taken away. -/
def Unremarked (b b' : Workbench) : Prop :=
  ∀ address, b'.window.diagnostics.get? address = none ∨
    b'.window.diagnostics.get? address = b.window.diagnostics.get? address

instance : Frame Unremarked where
  refl b _ := .inr rfl
  trans := by
    intro b b' b'' h h' address
    rcases h' address with hnone | hsame
    · exact .inl hnone
    · rw [hsame]
      exact h address

theorem Unremarked.before (h : Unremarked b b')
    (hmessages : b'.window.diagnostics.get? address = some messages) :
    b.window.diagnostics.get? address = some messages := by
  obtain hnone | hsame := h address
  · rw [hmessages] at hnone
    nomatch hnone
  · exact hsame ▸ hmessages

theorem unremarked_of_same (h : b'.window.diagnostics = b.window.diagnostics) : Unremarked b b' := fun _ =>
  .inr (by rw [h])

theorem onClosed_withdraws (uri : Uri) (b : Workbench) :
    Gives (onClosed uri) b fun _ b' => Unremarked b b' ∧
      (b.isRegistered = true → uri.isGenerated = false →
        b'.window.diagnostics.get? uri.text = none) := by
  unfold onClosed
  refine look ?_
  cases hregistered : b.isRegistered with
  | false => exact .pure ⟨Frame.refl b, nofun⟩
  | true =>
    cases uri.isGenerated with
    | true => exact ⟨unremarked_of_same rfl, nofun⟩
    | false =>
      show (∀ _, _ ∨ _) ∧ _
      have hremove : ∀ address, (b.window.diagnostics.remove uri.text).get? address =
          if uri.text = address then none else b.window.diagnostics.get? address := fun _ =>
        Table.get?_remove ..
      refine ⟨fun address => ?_, fun _ _ => (hremove uri.text).trans (if_pos rfl)⟩
      by_cases haddress : uri.text = address
      · exact .inl ((hremove address).trans (if_pos haddress))
      · exact .inr ((hremove address).trans (if_neg haddress))

theorem onNotice_withdraws (hn : n.wakes? = none) (b : Workbench) :
    Gives (onNotice n) b fun _ b' => Unremarked b b' ∧
      ∀ uri, n = .closed uri → b.isRegistered = true → uri.isGenerated = false →
        b'.window.diagnostics.get? uri.text = none := by
  have hnotice := onHighlights_gives (f := (·.notice n)) (b.highlights.notice_gives n b.window)
  unfold onNotice
  refine hnotice.bind fun _ b₁ h₁ => ?_
  obtain ⟨⟨-, -, -, hdraws, -⟩, hb₁⟩ := h₁
  have hsame : Unremarked b b₁ := unremarked_of_same hdraws.diagnostics
  cases n with
  | closed uri =>
    refine (onClosed_withdraws uri b₁).mono fun _ b' h => ⟨Frame.trans hsame h.1, ?_⟩
    rintro _ ⟨⟩ hregistered hsource
    exact h.2 (by rw [hb₁]; exact hregistered) hsource
  | selectionChanged uri selections => exact .pure ⟨hsame, nofun⟩
  | activeChanged uri => exact .pure ⟨hsame, nofun⟩
  | _ => nomatch hn

theorem closed_withdraws (hregistered : b.isRegistered = true) {closed : Uri}
    (hsource : closed.isGenerated = false) :
    (b.after (.step (.close closed))).window.diagnostics.get? closed.text = none := by
  have hafter : b.after (.step (.close closed)) = ((Step.closeAt closed b.window).1.forM Workbench.onNotice
      { b with window := (Step.closeAt closed b.window).2 }).2 := rfl
  rw [hafter]
  generalize (Step.closeAt closed b.window).2 = w
  rcases Step.closeAt_notices closed b.window with hl | hl
  · rw [hl]
    exact (onNotice_withdraws (n := .closed closed) rfl { b with window := w }).2 closed rfl hregistered hsource
  · rw [hl]
    have hleft := onNotice_heard (n := .activeChanged none) rfl { b with window := w }
    have hclosed := onNotice_withdraws (n := .closed closed) rfl
      (Workbench.onNotice (.activeChanged none) { b with window := w }).2
    exact hclosed.2 closed rfl (hleft.isRegistered.trans hregistered) hsource

theorem Valid.remarks_after (hb : b.Valid) (a : Act) : Unremarked b (b.after a) ∨
    ∃ run compiler output, a.Delivers b run compiler output := by
  cases a with
  | step step =>
    have hwindow : Unremarked b { b with window := (step.perform b.window).2 } :=
      unremarked_of_same (step.perform_upholds b.window).diagnostics
    obtain h | ⟨run, compiler, output, -, -, hdelivers, -⟩ := hb.perform_within (R := Unremarked) step
      (fun n _ b' hn _ => (onNotice_withdraws hn b').1)
      fun _ _ _ _ hedits => unremarked_of_same hedits.diagnostics
    · exact .inl (Frame.trans hwindow h)
    · exact .inr ⟨run, compiler, output, hdelivers⟩
  | invoke id arguments =>
    exact .inl (invoke_within id arguments b (fun _ _ _ hasks => unremarked_of_same hasks.diagnostics)
      ((b.highlights.finishWhere_gives _ b.window).mono fun _ _ h =>
        unremarked_of_same h.2.2.2.1.diagnostics))
  | deactivate => exact .inl (unremarked_of_same rfl)
  | dispose =>
    left
    show Gives Workbench.dispose b fun _ b' => Unremarked b b'
    unfold Workbench.dispose
    refine look ?_
    split
    · exact .pure (Frame.refl b)
    · exact fun _ => .inl rfl

theorem Receives.remarks (h : Receives run compiler output b b')
    (hmessages : b'.window.diagnostics.get? address = some messages) :
    b.window.diagnostics.get? address = some messages ∨
      run.uri.text = address ∧ run.messages? output = some messages := by
  obtain ⟨w, b₁, jobs, hanswered, -, -, hrecorded, rfl⟩ := h
  change b₁.window.diagnostics.get? address = some messages at hmessages
  rw [← hanswered.diagnostics]
  cases hrecorded with
  | stopped h _ =>
    left
    rw [← hmessages, h.diagnostics]
  | unlinked h _ _ =>
    left
    rw [← hmessages, h.diagnostics]
  | reported _ hdiagnostics _ _ _ =>
    rw [hdiagnostics] at hmessages
    by_cases haddress : run.uri.text = address
    · rw [if_pos haddress] at hmessages
      exact (Option.or_eq_some_iff.1 hmessages).symm.imp And.right fun h => ⟨haddress, h⟩
    · rw [if_neg haddress, Option.none_or] at hmessages
      exact .inl hmessages

/-! ### Messages in a run of the program -/

/-- A generated document was closed under an address. -/
def ClosesGenerated (acts : List Act) (address : String) : Prop :=
  ∃ closed, Act.step (.close closed) ∈ acts ∧ closed.text = address ∧ closed.isGenerated = true

/-- There are messages under an address since an output came, after `before` and with `after` to follow. The
documents that were closed there since are generated ones, and the source is open unless one was closed or
the source was not open when the output came. -/
structure Messaged (w : Window) (acts : List Act) (address : String) (messages : List Diagnostic)
    (before after : List Act) (run : Compile.Run) (compiler : Compiler) (output : CompileOutput) : Prop where
  comes : ∃ a, acts = before ++ a :: after ∧ a.Delivers (Workbench.run w before) run compiler output
  source : run.uri.text = address
  messages : run.messages? output = some messages
  closed : ∀ closed, Act.step (.close closed) ∈ after → closed.text = address → closed.isGenerated = true
  source_open : ((Workbench.run w before).window.openDocument? run.uri).isSome →
    ClosesGenerated after address ∨ ((Workbench.run w acts).window.openDocument? run.uri).isSome

variable {w : Window} {acts before after : List Act}

theorem messaged_now (hdelivers : a.Delivers (Workbench.run w acts) run compiler output)
    (hsource : run.uri.text = address) (hmessages : run.messages? output = some messages)
    (hstays : Stays (Workbench.run w acts).window (Workbench.run w (acts ++ [a])).window) :
    Messaged w (acts ++ [a]) address messages acts [] run compiler output where
  comes := ⟨a, rfl, hdelivers⟩
  source := hsource
  messages := hmessages
  closed _ h := nomatch h
  source_open hopen := .inr (hstays.isOpen hopen)

theorem Messaged.concat (h : Messaged w acts address messages before after run compiler output)
    (hvalid : (Workbench.run w acts).Valid)
    (hkept : ∀ closed, a = .step (.close closed) → closed.text = address → closed.isGenerated = true) :
    Messaged w (acts ++ [a]) address messages before (after ++ [a]) run compiler output where
  comes := by
    obtain ⟨a', rfl, hdelivers⟩ := h.comes
    exact ⟨a', by simp, hdelivers⟩
  source := h.source
  messages := h.messages
  closed closed hclosed htext := by
    rcases List.mem_append.1 hclosed with hclosed | hclosed
    · exact h.closed closed hclosed htext
    · exact hkept closed (List.mem_singleton.1 hclosed).symm htext
  source_open hopen := by
    rcases h.source_open hopen with ⟨closed, hclosed, hgenerated⟩ | hopen
    · exact .inl ⟨closed, List.mem_append_left _ hclosed, hgenerated⟩
    · by_cases hcloses : a.Closes run.uri
      · obtain ⟨closed, rfl, htext⟩ := hcloses
        rw [h.source] at htext
        exact .inl ⟨closed, by simp, htext, hkept closed rfl htext⟩
      · rw [run_concat]
        exact .inr (hvalid.stays_open hcloses hopen)

theorem Valid.registered_before (hb : b.Valid) (a : Act) (h : (b.after a).isRegistered = true) :
    b.isRegistered = true := by
  rcases hb.records_after a with hunrecorded | ⟨run, compiler, output, hdelivers⟩
  · exact hunrecorded.registered h
  · exact (hb.receives hdelivers).isRegistered ▸ h

/-- Messages that are there after something has happened were there before, and no document was closed under
their address but a generated one, or their output has come. -/
theorem Valid.messages_after (hb : b.Valid) (hregistered : (b.after a).isRegistered = true)
    (hmessages : (b.after a).window.diagnostics.get? address = some messages) :
    (b.window.diagnostics.get? address = some messages ∧
        ∀ closed, a = .step (.close closed) → closed.text = address → closed.isGenerated = true) ∨
      ∃ run compiler output, a.Delivers b run compiler output ∧ run.uri.text = address ∧
        run.messages? output = some messages ∧ Stays b.window (b.after a).window := by
  have hkept : ∀ closed, a = .step (.close closed) → closed.text = address → closed.isGenerated = true := by
    rintro closed rfl htext
    by_contra hsource
    have hnone := closed_withdraws (hb.registered_before _ hregistered) (eq_false_of_ne_true hsource)
    rw [htext, hmessages] at hnone
    nomatch hnone
  rcases hb.remarks_after a with hunremarked | ⟨run, compiler, output, hdelivers⟩
  · exact .inl ⟨hunremarked.before hmessages, hkept⟩
  · -- An output replaces the messages of its own source only.
    have hreceives := hb.receives hdelivers
    rcases hreceives.remarks hmessages with hbefore | ⟨hsource, hnew⟩
    · exact .inl ⟨hbefore, hkept⟩
    · exact .inr ⟨run, compiler, output, hdelivers, hsource, hnew, hreceives.stays⟩

/-- As long as the program is registered, compiler messages are those of an open document, unless the source
was not open when their output came, or a generated document was closed at their address since. Right after
any other document was closed there are none of it. -/
theorem messages_have_open_document (hw : w.Fresh) (acts : List Act)
    (hregistered : (Workbench.run w acts).isRegistered = true) :
    (∀ address messages, (Workbench.run w acts).window.diagnostics.get? address = some messages →
      ∃ before after run compiler output,
        Messaged w acts address messages before after run compiler output) ∧
      ∀ closed : Uri, closed.isGenerated = false →
        (Workbench.run w (acts ++ [.step (.close closed)])).window.diagnostics.get? closed.text = none := by
  refine ⟨fun address messages hmessages => ?_, fun closed hsource => ?_⟩
  · induction acts using List.reverseRecOn with
    | nil =>
      have hnone : (activate w).window.diagnostics = [] := by
        rw [(activate_logs w).redecorates (T := fun _ => False) |>.diagnostics, hw.diagnostics]
      change (activate w).window.diagnostics.get? address = _ at hmessages
      rw [hnone] at hmessages
      nomatch hmessages
    | append_singleton acts a ih =>
      have hvalid := (reachable_run hw acts).valid
      rw [run_concat] at hmessages hregistered
      obtain ⟨hbefore, hkept⟩ | ⟨run, compiler, output, hdelivers, hsource, hnew, hstays⟩ :=
        hvalid.messages_after hregistered hmessages
      · obtain ⟨before, after, run, compiler, output, hmessaged⟩ :=
          ih (hvalid.registered_before a hregistered) hbefore
        exact ⟨before, after ++ [a], run, compiler, output, hmessaged.concat hvalid hkept⟩
      · rw [← run_concat] at hstays
        exact ⟨acts, [], run, compiler, output, messaged_now hdelivers hsource hnew hstays⟩
  · rw [run_concat]
    exact closed_withdraws hregistered hsource

theorem compiled_messages_have_open_document : ∃ messages before after run compiler output,
    Messaged sourceWindow (compileActs ++ [.step (.reply none remarkReply)]) (Uri.file "/main.py").text messages
      before after run compiler output ∧ messages.length = 1 := by
  have hone : ((Workbench.run sourceWindow (compileActs ++ [.step (.reply none remarkReply)])).window
      |>.diagnostics.get? (Uri.file "/main.py").text).map List.length = some 1 := by decide +kernel
  obtain ⟨messages, hmessages, hlength⟩ := Option.map_eq_some_iff.1 hone
  obtain ⟨before, after, run, compiler, output, hmessaged⟩ :=
    (messages_have_open_document (fresh_ofDocument rfl) _ (by decide +kernel)).1 _ _ hmessages
  exact ⟨messages, before, after, run, compiler, output, hmessaged, hlength⟩

/-- A source is compiled, and so is the document generated for it, which is closed then. -/
def compiledGeneratedActs : List Act :=
  compileActs ++ [.step (.reply none outputReply), .step (.focus (some (Uri.file "/main.py").generated)),
    .invoke Command.compile.id [],
    .step (.reply none (.ok (some (.arr [.obj [("id", .str "asm"), ("extensions", .arr [.str ".asm"])]])))),
    .step (.pick none [0]),
    .step (.reply none (.ok (some (.arr [.obj [("id", .str "nasm")]])))),
    .step (.pick none [0]),
    .step (.enter none none),
    .step (.reply none remarkReply),
    .step (.close (Uri.file "/main.py").generated)]

/-- A document that was closed has messages. -/
theorem closed_document_keeps_messages : ¬ ∀ (w : Window) (acts : List Act), w.Fresh →
    (Workbench.run w acts).isRegistered = true → ∀ address messages,
      (Workbench.run w acts).window.diagnostics.get? address = some messages → messages ≠ [] →
        ∃ d ∈ (Workbench.run w acts).window.openDocuments, d.uri.text = address := by
  intro hall
  have hone : ((Workbench.run sourceWindow compiledGeneratedActs).window.diagnostics.get?
      generatedAddress).map List.length = some 1 := by decide +kernel
  have hclosed : ∀ d ∈ (Workbench.run sourceWindow compiledGeneratedActs).window.openDocuments,
      d.uri.text ≠ generatedAddress := by decide +kernel
  obtain ⟨messages, hmessages, hlength⟩ := Option.map_eq_some_iff.1 hone
  obtain ⟨d, hd, htext⟩ := hall sourceWindow compiledGeneratedActs (fresh_ofDocument rfl) (by decide +kernel)
    generatedAddress messages hmessages (List.ne_nil_of_length_eq_add_one hlength)
  exact hclosed d hd htext

end Workbench

end AsmLens
