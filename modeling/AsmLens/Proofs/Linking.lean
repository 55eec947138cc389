import AsmLens.Proofs.Correlation
import AsmLens.Proofs.Provenance

/-!
# Linked documents

What the user sees of a session. After the output of a whole source came, the cursor in the source points
to all lines of the output that came from its line, and the cursor in the output points back to the line of
the source. This holds in all panes with the other document, wherever the cursor and the focus were before.
-/

namespace AsmLens

open Window AnnotatedLine

/-- With one decoration type, a pane highlights the lines that satisfy a condition and no others, in
ascending order. -/
def Pane.Highlights (p : Pane) (n : Nat) (P : Nat → Prop) : Prop :=
  ∃ lines : List Nat, lines.Pairwise (· < ·) ∧ (∀ line, line ∈ lines ↔ P line) ∧
    (p.decorations.get? n).getD [] = lines.map fun line => .atLine ((line - 1 : Nat) : Number)

/-- All visible panes with a document highlight the lines that satisfy a condition and no others. -/
def Window.Highlights (w : Window) (uri : Uri) (n : Nat) (P : Nat → Prop) : Prop :=
  ∀ p ∈ w.panes, w.shows uri p = true → p.Highlights n P

def Act.Moves (a : Act) : Prop :=
  (∃ uri selections, a = .step (.select uri selections)) ∨ ∃ uri, a = .step (.focus uri)

/-! ### Lines that belong to each other -/

namespace DecorationCanvas

variable {w : Window} {uri : Uri} {d : Document}

theorem lineIn?_eq_some_iff (hd : w.openDocument? uri = some d) {x : Number} {n : Nat} :
    lineIn? w uri x = some n ↔ x = (n : Number) ∧ 1 ≤ n ∧ n ≤ d.lineCount := by
  unfold lineIn?
  rw [hd, ← Number.toNat?_eq_some_iff]
  cases hx : x.toNat? with
  | none => simp
  | some m =>
    show (if 1 ≤ m ∧ m ≤ d.lineCount then some m else none) = some n ↔ _
    by_cases hm : 1 ≤ m ∧ m ≤ d.lineCount
    · rw [if_pos hm]
      constructor
      · intro h
        cases h
        exact ⟨rfl, hm⟩
      · exact And.left
    · rw [if_neg hm]
      constructor
      · intro h
        nomatch h
      · rintro ⟨h, hn⟩
        cases h
        exact absurd hn hm

theorem filterMap_lineIn? (hd : w.openDocument? uri = some d) {lines : List Nat}
    (hlines : ∀ i ∈ lines, 1 ≤ i ∧ i ≤ d.lineCount) :
    (lines.map fun i : Nat => (i : Number)).filterMap (lineIn? w uri) = lines := by
  induction lines with
  | nil => rfl
  | cons i lines ih =>
    have hi : lineIn? w uri (i : Number) = some i :=
      (lineIn?_eq_some_iff hd).2 ⟨rfl, hlines i List.mem_cons_self⟩
    rw [List.map_cons, List.filterMap_cons, hi, ih fun j hj => hlines j (List.mem_cons_of_mem _ hj)]

end DecorationCanvas

namespace Session

variable {s : Session DecorationCanvas} {asm : List AsmLine} {w : Window} {uri : Uri} {d : Document}

theorem correlated_source (hindex : s.index = .ofLines (ofAsm asm)) (hd : w.openDocument? uri = some d)
    (hlength : asm.length ≤ d.lineCount) (x : Number) :
    (s.correlated .source x).filterMap (DecorationCanvas.lineIn? w uri) = linesFrom asm x := by
  show (s.index.generatedLines x).filterMap _ = _
  rw [hindex, generatedLines_ofAsm]
  refine DecorationCanvas.filterMap_lineIn? hd fun i hi => ?_
  have hle := (mem_linesFrom.1 hi).le_length
  omega

theorem correlated_generated (hindex : s.index = .ofLines (ofAsm asm)) (hd : w.openDocument? uri = some d)
    (x : Number) :
    ((s.correlated .generated x).filterMap (DecorationCanvas.lineIn? w uri)).Pairwise (· < ·) ∧
      ∀ m, m ∈ (s.correlated .generated x).filterMap (DecorationCanvas.lineIn? w uri) ↔
        (1 ≤ m ∧ m ≤ d.lineCount) ∧ ∃ i : Nat, x = (i : Number) ∧ CameFrom asm i (m : Number) := by
  have hcorrelated : s.correlated .generated x = (s.index.sourceLine? x).toList := rfl
  rw [hcorrelated, hindex]
  constructor
  · refine List.Pairwise.filterMap (R := fun _ _ => False) _ (fun _ _ h => h.elim) ?_
    cases (LineIndex.ofLines (ofAsm asm)).sourceLine? x with
    | none => exact .nil
    | some y => exact List.pairwise_singleton _ y
  · intro m
    simp only [List.mem_filterMap, Option.mem_toList, sourceLine?_ofAsm_eq_some_iff,
      DecorationCanvas.lineIn?_eq_some_iff hd]
    constructor
    · rintro ⟨y, hfrom, rfl, hm⟩
      exact ⟨hm, hfrom⟩
    · rintro ⟨hm, hfrom⟩
      exact ⟨_, hfrom, rfl, hm⟩

end Session

namespace Workbench

variable {b b' b'' : Workbench} {n : Notice} {e : Entry DecorationCanvas} {asm : List AsmLine} {d : Document}

/-! ### Moves of the cursor and the focus -/

/-- All documents stay as they are, and all sessions go on. -/
structure Moved (b b' : Workbench) : Prop where
  documents : b'.window.documents = b.window.documents
  isRegistered : b'.isRegistered = b.isRegistered
  entries : List.Forall₂ Controller.GoesOn b.highlights.entries b'.highlights.entries

instance : Frame Moved where
  refl _ := ⟨rfl, rfl, Controller.forall₂_goesOn_refl _⟩
  trans h h' := ⟨h'.documents.trans h.documents, h'.isRegistered.trans h.isRegistered,
    forall₂_trans (fun _ _ _ he he' => ⟨he.1.trans he'.1, he'.2.trans he.2⟩) h.entries h'.entries⟩

theorem Heard.moved (h : Heard n b b') (hn : ∀ uri, n ≠ .closed uri)
    (hlistening : b.highlights.isListening = true) : Moved b b' :=
  ⟨h.documents, h.isRegistered, (h.ended hlistening).imp fun _ _ he => ⟨he.1, he.2.2 hn⟩⟩

theorem setSelection_documents (w : Window) (uri : Uri) (selection : Selection) :
    (w.setSelection uri selection).documents = w.documents := by
  unfold setSelection
  split <;> rfl

theorem Valid.moved {a : Act} (hb : b.Valid) (hregistered : b.isRegistered = true) (ha : a.Moves) :
    Moved b (b.after a) := by
  have hlistening := hb.listening hregistered
  have hheard : ∀ (n : Notice) (w : Window), n.wakes? = none → (∀ uri, n ≠ .closed uri) →
      w.documents = b.window.documents → Moved b (Workbench.onNotice n { b with window := w }).2 := by
    intro n w hn hclosed hdocuments
    have hmoved := Heard.moved (onNotice_heard hn { b with window := w }) hclosed hlistening
    exact ⟨hmoved.documents.trans hdocuments, hmoved.isRegistered, hmoved.entries⟩
  obtain ⟨uri, selections, rfl⟩ | ⟨uri, rfl⟩ := ha
  · cases selections with
    | nil => exact hheard (.selectionChanged uri []) b.window rfl nofun rfl
    | cons selection rest =>
      exact hheard (.selectionChanged uri (selection :: rest)) _ rfl nofun
        (setSelection_documents b.window uri selection)
  · exact hheard (.activeChanged _) { b.window with active := uri.bind b.window.findPane? } rfl nofun rfl

theorem Valid.moves {moves : List Act} (hb : b.Valid) (hregistered : b.isRegistered = true)
    (hmoves : ∀ a ∈ moves, a.Moves) :
    (moves.foldl Workbench.after b).Valid ∧ Moved b (moves.foldl Workbench.after b) := by
  induction moves generalizing b with
  | nil => exact ⟨hb, Frame.refl b⟩
  | cons a moves ih =>
    have hmoved := hb.moved hregistered (hmoves a List.mem_cons_self)
    have hrest := ih (hb.after a) (hmoved.isRegistered.trans hregistered) fun a' ha' =>
      hmoves a' (List.mem_cons_of_mem _ ha')
    exact ⟨hrest.1, Frame.trans hmoved hrest.2⟩

/-! ### What the cursor points to -/

/-- A registered session ties a source to a document with all lines of an output. -/
structure Ties (b : Workbench) (e : Entry DecorationCanvas) (asm : List AsmLine) (d : Document) : Prop where
  live : e ∈ b.highlights.live
  index : e.session.index = .ofLines (ofAsm asm)
  source : b.window.openDocument? e.source = some d
  generated : ∃ g, b.window.openDocument? e.generated = some g ∧ asm.length ≤ g.lineCount

theorem Ties.moved (h : Ties b e asm d) (hmoved : Moved b b') : ∃ e', e.Follows e' ∧ Ties b' e' asm d := by
  obtain ⟨he, hlive⟩ := List.mem_filter.1 h.live
  obtain ⟨e', he', hfollows, hlive'⟩ := forall₂_exists_right hmoved.entries he
  have hopen : ∀ uri, b'.window.openDocument? uri = b.window.openDocument? uri := by
    intro uri
    rw [openDocument?_eq, openDocument?_eq, hmoved.documents]
  refine ⟨e', hfollows, List.mem_filter.2 ⟨he', hlive'.trans hlive⟩, hfollows.session.index.trans h.index,
    ?_, ?_⟩
  · rw [hopen, hfollows.source]
    exact h.source
  · rw [hopen, hfollows.generated]
    exact h.generated

/-- When the cursor has come to a line of one document of a session, the panes with the other one highlight
what belongs to it there, whatever they highlighted before. -/
theorem Valid.selected (hb : b.Valid) (hregistered : b.isRegistered = true) (he : e ∈ b.highlights.live)
    {uri : Uri} {role : Role} (hrole : e.role? uri.text = some role) (selection : Selection)
    (rest : List Selection) {lines : List Nat} {P : Nat → Prop}
    (hlines : (e.session.correlated role (Controller.cursorLine selection)).filterMap
      (DecorationCanvas.lineIn? b.window (e.session.shown role.other).canvas.uri) = lines)
    (hsorted : lines.Pairwise (· < ·)) (hmem : ∀ line, line ∈ lines ↔ P line) :
    (b.after (.step (.select uri (selection :: rest)))).window.Highlights
      (e.session.shown role.other).canvas.uri (e.session.decoration role.other) P := by
  obtain ⟨he, hlive⟩ := List.mem_filter.1 he
  generalize hw : b.window.setSelection uri selection = w
  have hwired : Wired { b with window := w } := by
    have hleaves : Step.Leaves b.window _ (b.window.setSelection uri selection) :=
      Step.perform_gives (.select uri (selection :: rest)) b.window
    exact hw ▸ hb.toWired.leaves hleaves
  have hdocuments : w.documents = b.window.documents := hw ▸ setSelection_documents b.window uri selection
  have hnotice : b.highlights.notice (.selectionChanged uri (selection :: rest)) =
      b.highlights.cursorMoved uri.text (Controller.cursorLine selection) := by
    unfold Controller.notice
    rw [hb.listening hregistered]
    rfl
  have hwindow : (b.after (.step (.select uri (selection :: rest)))).window =
      (b.highlights.cursorMoved uri.text (Controller.cursorLine selection) w).2 := by
    rw [← hnotice, ← hw]
    rfl
  obtain ⟨-, -, -, hdraws, hagrees⟩ :=
    b.highlights.cursorMoved_gives uri.text (Controller.cursorLine selection) w
  -- `e` was not touched by the other sessions with the document, since they draw with other types.
  obtain ⟨e', -, hgoes, hpoints⟩ := forall₂_exists_right (hagrees hwired.agrees).2 he
  obtain ⟨hshown, hlines'⟩ := hpoints role hrole hlive
  obtain ⟨huri, hdecoration⟩ := hgoes.1.session.canvas role.other
  have hlineIn : DecorationCanvas.lineIn? w = DecorationCanvas.lineIn? b.window := by
    funext uri line
    unfold DecorationCanvas.lineIn?
    rw [openDocument?_eq, openDocument?_eq, hdocuments]
  rw [DecorationCanvas.lineIn?_redecorates hdraws, hlineIn, hlines] at hlines'
  rw [hwindow]
  intro p hp hshows
  have hvisible : p.isVisible = true := by
    rw [shows, Bool.and_eq_true] at hshows
    exact hshows.1
  have hranges := hshown p hp hvisible
  rw [DecorationCanvas.shownIn, DecorationCanvas.ranges, huri, hdecoration, if_pos hshows, hlines'] at hranges
  exact ⟨lines, hsorted, hmem, hranges⟩

/-- From a line of a source the cursor points to the lines of an output that came from it, and from a line of
the output back to the line that it came from, if the source has it. -/
structure Correlates (b : Workbench) (source generated : Uri) (decoration : Role → Nat) (asm : List AsmLine)
    (lineCount : Nat) : Prop where
  forth : ∀ uri : Uri, uri.text = source.text → ∀ selection rest,
    (b.after (.step (.select uri (selection :: rest)))).window.Highlights generated (decoration .generated)
      fun i => CameFrom asm i (Controller.cursorLine selection)
  back : ∀ uri : Uri, uri.text = generated.text → ∀ selection rest,
    (b.after (.step (.select uri (selection :: rest)))).window.Highlights source (decoration .source)
      fun m => (1 ≤ m ∧ m ≤ lineCount) ∧
        ∃ i : Nat, Controller.cursorLine selection = (i : Number) ∧ CameFrom asm i (m : Number)

theorem Valid.correlates (hb : b.Valid) (hregistered : b.isRegistered = true) (hties : Ties b e asm d) :
    Correlates b e.source e.generated e.session.decoration asm d.lineCount := by
  have hpaired := hb.paired e (List.mem_filter.1 hties.live).1
  have hgenerated : (e.session.shown Role.source.other).canvas.uri = e.generated := hpaired.generated_uri
  have hsource : (e.session.shown Role.generated.other).canvas.uri = e.source := hpaired.source_uri
  constructor
  · intro uri huri selection rest
    have hrole : e.role? uri.text = some .source := by
      unfold Entry.role?
      rw [if_pos huri.symm]
    obtain ⟨g, hg, hlength⟩ := hties.generated
    rw [← hgenerated] at hg ⊢
    exact hb.selected hregistered hties.live hrole selection rest
      (Session.correlated_source hties.index hg hlength _) (pairwise_linesFrom asm _)
      fun i => mem_linesFrom
  · intro uri huri selection rest
    have hne : e.source.text ≠ uri.text := by
      rw [huri, hpaired.generated]
      exact e.source.text_ne_generated
    have hrole : e.role? uri.text = some .generated := by
      unfold Entry.role?
      rw [if_neg hne, if_pos huri.symm]
    have hd := hties.source
    rw [← hsource] at hd ⊢
    obtain ⟨hsorted, hmem⟩ := Session.correlated_generated hties.index hd (Controller.cursorLine selection)
    exact hb.selected hregistered hties.live hrole selection rest rfl hsorted hmem

variable {run : Compile.Run} {output : CompileOutput}

/-- When the output of a whole source has come, a session is there that links the source to it. The session
draws with decoration types of its own, and goes on to do so however the cursor and the focus move. -/
theorem compiled_source_is_linked {a : Act} (hb : b.Reachable) (hregistered : b.isRegistered = true)
    (hbrings : a.Brings b run output) (hlive : run.config.liveCorrelation = true)
    (hopen : b.window.openDocument? run.uri = some d)
    (hcalm : ∀ call, b.window.failures.get? call = none) :
    ∃ e ∈ (b.after a).highlights.live, e.Describes run output (b.after a).contents ∧
      (∀ role, b.window.decorationTypes ≤ e.session.decoration role) ∧
      ∀ moves : List Act, (∀ m ∈ moves, m.Moves) →
        (moves.foldl Workbench.after (b.after a)).Correlates run.uri run.uri.generated e.session.decoration
          output.asm d.lineCount := by
  obtain ⟨named, k, language, compiler, arguments, reply, rfl, hrequest, hjob, haccepts, hwhole⟩ := hbrings
  have hvalid := hb.valid
  obtain ⟨w, b₁, jobs, hsame, -, hpublished, hlinked, hafter⟩ := hvalid.publishes hjob hrequest haccepts
  change b.after (.step (.reply named reply)) = _ at hafter
  have hlinks : Links run { b with window := w } :=
    ⟨fun call => hsame.failures ▸ hcalm call, hregistered, hvalid.listeners hregistered, hlive, hwhole⟩
  obtain ⟨⟨old, s, g, hentries, -, hfresh, hlt⟩, ⟨document, hdocument, htext⟩⟩ := hlinked hlinks
  have hties : Ties (b.after (.step (.reply named reply))) (entryFor run output s g) output.asm d := by
    rw [hafter]
    refine ⟨List.mem_filter.2 ⟨?_, rfl⟩, rfl, ?_, document, hdocument, ?_⟩
    · show _ ∈ b₁.highlights.entries
      exact hentries ▸ List.mem_append_cons_self
    -- The output was published under another address than that of the source.
    · refine (hpublished.window.elsewhere run.uri run.uri.text_ne_generated).trans ?_
      show w.openDocument? run.uri = _
      rw [openDocument?_eq, hsame.documents]
      exact hopen
    · have hlength := Text.length_le_lines_joinLines (output.asm.map (·.text))
      rw [List.length_map, ← htext] at hlength
      exact hlength
  have hregistered' : (b.after (.step (.reply named reply))).isRegistered = true := by
    rw [hafter]
    exact hpublished.isRegistered.trans hregistered
  refine ⟨_, hties.live, ?_, fun role => ?_, fun moves hmoves => ?_⟩
  · rw [hafter]
    exact hpublished.describes s g
  · have hfresh' : b.window.decorationTypes ≤ s := hsame.decorationTypes ▸ hfresh
    cases role with
    | source => exact hfresh'
    | generated => exact Nat.le_trans hfresh' (Nat.le_of_lt hlt)
  · obtain ⟨hvalid', hmoved⟩ := (hvalid.after _).moves hregistered' hmoves
    obtain ⟨e', hfollows, hties'⟩ := hties.moved hmoved
    have hcorrelates := hvalid'.correlates (hmoved.isRegistered.trans hregistered') hties'
    have hdecoration : e'.session.decoration = (entryFor run output s g).session.decoration :=
      funext hfollows.session.decoration
    rw [hfollows.source, hfollows.generated, hdecoration] at hcorrelates
    exact hcorrelates

/-- The cursor in the first line of the source points to two lines of the output. -/
example : (Workbench.run sourceWindow (compileActs ++ [.step (.reply none outputReply),
      .step (.select (.file "/main.py") [default])])).window.panes.map (·.decorations) =
    [[], [(1, [.atLine 1, .atLine 2])]] := by decide +kernel

def compiling? : Job → Option (Compile.Run × Nat)
  | .compile run (.compiling k _ _ _) => some (run, k)
  | _ => none

theorem of_compiling? {job : Job} {run : Compile.Run} {k : Nat} (h : compiling? job = some (run, k)) :
    ∃ language compiler arguments, job = .compile run (.compiling k language compiler arguments) := by
  cases job with
  | compile run' stage =>
    cases stage with
    | compiling k' language compiler arguments =>
      cases h
      exact ⟨language, compiler, arguments, rfl⟩
    | _ => nomatch h
  | _ => nomatch h

theorem compileActs_bring : ∃ run output,
    (Act.step (.reply none outputReply)).Brings (Workbench.run sourceWindow compileActs) run output ∧
      run.config.liveCorrelation = true ∧ run.uri = .file "/main.py" := by
  have hjob : ((Workbench.run sourceWindow compileActs).jobs.head?.bind compiling?).map
      (fun r => decide (r.2 = 2 ∧ r.1.source.isWhole = true ∧ r.1.config.liveCorrelation = true ∧
        r.1.uri = .file "/main.py")) = some true := by decide +kernel
  have hrequest : (Workbench.run sourceWindow compileActs).window.requestFor? none = some 2 := by
    decide +kernel
  obtain ⟨⟨run, k⟩, hfound, hdecide⟩ := Option.map_eq_some_iff.1 hjob
  obtain ⟨rfl, hwhole, hlive, huri⟩ := of_decide_eq_true hdecide
  obtain ⟨job, hhead, hcompiling⟩ := Option.bind_eq_some_iff.1 hfound
  obtain ⟨language, compiler, arguments, rfl⟩ := of_compiling? hcompiling
  have hmem := List.mem_of_mem_head? hhead
  exact ⟨run, _, ⟨none, 2, language, compiler, arguments, outputReply, rfl, hrequest, hmem, rfl, hwhole⟩,
    hlive, huri⟩

theorem compiled_sourceWindow_is_linked : ∃ run output,
    (Act.step (.reply none outputReply)).Brings (Workbench.run sourceWindow compileActs) run output ∧
      ∃ e ∈ ((Workbench.run sourceWindow compileActs).after (.step (.reply none outputReply))).highlights.live,
        e.Describes run output
          ((Workbench.run sourceWindow compileActs).after (.step (.reply none outputReply))).contents ∧
        ((Workbench.run sourceWindow compileActs).after (.step (.reply none outputReply))).Correlates
          run.uri run.uri.generated e.session.decoration output.asm 2 := by
  obtain ⟨run, output, hbrings, hlive, huri⟩ := compileActs_bring
  have hdocument : ((Workbench.run sourceWindow compileActs).window.openDocument? (.file "/main.py")).map
      Document.lineCount = some 2 := by decide +kernel
  obtain ⟨d, hopen, hcount⟩ := Option.map_eq_some_iff.1 hdocument
  have hcalm : (Workbench.run sourceWindow compileActs).window.failures = [] := by
    rw [← List.isEmpty_iff]
    decide +kernel
  have hreachable : (Workbench.run sourceWindow compileActs).Reachable :=
    reachable_run (fresh_ofDocument rfl) _
  obtain ⟨e, he, hdescribes, -, hcorrelates⟩ := compiled_source_is_linked hreachable (by decide +kernel)
    hbrings hlive (huri ▸ hopen) fun call => by rw [hcalm]; rfl
  refine ⟨run, output, hbrings, e, he, hdescribes, ?_⟩
  rw [← hcount]
  exact hcorrelates [] (List.forall_mem_nil _)

end Workbench

end AsmLens
