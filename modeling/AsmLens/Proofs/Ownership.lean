import AsmLens.Proofs.DecorationTypes
import AsmLens.Proofs.Notable
import AsmLens.Proofs.OpenDocuments

/-!
# Who owns the decoration types

Whatever happens to the program, the decoration types in use are those of the registered sessions, and there is
one session for each key: `Controller.Tends`. The controller knows which document is in the active pane:
`Controller.Tracks`. Both are kept by all that touches neither decorations nor the active pane
(`Window.Spares`), and by what is done to sessions. Hence they hold in every run: `Workbench.tidy_run`.
-/

namespace AsmLens

open Window

/-! ### The document in the active pane -/

namespace Window

variable {w w' : Window}

def HasActive (w : Window) : Prop :=
  ∀ i, w.active = some i → ∃ p d, w.panes[i]? = some p ∧ w.documents[p.document]? = some d

/-- The same document is in the active pane. -/
def KeepsActive (w w' : Window) : Prop := w.HasActive → w'.HasActive ∧ w'.activeUri? = w.activeUri?

instance : Frame KeepsActive where
  refl _ h := ⟨h, rfl⟩
  trans h h' hw := by
    obtain ⟨hw₁, huri₁⟩ := h hw
    obtain ⟨hw', huri⟩ := h' hw₁
    exact ⟨hw', huri.trans huri₁⟩

theorem keepsActive_of_panes (hactive : w'.active = w.active)
    (hpanes : ∀ (i : Nat) (p : Pane), w.panes[i]? = some p →
      ∃ p', w'.panes[i]? = some p' ∧ p'.document = p.document)
    (hdocuments : ∀ (k : Nat) (d : Document), w.documents[k]? = some d →
      ∃ d', w'.documents[k]? = some d' ∧ d'.uri = d.uri) : KeepsActive w w' := by
  intro hw
  refine ⟨fun i hi => ?_, ?_⟩
  · obtain ⟨p, d, hp, hd⟩ := hw i (hactive ▸ hi)
    obtain ⟨p', hp', hdocument⟩ := hpanes i p hp
    obtain ⟨d', hd', -⟩ := hdocuments _ d hd
    exact ⟨p', d', hp', hdocument ▸ hd'⟩
  · unfold activeUri? activePane?
    rw [hactive]
    cases hi : w.active with
    | none => rfl
    | some i =>
      obtain ⟨p, d, hp, hd⟩ := hw i hi
      obtain ⟨p', hp', hdocument⟩ := hpanes i p hp
      obtain ⟨d', hd', huri⟩ := hdocuments _ d hd
      rw [Option.bind_some, Option.bind_some, hp, hp', Option.map_some, Option.map_some, paneUri, paneUri,
        hdocument, hd, hd', Option.map_some, Option.map_some, huri]

theorem keepsActive_of_same (hactive : w'.active = w.active) (hpanes : w'.panes = w.panes)
    (hdocuments : w'.documents = w.documents) : KeepsActive w w' :=
  keepsActive_of_panes hactive (fun _ p hp => ⟨p, hpanes ▸ hp, rfl⟩) fun _ d hd => ⟨d, hdocuments ▸ hd, rfl⟩

theorem Presents.keepsActive (h : Presents w w') : KeepsActive w w' := by
  refine keepsActive_of_panes h.active (fun i p hp => ⟨p, ?_, rfl⟩) fun k d hd => ?_
  · obtain ⟨added, hadded, -⟩ := h.panes
    rw [hadded, List.getElem?_append_left (List.getElem?_eq_some_iff.1 hp).1, hp]
  · obtain ⟨text, hd'⟩ := h.documents k d hd
    exact ⟨_, hd', rfl⟩

theorem Redecorates.keepsActive {T : Nat → Prop} (h : Redecorates T w w') : KeepsActive w w' := by
  obtain ⟨f, hf, hlike⟩ := h.panes
  refine keepsActive_of_panes h.active (fun i p hp => ⟨f p, ?_, (hlike p).document⟩) fun k d hd => ?_
  · rw [hf, List.getElem?_map, hp]
    rfl
  · exact ⟨d, h.documents ▸ hd, rfl⟩

/-- Nothing was done about decorations, and the same document is in the active pane. -/
structure Spares (w w' : Window) : Prop where
  painted : w'.painted = w.painted
  decorationTypes : w'.decorationTypes = w.decorationTypes
  active : KeepsActive w w'

theorem Presents.spares (h : Presents w w') : Spares w w' := ⟨h.painted, h.decorationTypes, h.keepsActive⟩

theorem Remarks.spares (h : Remarks w w') : Spares w w' :=
  ⟨h.painted, by rw [h.same], keepsActive_of_same (by rw [h.same]) (by rw [h.same]) (by rw [h.same])⟩

end Window

namespace Step

/-- What a step does about the active pane: if another one may be active, this is noticed. -/
structure Activates (l : List Notice) (w w' : Window) : Prop where
  active : w.Sound → w.HasActive → w'.HasActive
  notices : ∀ uri, .activeChanged uri ∈ l → uri = w'.activeUri?
  keeps : (∀ uri, .activeChanged uri ∉ l) → KeepsActive w w'

variable {w w' : Window} {l : List Notice}

theorem activates_of_keeps (hnone : ∀ uri, .activeChanged uri ∉ l) (h : KeepsActive w w') : Activates l w w' :=
  ⟨fun _ hw => (h hw).1, fun uri huri => absurd huri (hnone uri), fun _ => h⟩

theorem activates_of_one {n : Notice} (hn : ∀ uri, n ≠ .activeChanged uri) (h : KeepsActive w w') :
    Activates [n] w w' :=
  activates_of_keeps (fun uri huri => hn uri (List.mem_singleton.1 huri).symm) h

theorem closeDocument_keepsActive (w : Window) (n : Nat) : KeepsActive w (w.closeDocument n) := by
  refine keepsActive_of_panes rfl (fun i p hp => ?_) fun k d hd => ?_
  · refine ⟨if p.document = n then { p with isVisible := false } else p, ?_, by split <;> rfl⟩
    show (w.panes.map _)[i]? = _
    rw [List.getElem?_map, hp]
    rfl
  · refine ⟨if n = k then { d with isOpen := false } else d, ?_, by split <;> rfl⟩
    show (w.documents.modify n _)[k]? = _
    rw [List.getElem?_modify, hd]
    split <;> rfl

theorem setSelection_keepsActive (w : Window) (uri : Uri) (selection : Selection) :
    KeepsActive w (w.setSelection uri selection) := by
  unfold setSelection
  split
  · rename_i k _
    refine keepsActive_of_panes rfl (fun i p hp => ?_) fun _ d hd => ⟨d, hd, rfl⟩
    refine ⟨if k = i then { p with selection } else p, ?_, by split <;> rfl⟩
    show (w.panes.modify k _)[i]? = _
    rw [List.getElem?_modify, hp]
    split <;> rfl
  · exact Frame.refl w

theorem closeAt_activates (uri : Uri) (w : Window) : Gives (closeAt uri) w fun l w' => Activates l w w' := by
  have hone : ∀ {w'}, KeepsActive w w' → Activates [.closed uri] w w' := activates_of_one (by simp)
  refine (closeAt_closing uri w).mono fun l w' h => ?_
  cases h with
  | missing hn => exact hone (Frame.refl w)
  | active hn hactive =>
    refine ⟨fun _ _ _ hi => (nomatch hi), fun uri' h => ?_, fun h => absurd List.mem_cons_self (h none)⟩
    simp only [List.mem_cons, Notice.activeChanged.injEq, reduceCtorEq, List.not_mem_nil, or_false] at h
    rw [h]
    rfl
  | @inactive n hn => exact hone (closeDocument_keepsActive w n)

theorem perform_activates (step : Step) (w : Window) :
    Gives step.perform w fun l w' => Activates l w w' := by
  have hsame : ∀ {w' : Window}, w'.active = w.active → w'.panes = w.panes → w'.documents = w.documents →
      Activates [] w w' := fun hactive hpanes hdocuments =>
    activates_of_keeps (fun _ => List.not_mem_nil) (keepsActive_of_same hactive hpanes hdocuments)
  have hpresents : ∀ {w' : Window}, Presents w w' → Activates [] w w' := fun h =>
    activates_of_keeps (fun _ => List.not_mem_nil) h.keepsActive
  have hanswer : ∀ named read, Gives (answerPrompt named read) w fun l w' => Activates l w w' := by
    intro named read
    refine ((answerPrompt_answers named read w).and (answerPrompt_answered named read w)).mono fun l w' h => ?_
    refine activates_of_keeps (fun uri huri => ?_) (keepsActive_of_same h.2.active h.2.panes h.2.documents)
    obtain ⟨k, answer, hn⟩ := h.1 _ huri
    contradiction
  cases step with
  | reply named reply =>
    refine Gives.look ?_
    cases w.requestFor? named with
    | none => exact hsame rfl rfl rfl
    | some n =>
      exact activates_of_one (n := .replied n reply) (by simp) (keepsActive_of_same rfl rfl rfl)
  | changeSettings settings => exact hsame rfl rfl rfl
  | changeEnvironment address => exact hsame rfl rfl rfl
  | openDocument uri text fileName => exact hpresents (presents_addDocument w _)
  | showDocument uri selection =>
    refine Gives.look ?_
    cases hn : w.findDocument? uri with
    | none => exact hsame rfl rfl rfl
    | some n =>
      obtain ⟨d, hd, ho, -⟩ := of_findDocument? hn
      exact hpresents (presents_addPane w n selection ⟨d, hd, ho⟩)
  | focus uri =>
    refine ⟨fun hsound _ i hi => ?_, fun uri' h => ?_, fun h => absurd List.mem_cons_self (h _)⟩
    · obtain ⟨uri', -, hfound⟩ := Option.bind_eq_some_iff.1 hi
      obtain ⟨hlt, hshows, -⟩ := List.findIdx?_eq_some_iff_getElem.1 hfound
      rw [Window.shows, Bool.and_eq_true] at hshows
      obtain ⟨d, hd, -⟩ := hsound.open_of_visible _ (List.getElem_mem hlt) hshows.1
      exact ⟨_, d, List.getElem?_eq_getElem hlt, hd⟩
    · cases List.mem_singleton.1 h
      rfl
  | select uri selections =>
    cases selections with
    | nil => exact activates_of_one (n := .selectionChanged uri []) (by simp) (Frame.refl w)
    | cons selection rest =>
      exact activates_of_one (n := .selectionChanged uri (selection :: rest)) (by simp)
        (setSelection_keepsActive w uri selection)
  | close uri => exact closeAt_activates uri w
  | changeText uri text =>
    refine Gives.look ?_
    cases w.findDocument? uri with
    | none => exact hsame rfl rfl rfl
    | some n => exact hpresents (presents_setText w n text)
  | arm call message => exact hsame rfl rfl rfl
  | chooseAction message chosen =>
    exact activates_of_one (n := .actionChosen message chosen) (by simp) (Frame.refl w)
  | pick named positions => exact hanswer named _
  | enter named text => exact hanswer named _
  | hide named => exact hanswer named _

end Step

/-! ### The controller -/

namespace Controller

variable {c c' : Controller DecorationCanvas} {w w' : Window} {T : Nat → Prop}

/-- The decoration types in use are those of the registered sessions, of which there is one for each key, and
the active pane shows a document. -/
structure Tends (c : Controller DecorationCanvas) (w : Window) : Prop where
  types : w.HasTypes c.owned
  keys : (c.live.map Entry.key).Nodup
  active : w.HasActive

/-- A controller that listens knows which document is in the active pane. -/
def Tracks (c : Controller DecorationCanvas) (w : Window) : Prop :=
  c.isListening = true → c.activeUri = w.activeUri?.map (·.text)

theorem Tends.spares (h : c.Tends w) (hw : Spares w w') : c.Tends w' :=
  ⟨h.types.of_painted hw.painted hw.decorationTypes, h.keys, (hw.active h.active).1⟩

theorem Tracks.keeps (h : c.Tracks w) (hactive : w'.activeUri? = w.activeUri?)
    (huri : c'.activeUri = c.activeUri) (hlistening : c'.isListening = c.isListening) : c'.Tracks w' := by
  intro hl
  rw [huri, hactive]
  exact h (hlistening ▸ hl)

theorem keys_of_follows {l l' : List (Entry DecorationCanvas)} (h : List.Forall₂ Entry.Follows l l') :
    ((l'.filter Entry.isLive).map Entry.key).Sublist ((l.filter Entry.isLive).map Entry.key) := by
  induction h with
  | nil => exact List.Sublist.refl []
  | @cons e e' l l' hfollows _ ih =>
    cases hlive' : e'.isLive with
    | false =>
      rw [List.filter_cons_of_neg (by rw [hlive']; exact Bool.false_ne_true)]
      refine ih.trans (List.Sublist.map _ ?_)
      exact (List.sublist_cons_self e l).filter _
    | true =>
      rw [List.filter_cons_of_pos hlive', List.filter_cons_of_pos (hfollows.isLive hlive'), List.map_cons,
        List.map_cons, Entry.key_eq hfollows.source hfollows.generated]
      exact ih.cons_cons _

theorem Tends.follows (h : c.Tends w) (htypes : w'.HasTypes c'.owned)
    (hentries : List.Forall₂ Entry.Follows c.entries c'.entries) (hdraws : Redecorates T w w') : c'.Tends w' :=
  ⟨htypes, h.keys.sublist (keys_of_follows hentries), (hdraws.keepsActive h.active).1⟩

theorem finishWhere_tends (p : Entry DecorationCanvas → Bool) (h : c.Tends w) :
    Gives (c.finishWhere p) w fun c' w' => c'.Tends w' ∧ (c.Tracks w → c'.Tracks w') := by
  refine ((c.finishWhere_gives p w).and (finishWhere_hasTypes p h.types)).mono fun c' w' h' => ?_
  obtain ⟨⟨hends, huri, hlistening, hdraws, -⟩, htypes⟩ := h'
  exact ⟨h.follows htypes (hends.imp fun _ _ h => h.1) hdraws, fun ht =>
    ht.keeps (hdraws.keepsActive h.active).2 huri hlistening⟩

theorem start_tends (source generated : Uri) (index : LineIndex) (color : String) (h : c.Tends w) :
    Gives (c.start DecorationCanvas.create source generated index color) w fun r w' =>
      r.1.Tends w' ∧ (c.Tracks w → r.1.Tracks w') := by
  refine ((c.start_gives source generated index color w).and
    (start_hasTypes source generated index color h.types)).mono fun r w' h' => ?_
  obtain ⟨⟨hdraws, hlistening, huri, old, hends, -, hnew⟩, htypes⟩ := h'
  have hactive := hdraws.keepsActive h.active
  have hkeys := h.keys.sublist (keys_of_follows (hends.imp fun _ _ h => h.1))
  refine ⟨⟨htypes, ?_, hactive.1⟩, fun ht => ht.keeps hactive.2 huri hlistening⟩
  unfold live
  obtain ⟨hentries, -⟩ | ⟨k, l, hentries, -⟩ := hnew
  · rw [hentries]
    exact hkeys
  · have hlive : [newEntry source generated index k l].filter Entry.isLive =
        [newEntry source generated index k l] := rfl
    rw [hentries, List.filter_append, hlive, List.map_append, List.nodup_append]
    refine ⟨hkeys, List.nodup_singleton _, fun key hkey key' hkey' heq => ?_⟩
    obtain ⟨e', he', rfl⟩ := List.mem_map.1 hkey
    obtain ⟨he', hlive'⟩ := List.mem_filter.1 he'
    obtain ⟨e, -, hfollows, hended, -⟩ := forall₂_exists_left hends he'
    rw [List.map_singleton, List.mem_singleton] at hkey'
    -- A session with this key has ended before the new one starts.
    have hsame : e.key = Uri.sessionKey source generated :=
      (Entry.key_eq hfollows.source hfollows.generated).symm.trans (heq.trans hkey')
    rw [hended (decide_eq_true hsame)] at hlive'
    nomatch hlive'

theorem notice_activeUri (c : Controller DecorationCanvas) (n : Notice) (w : Window) :
    Gives (c.notice n) w fun c' _ => ((∀ uri, n ≠ .activeChanged uri) → c'.activeUri = c.activeUri) ∧
      ∀ uri, n = .activeChanged uri → c.isListening = true → c'.activeUri = uri.map (·.text) := by
  unfold notice
  split
  · rename_i hdeaf
    refine .pure ⟨fun _ => rfl, fun _ _ hlistening => ?_⟩
    rw [hlistening] at hdeaf
    nomatch hdeaf
  · split
    · exact (c.cursorMoved_gives _ _ w).mono fun _ _ h => ⟨fun _ => h.2.1, nofun⟩
    · refine (c.activeChanged_gives _ w).mono fun _ _ h => ⟨fun hn => absurd rfl (hn _), fun uri huri _ => ?_⟩
      cases huri
      exact h.2.1
    · exact (c.finishWhere_gives _ w).mono fun _ _ h => ⟨fun _ => h.2.1, nofun⟩
    · rename_i hother _
      exact .pure ⟨fun _ => rfl, fun uri huri => absurd huri (hother uri)⟩

theorem notice_tends (n : Notice) (h : c.Tends w) :
    Gives (c.notice n) w fun c' w' => c'.Tends w' ∧ w'.activeUri? = w.activeUri? ∧
      ((∀ uri, n ≠ .activeChanged uri) → c.Tracks w → c'.Tracks w') ∧
      (n = .activeChanged w.activeUri? → c'.Tracks w') := by
  refine (((c.notice_gives n w).and (notice_hasTypes n h.types)).and (c.notice_activeUri n w)).mono
    fun c' w' h' => ?_
  obtain ⟨⟨⟨hfollows, -, hlistening, hdraws, -⟩, htypes⟩, hsame, hchanged⟩ := h'
  have hactive := (hdraws.keepsActive h.active).2
  refine ⟨h.follows htypes hfollows hdraws, hactive, fun hn ht => ht.keeps hactive (hsame hn) hlistening,
    fun hn hl => ?_⟩
  rw [hchanged _ hn (hlistening ▸ hl), hactive]

theorem dispose_tends (h : c.Tends w) : Gives c.dispose w fun c' w' => c'.Tends w' ∧ c'.Tracks w' := by
  refine (finishWhere_tends (fun _ => true) h).bind fun c' w' h' => .pure ⟨?_, nofun⟩
  exact ⟨h'.1.types, h'.1.keys, h'.1.active⟩

end Controller

/-! ### The program -/

namespace Workbench

/-- The decoration types in use are those of the registered sessions, and the controller knows which document is
in the active pane. -/
structure Tidy (b : Workbench) : Prop where
  tends : b.highlights.Tends b.window
  tracks : b.highlights.Tracks b.window

variable {α : Type} {b b' : Workbench}

theorem Tidy.spares (h : b.Tidy) (hhighlights : b'.highlights = b.highlights)
    (hw : Spares b.window b'.window) : b'.Tidy := by
  have htracks : b.highlights.Tracks b'.window := h.tracks.keeps (hw.active h.tends.active).2 rfl rfl
  exact ⟨hhighlights ▸ h.tends.spares hw, hhighlights ▸ htracks⟩

theorem Tidy.rests (h : b.Tidy) (hrests : b.Rests b') (hw : Spares b.window b'.window) : b'.Tidy :=
  h.spares (by rw [hrests]) hw

theorem onHost_tidy {x : Host α} (h : Holds Presents x) : Holds (Preserves Tidy) (onHost x) := fun b =>
  (onHost_ends (h b.window)).mono (fun _ _ h ht => ht.rests h.2 h.1.spares) fun _ _ h ht =>
    ht.rests h.2 h.1.spares

theorem finishWhere_tidy (p : Entry DecorationCanvas → Bool) :
    Within (Preserves Tidy) (onHighlights (·.finishWhere p)) := fun _ h =>
  have h' := Controller.finishWhere_tends p h.tends
  ⟨h'.1, h'.2 h.tracks⟩

theorem replaceContents_tidy (uri : Uri) (lines : List String) :
    Within (Preserves Tidy) (replaceContents uri lines) := fun b =>
  (replaceContents_gives uri lines b).mono fun _ _ h ht => ht.spares (by rw [h.1]) h.2.1.spares

theorem startSession_tidy (source generated : Uri) (index : LineIndex) (color : String) :
    Holds (Preserves Tidy) (startSession source generated index color) := by
  refine Holds.preserves fun b h => ?_
  refine (Ends.lift (Q := fun a b' => a = b ∧ b' = b) ⟨rfl, rfl⟩).bind (fun _ b₀ h₀ => ?_) fun _ _ he => he
  obtain ⟨rfl, rfl⟩ := h₀
  have hstart := Controller.start_tends source generated index color h.tends
  refine (Ends.lift (onWindow_gives hstart)).bind (fun r b₁ h₁ => ?_) fun _ _ he => he
  obtain ⟨⟨htends, htracks⟩, -⟩ := h₁
  refine (Ends.lift (change_gives _ b₁)).bind (fun _ b₂ h₂ => ?_) fun _ _ he => he
  have hb₂ : b₂.Tidy := by
    rw [h₂]
    exact ⟨htends, htracks h.tracks⟩
  refine (Ends.ofExcept r.2).mono (fun _ b' h' => ?_) fun _ b' h' => ?_
  · rw [h'.1]
    exact hb₂
  · rw [h'.1]
    exact hb₂

theorem report_tidy (source : Uri) (stderr : List Json) (offset : Number) :
    Holds (Preserves Tidy) (report source stderr offset) := fun b =>
  (report_ends source stderr offset b).mono (fun _ _ h ht => ht.rests h.1 h.2.spares) fun _ _ h ht =>
    ht.rests h.1 h.2.spares

theorem publish_tidy (run : Compile.Run) (compiler : Compiler) (output : CompileOutput) :
    Holds (Preserves Tidy) (publish run compiler output) := by
  have hdisplay : ∀ content, Holds Presents (Document.displayGenerated run.uri.generated content) :=
    fun content w => (Document.displayGenerated_ends _ content w).mono (fun _ _ h => h.1) fun _ _ h => h.1
  have htell : ∀ text, Holds Presents (Message.tellDone text) := fun text w =>
    (Message.tellDone_ends text w).mono (fun _ _ h => h.1.presents) fun _ _ h => h.1.toAsks.presents
  have hremember : ∀ set, Within (Preserves Tidy) (rememberInstructionSet run.uri.generated set) :=
    fun set b h => ⟨h.tends, h.tracks⟩
  have hlink : Holds (Preserves Tidy) (linkOutput run output) :=
    holds_linkOutput (startSession_tidy _ _) (report_tidy _)
  exact holds_publish (fun _ => finishWhere_tidy _) (replaceContents_tidy _) (fun _ => onHost_tidy (hdisplay _))
    (holds_tellOutput (fun _ => onHost_tidy (htell _)) hremember hlink)

theorem onNotice_tends {n : Notice} (hn : n.wakes? = none) (b : Workbench)
    (h : b.highlights.Tends b.window) :
    Gives (onNotice n) b fun _ b' => b'.highlights.Tends b'.window ∧
      ((∀ uri, n ≠ .activeChanged uri) → b.highlights.Tracks b.window → b'.highlights.Tracks b'.window) ∧
      (n = .activeChanged b.window.activeUri? → b'.highlights.Tracks b'.window) := by
  unfold onNotice
  refine (onHighlights_gives (f := (·.notice n)) (Controller.notice_tends n h)).bind fun _ b₁ h₁ => ?_
  obtain ⟨⟨htends, -, hsame, hchanged⟩, -⟩ := h₁
  cases n with
  | closed uri =>
    refine (onClosed_gives uri b₁).mono fun _ b' h' => ?_
    obtain ⟨-, -, hhighlights, hremarks, -⟩ := h'
    have hactive := (hremarks.spares.active htends.active).2
    refine ⟨hhighlights ▸ htends.spares hremarks.spares, fun hn ht => ?_, nofun⟩
    exact (hsame hn ht).keeps hactive (by rw [hhighlights]) (by rw [hhighlights])
  | selectionChanged uri selections => exact .pure ⟨htends, hsame, hchanged⟩
  | activeChanged uri => exact .pure ⟨htends, hsame, hchanged⟩
  | _ => nomatch hn

theorem forM_onNotice_tidy {w : Window} {l : List Notice} {uri : Option Uri} (hl : Notice.AtOnce l)
    (huri : .activeChanged uri ∈ l) (hnow : uri = w.activeUri?) (htends : b.highlights.Tends w) :
    Gives (l.forM onNotice) { b with window := w } fun _ b' => b'.Tidy := by
  have hfirst := onNotice_tends (n := .activeChanged uri) rfl { b with window := w } htends
  cases hl with
  | none => nomatch huri
  | one n =>
    cases List.mem_singleton.1 huri
    exact ⟨hfirst.1, hfirst.2.2 (congrArg _ hnow)⟩
  | closed uri' =>
    obtain rfl : uri = none := by simpa using huri
    have hsecond := onNotice_tends (n := .closed uri') rfl _ hfirst.1
    exact ⟨hsecond.1, hsecond.2.1 nofun (hfirst.2.2 (congrArg _ hnow))⟩

theorem Valid.perform_tidy_of_same (hb : b.Valid) (step : Step)
    (hnone : ∀ uri, .activeChanged uri ∉ (step.perform b.window).1)
    (h : Tidy { b with window := (step.perform b.window).2 }) : (Workbench.perform step b).2.Tidy := by
  refine hb.perform_preserves step (fun n hn b' hwakes h' => ?_) (fun b b' jobs hrests hedits h' => ?_)
    publish_tidy h
  · have hnotice := onNotice_tends hwakes b' h'.tends
    exact ⟨hnotice.1, hnotice.2.1 (fun uri huri => hnone uri (huri ▸ hn)) h'.tracks⟩
  · have htidy := h'.rests hrests hedits.toPresents.spares
    exact ⟨htidy.tends, htidy.tracks⟩

/-- A step leaves the program tidy: the controller hears of it when another pane is active. -/
theorem Valid.perform_tidy (hb : b.Valid) (h : b.Tidy) (step : Step) :
    (Workbench.perform step b).2.Tidy := by
  have hactivates := step.perform_activates b.window
  have hleaves := step.perform_gives b.window
  have hpainted := (step.perform_upholds b.window).painted
  unfold Gives at hactivates hleaves
  have htends : b.highlights.Tends (step.perform b.window).2 :=
    ⟨h.tends.types.of_painted hpainted hleaves.decorationTypes, h.tends.keys,
      hactivates.active hb.sound h.tends.active⟩
  -- With another pane active the program is not tidy before the notice of it was taken.
  by_cases hchanged : ∃ uri, .activeChanged uri ∈ (step.perform b.window).1
  · obtain ⟨uri, huri⟩ := hchanged
    rw [perform_eq]
    exact forM_onNotice_tidy hleaves.notices huri (hactivates.notices uri huri) htends
  · have hnone : ∀ uri, .activeChanged uri ∉ (step.perform b.window).1 := fun uri huri => hchanged ⟨uri, huri⟩
    have hsame := (hactivates.keeps hnone h.tends.active).2
    exact hb.perform_tidy_of_same step hnone ⟨htends, h.tracks.keeps hsame rfl rfl⟩

theorem dispose_tidy (h : b.Tidy) : Gives dispose b fun _ b' => b'.Tidy := by
  refine (dispose_disposes (Controller.dispose_tends h.tends)).mono fun _ b' h' => ?_
  obtain rfl | ⟨c, w, w', ⟨htends, htracks⟩, hremarks, rfl⟩ := h'
  · exact h
  · have htidy : Tidy { b with window := w', highlights := c } :=
      (Tidy.mk (b := { b with window := w, highlights := c }) htends htracks).rests rfl hremarks.spares
    exact ⟨htidy.tends, htidy.tracks⟩

theorem Valid.tidy_after (hb : b.Valid) (h : b.Tidy) (a : Act) : (b.after a).Tidy := by
  cases a with
  | step step => exact hb.perform_tidy h step
  | invoke id arguments =>
    refine invoke_within (R := Tidy) id arguments b (fun b' jobs hrests hasks => ?_) ?_
    · have htidy := h.rests hrests hasks.presents.spares
      exact ⟨htidy.tends, htidy.tracks⟩
    · exact (Controller.finishWhere_tends _ h.tends).mono fun _ _ h' => ⟨h'.1, h'.2 h.tracks⟩
  | deactivate =>
    have htidy : Tidy { b with window := (log ["Compiler Explorer Deactivated"] b.window).2 } :=
      h.rests rfl (log_quiet _ b.window).toAsks.presents.spares
    exact ⟨htidy.tends, htidy.tracks⟩
  | dispose => exact dispose_tidy h

theorem tidy_activate {w : Window} (hw : w.Fresh) (hpainted : w.painted = []) (hactive : w.HasActive) :
    (activate w).Tidy := by
  have hquiet : Quiet w (activate w).window :=
    activate_within log_quiet (fun _ => emit_quiet _ rfl rfl) w
  have hspares := hquiet.toAsks.presents.spares
  have hkeeps := hspares.active hactive
  refine ⟨⟨(hasTypes_zero hpainted hw.decorationTypes).of_painted hspares.painted hspares.decorationTypes,
    List.nodup_nil, hkeeps.1⟩, fun _ => ?_⟩
  rw [hkeeps.2]
  rfl

theorem tidy_run {w : Window} (hw : w.Fresh) (hpainted : w.painted = []) (hactive : w.HasActive)
    (acts : List Act) : (run w acts).Tidy := by
  induction acts using List.reverseRecOn with
  | nil => exact tidy_activate hw hpainted hactive
  | append_singleton acts a ih =>
    rw [run_concat]
    exact (reachable_run hw acts).valid.tidy_after ih a

end Workbench

end AsmLens
