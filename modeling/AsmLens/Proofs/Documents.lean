import AsmLens.Proofs.Asking
import AsmLens.Proofs.Counting
import AsmLens.Proofs.Lines
import AsmLens.Window.Document

/-!
# Documents in the window

What can be found in the window: `findDocument?` and `openDocument?` speak of the same document, and
another text for one document leaves what is found under any other address.

`Window.Presents` is the frame of everything that opens, shows and changes documents: documents and
panes keep their place, a document changes in its text only, and a new pane shows an open document.
`Window.Sound` says that what is visible is open, and that panes are decorated only with decoration
types that were made; the frame keeps it. Decorations stay where they are: `Window.Carries`.
-/

namespace AsmLens

open Window

/-- Replacing the member that was found, by one that would be found as well, changes what is found;
replacing any other member does not. -/
theorem find?_modify {α : Type} {p : α → Bool} {f : α → α} (hp : ∀ a, p (f a) = p a) (l : List α)
    (n : Nat) :
    (l.modify n f).find? p = if l.findIdx? p = some n then (l.find? p).map f else l.find? p := by
  induction l generalizing n with
  | nil => simp
  | cons a l ih =>
    cases n with
    | zero => by_cases ha : p a = true <;> simp [List.findIdx?_cons, hp, ha]
    | succ n =>
      rw [List.modify_succ_cons, List.find?_cons, List.find?_cons, List.findIdx?_cons, ih]
      by_cases ha : p a = true
      · simp [ha]
      · by_cases hn : l.findIdx? p = some n <;> simp [ha, hn]

def Document.isAt (uri : Uri) (d : Document) : Bool := d.isOpen && d.uri.text = uri.text

theorem Document.isAt_iff {uri : Uri} {d : Document} :
    d.isAt uri = true ↔ d.isOpen = true ∧ d.uri.text = uri.text := by
  unfold isAt
  rw [Bool.and_eq_true, decide_eq_true_iff]

theorem Document.isAt_text (uri : Uri) (d : Document) (text : String) :
    { d with text }.isAt uri = d.isAt uri := rfl

namespace Window

variable {w w' : Window} {uri uri' : Uri} {n : Nat}

/-! ### What is found -/

theorem findDocument?_eq (w : Window) (uri : Uri) :
    w.findDocument? uri = w.documents.findIdx? (Document.isAt uri) := rfl

theorem openDocument?_eq (w : Window) (uri : Uri) :
    w.openDocument? uri = w.documents.find? (Document.isAt uri) := rfl

theorem openDocument?_eq_of_documents (h : w'.documents = w.documents) :
    w'.openDocument? uri = w.openDocument? uri := by
  rw [openDocument?_eq, openDocument?_eq, h]

theorem openDocument?_isSome (w : Window) (uri : Uri) :
    (w.openDocument? uri).isSome = (w.findDocument? uri).isSome := by
  rw [openDocument?_eq, findDocument?_eq, List.findIdx?_isSome, Bool.eq_iff_iff, List.find?_isSome,
    List.any_eq_true]

theorem of_findDocument? (h : w.findDocument? uri = some n) :
    ∃ d, w.documents[n]? = some d ∧ d.isOpen = true ∧ d.uri.text = uri.text ∧
      w.openDocument? uri = some d := by
  rw [findDocument?_eq] at h
  obtain ⟨hn, hp, -⟩ := List.findIdx?_eq_some_iff_getElem.1 h
  obtain ⟨hopen, htext⟩ := Document.isAt_iff.1 hp
  refine ⟨w.documents[n], List.getElem?_eq_getElem hn, hopen, htext, ?_⟩
  rw [openDocument?_eq, List.find?_eq_bind_findIdx?_getElem?, h, Option.bind_some,
    List.getElem?_eq_getElem hn]

theorem openDocument?_setText (h : w.findDocument? uri = some n) (text : String) :
    (w.setText n text).openDocument? uri = (w.openDocument? uri).map fun d => { d with text } := by
  rw [findDocument?_eq] at h
  rw [openDocument?_eq, openDocument?_eq]
  show (w.documents.modify n fun d => { d with text }).find? (Document.isAt uri) = _
  rw [find?_modify (fun d => d.isAt_text uri text), if_pos h]

theorem openDocument?_setText_of_ne (h : w.findDocument? uri' = some n) (hne : uri.text ≠ uri'.text)
    (text : String) : (w.setText n text).openDocument? uri = w.openDocument? uri := by
  rw [openDocument?_eq, openDocument?_eq]
  show (w.documents.modify n fun d => { d with text }).find? (Document.isAt uri) = _
  rw [find?_modify (fun d => d.isAt_text uri text), if_neg]
  intro hn
  obtain ⟨d, hd, -, htext, -⟩ := of_findDocument? h
  have hfound : w.findDocument? uri = some n := hn
  obtain ⟨d', hd', -, htext', -⟩ := of_findDocument? hfound
  cases hd.symm.trans hd'
  exact hne (htext'.symm.trans htext)

theorem openDocument?_addDocument (w : Window) (uri : Uri) (d : Document) :
    (w.addDocument d).openDocument? uri =
      (w.openDocument? uri).or (if d.isAt uri then some d else none) := by
  rw [openDocument?_eq, openDocument?_eq]
  show (w.documents ++ [d]).find? _ = _
  rw [List.find?_append, List.find?_singleton]

/-! ### The frame -/

/-- What is visible is open, and decorated with decoration types that were made. -/
structure Sound (w : Window) : Prop where
  open_of_visible : ∀ p ∈ w.panes, p.isVisible = true →
    ∃ d, w.documents[p.document]? = some d ∧ d.isOpen = true
  undecorated : ∀ p ∈ w.panes, ∀ n, w.decorationTypes ≤ n → p.decorations.get? n = none

theorem Sound.openDocument?_isSome (hw : w.Sound) (h : (w.findPane? uri).isSome) :
    (w.openDocument? uri).isSome := by
  rw [findPane?, List.findIdx?_isSome, List.any_eq_true] at h
  obtain ⟨p, hp, hshows⟩ := h
  rw [shows, Bool.and_eq_true, decide_eq_true_iff] at hshows
  obtain ⟨d, hd, ho⟩ := hw.open_of_visible p hp hshows.1
  have huri : d.uri.text = uri.text := by
    rw [← hshows.2, paneUri, hd]
    rfl
  rw [openDocument?_eq, List.find?_isSome]
  exact ⟨d, List.mem_of_getElem? hd, Document.isAt_iff.2 ⟨ho, huri⟩⟩

/-- Documents and panes were only added, and documents were changed only in their texts. -/
structure Presents (w w' : Window) : Prop where
  active : w'.active = w.active
  decorationTypes : w'.decorationTypes = w.decorationTypes
  painted : w'.painted = w.painted
  diagnostics : w'.diagnostics = w.diagnostics
  documents : ∀ (i : Nat) (d : Document), w.documents[i]? = some d →
    ∃ text, w'.documents[i]? = some { d with text }
  panes : ∃ added, w'.panes = w.panes ++ added ∧ ∀ p ∈ added, p.decorations = [] ∧
    ∃ d, w'.documents[p.document]? = some d ∧ d.isOpen = true
  requests : w.requests <+: w'.requests
  prompts : w.prompts <+: w'.prompts
  messages : w.messages ≤ w'.messages
  unarmed : ∀ call, w.failures.get? call = none → w'.failures.get? call = none

instance : Frame Presents where
  refl _ := ⟨rfl, rfl, rfl, rfl, fun _ d hd => ⟨d.text, hd⟩,
    ⟨[], (List.append_nil _).symm, List.forall_mem_nil _⟩, List.prefix_rfl, List.prefix_rfl,
    Nat.le_refl _, fun _ h => h⟩
  trans := by
    intro w w' w'' h h'
    obtain ⟨added, hadded, hopen⟩ := h.panes
    obtain ⟨added', hadded', hopen'⟩ := h'.panes
    refine ⟨h'.active.trans h.active, h'.decorationTypes.trans h.decorationTypes,
      h'.painted.trans h.painted, h'.diagnostics.trans h.diagnostics, ?_, ⟨added ++ added', ?_, ?_⟩,
      h.requests.trans h'.requests, h.prompts.trans h'.prompts, Nat.le_trans h.messages h'.messages,
      fun call hc => h'.unarmed call (h.unarmed call hc)⟩
    · intro i d hd
      obtain ⟨text, hd'⟩ := h.documents i d hd
      obtain ⟨text', hd''⟩ := h'.documents i _ hd'
      exact ⟨text', hd''⟩
    · rw [hadded', hadded, List.append_assoc]
    · intro p hp
      rcases List.mem_append.1 hp with hp | hp
      · obtain ⟨hnone, d, hd, ho⟩ := hopen p hp
        obtain ⟨text, hd'⟩ := h'.documents _ d hd
        exact ⟨hnone, _, hd', ho⟩
      · exact hopen' p hp

theorem Asks.openDocument? (h : Asks w w') (uri : Uri) : w'.openDocument? uri = w.openDocument? uri := by
  rw [openDocument?_eq, openDocument?_eq, h.documents]

theorem Asks.presents (h : Asks w w') : Presents w w' where
  active := h.active
  decorationTypes := h.decorationTypes
  painted := h.painted
  diagnostics := h.diagnostics
  documents i d hd := ⟨d.text, by rw [h.documents, hd]⟩
  panes := ⟨[], by rw [h.panes, List.append_nil], List.forall_mem_nil _⟩
  requests := h.requests
  prompts := h.prompts
  messages := h.messages
  unarmed := h.unarmed

theorem Presents.sound (h : Presents w w') (hw : w.Sound) : w'.Sound := by
  obtain ⟨added, hadded, hopen⟩ := h.panes
  refine ⟨fun p hp hvisible => ?_, fun p hp n hn => ?_⟩ <;> rw [hadded] at hp <;>
    rcases List.mem_append.1 hp with hp | hp
  · obtain ⟨d, hd, ho⟩ := hw.open_of_visible p hp hvisible
    obtain ⟨text, hd'⟩ := h.documents _ d hd
    exact ⟨_, hd', ho⟩
  · exact (hopen p hp).2
  · exact hw.undecorated p hp n (h.decorationTypes ▸ hn)
  · rw [(hopen p hp).1]
    rfl

/-- No document was opened or shown, and where another text took the place of one, this was noted. -/
structure Edits (w w' : Window) : Prop extends Presents w w' where
  events : w.events <+: w'.events
  same_panes : w'.panes = w.panes
  texts : ∀ (i : Nat) (d' : Document), w'.documents[i]? = some d' →
    ∃ d, w.documents[i]? = some d ∧ d' = { d with text := d'.text } ∧
      (d'.text = d.text ∨ ∃ range text, .replaced d.uri range text true ∈ w'.events)

instance : Frame Edits where
  refl w := ⟨Frame.refl w, List.prefix_rfl, rfl, fun _ d hd => ⟨d, hd, rfl, .inl rfl⟩⟩
  trans := by
    intro w w' w'' h h'
    refine ⟨Frame.trans h.toPresents h'.toPresents, h.events.trans h'.events,
      h'.same_panes.trans h.same_panes, fun i d'' hd'' => ?_⟩
    obtain ⟨d', hd', heq', htext'⟩ := h'.texts i d'' hd''
    obtain ⟨d, hd, heq, htext⟩ := h.texts i d' hd'
    have huri : d'.uri = d.uri := by rw [heq]
    refine ⟨d, hd, by rw [heq', heq], ?_⟩
    obtain hsame' | hnoted' := htext'
    · obtain hsame | ⟨range, text, hnoted⟩ := htext
      · exact .inl (hsame'.trans hsame)
      · exact .inr ⟨range, text, h'.events.mem hnoted⟩
    · exact .inr (huri ▸ hnoted')

theorem Asks.edits (h : Asks w w') : Edits w w' where
  toPresents := h.presents
  events := h.events
  same_panes := h.panes
  texts _ d hd := ⟨d, h.documents ▸ hd, rfl, .inl rfl⟩

/-- What decorates the visible panes did so before, and in panes of the same documents. -/
def Carries (w w' : Window) : Prop :=
  ∀ p' ∈ w'.panes, p'.isVisible = true → p'.decorations = [] ∨
    ∃ p ∈ w.panes, p.isVisible = true ∧ p'.decorations = p.decorations ∧ w'.paneUri p' = w.paneUri p

instance : Frame Carries where
  refl _ p hp hvisible := .inr ⟨p, hp, hvisible, rfl, rfl⟩
  trans := by
    intro w w' w'' h h' p'' hp'' hvisible''
    obtain hnone | ⟨p', hp', hvisible', hdecorations', huri'⟩ := h' p'' hp'' hvisible''
    · exact .inl hnone
    · rw [hdecorations', huri']
      exact h p' hp' hvisible'

theorem carries_of_same (hdocuments : w'.documents = w.documents) (hpanes : w'.panes = w.panes) :
    Carries w w' := by
  intro p hp hvisible
  rw [hpanes] at hp
  refine .inr ⟨p, hp, hvisible, rfl, ?_⟩
  rw [paneUri, paneUri, hdocuments]

theorem Asks.carries (h : Asks w w') : Carries w w' := carries_of_same h.documents h.panes

theorem Presents.carries (h : Presents w w') (hw : w.Sound) : Carries w w' := by
  intro p hp hvisible
  obtain ⟨added, hadded, hopen⟩ := h.panes
  rw [hadded] at hp
  rcases List.mem_append.1 hp with hp | hp
  · obtain ⟨d, hd, -⟩ := hw.open_of_visible p hp hvisible
    obtain ⟨text, hd'⟩ := h.documents _ d hd
    refine .inr ⟨p, hp, hvisible, rfl, ?_⟩
    rw [paneUri, paneUri, hd, hd']
    rfl
  · exact .inl (hopen p hp).1

theorem Presents.armed (h : Presents w w') {call : HostCall} (harmed : (w'.failures.get? call).isSome) :
    (w.failures.get? call).isSome := by
  rw [Option.isSome_iff_ne_none] at harmed ⊢
  exact fun hnone => harmed (h.unarmed call hnone)

theorem presents_setText (w : Window) (n : Nat) (text : String) : Presents w (w.setText n text) where
  active := rfl
  decorationTypes := rfl
  painted := rfl
  diagnostics := rfl
  documents i d hd := by
    show ∃ text', (w.documents.modify n fun d => { d with text })[i]? = some { d with text := text' }
    rw [List.getElem?_modify, hd]
    by_cases hi : n = i
    · exact ⟨text, by simp [hi]⟩
    · exact ⟨d.text, by simp [hi]⟩
  panes := ⟨[], (List.append_nil _).symm, List.forall_mem_nil _⟩
  requests := List.prefix_rfl
  prompts := List.prefix_rfl
  messages := Nat.le_refl _
  unarmed _ h := h

theorem edits_setText {w : Window} {n : Nat}
    (hnoted : ∀ d, w.documents[n]? = some d → ∃ range text, .replaced d.uri range text true ∈ w.events)
    (text : String) : Edits w (w.setText n text) where
  toPresents := presents_setText w n text
  events := List.prefix_rfl
  same_panes := rfl
  texts i d' hd' := by
    change (w.documents.modify n fun d => { d with text })[i]? = some d' at hd'
    rw [List.getElem?_modify] at hd'
    obtain ⟨d, hd, rfl⟩ := Option.map_eq_some_iff.1 hd'
    refine ⟨d, hd, ?_⟩
    by_cases hi : n = i
    · rw [if_pos hi]
      exact ⟨rfl, .inr (hnoted d (hi ▸ hd))⟩
    · rw [if_neg hi]
      exact ⟨rfl, .inl rfl⟩

theorem presents_addDocument (w : Window) (d : Document) : Presents w (w.addDocument d) where
  active := rfl
  decorationTypes := rfl
  painted := rfl
  diagnostics := rfl
  documents i d' hd := ⟨d'.text, by
    obtain ⟨hi, -⟩ := List.getElem?_eq_some_iff.1 hd
    show (w.documents ++ [d])[i]? = some d'
    rw [List.getElem?_append_left hi, hd]⟩
  panes := ⟨[], (List.append_nil _).symm, List.forall_mem_nil _⟩
  requests := List.prefix_rfl
  prompts := List.prefix_rfl
  messages := Nat.le_refl _
  unarmed _ h := h

theorem presents_addPane (w : Window) (n : Nat) (selection : Selection)
    (hn : ∃ d, w.documents[n]? = some d ∧ d.isOpen = true) : Presents w (w.addPane n selection) where
  active := rfl
  decorationTypes := rfl
  painted := rfl
  diagnostics := rfl
  documents i d hd := ⟨d.text, hd⟩
  panes := ⟨[⟨n, selection, [], true⟩], rfl, fun p hp => by
    cases List.mem_singleton.1 hp
    exact ⟨rfl, hn⟩⟩
  requests := List.prefix_rfl
  prompts := List.prefix_rfl
  messages := Nat.le_refl _
  unarmed _ h := h

end Window

/-! ### Opening and changing -/

namespace Document

variable {w : Window} {uri : Uri}

def SameElsewhere (uri : Uri) (w w' : Window) : Prop :=
  ∀ uri' : Uri, uri'.text ≠ uri.text → w'.openDocument? uri' = w.openDocument? uri'

def ofContent (uri : Uri) (content : String) : Document := ⟨uri, content, uri.path, false, true⟩

theorem isAt_ofContent (uri uri' : Uri) (content : String) :
    (ofContent uri content).isAt uri' = decide (uri.text = uri'.text) := rfl

theorem openAt_ends (uri : Uri) (content : String) (w : Window) :
    Ends (openAt uri content) w
      (fun n w' => Presents w w' ∧ w'.findDocument? uri = some n ∧
        w'.openDocument? uri = (w.openDocument? uri).or (some (ofContent uri content)) ∧
        SameElsewhere uri w w' ∧ w'.panes = w.panes ∧ w'.shown = w.shown)
      fun _ w' => Quiet w w' ∧ (w.failures.get? .openDocument).isSome := by
  refine (Ends.lift (emit_quiet _ rfl rfl w)).bind (fun _ w₁ h₁ => ?_) fun _ _ he => he
  refine (attempt_ends .openDocument w₁).bind (fun _ w' hw => ?_) fun _ _ he =>
    ⟨Frame.trans h₁ he.1, h₁.armed he.2.2⟩
  obtain ⟨rfl, -⟩ := hw
  have hsame : ∀ uri' : Uri, w'.openDocument? uri' = w.openDocument? uri' := fun uri' => by
    rw [openDocument?_eq, openDocument?_eq, h₁.documents]
  refine .look ?_
  cases hn : w'.findDocument? uri with
  | some n =>
    refine .pure ⟨h₁.toAsks.presents, hn, ?_, fun uri' _ => hsame uri', h₁.panes, h₁.shown⟩
    obtain ⟨d, -, -, -, hd⟩ := of_findDocument? hn
    rw [← hsame, hd, Option.some_or]
  | none =>
    have hnone : w'.openDocument? uri = none := by
      rw [← Option.not_isSome_iff_eq_none, openDocument?_isSome, hn]
      exact Bool.false_ne_true
    refine (Ends.set _).bind (fun _ t ht => .pure ?_) fun _ _ he => he
    subst ht
    have hadd := w'.presents_addDocument (ofContent uri content)
    refine ⟨Frame.trans h₁.toAsks.presents hadd, ?_, ?_, fun uri' hne => ?_, h₁.panes, h₁.shown⟩
    · rw [findDocument?_eq] at hn ⊢
      show (w'.documents ++ [ofContent uri content]).findIdx? _ = _
      rw [List.findIdx?_append, hn, List.findIdx?_singleton, isAt_ofContent, decide_eq_true rfl,
        if_pos rfl, Option.map_some, Nat.zero_add, Option.none_or]
    · have hfind := openDocument?_addDocument w' uri (ofContent uri content)
      rw [isAt_ofContent, decide_eq_true rfl, if_pos rfl, hsame] at hfind
      exact hfind
    · have hfind := openDocument?_addDocument w' uri' (ofContent uri content)
      rw [isAt_ofContent, decide_eq_false hne.symm, if_neg Bool.false_ne_true, hsame,
        Option.or_none] at hfind
      exact hfind

theorem refresh_gives (uri : Uri) (content : String) (w : Window) :
    Gives (refresh uri content) w fun _ w' => Presents w w' ∧
      w'.openDocument? uri = (w.openDocument? uri).map (fun d => { d with text := content }) ∧
      SameElsewhere uri w w' ∧ w'.panes = w.panes := by
  refine (emit_quiet _ rfl rfl w).bind fun _ w₁ h₁ => .look ?_
  have hsame : ∀ uri' : Uri, w₁.openDocument? uri' = w.openDocument? uri' := fun uri' => by
    rw [openDocument?_eq, openDocument?_eq, h₁.documents]
  cases hn : w₁.findDocument? uri with
  | some n =>
    refine (Gives.modify _).mono fun _ w' hw => ?_
    subst hw
    refine ⟨Frame.trans h₁.toAsks.presents (presents_setText w₁ n content), ?_, fun uri' hne => ?_,
      h₁.panes⟩
    · rw [openDocument?_setText hn, hsame]
    · rw [openDocument?_setText_of_ne hn hne, hsame]
  | none =>
    refine .pure ⟨h₁.toAsks.presents, ?_, fun uri' _ => hsame uri', h₁.panes⟩
    have hnone : w₁.openDocument? uri = none := by
      rw [← Option.not_isSome_iff_eq_none, openDocument?_isSome, hn]
      exact Bool.false_ne_true
    rw [← hsame, hnone]
    rfl

theorem displayGenerated_ends (uri : Uri) (content : String) (w : Window) :
    Ends (displayGenerated uri content) w
      (fun _ w' => Presents w w' ∧
        (w.Sound → w'.openDocument? uri = (w.openDocument? uri).or (some (ofContent uri content))) ∧
        SameElsewhere uri w w')
      fun _ w' => Presents w w' ∧ SameElsewhere uri w w' ∧
        ((w.failures.get? .openDocument).isSome ∨ (w.failures.get? .showDocument).isSome) := by
  refine .look ?_
  by_cases hshown : (w.findPane? uri).isSome = true
  · rw [if_pos hshown]
    refine .pure ⟨Frame.refl w, fun hw => ?_, fun _ _ => rfl⟩
    have hopen := hw.openDocument?_isSome hshown
    obtain ⟨d, hd⟩ := Option.isSome_iff_exists.1 hopen
    rw [hd, Option.some_or]
  · rw [if_neg hshown]
    refine (openAt_ends uri content w).bind (fun n w₁ h₁ => ?_) fun _ _ he =>
      ⟨he.1.toAsks.presents, fun uri' _ => he.1.toAsks.openDocument? uri', .inl he.2⟩
    obtain ⟨hpresents, hn, hopen, hsame, -, -⟩ := h₁
    refine .look ((Ends.lift (emit_quiet _ rfl rfl w₁)).bind (fun _ w₂ h₂ => ?_) fun _ _ he => he)
    refine (attempt_ends .showDocument w₂).bind (fun _ w' hw => ?_) fun _ _ he =>
      ⟨Frame.trans hpresents (Frame.trans h₂ he.1).toAsks.presents, fun uri' hne => ?_, .inr ?_⟩
    · obtain ⟨rfl, -⟩ := hw
      refine (Ends.modify _).mono (fun _ t ht => ?_) fun _ _ he => he
      subst ht
      obtain ⟨d, hd, ho, -⟩ := of_findDocument? hn
      have hadd := presents_addPane w' n default ⟨d, by rw [h₂.documents, hd], ho⟩
      have hdocuments : (w'.addPane n default).documents = w₁.documents := h₂.documents
      refine ⟨Frame.trans hpresents (Frame.trans h₂.toAsks.presents hadd), fun _ => ?_, fun uri' hne => ?_⟩
      · rw [openDocument?_eq, hdocuments]
        exact hopen
      · rw [openDocument?_eq, hdocuments]
        exact hsame uri' hne
    · exact ((Frame.trans h₂ he.1).toAsks.openDocument? uri').trans (hsame uri' hne)
    · exact hpresents.armed (h₂.armed he.2.2)

/-- The whole text of a document is all of it, however many lines it has and however long the last one is. -/
theorem textWith_wholeRange (d : Document) (text : String) : d.textWith d.wholeRange text = text := by
  obtain ⟨parts, last, hparts⟩ :=
    (List.eq_nil_or_concat' (Text.splitAt '\n' d.text.toList)).resolve_left (Text.splitAt_ne_nil _ _)
  have hline : d.lineCount - 1 = parts.length := by
    unfold lineCount lines Text.lines
    rw [List.length_map, hparts, List.length_append, List.length_singleton, Nat.add_sub_cancel]
  have hcolumn : Text.length16 (d.lines.getLast?.getD "") =
      last.foldr (fun c n => Text.width c + n) 0 := by
    unfold lines Text.lines Text.length16
    rw [hparts, List.map_append, List.map_singleton, List.getLast?_concat, Option.getD_some,
      String.toList_ofList]
  have hzero : (0 : Number).toNat? = some 0 := Number.toNat?_natCast 0
  have hstop := Text.splitPlace_stop hparts
  unfold textWith wholeRange
  simp only [hline, hcolumn, hzero, Number.toNat?_natCast, Option.getD_some, Text.splitPlace_start, hstop,
    List.nil_append, List.append_nil, String.ofList_toList]

/-- A document is replaced as a whole, unless it refuses to be edited or the edit was made to fail. An edit that is
refused is noted all the same. -/
theorem replaceAll_exactly (n : Nat) (lines : List String) (w : Window) :
    let d := (w.documents[n]?).getD default
    let text := Text.joinLines lines
    let w₁ := { w with events := w.events ++ [.replaced d.uri d.wholeRange text !d.refusesEdits] }
    Ends (replaceAll n lines) w
      (fun applied w' => w.failures.get? .edit = none ∧ applied = !d.refusesEdits ∧
        w' = if applied then w₁.setText n text else w₁)
      fun e w' => w' = { w with failures := w.failures.remove .edit } ∧ e.HasMessage ∧
        (w.failures.get? .edit).isSome := by
  refine .look ((attempt_exactly .edit w).bind (fun _ w' h => ?_) fun _ _ he => he)
  obtain ⟨rfl, hunarmed⟩ := h
  refine (Ends.lift (Gives.modify _)).bind (fun _ w₁ h => ?_) fun _ _ he => he
  subst h
  split
  · rename_i htakes
    refine (Ends.modify _).bind (fun _ w' h => .pure ⟨hunarmed, rfl, ?_⟩) fun _ _ he => he
    rw [if_pos htakes, h, textWith_wholeRange]
  · rename_i hrefuses
    exact .pure ⟨hunarmed, rfl, (if_neg hrefuses).symm⟩

theorem replaceAll_ends (n : Nat) (lines : List String) (w : Window) :
    Ends (replaceAll n lines) w
      (fun applied w' => Edits w w' ∧ w'.shown = w.shown ∧ w'.failures = w.failures ∧
        w.failures.get? .edit = none ∧ applied = !((w.documents[n]?).getD default).refusesEdits ∧
        w'.documents = if applied then (w.setText n (Text.joinLines lines)).documents else w.documents)
      fun e w' => Quiet w w' ∧ e.HasMessage ∧ (w.failures.get? .edit).isSome := by
  refine (replaceAll_exactly n lines w).mono (fun applied w' h => ?_) fun e w' h => ?_
  · obtain ⟨hunarmed, happlied, rfl⟩ := h
    generalize hdoc : (w.documents[n]?).getD default = d at happlied ⊢
    rw [← happlied]
    have hnoted := emit_quiet (.replaced d.uri d.wholeRange (Text.joinLines lines) applied) rfl rfl w
    cases applied with
    | false => exact ⟨hnoted.toAsks.edits, hnoted.shown, rfl, hunarmed, rfl, rfl⟩
    | true =>
      refine ⟨Frame.trans hnoted.toAsks.edits (edits_setText (fun d' hd => ?_) _), hnoted.shown, rfl, hunarmed,
        rfl, rfl⟩
      refine ⟨d.wholeRange, Text.joinLines lines, ?_⟩
      obtain rfl : d' = d := by rwa [show w.documents[n]? = some d' from hd, Option.getD_some] at hdoc
      exact List.mem_append_right _ (List.mem_singleton_self _)
  · obtain ⟨rfl, he⟩ := h
    exact ⟨w.quiet_remove .edit, he⟩

end Document

end AsmLens
