import AsmLens.Proofs.Closing
import AsmLens.Proofs.Framing

/-!
# Generated documents and their contents

The text of an open document is a copy. A generated document takes it from the contents when it is opened and
whenever its contents are replaced, and when it is closed its contents are forgotten. `Window.Mirrors` says of
one address that at most one document is open there, that it has a given text, and how many visible panes show
it at most. Everything that happens keeps this for the text in the contents, as long as nobody else opens or
changes a document under the address: `Workbench.generated_documents_mirror_contents`.
-/

namespace AsmLens

open Window

/-- Whether an event says that a document under an address took another text. -/
def Event.replaces (uri : Uri) : Event → Bool
  | .replaced uri' _ _ true => uri'.text = uri.text
  | _ => false

/-- Whether a document is opened or changed under an address. -/
def Act.writes (uri : Uri) : Act → Bool
  | .step (.openDocument uri' _ _) | .step (.changeText uri' _) => uri'.text = uri.text
  | _ => false

def Act.shows (uri : Uri) : Act → Bool
  | .step (.showDocument uri' _) => uri'.text = uri.text
  | _ => false

def Act.closes (uri : Uri) : Act → Bool
  | .step (.close uri') => uri'.text = uri.text
  | _ => false

/-- How often the user has shown the document under an address since it was last closed. -/
def Act.showings (uri : Uri) (acts : List Act) : Nat :=
  (acts.reverse.takeWhile fun a => !a.closes uri).countP (Act.shows uri)

theorem Act.showings_concat (uri : Uri) (acts : List Act) (a : Act) : showings uri (acts ++ [a]) =
    if a.closes uri then 0 else showings uri acts + if a.shows uri then 1 else 0 := by
  unfold showings
  rw [List.reverse_append, List.reverse_singleton, List.singleton_append, List.takeWhile_cons]
  cases a.closes uri with
  | true => rfl
  | false => exact List.countP_cons ..

/-! ### One address in the window -/

theorem countP_of_forall₂ {α : Type} {p q : α → Bool} {l l' : List α}
    (h : List.Forall₂ (fun a b => q b = p a) l l') : l'.countP q = l.countP p := by
  induction h with
  | nil => rfl
  | cons hab _ ih => rw [List.countP_cons, List.countP_cons, hab, ih]

theorem forall₂_modify {α : Type} {R : α → α → Prop} {f : α → α} (hrefl : ∀ a, R a a) (hf : ∀ a, R a (f a))
    (l : List α) (n : Nat) : List.Forall₂ R l (l.modify n f) := by
  induction l generalizing n with
  | nil =>
    rw [List.modify_nil]
    exact .nil
  | cons a l ih =>
    cases n with
    | zero => exact .cons (hf a) (List.forall₂_same.2 fun a _ => hrefl a)
    | succ n => exact .cons (hrefl a) (ih n)

theorem Document.isAt_congr {uri uri' : Uri} (h : uri'.text = uri.text) (d : Document) :
    d.isAt uri' = d.isAt uri := by
  unfold isAt
  rw [h]

namespace Window

variable {w w' : Window} {uri uri' : Uri} {text content : String} {k k' n : Nat}

theorem not_isAt_of_findDocument? (h : w.findDocument? uri = none) {d : Document} (hd : d ∈ w.documents) :
    d.isAt uri = false := List.findIdx?_eq_none_iff.1 h d hd

theorem shows_of_stays (h : Stays w w') {p : Pane}
    (hp : p.isVisible = true → ∃ d, w.documents[p.document]? = some d ∧ d.isOpen = true) :
    w'.shows uri p = w.shows uri p := by
  cases hvisible : p.isVisible with
  | false => rw [shows, shows, hvisible, Bool.false_and, Bool.false_and]
  | true =>
    obtain ⟨d, hd, -⟩ := hp hvisible
    obtain ⟨text, hd'⟩ := h _ d hd
    rw [shows, shows, paneUri, paneUri, hd, hd']
    rfl

/-- Under an address at most one document is open. It has a given text, and at most `k` visible panes show it. -/
structure Mirrors (uri : Uri) (text : String) (k : Nat) (w : Window) : Prop where
  open_of_visible : ∀ p ∈ w.panes, p.isVisible = true →
    ∃ d, w.documents[p.document]? = some d ∧ d.isOpen = true
  text_of_open : ∀ (i : Nat) (d : Document), w.documents[i]? = some d → d.isAt uri = true → d.text = text
  unique : ∀ (i j : Nat) (d d' : Document), w.documents[i]? = some d → w.documents[j]? = some d' →
    d.isAt uri = true → d'.isAt uri = true → i = j
  shown : w.panes.countP (w.shows uri) ≤ k

theorem mirrors_of_closed
    (hvisible : ∀ p ∈ w.panes, p.isVisible = true → ∃ d, w.documents[p.document]? = some d ∧ d.isOpen = true)
    (hclosed : ∀ d ∈ w.documents, d.isAt uri = false) (text : String) : w.Mirrors uri text 0 := by
  have hnone : ∀ (i : Nat) (d : Document), w.documents[i]? = some d → d.isAt uri ≠ true := fun i d hd => by
    rw [hclosed d (List.mem_of_getElem? hd)]
    exact Bool.false_ne_true
  refine ⟨hvisible, fun i d hd hat => absurd hat (hnone i d hd),
    fun i _ d _ hd _ hat _ => absurd hat (hnone i d hd),
    Nat.le_of_eq (List.countP_eq_zero.2 fun p hp hshows => ?_)⟩
  rw [shows, Bool.and_eq_true, decide_eq_true_iff] at hshows
  obtain ⟨d, hd, hopen⟩ := hvisible p hp hshows.1
  rw [paneUri, hd] at hshows
  exact hnone _ d hd (Document.isAt_iff.2 ⟨hopen, hshows.2⟩)

namespace Mirrors

theorem mono (h : w.Mirrors uri text k) (hk : k ≤ k') : w.Mirrors uri text k' :=
  ⟨h.open_of_visible, h.text_of_open, h.unique, h.shown.trans hk⟩

theorem exact (h : w.Mirrors uri text k) : w.Mirrors uri text (w.panes.countP (w.shows uri)) :=
  ⟨h.open_of_visible, h.text_of_open, h.unique, Nat.le_refl _⟩

theorem found (h : w.Mirrors uri text k) {i : Nat} {d : Document} (hd : w.documents[i]? = some d)
    (hat : d.isAt uri = true) : d.text = text ∧ w.findDocument? uri = some i := by
  refine ⟨h.text_of_open i d hd hat, ?_⟩
  cases hfound : w.findDocument? uri with
  | none =>
    rw [not_isAt_of_findDocument? hfound (List.mem_of_getElem? hd)] at hat
    nomatch hat
  | some n =>
    obtain ⟨d', hd', hopen, htext, -⟩ := of_findDocument? hfound
    rw [h.unique n i d' d hd' hd (Document.isAt_iff.2 ⟨hopen, htext⟩) hat]

theorem of_same (h : w.Mirrors uri text k) (hdocuments : w'.documents = w.documents)
    (hpanes : List.Forall₂ (fun p p' : Pane => p'.document = p.document ∧ p'.isVisible = p.isVisible)
      w.panes w'.panes) : w'.Mirrors uri text k where
  open_of_visible p' hp' hvisible := by
    obtain ⟨p, hp, hdocument, hsame⟩ := forall₂_exists_left hpanes hp'
    rw [hdocuments, hdocument]
    exact h.open_of_visible p hp (hsame ▸ hvisible)
  text_of_open := hdocuments ▸ h.text_of_open
  unique := hdocuments ▸ h.unique
  shown := by
    refine (countP_of_forall₂ (hpanes.imp fun p p' hp => ?_)).trans_le h.shown
    rw [shows, shows, paneUri, paneUri, hdocuments, hp.1, hp.2]

theorem asks (h : w.Mirrors uri text k) (hw : Asks w w') : w'.Mirrors uri text k :=
  h.of_same hw.documents (hw.panes ▸ List.forall₂_same.2 fun _ _ => ⟨rfl, rfl⟩)

theorem redecorates {T : Nat → Prop} (h : w.Mirrors uri text k) (hw : Redecorates T w w') :
    w'.Mirrors uri text k :=
  h.of_same hw.documents (hw.alike.imp fun _ _ hp => ⟨hp.document, hp.isVisible⟩)

theorem remarks (h : w.Mirrors uri text k) (hw : Remarks w w') : w'.Mirrors uri text k := by
  refine h.of_same hw.documents ?_
  rw [hw.same]
  exact List.forall₂_same.2 fun _ _ => ⟨rfl, rfl⟩

theorem rewritten (h : w.Mirrors uri text k) (hstays : Stays w w') (hpanes : w'.panes = w.panes)
    (htexts : ∀ (i : Nat) (d' : Document), w'.documents[i]? = some d' → d'.isAt uri = true →
      d'.text = content ∧ ∃ d, w.documents[i]? = some d ∧ d.isAt uri = true) : w'.Mirrors uri content k where
  open_of_visible p hp hvisible := by
    obtain ⟨d, hd, hopen⟩ := h.open_of_visible p (hpanes ▸ hp) hvisible
    obtain ⟨text', hd'⟩ := hstays _ d hd
    exact ⟨_, hd', hopen⟩
  text_of_open i d' hd' hat := (htexts i d' hd' hat).1
  unique i j d₁ d₂ hd₁ hd₂ hat₁ hat₂ := by
    obtain ⟨-, d, hd, hat⟩ := htexts i d₁ hd₁ hat₁
    obtain ⟨-, d', hd', hat'⟩ := htexts j d₂ hd₂ hat₂
    exact h.unique i j d d' hd hd' hat hat'
  shown := by
    rw [hpanes, List.countP_congr fun p hp => by rw [shows_of_stays hstays (h.open_of_visible p hp)]]
    exact h.shown

theorem edits (h : w.Mirrors uri text k) (hw : Edits w w')
    (hunedited : ∀ e ∈ w'.events, e.replaces uri = false) : w'.Mirrors uri text k := by
  refine h.rewritten hw.documents hw.same_panes fun i d' hd' hat' => ?_
  obtain ⟨d, hd, heq, htext⟩ := hw.texts i d' hd'
  have hat : d.isAt uri = true := by
    rw [heq] at hat'
    exact hat'
  refine ⟨?_, d, hd, hat⟩
  obtain hsame | ⟨range, text', hnoted⟩ := htext
  · exact hsame.trans (h.text_of_open i d hd hat)
  · exact absurd (Document.isAt_iff.1 hat).2 (of_decide_eq_false (hunedited _ hnoted))

theorem setText (h : w.Mirrors uri text k) {text' : String}
    (htext : ∀ (i : Nat) (d : Document), w.documents[i]? = some d → d.isAt uri = true →
      (if n = i then content else text) = text') : (w.setText n content).Mirrors uri text' k := by
  refine h.rewritten (presents_setText w n content).documents rfl fun i d' hd' hat' => ?_
  change (w.documents.modify n fun d => { d with text := content })[i]? = some d' at hd'
  rw [List.getElem?_modify] at hd'
  obtain ⟨d, hd, rfl⟩ := Option.map_eq_some_iff.1 hd'
  by_cases hi : n = i
  · rw [if_pos hi] at hat' ⊢
    have hat : d.isAt uri = true := hat'
    exact ⟨by rw [← htext i d hd hat, if_pos hi], d, hd, hat⟩
  · rw [if_neg hi] at hat' ⊢
    exact ⟨by rw [← htext i d hd hat', if_neg hi]; exact h.text_of_open i d hd hat', d, hd, hat'⟩

theorem addDocument (h : w.Mirrors uri text k) {d : Document}
    (hd : d.isAt uri = true → d.text = text ∧ w.findDocument? uri = none) :
    (w.addDocument d).Mirrors uri text k := by
  have hstays : Stays w (w.addDocument d) := (presents_addDocument w d).documents
  have hcases : ∀ (i : Nat) (d' : Document), (w.addDocument d).documents[i]? = some d' →
      w.documents[i]? = some d' ∨ i = w.documents.length ∧ d' = d := by
    intro i d' hd'
    change (w.documents ++ [d])[i]? = some d' at hd'
    rcases Nat.lt_trichotomy i w.documents.length with hi | hi | hi
    · rw [List.getElem?_append_left hi] at hd'
      exact .inl hd'
    · subst hi
      rw [List.getElem?_concat_length] at hd'
      exact .inr ⟨rfl, (Option.some.inj hd').symm⟩
    · rw [List.getElem?_eq_none (by rw [List.length_append, List.length_singleton]; omega)] at hd'
      nomatch hd'
  have hnew : ∀ (i : Nat) (d' : Document), w.documents[i]? = some d' → d'.isAt uri = true →
      d.isAt uri = true → False := by
    intro i d' hd' hat' hat
    rw [not_isAt_of_findDocument? (hd hat).2 (List.mem_of_getElem? hd')] at hat'
    nomatch hat'
  refine ⟨fun p hp hvisible => ?_, fun i d' hd' hat' => ?_, fun i j d₁ d₂ hd₁ hd₂ hat₁ hat₂ => ?_, ?_⟩
  · obtain ⟨d', hd', hopen⟩ := h.open_of_visible p hp hvisible
    obtain ⟨text', hd''⟩ := hstays _ d' hd'
    exact ⟨_, hd'', hopen⟩
  · obtain hold | ⟨rfl, rfl⟩ := hcases i d' hd'
    · exact h.text_of_open i d' hold hat'
    · exact (hd hat').1
  · obtain hold₁ | ⟨rfl, rfl⟩ := hcases i d₁ hd₁
    · obtain hold₂ | ⟨rfl, rfl⟩ := hcases j d₂ hd₂
      · exact h.unique i j d₁ d₂ hold₁ hold₂ hat₁ hat₂
      · exact (hnew i d₁ hold₁ hat₁ hat₂).elim
    · obtain hold₂ | ⟨rfl, -⟩ := hcases j d₂ hd₂
      · exact (hnew j d₂ hold₂ hat₂ hat₁).elim
      · rfl
  · show w.panes.countP _ ≤ k
    rw [List.countP_congr fun p hp => by rw [shows_of_stays hstays (h.open_of_visible p hp)]]
    exact h.shown

theorem addPane (h : w.Mirrors uri text k) {d : Document} (hd : w.documents[n]? = some d)
    (hopen : d.isOpen = true) (selection : Selection) (hk : k + (if d.uri.text = uri.text then 1 else 0) ≤ k') :
    (w.addPane n selection).Mirrors uri text k' where
  open_of_visible p hp hvisible := by
    rcases List.mem_append.1 hp with hp | hp
    · exact h.open_of_visible p hp hvisible
    · rw [List.mem_singleton.1 hp]
      exact ⟨d, hd, hopen⟩
  text_of_open := h.text_of_open
  unique := h.unique
  shown := by
    have hpane : w.shows uri ⟨n, selection, [], true⟩ = decide (d.uri.text = uri.text) := by
      rw [Window.shows, paneUri, hd]
      rfl
    show (w.panes ++ [(⟨n, selection, [], true⟩ : Pane)]).countP (w.shows uri) ≤ k'
    rw [List.countP_append, List.countP_singleton, hpane]
    simp only [decide_eq_true_eq]
    exact Nat.le_trans (Nat.add_le_add_right h.shown _) hk

theorem closeDocument (h : w.Mirrors uri text k) (n : Nat) : (w.closeDocument n).Mirrors uri text k := by
  have hopen : ∀ (i : Nat) (d : Document), (w.closeDocument n).documents[i]? = some d → d.isAt uri = true →
      w.documents[i]? = some d ∧ i ≠ n := by
    intro i d hd hat
    change (w.documents.modify n fun d => { d with isOpen := false })[i]? = some d at hd
    rw [List.getElem?_modify] at hd
    obtain ⟨d', hd', rfl⟩ := Option.map_eq_some_iff.1 hd
    by_cases hi : n = i
    · rw [if_pos hi] at hat
      nomatch hat
    · rw [if_neg hi]
      exact ⟨hd', Ne.symm hi⟩
  refine ⟨fun p hp hvisible => ?_, fun i d hd hat => ?_, fun i j d d' hd hd' hat hat' => ?_, ?_⟩
  · obtain ⟨hp, hdocument⟩ := Step.of_mem_closeDocument hp hvisible
    rw [hdocument]
    exact h.open_of_visible p hp hvisible
  · exact h.text_of_open i d (hopen i d hd hat).1 hat
  · exact h.unique i j d d' (hopen i d hd hat).1 (hopen j d' hd' hat').1 hat hat'
  · refine Nat.le_trans ?_ h.shown
    show (w.panes.map _).countP _ ≤ _
    rw [List.countP_map]
    refine List.countP_mono_left fun p hp hshows => ?_
    have hmem := List.mem_map_of_mem
      (f := fun p : Pane => if p.document = n then { p with isVisible := false } else p) hp
    rw [Function.comp_apply, Window.shows, Bool.and_eq_true] at hshows
    by_cases hn : p.document = n
    · rw [if_pos hn] at hshows
      cases hshows.1
    · rw [if_neg hn] at hmem hshows
      rw [Window.shows, hshows.1, Bool.true_and, paneUri, ← (Step.of_mem_closeDocument hmem hshows.1).2]
      exact hshows.2

theorem closed (h : w.Mirrors uri text k) (hn : w.findDocument? uri = some n) :
    ∀ d ∈ (w.closeDocument n).documents, d.isAt uri = false := by
  intro d hd
  obtain ⟨i, hd⟩ := List.mem_iff_getElem?.1 hd
  change (w.documents.modify n fun d => { d with isOpen := false })[i]? = some d at hd
  rw [List.getElem?_modify] at hd
  obtain ⟨d₀, hd₀, rfl⟩ := Option.map_eq_some_iff.1 hd
  by_cases hi : n = i
  · rw [if_pos hi]
    rfl
  · rw [if_neg hi]
    obtain ⟨d', hd', hopen, htext, -⟩ := of_findDocument? hn
    have hat' : d'.isAt uri = true := Document.isAt_iff.2 ⟨hopen, htext⟩
    exact Bool.eq_false_iff.2 fun hat => hi (h.unique n i d' d₀ hd' hd₀ hat' hat)

end Mirrors

end Window

/-! ### What is done with documents -/

namespace Document

variable {w : Window} {uri uri' : Uri} {text content : String} {k : Nat}

theorem refresh_mirrors (h : w.Mirrors uri text k) (uri' : Uri) (content : String) :
    Gives (refresh uri' content) w fun _ w' =>
      w'.Mirrors uri (if uri'.text = uri.text then content else text) k := by
  refine (emit_quiet _ rfl rfl w).bind fun _ w₁ h₁ => .look ?_
  have hw₁ := h.asks h₁.toAsks
  cases hn : w₁.findDocument? uri' with
  | none =>
    by_cases hsame : uri'.text = uri.text
    · refine .pure ((mirrors_of_closed hw₁.open_of_visible (fun d hd => ?_) _).mono (Nat.zero_le k))
      rw [← isAt_congr hsame]
      exact not_isAt_of_findDocument? hn hd
    · rw [if_neg hsame]
      exact .pure hw₁
  | some n =>
    obtain ⟨d', hd', hopen, htext', -⟩ := of_findDocument? hn
    have hat' : d'.isAt uri' = true := isAt_iff.2 ⟨hopen, htext'⟩
    refine (Gives.modify _).mono fun _ w' hw' => ?_
    subst hw'
    refine hw₁.setText fun i d hd hat => ?_
    by_cases hsame : uri'.text = uri.text
    · rw [isAt_congr hsame] at hat'
      rw [if_pos hsame, if_pos (hw₁.unique n i d' d hd' hd hat' hat)]
    · rw [if_neg hsame, if_neg]
      rintro rfl
      cases hd'.symm.trans hd
      exact hsame (htext'.symm.trans (isAt_iff.1 hat).2)

theorem openAt_mirrors (h : w.Mirrors uri text k) (hcontent : uri'.text = uri.text → content = text) :
    Ends (openAt uri' content) w
      (fun n w' => w'.Mirrors uri text k ∧ ∃ d, w'.documents[n]? = some d ∧ d.isAt uri' = true)
      fun _ w' => w'.Mirrors uri text k := by
  refine (Ends.lift (emit_quiet _ rfl rfl w)).bind (fun _ w₁ h₁ => ?_) fun _ _ he => he
  refine (attempt_ends .openDocument w₁).bind (fun _ w₂ hw₂ => ?_) fun _ _ he =>
    h.asks (Frame.trans h₁.toAsks he.1.toAsks)
  obtain ⟨rfl, -⟩ := hw₂
  have hw₁ := h.asks h₁.toAsks
  refine .look ?_
  cases hn : w₂.findDocument? uri' with
  | some n =>
    obtain ⟨d, hd, hopen, htext, -⟩ := of_findDocument? hn
    exact .pure ⟨hw₁, d, hd, isAt_iff.2 ⟨hopen, htext⟩⟩
  | none =>
    refine (Ends.set _).bind (fun _ w' hw' => .pure ?_) fun _ _ he => he
    subst hw'
    refine ⟨hw₁.addDocument fun hat => ?_, ofContent uri' content, List.getElem?_concat_length,
      decide_eq_true rfl⟩
    have hsame : uri'.text = uri.text := (isAt_iff.1 hat).2
    exact ⟨hcontent hsame, by rw [← hn, findDocument?_eq, findDocument?_eq, funext (isAt_congr hsame)]⟩

theorem displayGenerated_mirrors (h : w.Mirrors uri text k) (hk : 1 ≤ k)
    (hcontent : uri'.text = uri.text → content = text) :
    Ends (displayGenerated uri' content) w (fun _ w' => w'.Mirrors uri text k)
      fun _ w' => w'.Mirrors uri text k := by
  refine .look ?_
  by_cases hshown : (w.findPane? uri').isSome = true
  · rw [if_pos hshown]
    exact .pure h
  · rw [if_neg hshown]
    -- The bound is the number of panes that show it now, so that one more pane is accounted for.
    refine (openAt_mirrors h.exact hcontent).bind (fun n w₁ h₁ => ?_) fun _ _ he => he.mono h.shown
    obtain ⟨hw₁, d, hd, hat⟩ := h₁
    obtain ⟨hopen, htext⟩ := isAt_iff.1 hat
    refine .look ((Ends.lift (emit_quiet _ rfl rfl w₁)).bind (fun _ w₂ h₂ => ?_) fun _ _ he => he)
    refine (attempt_ends .showDocument w₂).bind (fun _ w₃ hw₃ => ?_) fun _ _ he =>
      (hw₁.asks (Frame.trans h₂.toAsks he.1.toAsks)).mono h.shown
    obtain ⟨rfl, -⟩ := hw₃
    refine (Ends.modify _).mono (fun _ w' hw' => ?_) fun _ _ he => he
    subst hw'
    have hd' : w₃.documents[n]? = some d := by rw [h₂.documents, hd]
    refine (hw₁.asks h₂.toAsks).addPane hd' hopen default ?_
    by_cases hsame : d.uri.text = uri.text
    · have hnone : w.panes.countP (w.shows uri) = 0 := by
        rw [List.countP_eq_zero]
        intro p hp hshows
        refine hshown ?_
        rw [findPane?, List.findIdx?_isSome, List.any_eq_true]
        refine ⟨p, hp, ?_⟩
        rw [Window.shows] at hshows ⊢
        rw [← htext, hsame]
        exact hshows
      rw [hnone, if_pos hsame]
      exact hk
    · rw [if_neg hsame]
      exact h.shown

end Document

namespace Step

variable {w : Window} {uri : Uri} {text : String} {k : Nat}

theorem setSelection_mirrors (h : w.Mirrors uri text k) (uri' : Uri) (selection : Selection) :
    (w.setSelection uri' selection).Mirrors uri text k := by
  unfold setSelection
  split
  · exact h.of_same rfl (forall₂_modify (fun _ => ⟨rfl, rfl⟩) (fun _ => ⟨rfl, rfl⟩) _ _)
  · exact h

theorem closeAt_mirrors (h : w.Mirrors uri text k) (uri' : Uri) :
    Gives (closeAt uri') w fun _ w' => w'.Mirrors uri text (if uri'.text = uri.text then 0 else k) ∧
      (uri'.text = uri.text → ∀ d ∈ w'.documents, d.isAt uri = false) := by
  have hafter : ∀ w' : Window, w'.Mirrors uri text k →
      (uri'.text = uri.text → ∀ d ∈ w'.documents, d.isAt uri = false) →
      w'.Mirrors uri text (if uri'.text = uri.text then 0 else k) ∧
        (uri'.text = uri.text → ∀ d ∈ w'.documents, d.isAt uri = false) := by
    refine fun w' hw' hclosed => ⟨?_, hclosed⟩
    by_cases hsame : uri'.text = uri.text
    · rw [if_pos hsame]
      exact mirrors_of_closed hw'.open_of_visible (hclosed hsame) text
    · rw [if_neg hsame]
      exact hw'
  have hclosed : ∀ n, w.findDocument? uri' = some n → uri'.text = uri.text →
      ∀ d ∈ (w.closeDocument n).documents, d.isAt uri = false := by
    refine fun n hn hsame => h.closed ?_
    rw [← hn, findDocument?_eq, findDocument?_eq, funext (Document.isAt_congr hsame)]
  refine (closeAt_closing uri' w).mono fun l w' hw' => ?_
  cases hw' with
  | missing hn =>
    refine hafter w h fun hsame d hd => ?_
    rw [← Document.isAt_congr hsame]
    exact not_isAt_of_findDocument? hn hd
  | @active n hn hactive =>
    exact hafter _ ((h.closeDocument n).of_same rfl (List.forall₂_same.2 fun _ _ => ⟨rfl, rfl⟩)) (hclosed n hn)
  | @inactive n hn => exact hafter _ (h.closeDocument n) (hclosed n hn)

theorem perform_mirrors (h : w.Mirrors uri text k) (step : Step) (hwrites : (Act.step step).writes uri = false) :
    Gives step.perform w fun _ w' => w'.Mirrors uri text (k + if (Act.step step).shows uri then 1 else 0) := by
  have hsame : ∀ {w' : Window}, w'.documents = w.documents → w'.panes = w.panes → w'.Mirrors uri text k :=
    fun hdocuments hpanes => h.of_same hdocuments (hpanes ▸ List.forall₂_same.2 fun _ _ => ⟨rfl, rfl⟩)
  have hprompt : ∀ named read, Gives (answerPrompt named read) w fun _ w' => w'.Mirrors uri text k :=
    fun named read => (answerPrompt_answered named read w).mono fun _ _ hw => hsame hw.documents hw.panes
  cases step with
  | reply named reply =>
    refine Gives.look ?_
    cases w.requestFor? named <;> exact hsame rfl rfl
  | openDocument uri' content fileName =>
    refine h.addDocument fun hat => absurd (Document.isAt_iff.1 hat).2 ?_
    exact of_decide_eq_false hwrites
  | showDocument uri' selection =>
    refine Gives.look ?_
    cases hn : w.findDocument? uri' with
    | none => exact h.mono (Nat.le_add_right _ _)
    | some n =>
      obtain ⟨d, hd, hopen, htext, -⟩ := of_findDocument? hn
      refine h.addPane hd hopen selection ?_
      rw [htext]
      by_cases huri : uri'.text = uri.text <;> simp [Act.shows, huri]
  | select uri' selections =>
    cases selections with
    | nil => exact h
    | cons selection rest => exact setSelection_mirrors h uri' selection
  | close uri' =>
    refine (closeAt_mirrors h uri').mono fun _ _ hw => hw.1.mono ?_
    show (if uri'.text = uri.text then 0 else k) ≤ k
    split <;> omega
  | changeText uri' content =>
    refine Gives.look ?_
    cases hn : w.findDocument? uri' with
    | none => exact h
    | some n =>
      obtain ⟨d', hd', -, htext', -⟩ := of_findDocument? hn
      refine h.setText fun i d hd hat => if_neg ?_
      rintro rfl
      cases hd'.symm.trans hd
      exact of_decide_eq_false hwrites (htext'.symm.trans (Document.isAt_iff.1 hat).2)
  | pick named positions => exact hprompt named _
  | enter named text => exact hprompt named _
  | hide named => exact hprompt named _
  | _ => exact hsame rfl rfl

end Step

/-! ### What the program does -/

namespace Contents

theorem textOf_replace_of_ne (c : Contents) {uri uri' : Uri} (hne : uri'.text ≠ uri.text) (lines : List String) :
    (c.replace uri' lines).textOf uri = c.textOf uri := by
  show ((c.texts.put uri'.text _).get? uri.text).getD "" = _
  rw [Table.get?_put, if_neg hne]
  rfl

theorem textOf_congr (c : Contents) {uri uri' : Uri} (h : uri'.text = uri.text) :
    c.textOf uri' = c.textOf uri := by
  unfold textOf
  rw [h]

theorem textOf_forget_of_ne (c : Contents) {uri uri' : Uri} (hne : uri'.text ≠ uri.text) :
    (c.forget uri').textOf uri = c.textOf uri := by
  show ((c.texts.remove uri'.text).get? uri.text).getD "" = _
  rw [Table.get?_remove, if_neg hne]
  rfl

end Contents

namespace Workbench

variable {b b' : Workbench} {uri : Uri} {k : Nat}

/-- As long as the program is registered, the document under an address has the text in the contents. -/
def Mirrors (uri : Uri) (k : Nat) (b : Workbench) : Prop :=
  b.isRegistered = true → b.contents.listeners ≠ [] ∧ b.window.Mirrors uri (b.contents.textOf uri) k

theorem Mirrors.mono {k' : Nat} (h : b.Mirrors uri k) (hk : k ≤ k') : b.Mirrors uri k' := fun hregistered =>
  ⟨(h hregistered).1, (h hregistered).2.mono hk⟩

theorem Mirrors.keeps (h : b.Mirrors uri k) (hcontents : b'.contents = b.contents)
    (hregistered : b'.isRegistered = b.isRegistered)
    (hwindow : ∀ text, b.window.Mirrors uri text k → b'.window.Mirrors uri text k) : b'.Mirrors uri k := by
  intro hregistered'
  obtain ⟨hlisteners, hmirrors⟩ := h (hregistered ▸ hregistered')
  rw [hcontents]
  exact ⟨hlisteners, hwindow _ hmirrors⟩

theorem Mirrors.rests (h : b.Mirrors uri k) (hrests : b.Rests b')
    (hwindow : ∀ text, b.window.Mirrors uri text k → b'.window.Mirrors uri text k) : b'.Mirrors uri k :=
  h.keeps (by rw [hrests]) (by rw [hrests]) hwindow

theorem onHost_mirrors {α : Type} {x : Host α} (h : Holds Asks x) :
    Holds (Preserves (Mirrors uri k)) (onHost x) := fun b =>
  (onHost_ends (h b.window)).mono (fun _ _ h hb => hb.rests h.2 fun _ hw => hw.asks h.1) fun _ _ h hb =>
    hb.rests h.2 fun _ hw => hw.asks h.1

theorem onHighlights_mirrors {f : Controller DecorationCanvas → Action (Controller DecorationCanvas)}
    (h : ∀ c w, Gives (f c) w fun _ w' => ∃ T, Redecorates T w w') :
    Within (Preserves (Mirrors uri k)) (onHighlights f) := fun b =>
  (onHighlights_gives (h b.highlights b.window)).mono fun _ b' hb' hb => by
    obtain ⟨⟨T, hdraws⟩, hsame⟩ := hb'
    exact hb.keeps (by rw [hsame]) (by rw [hsame]) fun _ hw => hw.redecorates hdraws

theorem finishWhere_mirrors (p : Entry DecorationCanvas → Bool) :
    Within (Preserves (Mirrors uri k)) (onHighlights (·.finishWhere p)) :=
  onHighlights_mirrors fun c w => (c.finishWhere_gives p w).mono fun _ _ h => ⟨_, h.2.2.2.1⟩

theorem forM_refresh_mirrors {α : Type} (l : List α) (uri' : Uri) {content text : String} (b : Workbench)
    (h : b.window.Mirrors uri text k) :
    Gives (l.forM fun _ => (onWindow (Document.refresh uri' content) : Shell Unit)) b fun _ b' =>
      b.Rests b' ∧ b'.window.Mirrors uri (if uri'.text = uri.text ∧ l ≠ [] then content else text) k := by
  induction l generalizing b text with
  | nil => exact .pure ⟨rfl, by simpa using h⟩
  | cons a l ih =>
    refine (onWindow_gives (Document.refresh_mirrors h uri' content)).bind fun _ b₁ h₁ => ?_
    refine (ih b₁ h₁.1).mono fun _ b' h' => ⟨Frame.trans h₁.2 h'.1, ?_⟩
    have hw := h'.2
    by_cases hsame : uri'.text = uri.text
    · rw [if_pos hsame, ite_self] at hw
      rw [if_pos ⟨hsame, List.cons_ne_nil a l⟩]
      exact hw
    · simp only [hsame, false_and, if_false] at hw ⊢
      exact hw

theorem replaceContents_mirrors (uri' : Uri) (lines : List String) :
    Within (Preserves (Mirrors uri k)) (replaceContents uri' lines) := by
  intro b hb hregistered'
  obtain ⟨hsame, -⟩ := replaceContents_gives uri' lines b
  have hregistered : b.isRegistered = true := by
    rw [hsame] at hregistered'
    exact hregistered'
  obtain ⟨hlisteners, hmirrors⟩ := hb hregistered
  have hwindow : Gives (replaceContents uri' lines) b fun _ b' => b'.window.Mirrors uri
      (if uri'.text = uri.text then Text.joinLines lines else b.contents.textOf uri) k := by
    refine (change_gives _ b).bind fun _ b₁ h₁ => look ?_
    subst h₁
    refine (forM_refresh_mirrors b.contents.listeners uri'
      { b with contents := b.contents.replace uri' lines } hmirrors).mono fun _ b' h' => ?_
    rw [← Contents.textOf_replace b.contents uri' lines]
    simpa only [hlisteners, ne_eq, not_false_eq_true, and_true] using h'.2
  have hcontents : (replaceContents uri' lines b).2.contents = b.contents.replace uri' lines := by rw [hsame]
  rw [hcontents]
  refine ⟨hlisteners, ?_⟩
  have htext : (b.contents.replace uri' lines).textOf uri =
      if uri'.text = uri.text then Text.joinLines lines else b.contents.textOf uri := by
    by_cases huri : uri'.text = uri.text
    · rw [if_pos huri, ← Contents.textOf_congr _ huri, Contents.textOf_replace]
    · rw [if_neg huri, Contents.textOf_replace_of_ne _ huri]
  rw [htext]
  exact hwindow

theorem displayGenerated_mirrors (h : b.Mirrors uri k) (hk : 1 ≤ k) (uri' : Uri) :
    Ends (onHost (Document.displayGenerated uri' (b.provided uri'))) b (fun _ b' => b'.Mirrors uri k)
      fun _ b' => b'.Mirrors uri k := by
  have hwindow : Ends (Document.displayGenerated uri' (b.provided uri')) b.window
      (fun _ w' => b.isRegistered = true → w'.Mirrors uri (b.contents.textOf uri) k)
      fun _ w' => b.isRegistered = true → w'.Mirrors uri (b.contents.textOf uri) k := by
    cases hregistered : b.isRegistered with
    | false => exact Ends.anyhow.mono (fun _ _ _ => nofun) fun _ _ _ => nofun
    | true =>
      have hcontent : uri'.text = uri.text → b.provided uri' = b.contents.textOf uri := fun huri => by
        rw [provided, if_pos hregistered, Contents.textOf_congr _ huri]
      exact (Document.displayGenerated_mirrors (h hregistered).2 hk hcontent).mono (fun _ _ h _ => h)
        fun _ _ h _ => h
  have hafter : ∀ b', (b.isRegistered = true → b'.window.Mirrors uri (b.contents.textOf uri) k) ∧ b.Rests b' →
      b'.Mirrors uri k := by
    rintro b' ⟨hw, hrests⟩ hregistered'
    rw [hrests] at hregistered' ⊢
    exact ⟨(h hregistered').1, hw hregistered'⟩
  exact (onHost_ends hwindow).mono (fun _ b' => hafter b') fun _ b' => hafter b'

theorem startSession_mirrors (source generated : Uri) (index : LineIndex) (color : String) :
    Holds (Preserves (Mirrors uri k)) (startSession source generated index color) := fun b =>
  (startSession_ends source generated index color b).mono
    (fun _ _ h hb => hb.keeps (by rw [h.1]) (by rw [h.1]) fun _ hw => hw.redecorates h.2.1)
    fun _ _ h hb => hb.keeps (by rw [h.1]) (by rw [h.1]) fun _ hw => hw.redecorates h.2.1

theorem report_mirrors (source : Uri) (stderr : List Json) (offset : Number) :
    Holds (Preserves (Mirrors uri k)) (report source stderr offset) := fun b =>
  (report_ends source stderr offset b).mono (fun _ _ h hb => hb.rests h.1 fun _ hw => hw.remarks h.2)
    fun _ _ h hb => hb.rests h.1 fun _ hw => hw.remarks h.2

theorem publish_mirrors (hk : 1 ≤ k) (run : Compile.Run) (compiler : Compiler) (output : CompileOutput) :
    Holds (Preserves (Mirrors uri k)) (publish run compiler output) := by
  have htell : ∀ text, Holds Asks (Message.tellDone text) := fun text w =>
    (Message.tellDone_ends text w).mono (fun _ _ h => h.1) fun _ _ h => h.1.toAsks
  have hlink : Holds (Preserves (Mirrors uri k)) (linkOutput run output) :=
    holds_linkOutput (startSession_mirrors _ _) (report_mirrors _)
  have hrest : Holds (Preserves (Mirrors uri k)) (tellOutput run compiler output) :=
    holds_tellOutput (fun _ => onHost_mirrors (htell _)) (fun _ _ h => h) hlink
  rw [publish_eq]
  refine .bind (.lift (finishWhere_mirrors _)) fun _ => .bind (.lift (replaceContents_mirrors _ _)) fun _ => ?_
  refine Holds.preserves fun b hb => ?_
  refine (Ends.lift (Q := fun a b' => a = b ∧ b' = b) ⟨rfl, rfl⟩).bind (fun _ b₀ h₀ => ?_) fun _ _ he => he
  obtain ⟨rfl, rfl⟩ := h₀
  refine (displayGenerated_mirrors hb hk _).bind (fun _ b₁ h₁ => ?_) fun _ _ he => he
  exact (hrest b₁).mono (fun _ _ h => h h₁) fun _ _ h => h h₁

/-- Unless it was noted that the document under the address was edited. -/
def MirrorsUnedited (uri : Uri) (k : Nat) (b : Workbench) : Prop :=
  (∀ e ∈ b.window.events, e.replaces uri = false) → b.Mirrors uri k

theorem MirrorsUnedited.keeps (h : b.MirrorsUnedited uri k) (hadds : AddsEvents b.window b'.window)
    (hmirrors : Preserves (Mirrors uri k) b b') : b'.MirrorsUnedited uri k := fun hunedited =>
  hmirrors (h fun e he => hunedited e (hadds.mem he))

theorem publish_mirrorsUnedited (hk : 1 ≤ k) (run : Compile.Run) (compiler : Compiler) (output : CompileOutput) :
    Holds (Preserves (MirrorsUnedited uri k)) (publish run compiler output) := fun b =>
  ((publish_framed (R := AddsEvents) run compiler output b).and (publish_mirrors hk run compiler output b)).mono
    (fun _ _ h hb => hb.keeps h.1 h.2) fun _ _ h hb => hb.keeps h.1 h.2

theorem onNotice_mirrors {n : Notice} (hn : n.wakes? = none)
    (hclosed : ∀ uri', n = .closed uri' → uri'.text = uri.text → ∀ d ∈ b.window.documents, d.isAt uri = false)
    (h : b.Mirrors uri k) : Gives (onNotice n) b fun _ b' => b'.Mirrors uri k := by
  have hnotice := onHighlights_gives (f := (·.notice n)) (b.highlights.notice_gives n b.window)
  unfold onNotice
  refine hnotice.bind fun _ b₁ h₁ => ?_
  obtain ⟨⟨-, -, -, hdraws, -⟩, hsame⟩ := h₁
  have hb₁ : b₁.Mirrors uri k := h.keeps (by rw [hsame]) (by rw [hsame]) fun _ hw => hw.redecorates hdraws
  cases n with
  | closed uri' =>
    refine (onClosed_gives uri' b₁).mono fun _ b' h' => ?_
    obtain ⟨-, hregistered, -, hremarks, hcontents⟩ := h'
    obtain hcontents | ⟨-, hcontents⟩ := hcontents
    · exact hb₁.keeps hcontents hregistered fun _ hw => hw.remarks hremarks
    · intro hregistered'
      obtain ⟨hlisteners, hmirrors⟩ := hb₁ (hregistered ▸ hregistered')
      rw [hcontents]
      refine ⟨hlisteners, ?_⟩
      by_cases huri : uri'.text = uri.text
      · have hvisible := (hmirrors.remarks hremarks).open_of_visible
        refine (mirrors_of_closed hvisible (fun d hd => ?_) _).mono (Nat.zero_le k)
        rw [hremarks.documents, hdraws.documents] at hd
        exact hclosed uri' rfl huri d hd
      · rw [Contents.textOf_forget_of_ne _ huri]
        exact hmirrors.remarks hremarks
  | selectionChanged uri selections => exact .pure hb₁
  | activeChanged uri => exact .pure hb₁
  | _ => nomatch hn

/-- The contents are in the window after a document was closed, and if it was under the address then none is open
there. -/
def MirrorsClosed (uri uri' : Uri) (k : Nat) (b : Workbench) : Prop :=
  b.isRegistered = true → b.Mirrors uri (if uri'.text = uri.text then 0 else k) ∧
    (uri'.text = uri.text → ∀ d ∈ b.window.documents, d.isAt uri = false)

theorem onNotice_mirrorsClosed {n : Notice} {uri' : Uri} (hn : n = .activeChanged none ∨ n = .closed uri') :
    Within (Preserves (MirrorsClosed uri uri' k)) (onNotice n) := by
  intro b h hregistered
  have hwakes : n.wakes? = none := by
    obtain rfl | rfl := hn <;> rfl
  have hheard := onNotice_heard hwakes b
  obtain ⟨hmirrors, hclosed⟩ := h (hheard.isRegistered ▸ hregistered)
  refine ⟨onNotice_mirrors hwakes (fun closed hsame htext => ?_) hmirrors, fun htext => ?_⟩
  · obtain rfl | rfl := hn
    · nomatch hsame
    · cases hsame
      exact hclosed htext
  · rw [hheard.documents]
    exact hclosed htext

/-- A document is closed. Its contents are forgotten only when it is under the address itself. -/
theorem close_mirrors (h : b.Mirrors uri k) (uri' : Uri) :
    (perform (.close uri') b).2.Mirrors uri (if uri'.text = uri.text then 0 else k) := by
  have hstart : MirrorsClosed uri uri' k { b with window := (Step.closeAt uri' b.window).2 } := by
    intro hregistered
    obtain ⟨hlisteners, hmirrors⟩ := h hregistered
    obtain ⟨hwindow, hclosed⟩ := Step.closeAt_mirrors hmirrors uri'
    exact ⟨fun _ => ⟨hlisteners, hwindow⟩, hclosed⟩
  have hnotices : Within (Preserves (MirrorsClosed uri uri' k)) ((Step.closeAt uri' b.window).1.forM onNotice) :=
    .forM fun n hn => onNotice_mirrorsClosed (Step.of_mem_closeAt hn)
  exact fun hregistered => (hnotices _ hstart hregistered).1 hregistered

/-- A step in the window leaves the text under the address the one in the contents, unless somebody else opens or
changes a document there. -/
theorem Valid.perform_mirrors (hb : b.Valid) (h : b.MirrorsUnedited uri k) (hk : 1 ≤ k) (step : Step)
    (hwrites : (Act.step step).writes uri = false) : (Workbench.perform step b).2.MirrorsUnedited uri
      (if (Act.step step).closes uri then 1 else k + if (Act.step step).shows uri then 1 else 0) := by
  by_cases hclose : ∃ uri', step = .close uri'
  · obtain ⟨uri', rfl⟩ := hclose
    have hadds : AddsEvents b.window (Workbench.perform (.close uri') b).2.window :=
      perform_framed (Step.perform_adds _) b
    intro hunedited
    have hclosed := close_mirrors (h fun e he => hunedited e (hadds.mem he)) uri'
    refine hclosed.mono ?_
    show (if uri'.text = uri.text then 0 else k) ≤ if decide (uri'.text = uri.text) = true then 1 else k + 0
    by_cases huri : uri'.text = uri.text <;> simp [huri]
  · have hcloses : (Act.step step).closes uri = false := by
      cases step with
      | close uri' => exact absurd ⟨uri', rfl⟩ hclose
      | _ => rfl
    rw [hcloses, if_neg Bool.false_ne_true]
    refine hb.perform_preserves (P := MirrorsUnedited uri _) step (fun n hn b' hwakes hb' => ?_)
      (fun b₁ b₂ jobs hrests hedits hb₁ hunedited => ?_)
      (publish_mirrorsUnedited (Nat.le_add_right_of_le hk)) fun hunedited hregistered => ?_
    · refine hb'.keeps (onNotice_displays (R := AddsEvents) hwakes b') fun hmirrors => ?_
      refine onNotice_mirrors hwakes (fun uri' hsame => absurd ?_ hclose) hmirrors
      exact ⟨uri', Step.eq_close_of_closed (hsame ▸ hn)⟩
    · have hmirrors := hb₁ fun e he => hunedited e (hedits.events.mem he)
      have hafter : b₂.Mirrors uri _ := hmirrors.rests hrests fun _ hw => hw.edits hedits hunedited
      exact hafter
    · have hbefore := fun e he => hunedited e ((step.perform_adds b.window).mem he)
      obtain ⟨hlisteners, hmirrors⟩ := h hbefore hregistered
      exact ⟨hlisteners, Step.perform_mirrors hmirrors step hwrites⟩

theorem Valid.mirrors_after (hb : b.Valid) (h : b.MirrorsUnedited uri k) (hk : 1 ≤ k) {a : Act}
    (hwrites : a.writes uri = false) : (b.after a).MirrorsUnedited uri
      (if a.closes uri then 1 else k + if a.shows uri then 1 else 0) := by
  cases a with
  | step step => exact hb.perform_mirrors h hk step hwrites
  | invoke id arguments =>
    refine invoke_within (R := MirrorsUnedited uri k) id arguments b (fun b' jobs hrests hasks => ?_) ?_
    · have hafter : b'.MirrorsUnedited uri k :=
        h.keeps hasks.events fun hmirrors => hmirrors.rests hrests fun _ hw => hw.asks hasks
      exact hafter
    · refine ((b.highlights.finishWhere_framed (R := AddsEvents) _ b.window).and
        (b.highlights.finishWhere_gives _ b.window)).mono fun _ _ h' => ?_
      exact h.keeps h'.1 fun hmirrors => hmirrors.keeps rfl rfl fun _ hw => hw.redecorates h'.2.2.2.2.1
  | deactivate =>
    have hquiet := log_quiet ["Compiler Explorer Deactivated"] b.window
    exact h.keeps hquiet.events fun hmirrors => hmirrors.keeps rfl rfl fun _ hw => hw.asks hquiet.toAsks
  | dispose =>
    show Gives Workbench.dispose b fun _ b' => b'.MirrorsUnedited uri k
    unfold Workbench.dispose
    refine look ?_
    split
    · exact .pure h
    -- Once all is disposed of, the contents provide nothing any more.
    · exact fun _ hregistered => absurd hregistered Bool.false_ne_true

theorem mirrors_activate {w : Window} (hw : w.Fresh) (hclosed : w.findDocument? uri = none) :
    (activate w).Mirrors uri 1 := by
  have hmirrors : w.Mirrors uri "" 1 := (mirrors_of_closed hw.open_of_visible (fun _ hd =>
    not_isAt_of_findDocument? hclosed hd) "").mono (Nat.zero_le 1)
  exact fun _ => ⟨List.cons_ne_nil _ _, hmirrors.redecorates ((activate_logs w).redecorates (T := fun _ => False))⟩

theorem mirrors_run {w : Window} (hw : w.Fresh) (hclosed : w.findDocument? uri = none) {acts : List Act}
    (hwrites : ∀ a ∈ acts, a.writes uri = false) :
    (run w acts).MirrorsUnedited uri (1 + Act.showings uri acts) := by
  induction acts using List.reverseRecOn with
  | nil => exact fun _ => mirrors_activate hw hclosed
  | append_singleton acts a ih =>
    have hbefore := ih fun a ha => hwrites a (List.mem_append_left _ ha)
    have hafter := (reachable_run hw acts).valid.mirrors_after hbefore (Nat.le_add_right 1 _)
      (hwrites a List.mem_concat_self)
    rw [run_concat, Act.showings_concat]
    cases hcloses : a.closes uri with
    | true =>
      rw [hcloses] at hafter
      exact hafter
    | false =>
      rw [hcloses] at hafter
      rw [if_neg Bool.false_ne_true, ← Nat.add_assoc]
      exact hafter

/-- Under the address of a generated document only the program opens and changes documents, and it formats none
there. Whatever else happens and whichever calls fail, as long as the program is registered a document that is open
there has the text in the contents. It is the only one, and at most one visible pane shows it, besides those in
which the user has shown it since it was last closed. -/
theorem generated_documents_mirror_contents {w : Window} (hw : w.Fresh) {uri : Uri}
    (hclosed : w.findDocument? uri = none) {acts : List Act} (hwrites : ∀ a ∈ acts, a.writes uri = false)
    (hunedited : ∀ e ∈ (run w acts).window.events, e.replaces uri = false)
    (hregistered : (run w acts).isRegistered = true) :
    (∀ (i : Nat) (d : Document), (run w acts).window.documents[i]? = some d → d.isOpen = true →
        d.uri.text = uri.text → d.text = (run w acts).contents.textOf uri ∧
          (run w acts).window.findDocument? uri = some i) ∧
      (run w acts).window.panes.countP ((run w acts).window.shows uri) ≤ 1 + Act.showings uri acts := by
  obtain ⟨-, hmirrors⟩ := mirrors_run hw hclosed hwrites hunedited hregistered
  exact ⟨fun i d hd hopen htext => hmirrors.found hd (Document.isAt_iff.2 ⟨hopen, htext⟩), hmirrors.shown⟩

/-- A source is compiled, but the pane with its output cannot be shown; then it is compiled twice more. -/
def recompiledActs : List Act :=
  .step (.arm .showDocument "The pane is busy") :: publishedActs ++ publishedActs ++ publishedActs

/-- It is in one pane then, with the last output. -/
theorem recompiledActs_mirrored :
    (∃ d, (run sourceWindow recompiledActs).window.documents[1]? = some d ∧ d.isOpen = true ∧
      d.text = (run sourceWindow recompiledActs).contents.textOf (Uri.file "/main.py").generated) ∧
      (run sourceWindow recompiledActs).window.panes.countP
        ((run sourceWindow recompiledActs).window.shows (Uri.file "/main.py").generated) ≤ 1 := by
  have hdocument : ((run sourceWindow recompiledActs).window.documents[1]?.map fun d =>
      decide (d.isOpen = true ∧ d.uri.text = (Uri.file "/main.py").generated.text)) = some true := by
    decide +kernel
  obtain ⟨d, hd, hdecide⟩ := Option.map_eq_some_iff.1 hdocument
  obtain ⟨hopen, htext⟩ := of_decide_eq_true hdecide
  have hmirrors := @generated_documents_mirror_contents sourceWindow (fresh_ofDocument rfl)
    (Uri.file "/main.py").generated (by decide +kernel) recompiledActs (by decide +kernel) (by decide +kernel)
    (by decide +kernel)
  exact ⟨⟨d, hd, hopen, (hmirrors.1 1 d hd hopen htext).1⟩, hmirrors.2⟩

end Workbench

end AsmLens
