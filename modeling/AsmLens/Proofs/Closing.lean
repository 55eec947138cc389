import AsmLens.Proofs.Ownership
import Mathlib.Data.List.Flatten
import Mathlib.Data.List.Pairwise

/-!
# What closing a document ends

When a document is closed the sessions with it end, and the other ones are left alone: they keep their state,
and what is decorated with their types stays as it is. The controller may hear of it twice, since closing the
document in the active pane leaves no pane active. It knows then that the cursor left that document
(`Controller.Tracks`), so both notices are about the same sessions: `Controller.Touches`.

With the decoration types of `AsmLens.Proofs.Ownership` this is all there is to say about who owns what is
decorated: `decoration_types_belong_to_sessions`.
-/

namespace AsmLens

open Window

/-! ### Sessions with a document -/

namespace Entry

variable {ν : Type} {uri : Uri}

/-- A session links the document with an address to another one. -/
def Involves (e : Entry ν) (uri : Uri) : Prop := e.source.text = uri.text ∨ e.generated.text = uri.text

instance (e : Entry ν) (uri : Uri) : Decidable (e.Involves uri) := inferInstanceAs (Decidable (_ ∨ _))

theorem role?_isSome_iff {e : Entry ν} : (e.role? uri.text).isSome = true ↔ e.Involves uri := by
  unfold role? Involves
  by_cases hsource : e.source.text = uri.text
  · simp [hsource]
  · by_cases hgenerated : e.generated.text = uri.text <;> simp [hsource, hgenerated]

theorem Follows.involves {e e' : Entry DecorationCanvas} (h : e.Follows e') :
    e'.Involves uri ↔ e.Involves uri := by
  unfold Involves
  rw [h.source, h.generated]

end Entry

/-! ### The controller -/

namespace Controller

variable {c c' c'' : Controller DecorationCanvas} {w w' w'' : Window} {uri : Uri}

/-- The decoration types of the sessions with a document. -/
def DrawsFor (c : Controller DecorationCanvas) (uri : Uri) (n : Nat) : Prop :=
  ∃ e ∈ c.entries, e.Involves uri ∧ e.Draws n

/-- Only sessions with a document were touched, and only what they decorate was changed. -/
structure Touches (uri : Uri) (c c' : Controller DecorationCanvas) (w w' : Window) : Prop where
  entries : List.Forall₂ (fun e e' => e.Follows e' ∧ (¬ e.Involves uri → e' = e)) c.entries c'.entries
  panes : List.Forall₂ (Pane.Alike (c.DrawsFor uri)) w.panes w'.panes
  isListening : c'.isListening = c.isListening

theorem Touches.drawsFor (h : c.Touches uri c' w w') {n : Nat} (hn : c'.DrawsFor uri n) : c.DrawsFor uri n := by
  obtain ⟨e', he', hinvolves, hdraws⟩ := hn
  obtain ⟨e, he, hfollows, -⟩ := forall₂_exists_left h.entries he'
  exact ⟨e, he, hfollows.involves.1 hinvolves, hfollows.draws ▸ hdraws⟩

theorem Touches.trans (h : c.Touches uri c' w w') (h' : c'.Touches uri c'' w' w'') :
    c.Touches uri c'' w w'' where
  entries := by
    refine forall₂_trans (fun e e' e'' he he' => ⟨he.1.trans he'.1, fun hnot => ?_⟩) h.entries h'.entries
    have hsame := he.2 hnot
    rw [he'.2 fun hinvolves => hnot (he.1.involves.1 hinvolves), hsame]
  panes := forall₂_trans (fun _ _ _ hp hp' => hp.trans (hp'.mono fun _ => h.drawsFor)) h.panes h'.panes
  isListening := h'.isListening.trans h.isListening

theorem mapEntries_touches {f : Entry DecorationCanvas → Action (Entry DecorationCanvas)}
    (hwith : ∀ e, e.Involves uri → ∀ w, Gives (f e) w fun e' w' => e.Follows e' ∧ Redecorates e.Draws w w')
    (hwithout : ∀ e, ¬ e.Involves uri → f e = pure e) (w : Window) :
    Gives (c.mapEntries f) w fun c' w' => c.Touches uri c' w w' := by
  have hone : ∀ e ∈ c.entries, ∀ w, Gives (f e) w fun e' w' => (e.Follows e' ∧ (¬ e.Involves uri → e' = e)) ∧
      Redecorates e.Draws w w' ∧ Redecorates (c.DrawsFor uri) w w' := by
    intro e he w
    by_cases hinvolves : e.Involves uri
    · refine (hwith e hinvolves w).mono fun _ _ h => ⟨⟨h.1, fun hnot => absurd hinvolves hnot⟩, h.2, ?_⟩
      exact h.2.mono fun n hn => ⟨e, he, hinvolves, hn⟩
    · rw [hwithout e hinvolves]
      exact .pure ⟨⟨.refl e, fun _ => rfl⟩, Frame.refl w, Frame.refl w⟩
  have hdraws : Within (Redecorates (c.DrawsFor uri)) (c.mapEntries f) :=
    .bind (.mapM fun e he w => (hone e he w).mono fun _ _ h => h.2.2) fun _ => .pure _
  have hentries := mapEntries_gives (c := c) (f := f) (Q := fun _ _ _ => True)
    (fun _ _ _ _ _ _ _ _ => trivial)
    (fun e he w => (hone e he w).mono fun _ _ h => ⟨h.1, h.2.1, fun _ => trivial⟩) w
  exact (hentries.and (hdraws w)).mono fun _ _ h => ⟨h.1.1, h.2.alike, h.1.2.2.1⟩

theorem cursorLeft_touches (c : Controller DecorationCanvas) (uri : Uri) (w : Window) :
    Gives (c.cursorLeft uri.text) w fun c' w' => c.Touches uri c' w w' := by
  refine mapEntries_touches (fun e _ w => ?_) (fun e hnot => ?_) w
  · cases e.role? uri.text with
    | none => exact .pure ⟨.refl e, Frame.refl w⟩
    | some role =>
      refine (e.session.cursorLeft_gives role w).bind fun s w' h => .pure ?_
      exact ⟨⟨rfl, rfl, h.1⟩, h.2.1.mono fun n hn => ⟨role.other, hn⟩⟩
  · have hnone : e.role? uri.text = none := by
      rw [← Option.not_isSome_iff_eq_none, Entry.role?_isSome_iff]
      exact hnot
    rw [hnone]

theorem documentClosed_touches (c : Controller DecorationCanvas) (uri : Uri) (w : Window) :
    Gives (c.documentClosed uri.text) w fun c' w' => c.Touches uri c' w w' ∧
      ∀ e' ∈ c'.entries, e'.Involves uri → e'.isLive = false := by
  have htouches : Gives (c.documentClosed uri.text) w fun c' w' => c.Touches uri c' w w' := by
    refine mapEntries_touches (fun e hinvolves w => ?_) (fun e hnot => ?_) w
    · rw [if_pos (Entry.role?_isSome_iff.2 hinvolves)]
      exact (finishEntry_gives e w).mono fun _ _ h => ⟨h.1, h.2.2.1⟩
    · rw [if_neg (mt Entry.role?_isSome_iff.1 hnot)]
  refine (htouches.and (c.finishWhere_gives _ w)).mono fun c' w' h => ⟨h.1, fun e' he' hinvolves => ?_⟩
  obtain ⟨e, -, hfollows, hended, -⟩ := forall₂_exists_left h.2.1 he'
  exact hended (Entry.role?_isSome_iff.2 (hfollows.involves.1 hinvolves))

theorem notice_none_touches (c : Controller DecorationCanvas) (hlistening : c.isListening = true)
    (hactive : c.activeUri = some uri.text) (w : Window) :
    Gives (c.notice (.activeChanged none)) w fun c' w' => c.Touches uri c' w w' := by
  unfold notice
  rw [if_neg (by rw [hlistening]; exact Bool.false_ne_true)]
  show Gives (c.activeChanged none) w _
  unfold activeChanged
  rw [hactive]
  exact (c.cursorLeft_touches uri w).bind fun _ _ h => .pure ⟨h.entries, h.panes, h.isListening⟩

theorem notice_closed_touches (c : Controller DecorationCanvas) (hlistening : c.isListening = true) (uri : Uri)
    (w : Window) :
    Gives (c.notice (.closed uri)) w fun c' w' => c.Touches uri c' w w' ∧
      ∀ e' ∈ c'.entries, e'.Involves uri → e'.isLive = false := by
  unfold notice
  rw [if_neg (by rw [hlistening]; exact Bool.false_ne_true)]
  exact c.documentClosed_touches uri w

theorem Touches.live (h : c.Touches uri c' w w')
    (hended : ∀ e' ∈ c'.entries, e'.Involves uri → e'.isLive = false) :
    c'.live = c.live.filter fun e => ¬ e.Involves uri := by
  have hlists : ∀ {l l' : List (Entry DecorationCanvas)},
      List.Forall₂ (fun e e' => e.Follows e' ∧ (¬ e.Involves uri → e' = e)) l l' →
      (∀ e' ∈ l', e'.Involves uri → e'.isLive = false) →
      l'.filter Entry.isLive = (l.filter Entry.isLive).filter fun e => ¬ e.Involves uri := by
    intro l l' hl
    induction hl with
    | nil => exact fun _ => rfl
    | @cons e e' l l' he _ ih =>
      intro hended
      have hrest := ih fun e he => hended e (List.mem_cons_of_mem _ he)
      by_cases hinvolves : e.Involves uri
      · have hgone := hended e' List.mem_cons_self (he.1.involves.2 hinvolves)
        rw [List.filter_cons_of_neg (by rw [hgone]; exact Bool.false_ne_true), hrest]
        cases hlive : e.isLive <;> simp [hlive, hinvolves]
      · rw [he.2 hinvolves]
        cases hlive : e.isLive <;> simp [hlive, hinvolves, hrest]
  exact hlists h.entries hended

theorem Agrees.not_drawsFor (h : c.Agrees w) {e : Entry DecorationCanvas} (he : e ∈ c.entries)
    (hinvolves : ¬ e.Involves uri) {n : Nat} (hn : n ∈ e.types) : ¬ c.DrawsFor uri n := by
  rintro ⟨e', he', hinvolves', hdraws⟩
  have hne : e ≠ e' := fun heq => hinvolves (heq ▸ hinvolves')
  have hsymm : Std.Symm (Function.onFun List.Disjoint Entry.types) := ⟨fun _ _ =>
    List.disjoint_symm⟩
  have hapart := (List.nodup_flatMap.1 h.nodup).2.forall he he' hne
  exact hapart hn (Entry.mem_types.2 hdraws)

end Controller

/-! ### The window -/

namespace Step

variable {uri : Uri} {w : Window}

theorem closeAt_panes (uri : Uri) (w : Window) : Gives (closeAt uri) w fun _ w' =>
    List.Forall₂ (fun p p' => p'.document = p.document ∧ p'.decorations = p.decorations ∧
      (w.shows uri p = false → p'.isVisible = p.isVisible)) w.panes w'.panes := by
  have hhides : ∀ n, w.findDocument? uri = some n →
      List.Forall₂ (fun p p' : Pane => p'.document = p.document ∧ p'.decorations = p.decorations ∧
        (w.shows uri p = false → p'.isVisible = p.isVisible)) w.panes (w.closeDocument n).panes := by
    intro n hn
    obtain ⟨d, hd, -, htext, -⟩ := of_findDocument? hn
    refine List.forall₂_map_right_iff.2 (List.forall₂_same.2 fun p _ => ?_)
    by_cases hp : p.document = n
    · rw [if_pos hp]
      refine ⟨rfl, rfl, fun hshows => ?_⟩
      have huri : (w.paneUri p).text = uri.text := by
        rw [paneUri, hp, hd]
        exact htext
      rw [shows, huri, decide_eq_true rfl, Bool.and_true] at hshows
      exact hshows.symm
    · rw [if_neg hp]
      exact ⟨rfl, rfl, fun _ => rfl⟩
  refine (closeAt_closing uri w).mono fun l w' h => ?_
  cases h with
  | missing hn => exact List.forall₂_same.2 fun p _ => ⟨rfl, rfl, fun _ => rfl⟩
  | active hn hactive => exact hhides _ hn
  | inactive hn => exact hhides _ hn

theorem closeAt_active (uri : Uri) (w : Window) : Gives (closeAt uri) w fun l _ =>
    l = [.closed uri] ∨ l = [.activeChanged none, .closed uri] ∧ w.activeUri?.map (·.text) = some uri.text := by
  refine (closeAt_closing uri w).mono fun l w' h => ?_
  cases h with
  | active hn hactive =>
    obtain ⟨d, hd, -, htext, -⟩ := of_findDocument? hn
    obtain ⟨p, hp, rfl⟩ := Option.map_eq_some_iff.1 hactive
    refine .inr ⟨rfl, ?_⟩
    rw [activeUri?, hp, Option.map_some, Option.map_some, paneUri, hd]
    exact congrArg some htext
  | missing hn | inactive hn => exact .inl rfl

end Step

/-! ### The program -/

namespace Workbench

variable {b b' : Workbench} {uri : Uri}

/-- A document was closed: the sessions with it have ended, and the other ones are left as they were with what
is decorated for them. -/
structure Closing (uri : Uri) (b b' : Workbench) : Prop where
  /-- The other sessions are the same, with all that they highlight. -/
  live : b'.highlights.live = b.highlights.live.filter fun e => ¬ e.Involves uri
  /-- The panes with other documents stay visible, and in every pane the decorations of these sessions stay. -/
  panes : List.Forall₂ (fun p p' => p'.document = p.document ∧
    (b.window.shows uri p = false → p'.isVisible = p.isVisible) ∧
    ∀ e ∈ b'.highlights.live, ∀ n ∈ e.types, p'.decorations.get? n = p.decorations.get? n)
    b.window.panes b'.window.panes

theorem onNotice_closed_touches (b : Workbench) (hlistening : b.highlights.isListening = true) (uri : Uri) :
    Gives (onNotice (.closed uri)) b fun _ b' =>
      b.highlights.Touches uri b'.highlights b.window b'.window ∧
        ∀ e' ∈ b'.highlights.entries, e'.Involves uri → e'.isLive = false := by
  unfold onNotice
  refine (onHighlights_gives (f := (·.notice _))
    (b.highlights.notice_closed_touches hlistening uri b.window)).bind fun _ b₁ h₁ => ?_
  refine (onClosed_gives uri b₁).mono fun _ b' h' => ?_
  obtain ⟨-, -, hhighlights, hremarks, -⟩ := h'
  have hpanes : b'.window.panes = b₁.window.panes := by rw [hremarks.same]
  rw [hhighlights]
  exact ⟨⟨h₁.1.1.entries, hpanes ▸ h₁.1.1.panes, h₁.1.1.isListening⟩, h₁.1.2⟩

/-- When a document is closed the sessions with it end, and no other ones. -/
theorem Valid.closes (hb : b.Valid) (h : b.Tidy) (hregistered : b.isRegistered = true) (uri : Uri) :
    Closing uri b (b.after (.step (.close uri))) := by
  have hlistening := hb.listening hregistered
  have hpanes := Step.closeAt_panes uri b.window
  have hactive := Step.closeAt_active uri b.window
  have hafter : b.after (.step (.close uri)) = ((Step.closeAt uri b.window).1.forM Workbench.onNotice
      { b with window := (Step.closeAt uri b.window).2 }).2 := rfl
  unfold Gives at hpanes hactive
  rw [hafter]
  generalize (Step.closeAt uri b.window).1 = l at hactive ⊢
  generalize (Step.closeAt uri b.window).2 = w at hpanes ⊢
  have htouches : Gives (l.forM Workbench.onNotice) { b with window := w } fun _ b' =>
      b.highlights.Touches uri b'.highlights w b'.window ∧
        ∀ e' ∈ b'.highlights.entries, e'.Involves uri → e'.isLive = false := by
    obtain rfl | ⟨rfl, huri⟩ := hactive
    · exact onNotice_closed_touches { b with window := w } hlistening uri
    · have hknown : b.highlights.activeUri = some uri.text := (h.tracks hlistening).trans huri
      have hleft := onHighlights_gives (f := (·.notice (.activeChanged none))) (b := { b with window := w })
        (b.highlights.notice_none_touches hlistening hknown w)
      refine Gives.bind hleft fun _ b₁ h₁ => ?_
      refine (onNotice_closed_touches b₁ (h₁.1.isListening.trans hlistening) uri).mono fun _ b' h' => ?_
      exact ⟨h₁.1.trans h'.1, h'.2⟩
  obtain ⟨htouches, hended⟩ := htouches
  have hlive := htouches.live hended
  refine ⟨hlive, forall₂_trans (fun p p₁ p' hp hp' => ?_) hpanes htouches.panes⟩
  refine ⟨hp'.document.trans hp.1, fun hshows => hp'.isVisible.trans (hp.2.2 hshows), fun e he n hn => ?_⟩
  rw [hlive] at he
  obtain ⟨he, hnot⟩ := List.mem_filter.1 he
  have hother := hb.agrees.not_drawsFor (List.mem_filter.1 he).1 (of_decide_eq_true hnot) hn
  rw [hp'.decorations n hother, hp.2.1]

/-- Decoration types belong to the registered sessions. -/
structure Owns (b : Workbench) : Prop where
  /-- The decoration types that were made and not taken away are those of the registered sessions. -/
  inUse : ∀ n, Event.InUse b.window.events n ↔ ∃ e ∈ b.highlights.live, n ∈ e.types
  /-- Each registered session has two of them, which it shares with no other one. -/
  distinct : (b.highlights.live.flatMap Entry.types).Nodup
  /-- None was taken away twice, and what was drawn was drawn with one that was in use. -/
  fits : ∀ before e after, b.window.events = before ++ e :: after → e.Fits before
  /-- No two registered sessions link the same documents. -/
  keys : (b.highlights.live.map Entry.key).Nodup
  /-- Closing a document ends the sessions with it, and nothing else. -/
  closes : b.isRegistered = true → ∀ uri, Closing uri b (b.after (.step (.close uri)))

theorem Valid.owns (hb : b.Valid) (h : b.Tidy) : b.Owns where
  inUse n := by
    rw [← (Palette.tells_of_replay h.tends.types).inUse n, ← List.mem_flatMap]
    exact Multiset.mem_coe
  distinct := hb.agrees.nodup.sublist (List.Sublist.flatMap List.filter_sublist Entry.types)
  fits before e after hevents := by
    have htypes := h.tends.types
    rw [HasTypes, hevents] at htypes
    exact Palette.fits htypes
  keys := h.tends.keys
  closes hregistered := hb.closes h hregistered

/-- In a window in which nothing was decorated before, whatever happens and whichever calls fail, the decoration
types in use are those of the registered sessions, two for each of them; none is taken away twice or drawn with
later; no two sessions link the same documents; and closing a document ends the sessions with it and leaves the
other ones as they are. -/
theorem decoration_types_belong_to_sessions {w : Window} (hw : w.Fresh) (hpainted : w.painted = [])
    (hactive : w.HasActive) (acts : List Act) : (run w acts).Owns :=
  (reachable_run hw acts).valid.owns (tidy_run hw hpainted hactive acts)

/-- A source is compiled, and its output comes. -/
def publishedActs : List Act := compileActs ++ [.step (.reply none outputReply)]

/-- The session for the output owns the two decoration types in use, and ends when its source is closed. -/
theorem publishedActs_types :
    (∀ n, Event.InUse (run sourceWindow publishedActs).window.events n ↔ n ∈ [0, 1]) ∧
      ((run sourceWindow publishedActs).after (.step (.close (.file "/main.py")))).highlights.live = [] := by
  have hactive : sourceWindow.HasActive := fun i hi => by
    cases hi
    exact ⟨_, _, rfl, rfl⟩
  have howns : (run sourceWindow publishedActs).Owns :=
    decoration_types_belong_to_sessions (fresh_ofDocument rfl) rfl hactive publishedActs
  have htypes : (run sourceWindow publishedActs).highlights.live.flatMap Entry.types = [0, 1] := by
    decide +kernel
  have hall : ∀ e ∈ (run sourceWindow publishedActs).highlights.live, e.Involves (.file "/main.py") := by
    decide +kernel
  refine ⟨fun n => ?_, ?_⟩
  · rw [howns.inUse, ← List.mem_flatMap, htypes]
  · rw [(howns.closes (by decide +kernel) (.file "/main.py")).live, List.filter_eq_nil_iff]
    exact fun e he hnot => of_decide_eq_true hnot (hall e he)

end Workbench

end AsmLens
