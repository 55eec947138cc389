import AsmLens.Highlight.Session
import AsmLens.Proofs.Documents
import Mathlib.Data.List.Forall2

/-!
# Decorating the window

Highlighting changes the decorations of panes and nothing else. The frame `Window.Redecorates T` says
so, and that only decorations of the types in `T` were changed. A canvas draws with a type of its own,
so what other canvases show stays.

`DecorationCanvas.IsShown c w` says that the visible panes with the document of the canvas `c` show the
lines of `c`, and no other visible pane shows any. A pane that was opened later may show none of them, so
what holds at every time is `DecorationCanvas.Agrees c w`; the next change of the lines shows them again.
-/

namespace AsmLens

open Window

/-- Two states of a pane that differ at most in what is decorated with the types in `T`. -/
structure Pane.Alike (T : Nat → Prop) (p p' : Pane) : Prop where
  document : p'.document = p.document
  selection : p'.selection = p.selection
  isVisible : p'.isVisible = p.isVisible
  decorations : ∀ n, ¬ T n → p'.decorations.get? n = p.decorations.get? n

theorem Pane.Alike.trans {T : Nat → Prop} {p p' p'' : Pane} (h : p.Alike T p') (h' : p'.Alike T p'') :
    p.Alike T p'' where
  document := h'.document.trans h.document
  selection := h'.selection.trans h.selection
  isVisible := h'.isVisible.trans h.isVisible
  decorations n hn := (h'.decorations n hn).trans (h.decorations n hn)

theorem Pane.Alike.mono {T T' : Nat → Prop} {p p' : Pane} (h : p.Alike T p') (hT : ∀ n, T n → T' n) :
    p.Alike T' p' :=
  ⟨h.document, h.selection, h.isVisible, fun n hn => h.decorations n fun hn' => hn (hT n hn')⟩

namespace Window

/-- Decorations of the types in `T` were changed, and decoration types were made. -/
structure Redecorates (T : Nat → Prop) (w w' : Window) : Prop where
  settings : w'.settings = w.settings
  environment : w'.environment = w.environment
  documents : w'.documents = w.documents
  panes : ∃ f : Pane → Pane, w'.panes = w.panes.map f ∧ ∀ p : Pane, p.Alike T (f p)
  active : w'.active = w.active
  requests : w'.requests = w.requests
  prompts : w'.prompts = w.prompts
  messages : w'.messages = w.messages
  decorationTypes : w.decorationTypes ≤ w'.decorationTypes
  diagnostics : w'.diagnostics = w.diagnostics
  shown : w'.shown = w.shown
  unarmed : ∀ call, w.failures.get? call = none → w'.failures.get? call = none

namespace Redecorates

variable {T T' : Nat → Prop} {w w' : Window} {uri : Uri}

instance : Frame (Redecorates T) where
  refl w := ⟨rfl, rfl, rfl, ⟨id, (List.map_id _).symm, fun _ => ⟨rfl, rfl, rfl, fun _ _ => rfl⟩⟩, rfl, rfl,
    rfl, rfl, Nat.le_refl _, rfl, rfl, fun _ hc => hc⟩
  trans := by
    intro w w' w'' h h'
    obtain ⟨f, hf, hlike⟩ := h.panes
    obtain ⟨f', hf', hlike'⟩ := h'.panes
    exact ⟨h'.settings.trans h.settings, h'.environment.trans h.environment,
      h'.documents.trans h.documents,
      ⟨f' ∘ f, by rw [hf', hf, List.map_map], fun p => (hlike p).trans (hlike' (f p))⟩,
      h'.active.trans h.active, h'.requests.trans h.requests, h'.prompts.trans h.prompts,
      h'.messages.trans h.messages, Nat.le_trans h.decorationTypes h'.decorationTypes,
      h'.diagnostics.trans h.diagnostics, h'.shown.trans h.shown,
      fun call hc => h'.unarmed call (h.unarmed call hc)⟩

theorem mono (h : Redecorates T w w') (ht : ∀ n, T n → T' n) : Redecorates T' w w' := by
  obtain ⟨f, hf, hlike⟩ := h.panes
  exact { h with panes := ⟨f, hf, fun p => (hlike p).mono ht⟩ }

theorem alike (h : Redecorates T w w') : List.Forall₂ (Pane.Alike T) w.panes w'.panes := by
  obtain ⟨f, hf, hlike⟩ := h.panes
  rw [hf, List.forall₂_map_right_iff]
  exact List.forall₂_same.2 fun p _ => hlike p

theorem of_mem (h : Redecorates T w w') {p' : Pane} (hp : p' ∈ w'.panes) :
    ∃ p ∈ w.panes, p.Alike T p' := by
  obtain ⟨f, hf, hlike⟩ := h.panes
  rw [hf] at hp
  obtain ⟨p, hmem, rfl⟩ := List.mem_map.1 hp
  exact ⟨p, hmem, hlike p⟩

theorem openDocument? (h : Redecorates T w w') : w'.openDocument? uri = w.openDocument? uri := by
  rw [openDocument?_eq, openDocument?_eq, h.documents]

theorem shows (h : Redecorates T w w') {p p' : Pane} (hlike : p.Alike T p') :
    w'.shows uri p' = w.shows uri p := by
  rw [Window.shows, Window.shows, paneUri, paneUri, hlike.isVisible, hlike.document, h.documents]

theorem sound (h : Redecorates T w w') (ht : ∀ n, T n → n < w.decorationTypes) (hw : w.Sound) :
    w'.Sound where
  open_of_visible p' hp' hvisible := by
    obtain ⟨p, hp, hlike⟩ := h.of_mem hp'
    rw [hlike.document, h.documents]
    exact hw.open_of_visible p hp (hlike.isVisible.symm.trans hvisible)
  undecorated p' hp' n hn := by
    obtain ⟨p, hp, hlike⟩ := h.of_mem hp'
    have hle := Nat.le_trans h.decorationTypes hn
    rw [hlike.decorations n fun hT => absurd (ht n hT) (Nat.not_lt.2 hle)]
    exact hw.undecorated p hp n hle

end Redecorates

end Window

/-! ### Decorations -/

namespace Window

def Logs (w w' : Window) : Prop :=
  ∃ added : List Event, added.filter Event.isMessage = [] ∧ w' = { w with events := w.events ++ added }

instance : Frame Logs where
  refl w := ⟨[], rfl, by rw [List.append_nil]⟩
  trans := by
    rintro w _ _ ⟨added, hadded, rfl⟩ ⟨added', hadded', rfl⟩
    refine ⟨added ++ added', ?_, ?_⟩
    · rw [List.filter_append, hadded, hadded', List.append_nil]
    · rw [List.append_assoc]

theorem Logs.redecorates {T : Nat → Prop} {w w' : Window} (h : Logs w w') : Redecorates T w w' := by
  obtain ⟨added, hadded, rfl⟩ := h
  refine ⟨rfl, rfl, rfl, ⟨id, (List.map_id _).symm, fun _ => ⟨rfl, rfl, rfl, fun _ _ => rfl⟩⟩, rfl, rfl,
    rfl, rfl, Nat.le_refl _, rfl, ?_, fun _ hc => hc⟩
  show (w.events ++ added).filter Event.isMessage = _
  rw [List.filter_append, hadded, List.append_nil]
  rfl

theorem Redecorates.armed {T : Nat → Prop} {w w' : Window} (h : Redecorates T w w') {call : HostCall}
    (harmed : (w'.failures.get? call).isSome) : (w.failures.get? call).isSome := by
  rw [Option.isSome_iff_ne_none] at harmed ⊢
  exact fun hnone => harmed (h.unarmed call hnone)

theorem Logs.panes {w w' : Window} (h : Logs w w') : w'.panes = w.panes := by
  obtain ⟨added, -, rfl⟩ := h
  rfl

end Window

theorem emit_logs (e : Event) (h : e.isMessage = false) : Within Logs (emit e) := fun _ =>
  ⟨[e], List.filter_cons_of_neg (by rw [h]; exact Bool.false_ne_true), rfl⟩

theorem redecorates_map {T : Nat → Prop} (w : Window) {f : Pane → Pane} (h : ∀ p : Pane, p.Alike T (f p)) :
    Redecorates T w { w with panes := w.panes.map f } :=
  ⟨rfl, rfl, rfl, ⟨f, rfl, h⟩, rfl, rfl, rfl, rfl, Nat.le_refl _, rfl, rfl, fun _ hc => hc⟩

namespace Decoration

theorem create_ends {T : Nat → Prop} (color : String) (w : Window) :
    Ends (create color) w
      (fun n w' => Redecorates T w w' ∧ w'.panes = w.panes ∧ n = w.decorationTypes ∧
        w'.decorationTypes = n + 1)
      fun _ w' => Redecorates T w w' ∧ (w.failures.get? .createDecorationType).isSome := by
  refine (attempt_exactly .createDecorationType w).bind (fun _ w' hw => ?_) ?_
  · obtain ⟨rfl, -⟩ := hw
    show Redecorates T w' _ ∧ _ = _ ∧ _ = _ ∧ _ = _
    refine ⟨⟨rfl, rfl, rfl, ⟨id, (List.map_id _).symm, fun _ => ⟨rfl, rfl, rfl, fun _ _ => rfl⟩⟩, rfl, rfl,
      rfl, rfl, Nat.le_succ _, rfl, ?_, fun _ hc => hc⟩, rfl, rfl, rfl⟩
    exact filter_concat_of_false rfl w'.events
  · rintro e w' ⟨rfl, -, harmed⟩
    refine ⟨⟨rfl, rfl, rfl, ⟨id, (List.map_id _).symm, fun _ => ⟨rfl, rfl, rfl, fun _ _ => rfl⟩⟩, rfl, rfl,
      rfl, rfl, Nat.le_refl _, rfl, rfl, fun _ hc => w.unarmed_remove hc⟩, harmed⟩

theorem dispose_gives (n : Nat) (w : Window) :
    Gives (dispose n) w fun _ w' => Redecorates (· = n) w w' ∧
      ∀ p ∈ w'.panes, p.decorations.get? n = none := by
  show Redecorates (· = n) w _ ∧ ∀ p ∈ w.panes.map _, _
  refine ⟨⟨rfl, rfl, rfl, ⟨_, rfl, fun p => ⟨rfl, rfl, rfl, fun k hk => ?_⟩⟩, rfl, rfl, rfl, rfl,
    Nat.le_refl _, rfl, filter_concat_of_false rfl w.events, fun _ hc => hc⟩, fun p hp => ?_⟩
  · show (p.decorations.remove n).get? k = _
    rw [Table.get?_remove, if_neg fun h => hk h.symm]
  · obtain ⟨q, -, rfl⟩ := List.mem_map.1 hp
    show (q.decorations.remove n).get? n = none
    rw [Table.get?_remove, if_pos rfl]

theorem draw_gives (uri : Uri) (n : Nat) (ranges : List Range) (w : Window) :
    Gives (draw uri n ranges) w fun _ w' => Redecorates (· = n) w w' ∧
      ∀ p' ∈ w'.panes, ∃ p ∈ w.panes, p'.isVisible = p.isVisible ∧ w'.shows uri p' = w.shows uri p ∧
        p'.decorations.get? n = if w.shows uri p then some ranges else p.decorations.get? n := by
  refine .look (.look ((Gives.modify _).bind fun _ w₁ hw => ?_))
  have hlike : ∀ p : Pane, p.Alike (· = n)
      (if w.shows uri p then { p with decorations := p.decorations.put n ranges } else p) := by
    intro p
    split
    · refine ⟨rfl, rfl, rfl, fun k hk => ?_⟩
      show (p.decorations.put n ranges).get? k = _
      rw [Table.get?_put, if_neg fun h => hk h.symm]
    · exact ⟨rfl, rfl, rfl, fun _ _ => rfl⟩
  have hlogs : Within Logs ((w.panes.filter (w.shows uri)).forM fun _ => emit (.decorated uri n ranges)) :=
    .forM fun _ _ => emit_logs _ rfl
  subst hw
  refine (hlogs _).mono fun _ w' h => ?_
  have hdraws := Frame.trans (redecorates_map w hlike) h.redecorates
  refine ⟨hdraws, fun p' hp' => ?_⟩
  rw [h.panes] at hp'
  obtain ⟨p, hp, rfl⟩ := List.mem_map.1 hp'
  refine ⟨p, hp, (hlike p).isVisible, hdraws.shows (hlike p), ?_⟩
  by_cases hshows : w.shows uri p = true
  · rw [if_pos hshows, if_pos hshows]
    show (p.decorations.put n ranges).get? n = some ranges
    rw [Table.get?_put, if_pos rfl]
  · rw [if_neg hshows, if_neg hshows]

end Decoration

/-! ### Canvases -/

namespace DecorationCanvas

/-- Two states of a canvas. -/
def Same (c c' : DecorationCanvas) : Prop := c'.uri = c.uri ∧ c'.decoration = c.decoration

theorem Same.refl (c : DecorationCanvas) : c.Same c := ⟨rfl, rfl⟩

theorem Same.trans {c c' c'' : DecorationCanvas} (h : c.Same c') (h' : c'.Same c'') : c.Same c'' :=
  ⟨h'.1.trans h.1, h'.2.trans h.2⟩

def ranges (c : DecorationCanvas) : List Range :=
  c.lines.map fun line => .atLine ((line - 1 : Nat) : Number)

theorem render_eq (c : DecorationCanvas) : c.render = Decoration.draw c.uri c.decoration c.ranges := rfl

theorem create_ends {T : Nat → Prop} (uri : Uri) (color : String) (w : Window) :
    Ends (create uri color) w
      (fun c w' => Redecorates T w w' ∧ c = ⟨uri, w.decorationTypes, []⟩ ∧
        w'.decorationTypes = w.decorationTypes + 1)
      fun _ w' => Redecorates T w w' ∧ (w.failures.get? .createDecorationType).isSome := by
  refine (Decoration.create_ends color w).bind (fun n w' h => .pure ?_) fun _ _ he => he
  obtain ⟨hdraws, -, rfl, hnext⟩ := h
  exact ⟨hdraws, rfl, hnext⟩

def shownIn (c : DecorationCanvas) (p : Pane) : List Range := (p.decorations.get? c.decoration).getD []

/-- The visible panes with the document of a canvas show the lines of the canvas, and the others none. -/
def IsShown (c : DecorationCanvas) (w : Window) : Prop :=
  ∀ p ∈ w.panes, p.isVisible = true → c.shownIn p = if w.shows c.uri p then c.ranges else []

/-- No visible pane shows anything but the lines of a canvas, and those only with its document. -/
def Agrees (c : DecorationCanvas) (w : Window) : Prop :=
  ∀ p ∈ w.panes, p.isVisible = true →
    c.shownIn p = [] ∨ w.shows c.uri p = true ∧ c.shownIn p = c.ranges

section Shown

variable {c c' : DecorationCanvas} {T : Nat → Prop} {w w' : Window}

theorem IsShown.agrees (h : c.IsShown w) : c.Agrees w := by
  intro p hp hvisible
  have hshown := h p hp hvisible
  by_cases hshows : w.shows c.uri p = true
  · rw [if_pos hshows] at hshown
    exact .inr ⟨hshows, hshown⟩
  · rw [if_neg hshows] at hshown
    exact .inl hshown

theorem Agrees.isShown (h : c.Agrees w) (hlines : c.lines = []) : c.IsShown w := by
  have hranges : c.ranges = [] := by
    rw [ranges, hlines, List.map_nil]
  intro p hp hvisible
  rw [hranges, ite_self]
  rcases h p hp hvisible with hnone | ⟨-, hshown⟩
  · exact hnone
  · exact hshown.trans hranges

theorem agrees_of_undecorated (h : ∀ p ∈ w.panes, p.decorations.get? c.decoration = none) :
    c.Agrees w := by
  intro p hp _
  left
  rw [shownIn, h p hp]
  rfl

theorem IsShown.redecorates (h : c.IsShown w) (hw : Redecorates T w w') (hT : ¬ T c.decoration) :
    c.IsShown w' := by
  intro p' hp' hvisible
  obtain ⟨p, hp, hlike⟩ := hw.of_mem hp'
  rw [shownIn, hlike.decorations _ hT, hw.shows hlike]
  exact h p hp (hlike.isVisible ▸ hvisible)

theorem Agrees.redecorates (h : c.Agrees w) (hw : Redecorates T w w') (hT : ¬ T c.decoration) :
    c.Agrees w' := by
  intro p' hp' hvisible
  obtain ⟨p, hp, hlike⟩ := hw.of_mem hp'
  rw [shownIn, hlike.decorations _ hT, hw.shows hlike]
  exact h p hp (hlike.isVisible ▸ hvisible)

theorem Agrees.carries (h : c.Agrees w) (hw : Carries w w') : c.Agrees w' := by
  intro p' hp' hvisible'
  obtain hnone | ⟨p, hp, hvisible, hdecorations, huri⟩ := hw p' hp' hvisible'
  · left
    rw [shownIn, hnone]
    rfl
  · have hshows : w'.shows c.uri p' = w.shows c.uri p := by
      rw [shows, shows, hvisible, hvisible', huri]
    rw [shownIn, hdecorations, hshows]
    exact h p hp hvisible

end Shown

theorem render_gives (c₀ : DecorationCanvas) {c : DecorationCanvas} (hsame : c₀.Same c) (w : Window) :
    Gives c.render w fun _ w' => Redecorates (· = c.decoration) w w' ∧ (c₀.Agrees w → c.IsShown w') := by
  rw [render_eq]
  refine (Decoration.draw_gives c.uri c.decoration c.ranges w).mono fun _ w' h => ⟨h.1, ?_⟩
  intro hagrees p' hp' hvisible'
  obtain ⟨p, hp, hvisible, hshows, hdecorations⟩ := h.2 p' hp'
  rw [shownIn, hdecorations, hshows]
  by_cases hs : w.shows c.uri p = true
  · rw [if_pos hs, if_pos hs]
    rfl
  · rw [if_neg hs, if_neg hs]
    rw [hvisible] at hvisible'
    rcases hagrees p hp hvisible' with hnone | ⟨hshows₀, -⟩
    · rw [shownIn, ← hsame.2] at hnone
      exact hnone
    · rw [← hsame.1] at hshows₀
      exact absurd hshows₀ hs

theorem draw_gives (c : DecorationCanvas) (line : Number) (w : Window) :
    Gives (c.draw line) w fun c' w' => c.Same c' ∧ Redecorates (· = c.decoration) w w' ∧
      c'.lines = c.lines ++ (lineIn? w c.uri line).toList ∧ (c.IsShown w → c'.IsShown w') := by
  refine .look ?_
  cases hline : lineIn? w c.uri line with
  | none =>
    refine (emit_logs _ rfl w).bind fun _ w' h => .pure ⟨Same.refl c, h.redecorates, ?_, fun hshown => ?_⟩
    · exact (List.append_nil _).symm
    · exact hshown.redecorates (T := fun _ => False) h.redecorates id
  | some n =>
    refine (render_gives c (c := { c with lines := c.lines ++ [n] }) ⟨rfl, rfl⟩ w).bind
      fun _ w' h => .pure ?_
    exact ⟨⟨rfl, rfl⟩, h.1, rfl, fun hshown => h.2 hshown.agrees⟩

theorem clear_gives (c : DecorationCanvas) (w : Window) :
    Gives c.clear w fun c' w' => c.Same c' ∧ Redecorates (· = c.decoration) w w' ∧ c'.lines = [] ∧
      (c.Agrees w → c'.IsShown w') := by
  unfold clear
  split
  · rename_i hempty
    have hlines := List.isEmpty_iff.1 hempty
    exact .pure ⟨Same.refl c, Frame.refl w, hlines, fun hagrees => hagrees.isShown hlines⟩
  · refine (render_gives c (c := { c with lines := [] }) ⟨rfl, rfl⟩ w).bind
      fun _ w' h => .pure ?_
    exact ⟨⟨rfl, rfl⟩, h.1, rfl, h.2⟩

theorem release_gives (c : DecorationCanvas) (w : Window) :
    Gives c.release w fun c' w' => c.Same c' ∧ Redecorates (· = c.decoration) w w' ∧ c'.IsShown w' := by
  refine (Decoration.dispose_gives c.decoration w).bind fun _ w' h => .pure ⟨⟨rfl, rfl⟩, h.1, ?_⟩
  exact (agrees_of_undecorated (c := { c with lines := [] }) h.2).isShown rfl

theorem lineIn?_redecorates {T : Nat → Prop} {w w' : Window} (h : Redecorates T w w') (uri : Uri) :
    lineIn? w' uri = lineIn? w uri := by
  funext line
  unfold lineIn?
  rw [h.openDocument?]

theorem foldlM_draw_gives (lines : List Number) (c : DecorationCanvas) (w : Window) :
    Gives (lines.foldlM draw c) w fun c' w' => c.Same c' ∧ Redecorates (· = c.decoration) w w' ∧
      c'.lines = c.lines ++ lines.filterMap (lineIn? w c.uri) ∧ (c.IsShown w → c'.IsShown w') := by
  induction lines generalizing c w with
  | nil => exact .pure ⟨Same.refl c, Frame.refl w, (List.append_nil _).symm, id⟩
  | cons line lines ih =>
    rw [List.foldlM_cons]
    refine (c.draw_gives line w).bind fun c₁ w₁ h₁ => (ih c₁ w₁).mono fun c' w' h' => ?_
    obtain ⟨hsame₁, hdraws₁, hlines₁, hshown₁⟩ := h₁
    obtain ⟨hsame, hdraws, hlines, hshown⟩ := h'
    refine ⟨hsame₁.trans hsame, Frame.trans hdraws₁ (hsame₁.2 ▸ hdraws), ?_, fun h => hshown (hshown₁ h)⟩
    rw [hlines, hlines₁, hsame₁.1, lineIn?_redecorates hdraws₁, List.append_assoc]
    cases hline : lineIn? w c.uri line <;> simp [hline]

end DecorationCanvas

/-! ### Sessions -/

theorem Role.other_other (role : Role) : role.other.other = role := by cases role <;> rfl

theorem Role.eq_or_eq_other (role role' : Role) : role' = role ∨ role' = role.other := by
  cases role <;> cases role' <;> first | exact .inl rfl | exact .inr rfl

namespace Session

variable {ν : Type}

theorem shown_withShown (s : Session ν) (role : Role) (h : Highlights ν) :
    (s.withShown role h).shown role = h := by cases role <;> rfl

theorem shown_withShown_other (s : Session ν) (role : Role) (h : Highlights ν) :
    (s.withShown role h).shown role.other = s.shown role.other := by cases role <;> rfl

theorem index_withShown (s : Session ν) (role : Role) (h : Highlights ν) :
    (s.withShown role h).index = s.index := by cases role <;> rfl

theorem hasEnded_withShown (s : Session ν) (role : Role) (h : Highlights ν) :
    (s.withShown role h).hasEnded = s.hasEnded := by cases role <;> rfl

def decoration (s : Session DecorationCanvas) (role : Role) : Nat := (s.shown role).canvas.decoration

/-- Two states of a session. Its lookups and canvases are for good, and it does not begin anew. -/
structure Follows (s s' : Session DecorationCanvas) : Prop where
  index : s'.index = s.index
  canvas : ∀ role, (s.shown role).canvas.Same (s'.shown role).canvas
  live : s'.hasEnded = false → s.hasEnded = false

variable {s s' s'' : Session DecorationCanvas}

theorem Follows.refl (s : Session DecorationCanvas) : s.Follows s := ⟨rfl, fun _ => ⟨rfl, rfl⟩, id⟩

theorem Follows.trans (h : s.Follows s') (h' : s'.Follows s'') : s.Follows s'' :=
  ⟨h'.index.trans h.index, fun role => (h.canvas role).trans (h'.canvas role),
    fun hlive => h.live (h'.live hlive)⟩

theorem Follows.decoration (h : s.Follows s') (role : Role) : s'.decoration role = s.decoration role :=
  (h.canvas role).2

theorem follows_withShown (s : Session DecorationCanvas) (role : Role) {h : Highlights DecorationCanvas}
    (hsame : (s.shown role).canvas.Same h.canvas) : s.Follows (s.withShown role h) where
  index := s.index_withShown role h
  canvas role' := by
    rcases role.eq_or_eq_other role' with rfl | rfl
    · rw [shown_withShown]
      exact hsame
    · rw [shown_withShown_other]
      exact ⟨rfl, rfl⟩
  live hlive := (s.hasEnded_withShown role h).symm.trans hlive

/-- The two canvases of a session draw with different types, and only what they show is shown. -/
structure Agrees (s : Session DecorationCanvas) (w : Window) : Prop where
  distinct : s.decoration .source ≠ s.decoration .generated
  canvas : ∀ role, (s.shown role).canvas.Agrees w

theorem Agrees.other_ne {w : Window} (h : s.Agrees w) (role : Role) :
    s.decoration role.other ≠ s.decoration role := by
  cases role with
  | source => exact h.distinct.symm
  | generated => exact h.distinct

theorem Agrees.redecorates {T : Nat → Prop} {w w' : Window} (h : s.Agrees w) (hw : Redecorates T w w')
    (hT : ∀ role, ¬ T (s.decoration role)) : s.Agrees w' :=
  ⟨h.distinct, fun role => (h.canvas role).redecorates hw (hT role)⟩

theorem Agrees.carries {w w' : Window} (h : s.Agrees w) (hw : Carries w w') : s.Agrees w' :=
  ⟨h.distinct, fun role => (h.canvas role).carries hw⟩

/-- What one canvas of a session did leaves the other one alone. -/
theorem Agrees.follows {w w' : Window} (h : s.Agrees w) (role : Role) (hfollows : s.Follows s')
    (hdraws : Redecorates (· = s.decoration role) w w') (hother : s'.shown role.other = s.shown role.other)
    (hcanvas : (s'.shown role).canvas.Agrees w') : s'.Agrees w' where
  distinct := by
    rw [hfollows.decoration, hfollows.decoration]
    exact h.distinct
  canvas role' := by
    rcases role.eq_or_eq_other role' with rfl | rfl
    · exact hcanvas
    · rw [hother]
      exact (h.canvas role.other).redecorates hdraws (h.other_ne role)

theorem wipe_gives (s : Session DecorationCanvas) (role : Role) (w : Window) :
    Gives (s.wipe role : Action _) w fun s' w' => s.Follows s' ∧
      Redecorates (· = s.decoration role) w w' ∧ s'.shown role.other = s.shown role.other ∧
      s'.hasEnded = s.hasEnded ∧ (s'.shown role).canvas.lines = [] ∧
      ((s.shown role).canvas.Agrees w → (s'.shown role).canvas.IsShown w') := by
  refine ((s.shown role).canvas.clear_gives w).bind fun c w' h => .pure ?_
  obtain ⟨hsame, hdraws, hlines, hshown⟩ := h
  refine ⟨s.follows_withShown role hsame, hdraws, shown_withShown_other .., hasEnded_withShown .., ?_, ?_⟩
  · rw [shown_withShown]
    exact hlines
  · rw [shown_withShown]
    exact hshown

theorem cursorMoved_gives (s : Session DecorationCanvas) (origin : Role) (line : Number) (w : Window) :
    Gives (s.cursorMoved origin line : Action _) w fun s' w' => s.Follows s' ∧
      Redecorates (· = s.decoration origin.other) w w' ∧ s'.shown origin = s.shown origin ∧
      s'.hasEnded = s.hasEnded ∧
      (s.hasEnded = false → (s'.shown origin.other).canvas.lines =
        (s.correlated origin line).filterMap
          (DecorationCanvas.lineIn? w (s.shown origin.other).canvas.uri)) ∧
      (s.Agrees w → s'.Agrees w' ∧
        (s.hasEnded = false → (s'.shown origin.other).canvas.IsShown w')) := by
  unfold cursorMoved
  split
  · rename_i hended
    have hnot : ¬ s.hasEnded = false := by
      rw [hended]
      exact Bool.noConfusion
    exact .pure ⟨Follows.refl s, Frame.refl w, rfl, rfl, fun hlive => absurd hlive hnot,
      fun hagrees => ⟨hagrees, fun hlive => absurd hlive hnot⟩⟩
  · refine (s.wipe_gives origin.other w).bind fun s₁ w₁ h₁ => ?_
    obtain ⟨hfollows₁, hdraws₁, hother₁, hended₁, hlines₁, hshown₁⟩ := h₁
    refine (DecorationCanvas.foldlM_draw_gives (s₁.correlated origin line) (s₁.shown origin.other).canvas
      w₁).bind fun c w' h => .pure ?_
    obtain ⟨hsame, hdraws, hlines, hshown⟩ := h
    obtain ⟨huri₁, hdecoration₁⟩ := hfollows₁.canvas origin.other
    have hcorrelated : s₁.correlated origin line = s.correlated origin line := by
      cases origin <;> unfold correlated <;> dsimp only <;> rw [hfollows₁.index]
    rw [hdecoration₁] at hdraws
    have hfollows := hfollows₁.trans (s₁.follows_withShown origin.other
      (h := ⟨c, s₁.correlated origin line⟩) hsame)
    have hdraws' := Frame.trans hdraws₁ hdraws
    have hother := (shown_withShown_other s₁ origin.other ⟨c, s₁.correlated origin line⟩).trans hother₁
    refine ⟨hfollows, hdraws', ?_, (hasEnded_withShown ..).trans hended₁, fun _ => ?_, fun hagrees => ?_⟩
    · rw [Role.other_other] at hother
      exact hother
    · rw [shown_withShown]
      show c.lines = _
      rw [hlines, hlines₁, List.nil_append, hcorrelated, huri₁,
        DecorationCanvas.lineIn?_redecorates hdraws₁]
    · have hshown' := hshown (hshown₁ (hagrees.canvas origin.other))
      rw [shown_withShown]
      refine ⟨hagrees.follows origin.other hfollows hdraws' hother ?_, fun _ => hshown'⟩
      rw [shown_withShown]
      exact hshown'.agrees

theorem cursorLeft_gives (s : Session DecorationCanvas) (origin : Role) (w : Window) :
    Gives (s.cursorLeft origin : Action _) w fun s' w' => s.Follows s' ∧
      Redecorates (· = s.decoration origin.other) w w' ∧ s'.shown origin = s.shown origin ∧
      s'.hasEnded = s.hasEnded ∧
      (s.hasEnded = false → (s'.shown origin.other).canvas.lines = []) ∧ (s.Agrees w → s'.Agrees w') := by
  unfold cursorLeft
  split
  · rename_i hended
    exact .pure ⟨Follows.refl s, Frame.refl w, rfl, rfl, fun hlive => by simp [hended] at hlive, id⟩
  · refine (s.wipe_gives origin.other w).mono fun s' w' h => ?_
    obtain ⟨hfollows, hdraws, hother, hended, hlines, hshown⟩ := h
    refine ⟨hfollows, hdraws, ?_, hended, fun _ => hlines, fun hagrees => ?_⟩
    · rw [Role.other_other] at hother
      exact hother
    · exact hagrees.follows origin.other hfollows hdraws hother (hshown (hagrees.canvas origin.other)).agrees

theorem finish_gives (s : Session DecorationCanvas) (w : Window) :
    Gives (s.finish : Action _) w fun s' w' => s.Follows s' ∧
      Redecorates (fun n => ∃ role, n = s.decoration role) w w' ∧ s'.hasEnded = true ∧
      (s.Agrees w → s'.Agrees w') := by
  unfold finish
  split
  · rename_i hended
    exact .pure ⟨Follows.refl s, Frame.refl w, hended, id⟩
  · refine (s.wipe_gives .source w).bind fun s₁ w₁ h₁ => ?_
    refine (s₁.wipe_gives .generated w₁).bind fun s₂ w₂ h₂ => ?_
    refine (s₂.source.canvas.release_gives w₂).bind fun c w₃ h₃ => ?_
    refine (s₂.generated.canvas.release_gives w₃).bind fun c' w' h₄ => .pure ?_
    have hfollows₂ := h₁.1.trans h₂.1
    have hfollows₃ := s₂.follows_withShown .source (h := ⟨c, s₂.source.lines⟩) h₃.1
    have hfollows₄ := (s₂.withShown .source ⟨c, s₂.source.lines⟩).follows_withShown .generated
      (h := ⟨c', s₂.generated.lines⟩) h₄.1
    have hfollows := hfollows₂.trans (hfollows₃.trans hfollows₄)
    have hdecoration : ∀ role, s₂.decoration role = s.decoration role := hfollows₂.decoration
    have hwiped : Redecorates (fun n => ∃ role, n = s.decoration role) w w₂ :=
      Frame.trans (h₁.2.1.mono fun n hn => ⟨.source, hn⟩)
        (h₂.2.1.mono fun n hn => ⟨.generated, hn.trans (h₁.1.decoration .generated)⟩)
    have hreleased : Redecorates (fun n => ∃ role, n = s.decoration role) w₂ w' :=
      Frame.trans (h₃.2.1.mono fun n hn => ⟨.source, hn.trans (hdecoration .source)⟩)
        (h₄.2.1.mono fun n hn => ⟨.generated, hn.trans (hdecoration .generated)⟩)
    refine ⟨⟨hfollows.index, fun role => ?_, nofun⟩, Frame.trans hwiped hreleased, rfl, fun hagrees => ?_⟩
    · cases role with
      | source => exact hfollows.canvas .source
      | generated => exact hfollows.canvas .generated
    · obtain ⟨hfollows₁, hdraws₁, hother₁, -, -, hshown₁⟩ := h₁
      obtain ⟨hfollows₂, hdraws₂, hother₂, -, -, hshown₂⟩ := h₂
      have hagrees₁ := hagrees.follows .source hfollows₁ hdraws₁ hother₁ (hshown₁ (hagrees.canvas _)).agrees
      have hagrees₂ := hagrees₁.follows .generated hfollows₂ hdraws₂ hother₂
        (hshown₂ (hagrees₁.canvas _)).agrees
      have hagrees₃ := hagrees₂.follows .source hfollows₃ h₃.2.1 rfl h₃.2.2.agrees
      have hagrees₄ := hagrees₃.follows .generated hfollows₄ h₄.2.1 rfl h₄.2.2.agrees
      refine ⟨hagrees₄.distinct, fun role => ?_⟩
      cases role with
      | source => exact hagrees₄.canvas .source
      | generated => exact hagrees₄.canvas .generated

end Session

end AsmLens
