import AsmLens.Proofs.Closing
import AsmLens.Proofs.Framing

/-!
# What is highlighted in visible panes

A pane keeps what was last drawn on it. Whatever a visible pane shows was drawn with a decoration type that was not
taken away since (`Window.Drawn`): this needs no more than how decorations are drawn and taken away, so it is kept
by all that the program does, whatever its sessions are. A decoration type that was drawn with and not taken away
is one in use, which belongs to a registered session (`Workbench.Owns`), and of a session nothing is shown but the
lines that it highlights (`Controller.Agrees`). Hence no pane shows lines that no session highlights:
`Workbench.highlights_belong_to_sessions`.
-/

namespace AsmLens

open Window

namespace Entry

def document {ν : Type} (e : Entry ν) : Role → Uri
  | .source => e.source
  | .generated => e.generated

theorem Paired.canvas_uri {e : Entry DecorationCanvas} (h : e.Paired) (role : Role) :
    (e.session.shown role).canvas.uri = e.document role := by
  cases role with
  | source => exact h.source_uri
  | generated => exact h.generated_uri

end Entry

namespace Window

variable {w w' : Window}

/-- A decoration type was drawn with, and not taken away since. -/
def IsDrawn (painted : List Event) (n : Nat) : Prop :=
  ∃ before uri ranges after, painted = before ++ .decorated uri n ranges :: after ∧
    .decorationTypeDisposed n ∉ after

/-- What decorates the visible panes was drawn, and not taken away since. -/
def Drawn (w : Window) : Prop :=
  ∀ p ∈ w.panes, p.isVisible = true → ∀ n, (p.decorations.get? n).isSome = true → IsDrawn w.painted n

theorem IsDrawn.append {painted added : List Event} {n : Nat} (h : IsDrawn painted n)
    (hadded : .decorationTypeDisposed n ∉ added) : IsDrawn (painted ++ added) n := by
  obtain ⟨before, uri, ranges, after, rfl, hafter⟩ := h
  refine ⟨before, uri, ranges, after ++ added, by simp, fun hmem => ?_⟩
  exact (List.mem_append.1 hmem).elim hafter hadded

theorem Drawn.carried {added : List Event} (h : w.Drawn) (hpainted : w'.painted = w.painted ++ added)
    (hadded : ∀ n, .decorationTypeDisposed n ∉ added)
    (hpanes : ∀ p' ∈ w'.panes, p'.isVisible = true →
      p'.decorations = [] ∨ ∃ p ∈ w.panes, p.isVisible = true ∧ p'.decorations = p.decorations) : w'.Drawn := by
  intro p' hp' hvisible' n hn
  obtain hnone | ⟨p, hp, hvisible, hdecorations⟩ := hpanes p' hp' hvisible'
  · rw [hnone] at hn
    nomatch hn
  · rw [hpainted]
    exact (h p hp hvisible n (hdecorations ▸ hn)).append (hadded n)

theorem Drawn.same {added : List Event} (h : w.Drawn) (hpainted : w'.painted = w.painted ++ added)
    (hadded : ∀ n, .decorationTypeDisposed n ∉ added) (hpanes : w'.panes = w.panes) : w'.Drawn :=
  h.carried hpainted hadded fun p hp hvisible => .inr ⟨p, hpanes ▸ hp, hvisible, rfl⟩

theorem Asks.drawn (h : Asks w w') : Preserves Drawn w w' := fun hw =>
  hw.same (h.painted.trans (List.append_nil _).symm) (fun _ => List.not_mem_nil) h.panes

theorem emit_drawn {e : Event} (he : ∀ n, e ≠ .decorationTypeDisposed n) : Within (Preserves Drawn) (emit e) :=
  fun _ hw => hw.same (List.filter_append _ _)
    (fun n hn => he n (List.mem_singleton.1 (List.mem_filter.1 hn).1).symm) rfl

end Window

namespace Decoration

theorem create_drawn (color : String) : Holds (Preserves Drawn) (create color) := fun w => by
  refine (attempt_exactly .createDecorationType w).bind (fun _ w' hw => ?_) fun _ w' hw => ?_
  · obtain ⟨rfl, -⟩ := hw
    intro h
    exact h.same (List.filter_append _ _) (fun n hn => nomatch List.mem_singleton.1 hn) rfl
  · rw [hw.1]
    exact id

theorem dispose_drawn (n : Nat) : Within (Preserves Drawn) (dispose n) := fun w h p' hp' hvisible' m hm => by
  obtain ⟨p, hp, rfl⟩ := List.mem_map.1 hp'
  change ((p.decorations.remove n).get? m).isSome = true at hm
  rw [Table.get?_remove] at hm
  split at hm
  · cases hm
  · rename_i hne
    have hpainted : (dispose n w).2.painted = w.painted ++ [.decorationTypeDisposed n] := List.filter_append _ _
    rw [hpainted]
    refine (h p hp hvisible' m hm).append fun hmem => hne ?_
    cases List.mem_singleton.1 hmem
    rfl

theorem forM_decorated (uri : Uri) (n : Nat) (ranges : List Range) (l : List Pane) (w : Window) :
    Gives (l.forM fun _ => emit (.decorated uri n ranges)) w fun _ w' => w'.panes = w.panes ∧
      w'.painted = w.painted ++ l.map fun _ => .decorated uri n ranges := by
  induction l generalizing w with
  | nil => exact .pure ⟨rfl, (List.append_nil _).symm⟩
  | cons p l ih =>
    refine Gives.bind (Q := fun _ w₁ => w₁.panes = w.panes ∧ w₁.painted = w.painted ++ [.decorated uri n ranges])
      ⟨rfl, List.filter_append _ _⟩ fun _ w₁ h₁ => (ih w₁).mono fun _ w' h => ⟨h.1.trans h₁.1, ?_⟩
    rw [h.2, h₁.2, List.append_assoc]
    rfl

theorem draw_drawn (uri : Uri) (n : Nat) (ranges : List Range) :
    Within (Preserves Drawn) (draw uri n ranges) := fun w => by
  refine .look (.look ((Gives.modify _).bind fun _ w₁ hw => ?_))
  subst hw
  refine (forM_decorated uri n ranges _ _).mono fun _ w' h hdrawn p' hp' hvisible' m hm => ?_
  rw [h.1] at hp'
  obtain ⟨p, hp, rfl⟩ := List.mem_map.1 hp'
  rw [h.2]
  have hold : p.isVisible = true → (p.decorations.get? m).isSome = true →
      IsDrawn (w.painted ++ (w.panes.filter (w.shows uri)).map fun _ => .decorated uri n ranges) m :=
    fun hvisible hm => (hdrawn p hp hvisible m hm).append (by simp)
  by_cases hshows : w.shows uri p = true
  · rw [if_pos hshows] at hm hvisible'
    change ((p.decorations.put n ranges).get? m).isSome = true at hm
    rw [Table.get?_put] at hm
    by_cases hm' : n = m
    · subst hm'
      obtain ⟨before, after, hsplit⟩ := List.append_of_mem (List.mem_filter.2 ⟨hp, hshows⟩)
      refine ⟨w.painted ++ before.map fun _ => .decorated uri n ranges, uri, ranges,
        after.map fun _ => .decorated uri n ranges, ?_, by simp⟩
      show w.painted ++ (w.panes.filter (w.shows uri)).map _ = _
      rw [hsplit, List.map_append, List.map_cons, List.append_assoc]
    · rw [if_neg hm'] at hm
      exact hold hvisible' hm
  · rw [if_neg hshows] at hm hvisible'
    exact hold hvisible' hm

end Decoration

instance : Displaying (Preserves Drawn) where
  still h hw := hw.carried (congrArg (List.filter _) h.events |>.trans (List.append_nil _).symm)
    (fun _ => List.not_mem_nil) h.panes
  display he := emit_drawn (fun n hn => by rw [hn] at he; nomatch he)
  create := Decoration.create_drawn
  dispose := Decoration.dispose_drawn
  draw := Decoration.draw_drawn

instance : Asking (Preserves Drawn) where
  tell he := emit_drawn (fun n hn => by rw [hn] at he; nomatch he)
  askChoice question template items w := (Prompt.askChoice_ends question template items w).mono
    (fun _ _ h => h.1.toAsks.drawn) fun _ _ h => h.1.toAsks.drawn
  askText question value w := (Prompt.askText_ends question value w).mono
    (fun _ _ h => h.1.toAsks.drawn) fun _ _ h => h.1.toAsks.drawn

instance : Replacing (Preserves Drawn) where
  replace _ _ _ _ := emit_drawn nofun

instance : Sending (Preserves Drawn) where
  send _ _ := emit_drawn nofun

namespace Workbench

variable {b : Workbench}

/-- Whatever happens, visible panes show nothing that was taken away. -/
theorem Valid.drawn_after (hb : b.Valid) (h : b.window.Drawn) (a : Act) : (b.after a).window.Drawn := by
  cases a with
  | step step =>
    have hleaves := step.perform_gives b.window
    have hpainted := (step.perform_upholds b.window).painted
    unfold Gives at hleaves
    have hwindow : (step.perform b.window).2.Drawn := by
      refine h.carried (hpainted.trans (List.append_nil _).symm) (fun _ => List.not_mem_nil)
        fun p' hp' hvisible' => ?_
      refine ((hleaves.sound hb.sound).2 p' hp' hvisible').imp_right ?_
      rintro ⟨p, hp, hvisible, hdecorations, -⟩
      exact ⟨p, hp, hvisible, hdecorations⟩
    have hnotices : Within (InWindow (Preserves Drawn)) ((step.perform b.window).1.forM Workbench.onNotice) :=
      .forM fun n _ => onNotice_framed n
    exact hnotices { b with window := (step.perform b.window).2 } hwindow
  | invoke id arguments =>
    have htell : ∀ text, Within (Preserves Drawn) (tellUnawaited text) := fun text w =>
      (tellUnawaited_gives text w).mono fun _ _ h => h.1.drawn
    exact invoke_framed htell id arguments b h
  | deactivate => exact deactivate_framed (R := Preserves Drawn) b h
  | dispose => exact dispose_framed (R := Preserves Drawn) b h

theorem drawn_run {w : Window} (hw : w.Fresh) (acts : List Act) : (run w acts).window.Drawn := by
  induction acts using List.reverseRecOn with
  | nil =>
    have hactivate : Preserves Drawn w (activate w).window :=
      activate_within (log_framed (R := Preserves Drawn)) (fun _ => emit_drawn nofun) w
    refine hactivate fun p hp _ n hn => ?_
    rw [hw.undecorated p hp] at hn
    nomatch hn
  | append_singleton acts a ih =>
    rw [run_concat]
    exact (reachable_run hw acts).valid.drawn_after ih a

theorem Owns.inUse_of_isDrawn (h : b.Owns) {n : Nat} (hn : IsDrawn b.window.painted n) :
    Event.InUse b.window.events n := by
  obtain ⟨before, uri, ranges, after, hpainted, hafter⟩ := hn
  obtain ⟨before', rest, hevents, hbefore, hrest⟩ := List.filter_eq_append_iff.1 hpainted
  obtain ⟨skipped, after', hrest', hskipped, -, hafter'⟩ := List.filter_eq_cons_iff.1 hrest
  rw [hrest', ← List.append_assoc] at hevents
  -- It was in use when it was drawn with.
  obtain ⟨⟨style, hmade⟩, hkept⟩ := h.fits _ _ _ hevents
  refine ⟨⟨style, hevents ▸ List.mem_append_left _ hmade⟩, fun hgone => ?_⟩
  rw [hevents] at hgone
  rcases List.mem_append.1 hgone with hgone | hgone
  · exact hkept hgone
  · have hgone' : .decorationTypeDisposed n ∈ after' := by simpa using hgone
    exact hafter (hafter' ▸ List.mem_filter.2 ⟨hgone', rfl⟩)

/-- Whatever happens and whichever calls fail, what a visible pane shows are the lines that a registered session
highlights in the document of the pane, in the order in which it came to them. -/
theorem highlights_belong_to_sessions {w : Window} (hw : w.Fresh) (hpainted : w.painted = [])
    (hactive : w.HasActive) (acts : List Act) :
    ∀ p ∈ (run w acts).window.panes, p.isVisible = true →
      ∀ n ranges, p.decorations.get? n = some ranges → ranges ≠ [] →
        ∃ e ∈ (run w acts).highlights.live, ∃ role, n = e.session.decoration role ∧
          (e.document role).text = ((run w acts).window.paneUri p).text ∧
          ranges = (e.session.shown role).canvas.lines.map fun l => .atLine ((l - 1 : Nat) : Number) := by
  intro p hp hvisible n ranges hget hranges
  have hvalid := (reachable_run hw acts).valid
  have howns := hvalid.owns (tidy_run hw hpainted hactive acts)
  have hdrawn := drawn_run hw acts p hp hvisible n (by rw [hget]; rfl)
  obtain ⟨e, he, hn⟩ := (howns.inUse n).1 (howns.inUse_of_isDrawn hdrawn)
  obtain ⟨role, rfl⟩ := Entry.mem_types.1 hn
  have hentry := (List.mem_filter.1 he).1
  refine ⟨e, he, role, rfl, ?_⟩
  -- What is shown with the type is nothing, or the lines of the canvas on the document of the pane.
  have hshown : (e.session.shown role).canvas.shownIn p = ranges := by
    change ((p.decorations.get? (e.session.decoration role)).getD []) = ranges
    rw [hget]
    rfl
  obtain hnone | ⟨hshows, hlines⟩ := (hvalid.agrees.session e hentry).canvas role p hp hvisible
  · exact absurd (hshown.symm.trans hnone) hranges
  · refine ⟨?_, hshown.symm.trans hlines⟩
    rw [shows, Bool.and_eq_true, decide_eq_true_eq, (hvalid.paired e hentry).canvas_uri role] at hshows
    exact hshows.2.symm

/-- The cursor in the first line of the source, after it was compiled. -/
def followedActs : List Act := publishedActs ++ [.step (.select (.file "/main.py") [default])]

/-- The two lines that are shown then are those of a session that links the source. -/
theorem followedActs_highlights : ∃ e ∈ (run sourceWindow followedActs).highlights.live, ∃ role,
    1 = e.session.decoration role ∧
      [Range.atLine 1, .atLine 2] =
        (e.session.shown role).canvas.lines.map fun l => .atLine ((l - 1 : Nat) : Number) := by
  have hactive : sourceWindow.HasActive := fun i hi => by
    cases hi
    exact ⟨_, _, rfl, rfl⟩
  have hshown : ((run sourceWindow followedActs).window.panes.any fun p =>
      p.isVisible && p.decorations.get? 1 = some [Range.atLine 1, .atLine 2]) = true := by decide +kernel
  obtain ⟨p, hp, hp'⟩ := List.any_eq_true.1 hshown
  rw [Bool.and_eq_true, decide_eq_true_eq] at hp'
  obtain ⟨e, he, role, hn, -, hranges⟩ := highlights_belong_to_sessions (fresh_ofDocument rfl) rfl hactive
    followedActs p hp hp'.1 1 _ hp'.2 (List.cons_ne_nil _ _)
  exact ⟨e, he, role, hn, hranges⟩

end Workbench

end AsmLens
