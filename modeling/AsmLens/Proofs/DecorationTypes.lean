import AsmLens.Proofs.Following
import Mathlib.Data.List.Induction
import Mathlib.Data.Multiset.Filter

/-!
# Decoration types in use

A decoration type is to be made under a new number and to be taken away once, and nothing may be drawn with
one that was taken away: `Event.Fits` says so of an event, after all that left the program before. A `Palette`
follows the events and refuses one that does not fit (`Palette.fits`), and `Window.HasTypes` says that all of
them fit and which decoration types are in use.

The decoration types in use are those of the registered sessions, in a multiset: `Entry.owned`. Whatever the
controller does to its sessions keeps this, one session after another, with the types of the others as what is
left alone.
-/

namespace AsmLens

open Window

/-! ### Events that fit -/

namespace Event

/-- A decoration type was made and not taken away. -/
def InUse (events : List Event) (n : Nat) : Prop :=
  (∃ style, .decorationType n style ∈ events) ∧ .decorationTypeDisposed n ∉ events

/-- An event fits what was done before: a decoration type is made under a new number, and only one that is in
use is drawn with or taken away. -/
def Fits (before : List Event) : Event → Prop
  | .decorationType n _ => ∀ style, .decorationType n style ∉ before
  | .decorationTypeDisposed n => InUse before n
  | .decorated _ n _ => InUse before n
  | _ => True

end Event

/-- How many decoration types were made, and which of them are in use. -/
structure Palette where
  made : Nat
  inUse : Multiset Nat

namespace Palette

open Event

/-- The palette after an event, if the event fits. -/
def next? (p : Palette) : Event → Option Palette
  | .decorationType n _ => if n = p.made then some ⟨n + 1, n ::ₘ p.inUse⟩ else none
  | .decorationTypeDisposed n => if n ∈ p.inUse then some ⟨p.made, p.inUse.erase n⟩ else none
  | .decorated _ n _ => if n ∈ p.inUse then some p else none
  | _ => some p

def replay? (events : List Event) : Option Palette := events.foldlM next? ⟨0, 0⟩

variable {p p' : Palette} {e : Event} {events before after : List Event}

theorem replay?_concat (h : replay? events = some p) (e : Event) : replay? (events ++ [e]) = p.next? e := by
  unfold replay? at h ⊢
  rw [List.foldlM_append, h]
  show p.next? e >>= pure = _
  rw [bind_pure]

theorem foldlM_next?_filter (events : List Event) (p : Palette) :
    (events.filter Event.isDecoration).foldlM next? p = events.foldlM next? p := by
  induction events generalizing p with
  | nil => rfl
  | cons e events ih =>
    cases hd : e.isDecoration with
    | true =>
      rw [List.filter_cons_of_pos hd, List.foldlM_cons, List.foldlM_cons]
      congr 1
      exact funext ih
    | false =>
      have hsame : p.next? e = some p := by
        cases e <;> first | rfl | nomatch hd
      rw [List.filter_cons_of_neg (by rw [hd]; exact Bool.false_ne_true), List.foldlM_cons, hsame]
      exact ih p

/-- What a palette tells of the events before. -/
structure Tells (p : Palette) (events : List Event) : Prop where
  made : ∀ n style, .decorationType n style ∈ events → n < p.made
  disposed : ∀ n, .decorationTypeDisposed n ∈ events → n < p.made
  nodup : p.inUse.Nodup
  inUse : ∀ n, n ∈ p.inUse ↔ InUse events n

theorem Tells.lt (h : p.Tells events) {n : Nat} (hn : n ∈ p.inUse) : n < p.made := by
  obtain ⟨⟨style, hmade⟩, -⟩ := (h.inUse n).1 hn
  exact h.made n style hmade

theorem Tells.concat (h : p.Tells events) (hmade : ∀ n style, e ≠ .decorationType n style)
    (hdisposed : ∀ n, e ≠ .decorationTypeDisposed n) : p.Tells (events ++ [e]) := by
  have hmem : ∀ e' ≠ e, e' ∈ events ++ [e] ↔ e' ∈ events := fun e' hne => by simp [hne]
  refine ⟨fun n style hn => ?_, fun n hn => ?_, h.nodup, fun n => ?_⟩
  · exact h.made n style ((hmem _ (hmade n style).symm).1 hn)
  · exact h.disposed n ((hmem _ (hdisposed n).symm).1 hn)
  · rw [h.inUse, InUse, InUse, hmem _ (hdisposed n).symm]
    simp only [hmem _ (hmade n _).symm]

theorem Tells.next (h : p.Tells events) (hnext : p.next? e = some p') : p'.Tells (events ++ [e]) := by
  cases e with
  | decorationType n style =>
    obtain ⟨rfl, ⟨⟩⟩ := Option.ite_none_right_eq_some.1 hnext
    refine ⟨fun m style' hm => ?_, fun m hm => ?_, ?_, fun m => ?_⟩
    · rcases List.mem_append.1 hm with hm | hm
      · exact Nat.lt_succ_of_lt (h.made m style' hm)
      · cases List.mem_singleton.1 hm
        exact Nat.lt_succ_self _
    · have hm' : .decorationTypeDisposed m ∈ events := by simpa using hm
      exact Nat.lt_succ_of_lt (h.disposed m hm')
    · exact Multiset.nodup_cons.2 ⟨fun hn => Nat.lt_irrefl _ (h.lt hn), h.nodup⟩
    · by_cases hm : m = p.made
      · subst hm
        refine ⟨fun _ => ⟨⟨style, by simp⟩, fun hdisposed => ?_⟩, fun _ => Multiset.mem_cons_self ..⟩
        exact Nat.lt_irrefl _ (h.disposed _ (by simpa using hdisposed))
      · rw [Multiset.mem_cons, or_iff_right hm, h.inUse]
        simp [InUse, hm]
  | decorationTypeDisposed n =>
    obtain ⟨hn, ⟨⟩⟩ := Option.ite_none_right_eq_some.1 hnext
    refine ⟨fun m style hm => ?_, fun m hm => ?_, h.nodup.erase n, fun m => ?_⟩
    · exact h.made m style (by simpa using hm)
    · rcases List.mem_append.1 hm with hm | hm
      · exact h.disposed m hm
      · cases List.mem_singleton.1 hm
        exact h.lt hn
    · rw [h.nodup.mem_erase_iff, h.inUse]
      simp only [InUse, List.mem_append, List.mem_singleton, reduceCtorEq, or_false,
        Event.decorationTypeDisposed.injEq, not_or]
      exact ⟨fun hm => ⟨hm.2.1, hm.2.2, hm.1⟩, fun hm => ⟨hm.2.2, hm.1, hm.2.1⟩⟩
  | decorated uri n ranges =>
    obtain ⟨-, ⟨⟩⟩ := Option.ite_none_right_eq_some.1 hnext
    exact h.concat nofun nofun
  | _ =>
    cases hnext
    exact h.concat nofun nofun

theorem tells_of_replay (h : replay? events = some p) : p.Tells events := by
  induction events using List.reverseRecOn generalizing p with
  | nil =>
    cases h
    exact ⟨nofun, nofun, Multiset.nodup_zero, fun n => by simp [InUse]⟩
  | append_singleton events e ih =>
    unfold replay? at h
    rw [List.foldlM_append, Option.bind_eq_bind, Option.bind_eq_some_iff] at h
    obtain ⟨p₀, h₀, hnext⟩ := h
    refine (ih h₀).next ?_
    rw [← hnext]
    exact (bind_pure _).symm

theorem Tells.fits (h : p.Tells events) (hnext : p.next? e = some p') : e.Fits events := by
  cases e with
  | decorationType n style =>
    obtain ⟨rfl, -⟩ := Option.ite_none_right_eq_some.1 hnext
    exact fun style hmade => Nat.lt_irrefl _ (h.made _ style hmade)
  | decorationTypeDisposed n => exact (h.inUse n).1 (Option.ite_none_right_eq_some.1 hnext).1
  | decorated uri n ranges => exact (h.inUse n).1 (Option.ite_none_right_eq_some.1 hnext).1
  | _ => trivial

/-- Of events with a palette, each fits what was done before. -/
theorem fits (h : replay? (before ++ e :: after) = some p) : e.Fits before := by
  unfold replay? at h
  rw [List.foldlM_append, Option.bind_eq_bind, Option.bind_eq_some_iff] at h
  obtain ⟨p₀, h₀, hrest⟩ := h
  rw [List.foldlM_cons, Option.bind_eq_bind, Option.bind_eq_some_iff] at hrest
  obtain ⟨p₁, hnext, -⟩ := hrest
  exact (tells_of_replay h₀).fits hnext

end Palette

/-! ### Windows -/

/-- All events about decorations fit, and of the decoration types that were made these are in use. -/
def Window.HasTypes (used : Multiset Nat) (w : Window) : Prop :=
  Palette.replay? w.events = some ⟨w.decorationTypes, used⟩

variable {used : Multiset Nat} {w w' : Window}

theorem Window.hasTypes_zero (hpainted : w.painted = []) (hnone : w.decorationTypes = 0) : w.HasTypes 0 := by
  rw [HasTypes, Palette.replay?, ← Palette.foldlM_next?_filter, hnone]
  change w.events.filter Event.isDecoration = [] at hpainted
  rw [hpainted]
  rfl

theorem Window.HasTypes.of_painted (h : w.HasTypes used) (hpainted : w'.painted = w.painted)
    (hmade : w'.decorationTypes = w.decorationTypes) : w'.HasTypes used := by
  rw [HasTypes, Palette.replay?, ← Palette.foldlM_next?_filter] at h ⊢
  change Palette.replay? w.painted = _ at h
  change Palette.replay? w'.painted = _
  rw [hpainted, hmade, h]

theorem emit_hasTypes {e : Event}
    (he : Palette.next? ⟨w.decorationTypes, used⟩ e = some ⟨w.decorationTypes, used⟩) (h : w.HasTypes used) :
    Gives (emit e) w fun _ w' => w'.HasTypes used :=
  (Palette.replay?_concat h e).trans he

namespace Decoration

theorem create_hasTypes (color : String) (h : w.HasTypes used) :
    Ends (create color) w
      (fun n w' => w'.HasTypes (n ::ₘ used) ∧ w'.failures.get? .createDecorationType = none)
      fun _ w' => w'.HasTypes used ∧ (w.failures.get? .createDecorationType).isSome := by
  refine (attempt_exactly .createDecorationType w).bind (fun _ w' hw => ?_) ?_
  · obtain ⟨rfl, hunarmed⟩ := hw
    refine ⟨(Palette.replay?_concat h _).trans ?_, hunarmed⟩
    exact if_pos rfl
  · rintro e w' ⟨rfl, -, harmed⟩
    exact ⟨h, harmed⟩

theorem dispose_hasTypes {n : Nat} (h : w.HasTypes (n ::ₘ used)) :
    Gives (dispose n) w fun _ w' => w'.HasTypes used := by
  refine (Palette.replay?_concat h (.decorationTypeDisposed n)).trans ?_
  show (if n ∈ n ::ₘ used then some (Palette.mk w.decorationTypes ((n ::ₘ used).erase n)) else none) = _
  rw [if_pos (Multiset.mem_cons_self n used), Multiset.erase_cons_head]
  rfl

theorem draw_hasTypes (uri : Uri) {n : Nat} (hn : n ∈ used) (ranges : List Range) :
    Within (Preserves (HasTypes used)) (draw uri n ranges) := by
  refine .look fun w => .look fun w' => ?_
  dsimp only
  refine Within.bind (fun _ h => h) fun _ => .forM fun _ _ w h => ?_
  exact emit_hasTypes (if_pos hn) h

end Decoration

namespace DecorationCanvas

variable {c : DecorationCanvas}

theorem create_hasTypes (uri : Uri) (color : String) (h : w.HasTypes used) :
    Ends (create uri color) w
      (fun c w' => w'.HasTypes (c.decoration ::ₘ used) ∧ w'.failures.get? .createDecorationType = none)
      fun _ w' => w'.HasTypes used ∧ (w.failures.get? .createDecorationType).isSome :=
  (Decoration.create_hasTypes color h).bind (fun _ _ h' => .pure h') fun _ _ he => he

theorem skip_hasTypes (c : DecorationCanvas) (line : String) :
    Within (Preserves (HasTypes used)) (c.skip line) :=
  Within.bind (fun _ h => emit_hasTypes rfl h) fun _ => .pure c

theorem draw_hasTypes (hc : c.decoration ∈ used) (line : Number) :
    Within (Preserves (HasTypes used)) (c.draw line) := by
  refine .look fun w => ?_
  split
  · exact c.skip_hasTypes _
  · exact Within.bind (Decoration.draw_hasTypes c.uri hc _) fun _ => .pure _

theorem clear_hasTypes (hc : c.decoration ∈ used) : Within (Preserves (HasTypes used)) c.clear := by
  unfold clear
  split
  · exact .pure c
  · exact Within.bind (Decoration.draw_hasTypes c.uri hc _) fun _ => .pure _

theorem foldlM_draw_hasTypes (lines : List Number) (hc : c.decoration ∈ used) (h : w.HasTypes used) :
    Gives (lines.foldlM draw c) w fun _ w' => w'.HasTypes used := by
  induction lines generalizing c w with
  | nil => exact .pure h
  | cons line lines ih =>
    rw [List.foldlM_cons]
    refine ((c.draw_gives line w).and (draw_hasTypes hc line w)).bind fun c' w' h' => ?_
    obtain ⟨⟨hsame, -⟩, hkeeps⟩ := h'
    exact ih (hsame.2 ▸ hc) (hkeeps h)

theorem release_hasTypes (h : w.HasTypes (c.decoration ::ₘ used)) :
    Gives c.release w fun _ w' => w'.HasTypes used :=
  (Decoration.dispose_hasTypes h).bind fun _ _ h' => .pure h'

end DecorationCanvas

/-! ### Sessions -/

namespace Session

variable {s : Session DecorationCanvas}

theorem wipe_hasTypes {role : Role} (hs : s.decoration role ∈ used) :
    Within (Preserves (HasTypes used)) (s.wipe role : Action _) :=
  (DecorationCanvas.clear_hasTypes hs).bind fun _ => .pure _

theorem cursorMoved_hasTypes (origin : Role) (line : Number)
    (hs : s.hasEnded = false → ∀ role, s.decoration role ∈ used) (h : w.HasTypes used) :
    Gives (s.cursorMoved origin line : Action _) w fun _ w' => w'.HasTypes used := by
  unfold cursorMoved
  split
  · exact .pure h
  · rename_i hlive
    have hall := hs (by simpa using hlive)
    refine ((s.wipe_gives origin.other w).and (wipe_hasTypes (hall origin.other) w)).bind fun s₁ w₁ h₁ => ?_
    obtain ⟨⟨hfollows, -⟩, hkeeps⟩ := h₁
    refine (DecorationCanvas.foldlM_draw_hasTypes _ ?_ (hkeeps h)).bind fun _ _ h' => .pure h'
    show s₁.decoration origin.other ∈ used
    rw [hfollows.decoration]
    exact hall origin.other

theorem cursorLeft_hasTypes (origin : Role) (hs : s.hasEnded = false → ∀ role, s.decoration role ∈ used)
    (h : w.HasTypes used) : Gives (s.cursorLeft origin : Action _) w fun _ w' => w'.HasTypes used := by
  unfold cursorLeft
  split
  · exact .pure h
  · rename_i hlive
    exact wipe_hasTypes (hs (by simpa using hlive) origin.other) w h

theorem finish_hasTypes (hlive : s.hasEnded = false)
    (h : w.HasTypes (s.decoration .source ::ₘ s.decoration .generated ::ₘ used)) :
    Gives (s.finish : Action _) w fun _ w' => w'.HasTypes used := by
  unfold finish
  rw [if_neg (by rw [hlive]; exact Bool.false_ne_true)]
  have hsource : s.decoration .source ∈ s.decoration .source ::ₘ s.decoration .generated ::ₘ used :=
    Multiset.mem_cons_self ..
  have hgenerated : s.decoration .generated ∈ s.decoration .source ::ₘ s.decoration .generated ::ₘ used :=
    Multiset.mem_cons_of_mem (Multiset.mem_cons_self ..)
  refine ((s.wipe_gives .source w).and (wipe_hasTypes hsource w)).bind fun s₁ w₁ h₁ => ?_
  obtain ⟨⟨hfollows₁, -⟩, hkeeps₁⟩ := h₁
  have hgenerated₁ : s₁.decoration .generated ∈ s.decoration .source ::ₘ s.decoration .generated ::ₘ used := by
    rw [hfollows₁.decoration]
    exact hgenerated
  refine ((s₁.wipe_gives .generated w₁).and (wipe_hasTypes hgenerated₁ w₁)).bind fun s₂ w₂ h₂ => ?_
  obtain ⟨⟨hfollows₂, -⟩, hkeeps₂⟩ := h₂
  have hfollows := hfollows₁.trans hfollows₂
  have h₂ := hkeeps₂ (hkeeps₁ h)
  rw [← hfollows.decoration .source, ← hfollows.decoration .generated] at h₂
  refine (DecorationCanvas.release_hasTypes (c := s₂.source.canvas) h₂).bind fun _ w₃ h₃ => ?_
  exact (DecorationCanvas.release_hasTypes (c := s₂.generated.canvas) h₃).bind fun _ _ h' => .pure h'

end Session

/-! ### The types of the registered sessions -/

namespace Entry

def owned (l : List (Entry DecorationCanvas)) : Multiset Nat :=
  ↑((l.filter isLive).flatMap Entry.types)

variable {e e' : Entry DecorationCanvas} {l l' : List (Entry DecorationCanvas)}

theorem owned_append : owned (l ++ l') = owned l + owned l' := by
  unfold owned
  rw [List.filter_append, List.flatMap_append, Multiset.coe_add]

theorem owned_cons : owned (e :: l) = owned [e] + owned l := owned_append (l := [e])

theorem owned_of_live (h : e.isLive = true) :
    owned [e] = e.session.decoration .source ::ₘ {e.session.decoration .generated} := by
  unfold owned
  rw [List.filter_singleton, h]
  rfl

theorem owned_of_ended (h : e.isLive = false) : owned [e] = 0 := by
  unfold owned
  rw [List.filter_singleton, h]
  rfl

theorem owned_of_follows (h : e.Follows e') (hlive : e'.isLive = e.isLive) : owned [e'] = owned [e] := by
  unfold owned
  rw [List.filter_singleton, List.filter_singleton, hlive]
  cases e.isLive with
  | true => exact congrArg _ (by simp [h.types])
  | false => rfl

theorem mem_owned (h : e.session.hasEnded = false) (role : Role) : e.session.decoration role ∈ owned [e] := by
  rw [owned_of_live (isLive_iff.2 h)]
  cases role with
  | source => exact Multiset.mem_cons_self ..
  | generated => exact Multiset.mem_cons_of_mem (Multiset.mem_singleton_self _)

end Entry

namespace Controller

open Entry

variable {c : Controller DecorationCanvas} {rest : Multiset Nat}

def owned (c : Controller DecorationCanvas) : Multiset Nat := Entry.owned c.entries

theorem mapM_hasTypes {f : Entry DecorationCanvas → Action (Entry DecorationCanvas)}
    {l : List (Entry DecorationCanvas)}
    (hf : ∀ e ∈ l, ∀ w rest, w.HasTypes (Entry.owned [e] + rest) →
      Gives (f e) w fun e' w' => w'.HasTypes (Entry.owned [e'] + rest))
    (h : w.HasTypes (Entry.owned l + rest)) :
    Gives (l.mapM f) w fun l' w' => w'.HasTypes (Entry.owned l' + rest) := by
  induction l generalizing w rest with
  | nil => exact .pure h
  | cons e l ih =>
    have hswap : ∀ a b : Multiset Nat, a + (b + rest) = b + (a + rest) := fun a b => by
      rw [← Multiset.add_assoc, Multiset.add_comm a, Multiset.add_assoc]
    rw [owned_cons, Multiset.add_assoc] at h
    rw [List.mapM_cons]
    refine (hf e List.mem_cons_self w _ h).bind fun e' w₁ h₁ => ?_
    rw [hswap] at h₁
    refine (ih (fun e he => hf e (List.mem_cons_of_mem _ he)) h₁).bind fun l' w' h' => .pure ?_
    rw [owned_cons, Multiset.add_assoc, hswap]
    exact h'

theorem mapEntries_hasTypes {f : Entry DecorationCanvas → Action (Entry DecorationCanvas)}
    (hf : ∀ e ∈ c.entries, ∀ w rest, w.HasTypes (Entry.owned [e] + rest) →
      Gives (f e) w fun e' w' => w'.HasTypes (Entry.owned [e'] + rest)) (h : w.HasTypes c.owned) :
    Gives (c.mapEntries f) w fun c' w' => w'.HasTypes c'.owned := by
  rw [owned, ← Multiset.add_zero (Entry.owned c.entries)] at h
  refine (mapM_hasTypes hf h).bind fun l' w' h' => .pure ?_
  rw [Multiset.add_zero] at h'
  exact h'

theorem finishEntry_hasTypes (e : Entry DecorationCanvas) (w : Window) (rest : Multiset Nat)
    (h : w.HasTypes (Entry.owned [e] + rest)) :
    Gives (finishEntry e) w fun e' w' => w'.HasTypes (Entry.owned [e'] + rest) := by
  unfold finishEntry
  split
  · exact .pure h
  · rename_i hlive
    have hlive' : e.session.hasEnded = false := by simpa using hlive
    rw [owned_of_live (isLive_iff.2 hlive'), Multiset.cons_add, Multiset.singleton_add] at h
    refine ((e.session.finish_gives w).and (e.session.finish_hasTypes hlive' h)).bind fun s w₁ h₁ => ?_
    obtain ⟨⟨-, -, hended, -⟩, h₁⟩ := h₁
    refine (emit_hasTypes rfl h₁).bind fun _ w' h' => .pure ?_
    have hnot : ({ e with session := s } : Entry DecorationCanvas).isLive = false := by
      unfold Entry.isLive
      rw [hended]
      rfl
    rw [owned_of_ended hnot, Multiset.zero_add]
    exact h'

theorem finishWhere_hasTypes (p : Entry DecorationCanvas → Bool) (h : w.HasTypes c.owned) :
    Gives (c.finishWhere p) w fun c' w' => w'.HasTypes c'.owned := by
  refine mapEntries_hasTypes (fun e _ w rest h => ?_) h
  split
  · exact finishEntry_hasTypes e w rest h
  · exact .pure h

theorem goesOn_hasTypes {e : Entry DecorationCanvas} {x : Action (Session DecorationCanvas)}
    (hfollows : Gives x w fun s _ => e.session.Follows s ∧ s.hasEnded = e.session.hasEnded)
    (hused : Gives x w fun _ w' => w'.HasTypes used) (hsame : used = Entry.owned [e] + rest) :
    Gives (do return { e with session := ← x } : Action (Entry DecorationCanvas)) w fun e' w' =>
      w'.HasTypes (Entry.owned [e'] + rest) := by
  refine (hfollows.and hused).bind fun s w' h => .pure ?_
  obtain ⟨⟨hfollows, hended⟩, h'⟩ := h
  have hgoes := goesOn_of_same hfollows hended
  rw [owned_of_follows hgoes.1 hgoes.2, ← hsame]
  exact h'

theorem cursorMoved_hasTypes (uri : String) (line : Number) (h : w.HasTypes c.owned) :
    Gives (c.cursorMoved uri line) w fun c' w' => w'.HasTypes c'.owned := by
  refine mapEntries_hasTypes (fun e _ w rest h => ?_) h
  split
  · rename_i role _
    refine goesOn_hasTypes ((e.session.cursorMoved_gives role line w).mono fun _ _ h => ⟨h.1, h.2.2.2.1⟩)
      (e.session.cursorMoved_hasTypes role line (fun hlive role => ?_) h) rfl
    exact Multiset.mem_add.2 (.inl (mem_owned hlive role))
  · exact .pure h

theorem cursorLeft_hasTypes (uri : String) (h : w.HasTypes c.owned) :
    Gives (c.cursorLeft uri) w fun c' w' => w'.HasTypes c'.owned := by
  refine mapEntries_hasTypes (fun e _ w rest h => ?_) h
  split
  · rename_i role _
    refine goesOn_hasTypes ((e.session.cursorLeft_gives role w).mono fun _ _ h => ⟨h.1, h.2.2.2.1⟩)
      (e.session.cursorLeft_hasTypes role (fun hlive role => ?_) h) rfl
    exact Multiset.mem_add.2 (.inl (mem_owned hlive role))
  · exact .pure h

theorem notice_hasTypes (n : Notice) (h : w.HasTypes c.owned) :
    Gives (c.notice n) w fun c' w' => w'.HasTypes c'.owned := by
  unfold notice
  split
  · exact .pure h
  · split
    · exact cursorMoved_hasTypes _ _ h
    · unfold activeChanged
      split
      · split
        · exact .pure h
        · exact (cursorLeft_hasTypes _ h).bind fun _ _ h' => .pure h'
      · exact .pure h
    · exact finishWhere_hasTypes _ h
    · exact .pure h

/-- Either both decoration types of a new session are made or none is: a call that was made to fail does so
when the first one is made. -/
theorem start_hasTypes (source generated : Uri) (index : LineIndex) (color : String) (h : w.HasTypes c.owned) :
    Gives (c.start DecorationCanvas.create source generated index color) w fun r w' =>
      w'.HasTypes r.1.owned := by
  refine (finishWhere_hasTypes _ h).bind fun c₁ w₁ h₁ => ?_
  have hcanvases : Ends (do
      return (← DecorationCanvas.create source color, ← DecorationCanvas.create generated color)) w₁
      (fun r w' => w'.HasTypes (r.2.decoration ::ₘ r.1.decoration ::ₘ c₁.owned))
      fun _ w' => w'.HasTypes c₁.owned := by
    refine (DecorationCanvas.create_hasTypes source color h₁).bind (fun _ w₂ h₂ => ?_) fun _ _ he => he.1
    refine (DecorationCanvas.create_hasTypes generated color h₂.1).bind (fun _ _ h' => .pure h'.1)
      fun _ _ he => ?_
    rw [h₂.2] at he
    nomatch he.2
  unfold Ends at hcanvases
  dsimp only
  refine hcanvases.bind fun r w₂ h₂ => ?_
  cases r with
  | error fault => exact .pure h₂
  | ok canvases =>
    refine (emit_hasTypes rfl h₂).bind fun _ w' h' => .pure ?_
    rw [owned, owned_append, owned_of_live rfl, Multiset.add_comm, Multiset.cons_add, Multiset.singleton_add,
      Multiset.cons_swap]
    exact h'

end Controller

end AsmLens
