import AsmLens.Highlight.Controller
import AsmLens.Proofs.Decorating
import Mathlib.Data.List.Forall2

/-!
# The controller at work

What the controller of highlight sessions does with the entries of its sessions: none is taken away or
exchanged, a session that has ended does not begin anew, and nothing is decorated but with the
decoration types of the sessions. `Controller.start_gives` says which sessions there are after one was
started, and `Controller.notice_gives` which are left after a notice.

No decoration type belongs to two sessions, so no session touches what another one shows. Hence
`Controller.Agrees`, by which nothing is shown but what the sessions highlight, is kept by all of this.
-/

namespace AsmLens

open Window

/-! ### Lists side by side -/

section Lists

variable {α β γ : Type} {R : α → β → Prop} {S : β → γ → Prop} {T : α → γ → Prop}

theorem forall₂_exists_left {l : List α} {l' : List β} (h : List.Forall₂ R l l') {b : β} (hb : b ∈ l') :
    ∃ a ∈ l, R a b := by
  induction h with
  | nil => nomatch hb
  | cons hab _ ih =>
    rcases List.mem_cons.1 hb with rfl | hb
    · exact ⟨_, List.mem_cons_self, hab⟩
    · obtain ⟨a, ha, hr⟩ := ih hb
      exact ⟨a, List.mem_cons_of_mem _ ha, hr⟩

theorem forall₂_exists_right {l : List α} {l' : List β} (h : List.Forall₂ R l l') {a : α} (ha : a ∈ l) :
    ∃ b ∈ l', R a b := by
  obtain ⟨b, hb, hr⟩ := forall₂_exists_left h.flip ha
  exact ⟨b, hb, hr⟩

theorem forall₂_trans (hT : ∀ a b c, R a b → S b c → T a c) {l : List α} {l' : List β} {l'' : List γ}
    (h : List.Forall₂ R l l') (h' : List.Forall₂ S l' l'') : List.Forall₂ T l l'' := by
  induction h generalizing l'' with
  | nil =>
    cases h'
    exact .nil
  | cons hab _ ih =>
    cases h' with
    | cons hbc hrest => exact .cons (hT _ _ _ hab hbc) (ih hrest)

end Lists

/-! ### Entries -/

namespace Entry

def Draws (e : Entry DecorationCanvas) (n : Nat) : Prop := ∃ role, n = e.session.decoration role

structure Follows (e e' : Entry DecorationCanvas) : Prop where
  source : e'.source = e.source
  generated : e'.generated = e.generated
  session : e.session.Follows e'.session

variable {e e' e'' : Entry DecorationCanvas}

theorem Follows.refl (e : Entry DecorationCanvas) : e.Follows e := ⟨rfl, rfl, .refl _⟩

theorem Follows.trans (h : e.Follows e') (h' : e'.Follows e'') : e.Follows e'' :=
  ⟨h'.source.trans h.source, h'.generated.trans h.generated, h.session.trans h'.session⟩

theorem Follows.draws (h : e.Follows e') : e'.Draws = e.Draws := by
  funext n
  unfold Draws
  simp only [h.session.decoration]

def types (e : Entry DecorationCanvas) : List Nat :=
  [e.session.decoration .source, e.session.decoration .generated]

theorem mem_types {n : Nat} : n ∈ e.types ↔ e.Draws n := by
  unfold types Draws
  rw [List.mem_cons, List.mem_singleton]
  constructor
  · rintro (h | h)
    · exact ⟨.source, h⟩
    · exact ⟨.generated, h⟩
  · rintro ⟨role, h⟩
    cases role with
    | source => exact .inl h
    | generated => exact .inr h

theorem Follows.types (h : e.Follows e') : e'.types = e.types := by
  unfold Entry.types
  rw [h.session.decoration, h.session.decoration]

theorem isLive_iff : e.isLive = true ↔ e.session.hasEnded = false := by
  unfold isLive
  rw [Bool.not_eq_true']

theorem Follows.isLive (h : e.Follows e') (hlive : e'.isLive = true) : e.isLive = true :=
  isLive_iff.2 (h.session.live (isLive_iff.1 hlive))

theorem key_eq {ν : Type} {e e' : Entry ν} (hsource : e'.source = e.source)
    (hgenerated : e'.generated = e.generated) : e'.key = e.key := by
  unfold key
  rw [hsource, hgenerated]

theorem Follows.role? (h : e.Follows e') (uri : String) : e'.role? uri = e.role? uri := by
  unfold Entry.role?
  rw [h.source, h.generated]

theorem role?_source (e : Entry DecorationCanvas) : (e.role? e.source.text).isSome := by
  unfold Entry.role?
  rw [if_pos rfl]
  rfl

theorem role?_generated (e : Entry DecorationCanvas) : (e.role? e.generated.text).isSome := by
  unfold Entry.role?
  split
  · rfl
  · rw [if_pos rfl]
    rfl

end Entry

/-! ### Sessions that go on and sessions that end -/

namespace Controller

def Draws (c : Controller DecorationCanvas) (n : Nat) : Prop := ∃ e ∈ c.entries, e.Draws n

/-- Two states of an entry, of which the later one has ended if it is to end. -/
def EndsWhere (p : Entry DecorationCanvas → Bool) (e e' : Entry DecorationCanvas) : Prop :=
  e.Follows e' ∧ (p e = true → e'.isLive = false) ∧ (p e = false → e' = e)

theorem endsWhere_trans (key : String) {l l' l'' : List (Entry DecorationCanvas)}
    (h : List.Forall₂ (EndsWhere fun e => e.key = key) l l')
    (h' : List.Forall₂ (EndsWhere fun e => e.key = key) l' l'') :
    List.Forall₂ (EndsWhere fun e => e.key = key) l l'' := by
  refine forall₂_trans (fun e e' e'' he he' => ?_) h h'
  refine ⟨he.1.trans he'.1, fun hkey => ?_, fun hkey => ?_⟩
  · by_contra hlive
    rw [Bool.not_eq_false] at hlive
    exact Bool.false_ne_true ((he.2.1 hkey).symm.trans (he'.1.isLive hlive))
  · have heq := he.2.2 hkey
    subst heq
    exact he'.2.2 hkey

variable {c : Controller DecorationCanvas}

theorem draws_of_follows {c c' : Controller DecorationCanvas}
    (h : List.Forall₂ Entry.Follows c.entries c'.entries) {n : Nat} (hn : c'.Draws n) : c.Draws n := by
  obtain ⟨e', he', hdraws⟩ := hn
  obtain ⟨e, he, hfollows⟩ := forall₂_exists_left h he'
  exact ⟨e, he, hfollows.draws ▸ hdraws⟩

theorem forall₂_follows_refl (l : List (Entry DecorationCanvas)) : List.Forall₂ Entry.Follows l l :=
  List.forall₂_same.2 fun e _ => .refl e

theorem types_of_follows {l l' : List (Entry DecorationCanvas)} (h : List.Forall₂ Entry.Follows l l') :
    l'.flatMap Entry.types = l.flatMap Entry.types := by
  induction h with
  | nil => rfl
  | cons hfollows _ ih => rw [List.flatMap_cons, List.flatMap_cons, hfollows.types, ih]

/-- No decoration type belongs to two canvases, and nothing is shown of the sessions but what they
highlight. -/
structure Agrees (c : Controller DecorationCanvas) (w : Window) : Prop where
  nodup : (c.entries.flatMap Entry.types).Nodup
  session : ∀ e ∈ c.entries, e.session.Agrees w

/-- A session goes on, and agrees with what is shown then. -/
def StaysWith (e e' : Entry DecorationCanvas) (w : Window) : Prop := e.Follows e' ∧ e'.session.Agrees w

theorem Agrees.stays {c' : Controller DecorationCanvas} {w w' : Window} (h : c.Agrees w)
    (hstays : List.Forall₂ (fun e e' => StaysWith e e' w') c.entries c'.entries) : c'.Agrees w' where
  nodup := by
    rw [types_of_follows (hstays.imp fun _ _ h => h.1)]
    exact h.nodup
  session e' he' := by
    obtain ⟨e, -, hstay⟩ := forall₂_exists_left hstays he'
    exact hstay.2

theorem Agrees.carries {w w' : Window} (h : c.Agrees w) (hw : Carries w w') : c.Agrees w' :=
  ⟨h.nodup, fun e he => (h.session e he).carries hw⟩

theorem StaysWith.redecorates {e e' : Entry DecorationCanvas} {T : Nat → Prop} {w w' : Window}
    (h : StaysWith e e' w) (hw : Redecorates T w w') (hT : ∀ n, e.Draws n → ¬ T n) : StaysWith e e' w' :=
  ⟨h.1, h.2.redecorates hw fun role => hT _ ⟨role, h.1.session.decoration role⟩⟩

/-- What is done to the sessions one by one. What one of them draws is no matter of the others. -/
theorem mapM_gives {f : Entry DecorationCanvas → Action (Entry DecorationCanvas)}
    {R : Entry DecorationCanvas → Entry DecorationCanvas → Prop}
    {Q : Entry DecorationCanvas → Entry DecorationCanvas → Window → Prop}
    (hQ : ∀ ⦃e e' T w w'⦄, Q e e' w → Redecorates T w w' → (∀ n, e.Draws n → ¬ T n) → Q e e' w')
    {l : List (Entry DecorationCanvas)}
    (hf : ∀ e ∈ l, ∀ w, Gives (f e) w fun e' w' => R e e' ∧ Redecorates e.Draws w w' ∧
      (e.session.Agrees w → Q e e' w')) (w : Window) :
    Gives (l.mapM f) w fun l' w' => List.Forall₂ R l l' ∧
      Redecorates (fun n => ∃ e ∈ l, e.Draws n) w w' ∧
      ((l.flatMap Entry.types).Nodup → (∀ e ∈ l, e.session.Agrees w) →
        List.Forall₂ (fun e e' => Q e e' w') l l') := by
  induction l generalizing w with
  | nil => exact .pure ⟨.nil, Frame.refl w, fun _ _ => .nil⟩
  | cons e l ih =>
    rw [List.mapM_cons]
    refine (hf e List.mem_cons_self w).bind fun e' w₁ h₁ => ?_
    refine (ih (fun e he => hf e (List.mem_cons_of_mem _ he)) w₁).bind fun l' w' h' => .pure ?_
    obtain ⟨hR, hdraws₁, hagrees₁⟩ := h₁
    obtain ⟨hRs, hdraws, hagrees⟩ := h'
    have hdraws₁' : Redecorates (fun n => ∃ e' ∈ e :: l, e'.Draws n) w w₁ :=
      hdraws₁.mono fun n hn => ⟨e, List.mem_cons_self, hn⟩
    have hdraws' : Redecorates (fun n => ∃ e' ∈ e :: l, e'.Draws n) w₁ w' :=
      hdraws.mono fun n ⟨e', he', hn⟩ => ⟨e', List.mem_cons_of_mem _ he', hn⟩
    refine ⟨.cons hR hRs, Frame.trans hdraws₁' hdraws', fun hnodup hall => ?_⟩
    -- Neither do the others draw with the types of `e`, nor does `e` draw with theirs.
    rw [List.flatMap_cons, List.nodup_append] at hnodup
    obtain ⟨-, hnodup, hne⟩ := hnodup
    have hapart : ∀ n, e.Draws n → ¬ ∃ e' ∈ l, e'.Draws n := by
      rintro n hn ⟨e', he', hn'⟩
      exact hne n (Entry.mem_types.2 hn) n (List.mem_flatMap.2 ⟨e', he', Entry.mem_types.2 hn'⟩) rfl
    refine .cons (hQ (hagrees₁ (hall e List.mem_cons_self)) hdraws hapart) (hagrees hnodup fun e' he' => ?_)
    exact (hall e' (List.mem_cons_of_mem _ he')).redecorates hdraws₁ fun role hn =>
      hapart _ hn ⟨e', he', role, rfl⟩

theorem mapEntries_gives {f : Entry DecorationCanvas → Action (Entry DecorationCanvas)}
    {R : Entry DecorationCanvas → Entry DecorationCanvas → Prop}
    {Q : Entry DecorationCanvas → Entry DecorationCanvas → Window → Prop}
    (hQ : ∀ ⦃e e' T w w'⦄, Q e e' w → Redecorates T w w' → (∀ n, e.Draws n → ¬ T n) → Q e e' w')
    (hf : ∀ e ∈ c.entries, ∀ w, Gives (f e) w fun e' w' => R e e' ∧ Redecorates e.Draws w w' ∧
      (e.session.Agrees w → Q e e' w')) (w : Window) :
    Gives (c.mapEntries f) w fun c' w' => List.Forall₂ R c.entries c'.entries ∧
      c'.activeUri = c.activeUri ∧ c'.isListening = c.isListening ∧ Redecorates c.Draws w w' ∧
      (c.Agrees w → List.Forall₂ (fun e e' => Q e e' w') c.entries c'.entries) :=
  (mapM_gives (Q := Q) hQ hf w).bind fun _ _ h => .pure
    ⟨h.1, rfl, rfl, h.2.1, fun hagrees => h.2.2 hagrees.nodup hagrees.session⟩

theorem mapEntries_stays {f : Entry DecorationCanvas → Action (Entry DecorationCanvas)}
    {R : Entry DecorationCanvas → Entry DecorationCanvas → Prop}
    (hf : ∀ e ∈ c.entries, ∀ w, Gives (f e) w fun e' w' => R e e' ∧ Redecorates e.Draws w w' ∧
      (e.session.Agrees w → StaysWith e e' w')) (w : Window) :
    Gives (c.mapEntries f) w fun c' w' => List.Forall₂ R c.entries c'.entries ∧
      c'.activeUri = c.activeUri ∧ c'.isListening = c.isListening ∧ Redecorates c.Draws w w' ∧
      (c.Agrees w → c'.Agrees w') :=
  (mapEntries_gives (Q := StaysWith) (fun _ _ _ _ _ => StaysWith.redecorates) hf w).mono fun _ _ h =>
    ⟨h.1, h.2.1, h.2.2.1, h.2.2.2.1, fun hagrees => hagrees.stays (h.2.2.2.2 hagrees)⟩

theorem finishEntry_gives (e : Entry DecorationCanvas) (w : Window) :
    Gives (finishEntry e) w fun e' w' => e.Follows e' ∧ e'.isLive = false ∧ Redecorates e.Draws w w' ∧
      (e.session.Agrees w → e'.session.Agrees w') := by
  unfold finishEntry
  split
  · rename_i hended
    refine .pure ⟨.refl e, ?_, Frame.refl w, id⟩
    unfold Entry.isLive
    rw [hended]
    rfl
  · refine (e.session.finish_gives w).bind fun s w₁ h₁ => ?_
    obtain ⟨hfollows, hdraws, hended, hagrees₁⟩ := h₁
    refine (emit_logs _ rfl w₁).bind fun _ w' h => .pure ⟨⟨rfl, rfl, hfollows⟩, ?_, ?_, fun hagrees => ?_⟩
    · unfold Entry.isLive
      rw [hended]
      rfl
    · exact Frame.trans hdraws h.redecorates
    · exact (hagrees₁ hagrees).redecorates (T := fun _ => False) h.redecorates fun _ => id

theorem finishWhere_gives (c : Controller DecorationCanvas) (p : Entry DecorationCanvas → Bool)
    (w : Window) :
    Gives (c.finishWhere p) w fun c' w' => List.Forall₂ (EndsWhere p) c.entries c'.entries ∧
      c'.activeUri = c.activeUri ∧ c'.isListening = c.isListening ∧ Redecorates c.Draws w w' ∧
      (c.Agrees w → c'.Agrees w') := by
  refine mapEntries_stays (fun e _ w => ?_) w
  by_cases hp : p e = true
  · rw [if_pos hp]
    refine (finishEntry_gives e w).mono fun e' w' h => ?_
    refine ⟨⟨h.1, fun _ => h.2.1, fun hnot => ?_⟩, h.2.2.1, fun hagrees => ⟨h.1, h.2.2.2 hagrees⟩⟩
    rw [hp] at hnot
    contradiction
  · rw [if_neg hp]
    exact .pure ⟨⟨.refl e, fun h => absurd h hp, fun _ => rfl⟩, Frame.refl w, fun hagrees =>
      ⟨.refl e, hagrees⟩⟩

/-- A session goes on, and ends only if it has ended. -/
def GoesOn (e e' : Entry DecorationCanvas) : Prop := e.Follows e' ∧ e'.isLive = e.isLive

theorem goesOn_refl (e : Entry DecorationCanvas) : GoesOn e e := ⟨.refl e, rfl⟩

theorem goesOn_of_same {e : Entry DecorationCanvas} {s : Session DecorationCanvas}
    (hfollows : e.session.Follows s) (hended : s.hasEnded = e.session.hasEnded) :
    GoesOn e { e with session := s } := by
  refine ⟨⟨rfl, rfl, hfollows⟩, ?_⟩
  unfold Entry.isLive
  rw [hended]

/-- A session highlights in one of its documents the lines that belong to a line of the other one. -/
def Points (uri : String) (line : Number) (e e' : Entry DecorationCanvas) (w : Window) : Prop :=
  ∀ role, e.role? uri = some role → e.isLive = true →
    (e'.session.shown role.other).canvas.IsShown w ∧
    (e'.session.shown role.other).canvas.lines = (e.session.correlated role line).filterMap
      (DecorationCanvas.lineIn? w (e.session.shown role.other).canvas.uri)

theorem Points.redecorates {uri : String} {line : Number} {e e' : Entry DecorationCanvas} {T : Nat → Prop}
    {w w' : Window} (h : Points uri line e e' w) (hfollows : e.Follows e') (hw : Redecorates T w w')
    (hT : ∀ n, e.Draws n → ¬ T n) : Points uri line e e' w' := by
  intro role hrole hlive
  obtain ⟨hshown, hlines⟩ := h role hrole hlive
  refine ⟨hshown.redecorates hw (hT _ ⟨role.other, hfollows.session.decoration role.other⟩), ?_⟩
  rw [DecorationCanvas.lineIn?_redecorates hw]
  exact hlines

theorem cursorMoved_gives (c : Controller DecorationCanvas) (uri : String) (line : Number) (w : Window) :
    Gives (c.cursorMoved uri line) w fun c' w' => List.Forall₂ GoesOn c.entries c'.entries ∧
      c'.activeUri = c.activeUri ∧ c'.isListening = c.isListening ∧ Redecorates c.Draws w w' ∧
      (c.Agrees w → c'.Agrees w' ∧
        List.Forall₂ (fun e e' => GoesOn e e' ∧ Points uri line e e' w') c.entries c'.entries) := by
  refine (mapEntries_gives
    (Q := fun e e' w => StaysWith e e' w ∧ GoesOn e e' ∧ Points uri line e e' w)
    (fun _ _ _ _ _ h hw hT => ⟨h.1.redecorates hw hT, h.2.1, h.2.2.redecorates h.2.1.1 hw hT⟩)
    (fun e _ w => ?_) w).mono fun c' w' h => ⟨h.1, h.2.1, h.2.2.1, h.2.2.2.1, fun hagrees => ?_⟩
  · cases hrole : e.role? uri with
    | none =>
      refine .pure ⟨goesOn_refl e, Frame.refl w, fun hagrees => ⟨⟨.refl e, hagrees⟩, goesOn_refl e, ?_⟩⟩
      intro role hsome
      rw [hrole] at hsome
      nomatch hsome
    | some role =>
      refine (e.session.cursorMoved_gives role line w).bind fun s w' h => .pure ?_
      obtain ⟨hfollows, hdraws, -, hended, hlines, hagrees'⟩ := h
      have hgoes := goesOn_of_same hfollows hended
      refine ⟨hgoes, hdraws.mono fun n hn => ⟨role.other, hn⟩, fun hagrees =>
        ⟨⟨hgoes.1, (hagrees' hagrees).1⟩, hgoes, fun role' hrole' hlive => ?_⟩⟩
      cases hrole.symm.trans hrole'
      have hlive' := Entry.isLive_iff.1 hlive
      refine ⟨(hagrees' hagrees).2 hlive', ?_⟩
      rw [DecorationCanvas.lineIn?_redecorates hdraws]
      exact hlines hlive'
  · have hall := h.2.2.2.2 hagrees
    exact ⟨hagrees.stays (hall.imp fun _ _ h => h.1), hall.imp fun _ _ h => h.2⟩

theorem cursorLeft_gives (c : Controller DecorationCanvas) (uri : String) (w : Window) :
    Gives (c.cursorLeft uri) w fun c' w' => List.Forall₂ GoesOn c.entries c'.entries ∧
      c'.activeUri = c.activeUri ∧ c'.isListening = c.isListening ∧ Redecorates c.Draws w w' ∧
      (c.Agrees w → c'.Agrees w') := by
  refine mapEntries_stays (fun e _ w => ?_) w
  cases e.role? uri with
  | none => exact .pure ⟨goesOn_refl e, Frame.refl w, fun hagrees => ⟨.refl e, hagrees⟩⟩
  | some role =>
    refine (e.session.cursorLeft_gives role w).bind fun s w' h => .pure ?_
    obtain ⟨hfollows, hdraws, -, hended, -, hagrees'⟩ := h
    have hgoes := goesOn_of_same hfollows hended
    exact ⟨hgoes, hdraws.mono fun n hn => ⟨role.other, hn⟩, fun hagrees => ⟨hgoes.1, hagrees' hagrees⟩⟩

theorem forall₂_goesOn_refl (l : List (Entry DecorationCanvas)) : List.Forall₂ GoesOn l l :=
  List.forall₂_same.2 fun e _ => goesOn_refl e

theorem activeChanged_gives (c : Controller DecorationCanvas) (next : Option String) (w : Window) :
    Gives (c.activeChanged next) w fun c' w' => List.Forall₂ GoesOn c.entries c'.entries ∧
      c'.activeUri = next ∧ c'.isListening = c.isListening ∧ Redecorates c.Draws w w' ∧
      (c.Agrees w → c'.Agrees w') := by
  have hstay : Gives (pure { c with activeUri := next }) w fun c' w' =>
      List.Forall₂ GoesOn c.entries c'.entries ∧ c'.activeUri = next ∧
        c'.isListening = c.isListening ∧ Redecorates c.Draws w w' ∧ (c.Agrees w → c'.Agrees w') :=
    .pure ⟨forall₂_goesOn_refl _, rfl, rfl, Frame.refl w, fun h => ⟨h.nodup, h.session⟩⟩
  unfold activeChanged
  dsimp only
  split
  · split
    · exact hstay
    · refine (c.cursorLeft_gives _ w).bind fun c' w' h => .pure ⟨h.1, rfl, h.2.2.1, h.2.2.2.1, fun ha => ?_⟩
      have hagrees := h.2.2.2.2 ha
      exact ⟨hagrees.nodup, hagrees.session⟩
  · exact hstay

/-- A session goes on after a notice, unless one of its documents was closed. -/
def AfterNotice (n : Notice) (e e' : Entry DecorationCanvas) : Prop :=
  e.Follows e' ∧ (∀ uri, n = .closed uri → (e.role? uri.text).isSome → e'.isLive = false) ∧
    ((∀ uri, n ≠ .closed uri) → e'.isLive = e.isLive)

theorem notice_gives (c : Controller DecorationCanvas) (n : Notice) (w : Window) :
    Gives (c.notice n) w fun c' w' => List.Forall₂ Entry.Follows c.entries c'.entries ∧
      (c.isListening = true → List.Forall₂ (AfterNotice n) c.entries c'.entries) ∧
      c'.isListening = c.isListening ∧ Redecorates c.Draws w w' ∧ (c.Agrees w → c'.Agrees w') := by
  have hafter : ∀ {l l' : List (Entry DecorationCanvas)}, (∀ uri, n ≠ .closed uri) →
      List.Forall₂ GoesOn l l' → List.Forall₂ (AfterNotice n) l l' := fun hn h =>
    h.imp fun e e' hgoes => ⟨hgoes.1, fun uri huri => absurd huri (hn uri), fun _ => hgoes.2⟩
  have hfollows : ∀ {l l' : List (Entry DecorationCanvas)}, List.Forall₂ GoesOn l l' →
      List.Forall₂ Entry.Follows l l' := fun h => h.imp fun _ _ => And.left
  have hstay : (∀ uri, n ≠ .closed uri) → Gives (pure c : Action (Controller DecorationCanvas)) w
      fun c' w' => List.Forall₂ Entry.Follows c.entries c'.entries ∧
        (c.isListening = true → List.Forall₂ (AfterNotice n) c.entries c'.entries) ∧
        c'.isListening = c.isListening ∧ Redecorates c.Draws w w' ∧ (c.Agrees w → c'.Agrees w') :=
    fun hn => .pure ⟨forall₂_follows_refl _, fun _ => hafter hn (forall₂_goesOn_refl _), rfl, Frame.refl w,
      id⟩
  unfold notice
  by_cases hlistening : c.isListening = true
  · rw [if_neg (by rw [hlistening]; exact Bool.false_ne_true)]
    cases n with
    | selectionChanged uri selections =>
      cases selections with
      | nil => exact hstay nofun
      | cons selection rest =>
        refine (c.cursorMoved_gives uri.text (cursorLine selection) w).mono fun c' w' h => ?_
        exact ⟨hfollows h.1, fun _ => hafter nofun h.1, h.2.2.1, h.2.2.2.1, fun ha => (h.2.2.2.2 ha).1⟩
    | activeChanged uri =>
      refine (c.activeChanged_gives (uri.map (·.text)) w).mono fun c' w' h => ?_
      exact ⟨hfollows h.1, fun _ => hafter nofun h.1, h.2.2⟩
    | closed uri =>
      refine (c.finishWhere_gives _ w).mono fun c' w' h => ?_
      refine ⟨h.1.imp fun e e' he => he.1, fun _ => h.1.imp fun e e' he => ⟨he.1, ?_, ?_⟩, h.2.2⟩
      · intro uri' huri hrole
        cases huri
        exact he.2.1 hrole
      · exact fun hn => absurd rfl (hn uri)
    | _ => exact hstay nofun
  · rw [if_pos (by simpa using hlistening)]
    exact .pure ⟨forall₂_follows_refl _, fun h => absurd h hlistening, rfl, Frame.refl w, id⟩

theorem dispose_gives (c : Controller DecorationCanvas) (w : Window) :
    Gives c.dispose w fun c' w' => List.Forall₂ Entry.Follows c.entries c'.entries ∧
      (∀ e ∈ c'.entries, e.isLive = false) ∧ Redecorates c.Draws w w' ∧ (c.Agrees w → c'.Agrees w') := by
  refine (c.finishWhere_gives _ w).bind fun c' w' h => .pure
    ⟨h.1.imp fun e e' he => he.1, fun e' he' => ?_, h.2.2.2.1, fun ha => ?_⟩
  · obtain ⟨e, -, he⟩ := forall₂_exists_left h.1 he'
    exact he.2.1 rfl
  · have hagrees := h.2.2.2.2 ha
    exact ⟨hagrees.nodup, hagrees.session⟩

/-! ### A session that starts -/

def newEntry (source generated : Uri) (index : LineIndex) (k l : Nat) : Entry DecorationCanvas :=
  ⟨source, generated, .create index ⟨source, k, []⟩ ⟨generated, l, []⟩⟩

/-- One session is started in place of the one with its key, unless a decoration type cannot be
made. -/
theorem start_gives (c : Controller DecorationCanvas) (source generated : Uri) (index : LineIndex)
    (color : String) (w : Window) :
    Gives (c.start DecorationCanvas.create source generated index color) w fun r w' =>
      Redecorates c.Draws w w' ∧ r.1.isListening = c.isListening ∧ r.1.activeUri = c.activeUri ∧
      ∃ old, List.Forall₂ (EndsWhere fun e => e.key = Uri.sessionKey source generated) c.entries old ∧
        (c.Agrees w → ∀ e ∈ old, e.session.Agrees w') ∧
        (r.1.entries = old ∧ (∃ fault, r.2 = .error fault) ∧
            (w.failures.get? .createDecorationType).isSome ∨
          ∃ k l, r.1.entries = old ++ [newEntry source generated index k l] ∧ r.2 = .ok () ∧
            w.decorationTypes ≤ k ∧ k < l ∧ l < w'.decorationTypes) := by
  refine (c.finishWhere_gives _ w).bind fun c₁ w₁ h₁ => ?_
  obtain ⟨hends, hactive, hlistening, hdraws₁, hagrees₁⟩ := h₁
  -- Making decoration types decorates nothing.
  have hcanvases : Ends (do
      return (← DecorationCanvas.create source color, ← DecorationCanvas.create generated color)) w₁
      (fun r w' => Redecorates (fun _ => False) w₁ w' ∧ ∃ k l, r = (⟨source, k, []⟩, ⟨generated, l, []⟩) ∧
        w₁.decorationTypes ≤ k ∧ k < l ∧ l < w'.decorationTypes)
      fun _ w' => Redecorates (fun _ => False) w₁ w' ∧
        (w₁.failures.get? .createDecorationType).isSome := by
    refine (DecorationCanvas.create_ends source color w₁).bind (fun canvas w₂ h₂ => ?_) fun _ _ he => he
    obtain ⟨hdraws₂, rfl, hnext₂⟩ := h₂
    refine (DecorationCanvas.create_ends generated color w₂).bind (fun canvas w' h' => .pure ?_)
      fun _ _ he => ⟨Frame.trans hdraws₂ he.1, hdraws₂.armed he.2⟩
    obtain ⟨hdraws', rfl, hnext⟩ := h'
    exact ⟨Frame.trans hdraws₂ hdraws', _, _, rfl, Nat.le_refl _, by omega, by omega⟩
  have hdraws : ∀ {w'}, Redecorates (fun _ => False) w₁ w' → Redecorates c.Draws w w' := fun h =>
    Frame.trans hdraws₁ (h.mono fun _ => False.elim)
  have hagrees : ∀ {w'}, Redecorates (fun _ => False) w₁ w' →
      c.Agrees w → ∀ e ∈ c₁.entries, e.session.Agrees w' := fun h ha e he =>
    ((hagrees₁ ha).session e he).redecorates h fun _ => id
  unfold Ends at hcanvases
  dsimp only
  refine hcanvases.bind fun r w₂ h₂ => ?_
  cases r with
  | error fault =>
    obtain ⟨hnothing, harmed⟩ := h₂
    exact .pure ⟨hdraws hnothing, hlistening, hactive, c₁.entries, hends, hagrees hnothing,
      .inl ⟨rfl, ⟨fault, rfl⟩, hdraws₁.armed harmed⟩⟩
  | ok canvases =>
    obtain ⟨hnothing, k, l, rfl, hk, hkl, hl⟩ := h₂
    refine (emit_logs _ rfl w₂).bind fun _ w' h => .pure ?_
    have hnothing' := Frame.trans hnothing h.redecorates
    refine ⟨hdraws hnothing', hlistening, hactive, c₁.entries, hends, hagrees hnothing',
      .inr ⟨k, l, rfl, rfl, ?_⟩⟩
    have hle₁ := hdraws₁.decorationTypes
    have hle := (h.redecorates (T := c.Draws)).decorationTypes
    exact ⟨by omega, hkl, by omega⟩

end Controller

end AsmLens
