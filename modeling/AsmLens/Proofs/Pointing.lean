import AsmLens.Proofs.Canvases
import AsmLens.Proofs.Following
import Mathlib.Data.List.Induction

/-!
# What a session points to

A document of a session highlights what belongs to the line of the cursor in the other document. The last
thing that happened to that cursor decides: either it came to a line, or the pane with it was left. Nothing
else that happens to the controller matters, nor do other sessions on the same documents
(`Controller.points_to_last_cursor`).

A history lists what happened to a controller, each time with the window as it was. The program and the user
may have changed the window in between.
-/

namespace AsmLens

/-- What happens to a controller. -/
inductive Happening where
  | start (source generated : Uri) (index : LineIndex) (color : String)
  | finish (key : String)
  | finishAll
  | notice (n : Notice)

namespace Happening

def startedKey? : Happening → Option String
  | start source generated _ _ => some (Uri.sessionKey source generated)
  | _ => none

/-- The document in the active pane, given the one before. -/
def activeUri (active : Option String) : Happening → Option String
  | notice (.activeChanged uri) => uri.map (·.text)
  | _ => active

/-- What is learned of the cursor in a document, given the document in the active pane: it has come to a
line, or it has left. -/
def cursor? (active : Option String) (uri : String) : Happening → Option (Option Number)
  | notice (.selectionChanged selected (selection :: _)) =>
    if selected.text = uri then some (some (Controller.cursorLine selection)) else none
  | notice (.activeChanged next) =>
    if active = some uri ∧ next.map (·.text) ≠ some uri then some none else none
  | _ => none

variable {ν : Type} [Canvas Action ν]

def perform (make : Uri → String → Host ν) (c : Controller ν) : Happening → Action (Controller ν)
  | start source generated index color => do return (← c.start make source generated index color).1
  | finish key => c.finish key
  | finishAll => c.finishAll
  | notice n => c.notice n

end Happening

/-! ### Histories -/

/-- What happened to a controller, and the window each time. -/
abbrev History := List (Window × Happening)

namespace History

def activeUri (active : Option String) (l : History) : Option String :=
  l.foldl (fun active p => p.2.activeUri active) active

/-- What was last learned of the cursor in a document, and the window when it was. -/
def lastCursor? (uri : String) : Option String → History → Option (Window × Option Number)
  | _, [] => none
  | active, (w, o) :: l =>
    (lastCursor? uri (o.activeUri active) l).or ((o.cursor? active uri).map fun cursor => (w, cursor))

theorem activeUri_concat (active : Option String) (l : History) (w : Window) (o : Happening) :
    activeUri active (l ++ [(w, o)]) = o.activeUri (activeUri active l) := by
  unfold activeUri
  rw [List.foldl_append]
  rfl

theorem lastCursor?_concat (uri : String) (active : Option String) (l : History) (w : Window)
    (o : Happening) :
    lastCursor? uri active (l ++ [(w, o)]) =
      ((o.cursor? (activeUri active l) uri).map fun cursor => (w, cursor)).or
        (lastCursor? uri active l) := by
  induction l generalizing active with
  | nil =>
    show (none : Option (Window × Option Number)).or _ = Option.or _ none
    rw [Option.none_or, Option.or_none]
    rfl
  | cons p l ih =>
    show (lastCursor? uri (p.2.activeUri active) (l ++ [(w, o)])).or _ = _
    rw [ih, Option.or_assoc]
    rfl

end History

namespace Controller

variable {ν : Type} [Canvas Action ν]

def following (make : Uri → String → Host ν) (c : Controller ν) (l : History) : Controller ν :=
  l.foldl (fun c p => (p.2.perform make c p.1).1) c

theorem following_concat (make : Uri → String → Host ν) (c : Controller ν) (l : History) (w : Window)
    (o : Happening) :
    c.following make (l ++ [(w, o)]) = (o.perform make (c.following make l) w).1 := by
  unfold following
  rw [List.foldl_append]
  rfl

end Controller

/-! ### One session -/

namespace Entry

variable {ν : Type} {e e' : Entry ν}

def uri (e : Entry ν) : Role → Uri
  | .source => e.source
  | .generated => e.generated

theorem isLive_of_ended (hended : e.session.hasEnded = true) : e.isLive = false := by
  unfold isLive
  rw [hended]
  rfl

theorem role?_eq_some_iff (hne : e.source.text ≠ e.generated.text) {uri : String} {role : Role} :
    e.role? uri = some role ↔ (e.uri role).text = uri := by
  unfold Entry.role? Entry.uri
  cases role <;> grind

/-- The lines that one document of a session highlights when all that is known of the cursor in the other
document was learned last. What documents have is said by `view`. -/
def pointsTo (e : Entry ν) (view : Uri → Window → Number → Bool) (role : Role) :
    Option (Window × Option Number) → List Number
  | some (w, some line) => (e.session.correlated role.other line).filter (view (e.uri role) w)
  | some (_, none) => []
  | none => []

variable [Canvas Action ν] [LawfulCanvas ν] {view : Uri → Window → Number → Bool} {active : Option String}
  {w : Window} {o : Happening}

/-- What becomes of a session when something happens, unless it ends: what is learned of the cursor in one
document changes what the other one highlights. -/
structure Takes (view : Uri → Window → Number → Bool) (active : Option String) (w : Window) (o : Happening)
    (e e' : Entry ν) : Prop where
  source : e'.source = e.source
  generated : e'.generated = e.generated
  live : e'.isLive = true → e.isLive = true ∧ o.startedKey? ≠ some e.key
  resumes : e'.isLive = true → e.session.Resumes e'.session
  lines : e'.isLive = true → e.source.text ≠ e.generated.text →
    (∀ role, hasLine (e.session.shown role).canvas = view (e.uri role)) → ∀ role,
    linesOn (e'.session.shown role).canvas =
      match o.cursor? active (e.uri role.other).text with
      | some cursor => e.pointsTo view role (some (w, cursor))
      | none => linesOn (e.session.shown role).canvas

theorem Takes.uri (h : e.Takes view active w o e') (role : Role) : e'.uri role = e.uri role := by
  cases role with
  | source => exact h.source
  | generated => exact h.generated

theorem Takes.pointsTo (h : e.Takes view active w o e') (hlive : e'.isLive = true) (role : Role) :
    e'.pointsTo view role = e.pointsTo view role := by
  funext cursor
  unfold Entry.pointsTo
  rw [h.uri]
  simp only [(h.resumes hlive).correlated]

theorem takes_of_ended (hsource : e'.source = e.source) (hgenerated : e'.generated = e.generated)
    (hended : e'.isLive = false) : e.Takes view active w o e' := by
  have hnot : ¬ e'.isLive = true := by
    rw [hended]
    exact Bool.false_ne_true
  exact ⟨hsource, hgenerated, fun h => absurd h hnot, fun h => absurd h hnot, fun h => absurd h hnot⟩

theorem takes_self (hkey : o.startedKey? ≠ some e.key)
    (hcursor : e.source.text ≠ e.generated.text → ∀ role, o.cursor? active (e.uri role).text = none) :
    e.Takes view active w o e := by
  refine ⟨rfl, rfl, fun hlive => ⟨hlive, hkey⟩, fun _ => .refl _, fun _ hne _ role => ?_⟩
  rw [hcursor hne role.other]

theorem takes_elsewhere {uri : String} {cursor : Option Number}
    (hcursor : ∀ text, o.cursor? active text = if uri = text then some cursor else none)
    (hkey : o.startedKey? = none) (hrole : e.role? uri = none) : e.Takes view active w o e := by
  refine takes_self (by rw [hkey]; nofun) fun hne role => ?_
  rw [hcursor, if_neg]
  intro heq
  rw [(role?_eq_some_iff hne).2 heq.symm] at hrole
  nomatch hrole

theorem takes_of_shows {uri : String} {cursor : Option Number} {role : Role} {s : Session ν}
    {l : List Number} (hcursor : ∀ text, o.cursor? active text = if uri = text then some cursor else none)
    (hkey : o.startedKey? = none) (hrole : e.role? uri = some role) (hshows : e.session.Shows s role.other l)
    (hl : hasLine (e.session.shown role.other).canvas = view (e.uri role.other) →
      l = e.pointsTo view role.other (some (w, cursor))) :
    e.Takes view active w o { e with session := s } := by
  refine ⟨rfl, rfl, fun hlive => ⟨?_, by rw [hkey]; nofun⟩, fun _ => hshows.resumes,
    fun _ hne hview role' => ?_⟩
  · unfold isLive at hlive ⊢
    rw [Bool.not_eq_true'] at hlive ⊢
    exact hshows.resumes.live hlive
  · have htext := (role?_eq_some_iff hne).1 hrole
    rcases role.eq_or_eq_other role' with rfl | rfl
    · -- The document with the cursor: the other one has another address.
      have hother : ¬ uri = (e.uri role'.other).text := by
        intro heq
        have hrole' := (role?_eq_some_iff hne).2 heq.symm
        rw [hrole] at hrole'
        cases role' <;> nomatch hrole'
      rw [hcursor, if_neg hother]
      have hsame := hshows.other
      rw [Role.other_other] at hsame
      exact hsame
    · rw [Role.other_other, hcursor, if_pos htext.symm]
      exact hshows.lines.trans (hl (hview role.other))

end Entry

/-! ### One happening -/

namespace Controller

variable {ν : Type} {R : Entry ν → Entry ν → Prop}

/-- What is done to the sessions one by one, as long as the window stays as `P` says. -/
theorem mapM_forall₂ {P : Window → Prop} {f : Entry ν → Action (Entry ν)}
    (hf : ∀ e w, P w → Gives (f e) w fun e' w' => R e e' ∧ P w') (l : List (Entry ν)) {w : Window}
    (hw : P w) : Gives (l.mapM f) w fun l' _ => List.Forall₂ R l l' := by
  induction l generalizing w with
  | nil => exact .pure .nil
  | cons e l ih =>
    rw [List.mapM_cons]
    exact (hf e w hw).bind fun e' w₁ h₁ => (ih h₁.2).bind fun l' _ h' => .pure (.cons h₁.1 h')

/-- The controller is another one in its sessions only. -/
structure Maps (R : Entry ν → Entry ν → Prop) (c c' : Controller ν) : Prop where
  entries : List.Forall₂ R c.entries c'.entries
  activeUri : c'.activeUri = c.activeUri
  isListening : c'.isListening = c.isListening

theorem mapEntries_maps [Canvas Action ν] {P : Window → Prop} {f : Entry ν → Action (Entry ν)}
    (hf : ∀ e w, P w → Gives (f e) w fun e' w' => R e e' ∧ P w') (c : Controller ν) {w : Window}
    (hw : P w) : Gives (c.mapEntries f) w fun c' _ => c.Maps R c' :=
  (mapM_forall₂ hf c.entries hw).bind fun _ _ h => .pure ⟨h, rfl, rfl⟩

variable [Canvas Action ν]

theorem finishEntry_ended (e : Entry ν) (w : Window) :
    Gives (finishEntry e) w fun e' _ => e'.source = e.source ∧ e'.generated = e.generated ∧
      e'.isLive = false := by
  unfold finishEntry
  split
  · rename_i hended
    exact .pure ⟨rfl, rfl, Entry.isLive_of_ended hended⟩
  · rename_i hlive
    have hfinish : Gives (e.session.finish : Action _) w fun s _ => s.hasEnded = true := by
      unfold Session.finish
      rw [if_neg hlive]
      exact rfl
    refine hfinish.bind fun s w₁ hs => .bind (Q := fun _ _ => True) trivial fun _ _ _ =>
      .pure ⟨rfl, rfl, Entry.isLive_of_ended hs⟩

variable [LawfulCanvas ν] {view : Uri → Window → Number → Bool} {active : Option String} {w : Window}
  {o : Happening} {make : Uri → String → Host ν}

theorem finishWhere_takes (c : Controller ν) {p : Entry ν → Bool}
    (hcursor : ∀ text, o.cursor? active text = none)
    (hkey : ∀ e : Entry ν, p e = false → o.startedKey? ≠ some e.key) (w' : Window) :
    Gives (c.finishWhere p) w' fun c' _ => c.Maps (Entry.Takes view active w o) c' := by
  refine mapEntries_maps (P := fun _ => True) (fun e w₁ _ => ?_) c trivial
  by_cases hp : p e = true
  · rw [if_pos hp]
    refine (finishEntry_ended e w₁).mono fun e' _ h => ⟨?_, trivial⟩
    exact Entry.takes_of_ended h.1 h.2.1 h.2.2
  · rw [if_neg hp]
    exact .pure ⟨Entry.takes_self (hkey e (Bool.eq_false_iff.2 hp)) fun _ _ => hcursor _, trivial⟩

theorem cursorMoved_takes (c : Controller ν) (uri : Uri) (selection : Selection) (rest : List Selection)
    (w : Window) :
    Gives (c.cursorMoved uri.text (cursorLine selection)) w fun c' _ =>
      c.Maps (Entry.Takes view c.activeUri w (.notice (.selectionChanged uri (selection :: rest)))) c' := by
  refine mapEntries_maps (P := fun w' => ∀ u : ν, hasLine u w' = hasLine u w) (fun e w₁ hw₁ => ?_) c
    fun _ => rfl
  cases hrole : e.role? uri.text with
  | none => exact .pure ⟨Entry.takes_elsewhere (fun _ => rfl) rfl hrole, hw₁⟩
  | some role =>
    cases hended : e.session.hasEnded with
    | true =>
      refine (e.session.cursorMoved_of_ended role (cursorLine selection) hended w₁).bind
        fun s w₂ h => .pure ?_
      obtain ⟨rfl, rfl⟩ := h
      exact ⟨Entry.takes_of_ended rfl rfl (Entry.isLive_of_ended hended), hw₁⟩
    | false =>
      refine (e.session.cursorMoved_shows role (cursorLine selection) hended w₁).bind fun s w₂ h => .pure ?_
      obtain ⟨hshows, hsame⟩ := h
      refine ⟨Entry.takes_of_shows (fun _ => rfl) rfl hrole hshows fun hview => ?_, fun u => ?_⟩
      · unfold Entry.pointsTo
        rw [Role.other_other, hw₁, hview]
      · rw [hsame, hw₁]

theorem cursorLeft_takes (c : Controller ν) {uri : String}
    (hcursor : ∀ text, o.cursor? active text = if uri = text then some none else none)
    (hkey : o.startedKey? = none) (w' : Window) :
    Gives (c.cursorLeft uri) w' fun c' _ => c.Maps (Entry.Takes view active w o) c' := by
  refine mapEntries_maps (P := fun _ => True) (fun e w₁ _ => ?_) c trivial
  cases hrole : e.role? uri with
  | none => exact .pure ⟨Entry.takes_elsewhere hcursor hkey hrole, trivial⟩
  | some role =>
    cases hended : e.session.hasEnded with
    | true =>
      refine (e.session.cursorLeft_of_ended role hended w₁).bind fun s w₂ hs => .pure ?_
      subst hs
      exact ⟨Entry.takes_of_ended rfl rfl (Entry.isLive_of_ended hended), trivial⟩
    | false =>
      refine (e.session.cursorLeft_shows role hended w₁).bind fun s w₂ hshows => .pure ⟨?_, trivial⟩
      exact Entry.takes_of_shows hcursor hkey hrole hshows fun _ => rfl

/-- Canvases are made empty, and each document has the lines that `view` says. -/
def Makes (make : Uri → String → Host ν) (view : Uri → Window → Number → Bool) : Prop :=
  ∀ uri color w, Ends (make uri color) w (fun v _ => linesOn v = [] ∧ hasLine v = view uri) fun _ _ => True

def Begins (view : Uri → Window → Number → Bool) (o : Happening) (e : Entry ν) : Prop :=
  (∃ color, o = .start e.source e.generated e.session.index color) ∧
    ∀ role, linesOn (e.session.shown role).canvas = [] ∧
      hasLine (e.session.shown role).canvas = view (e.uri role)

/-- What a happening makes of a controller that listens: of each session what it takes of it, and at most
one new session. -/
structure Heeds (view : Uri → Window → Number → Bool) (w : Window) (o : Happening) (c c' : Controller ν) :
    Prop where
  isListening : c'.isListening = true
  activeUri : c'.activeUri = o.activeUri c.activeUri
  entries : ∃ old new, c'.entries = old ++ new ∧
    List.Forall₂ (Entry.Takes view c.activeUri w o) c.entries old ∧ ∀ e ∈ new, Begins view o e

theorem Maps.heeds {c c' : Controller ν} (h : c.Maps (Entry.Takes view c.activeUri w o) c')
    (hlistening : c.isListening = true) (hactive : o.activeUri c.activeUri = c.activeUri) :
    c.Heeds view w o c' where
  isListening := h.isListening.trans hlistening
  activeUri := h.activeUri.trans hactive.symm
  entries := ⟨c'.entries, [], (List.append_nil _).symm, h.entries, List.forall_mem_nil _⟩

theorem finishWhere_heeds (c : Controller ν) (hlistening : c.isListening = true) {p : Entry ν → Bool}
    (hcursor : ∀ text, o.cursor? c.activeUri text = none)
    (hkey : ∀ e : Entry ν, p e = false → o.startedKey? ≠ some e.key)
    (hactive : o.activeUri c.activeUri = c.activeUri) (w : Window) :
    Gives (c.finishWhere p) w fun c' _ => c.Heeds view w o c' :=
  (finishWhere_takes c hcursor hkey w).mono fun _ _ h => h.heeds hlistening hactive

theorem start_heeds (hmake : Makes make view) (c : Controller ν) (hlistening : c.isListening = true)
    (source generated : Uri) (index : LineIndex) (color : String) (w w' : Window) :
    Gives (c.start make source generated index color) w' fun r _ =>
      c.Heeds view w (.start source generated index color) r.1 := by
  have hfinish : Gives (c.finish (Uri.sessionKey source generated)) w' fun c' _ =>
      c.Maps (Entry.Takes view c.activeUri w (.start source generated index color)) c' := by
    refine finishWhere_takes c (fun _ => rfl) (fun e hne heq => ?_) w'
    exact of_decide_eq_false hne (Option.some.inj heq).symm
  refine hfinish.bind fun c₁ w₁ h₁ => ?_
  have hmakes : Ends (do return (← make source color, ← make generated color) : Host (ν × ν)) w₁
      (fun p _ => (linesOn p.1 = [] ∧ hasLine p.1 = view source) ∧
        linesOn p.2 = [] ∧ hasLine p.2 = view generated) fun _ _ => True :=
    (hmake source color w₁).bind (fun v w₂ hv => (hmake generated color w₂).bind
      (fun v' w₃ hv' => .pure ⟨hv, hv'⟩) fun _ _ h => h) fun _ _ h => h
  unfold Ends at hmakes
  refine hmakes.bind fun r w₂ hr => ?_
  cases r with
  | error fault => exact .pure (h₁.heeds hlistening rfl)
  | ok canvases =>
    refine .bind (Q := fun _ _ => True) trivial fun _ w₃ _ => .pure ?_
    refine ⟨h₁.isListening.trans hlistening, h₁.activeUri, c₁.entries, _, rfl, h₁.entries, fun e he => ?_⟩
    rw [List.mem_singleton.1 he]
    refine ⟨⟨color, rfl⟩, fun role => ?_⟩
    cases role with
    | source => exact hr.1
    | generated => exact hr.2

theorem activeChanged_heeds (c : Controller ν) (hlistening : c.isListening = true) (uri : Option Uri)
    (w : Window) : Gives (c.activeChanged (uri.map (·.text))) w fun c' _ =>
      c.Heeds view w (.notice (.activeChanged uri)) c' := by
  have hmap : ∀ c₁, c.Maps (Entry.Takes view c.activeUri w (.notice (.activeChanged uri))) c₁ →
      c.Heeds view w (.notice (.activeChanged uri)) { c₁ with activeUri := uri.map (·.text) } := fun c₁ h =>
    ⟨h.isListening.trans hlistening, rfl, c₁.entries, [], (List.append_nil _).symm, h.entries,
      List.forall_mem_nil _⟩
  have hstay : (∀ text, c.activeUri = some text → uri.map (·.text) = some text) →
      c.Maps (Entry.Takes view c.activeUri w (.notice (.activeChanged uri))) c := by
    intro hsame
    have hcursor : ∀ text, (Happening.notice (.activeChanged uri)).cursor? c.activeUri text = none :=
      fun text => if_neg fun h => h.2 (hsame text h.1)
    exact ⟨List.forall₂_same.2 fun e _ => Entry.takes_self nofun fun _ _ => hcursor _, rfl, rfl⟩
  obtain ⟨entries, _ | old, isListening⟩ := c
  · exact .pure (hmap _ (hstay nofun))
  · unfold activeChanged
    dsimp only
    split
    · rename_i hnext
      exact .pure (hmap _ (hstay fun text htext => hnext.trans htext))
    · rename_i hnext
      refine (cursorLeft_takes ⟨entries, some old, isListening⟩ (fun text => ?_) rfl w).bind
        fun c₁ w₁ h₁ => .pure (hmap c₁ h₁)
      -- The pane that was left is the one with `old`.
      show (if some old = some text ∧ _ ≠ some text then _ else _) = _
      by_cases heq : old = text
      · rw [if_pos heq, if_pos ⟨by rw [heq], heq ▸ hnext⟩]
      · rw [if_neg heq, if_neg fun h => heq (Option.some.inj h.1)]

theorem notice_heeds (c : Controller ν) (hlistening : c.isListening = true) (n : Notice) (w : Window) :
    Gives (c.notice n) w fun c' _ => c.Heeds view w (.notice n) c' := by
  have hstay : (∀ active text, (Happening.notice n).cursor? active text = none) →
      c.Maps (Entry.Takes view c.activeUri w (.notice n)) c := fun hcursor =>
    ⟨List.forall₂_same.2 fun e _ => Entry.takes_self nofun fun _ _ => hcursor _ _, rfl, rfl⟩
  unfold notice
  rw [if_neg (by rw [hlistening]; exact Bool.false_ne_true)]
  cases n with
  | selectionChanged uri selections =>
    cases selections with
    | nil => exact .pure ((hstay fun _ _ => rfl).heeds hlistening rfl)
    | cons selection rest =>
      exact (cursorMoved_takes c uri selection rest w).mono fun _ _ h => h.heeds hlistening rfl
  | activeChanged uri => exact activeChanged_heeds c hlistening uri w
  | closed uri => exact finishWhere_heeds c hlistening (fun _ => rfl) (fun _ _ => by nofun) rfl w
  | replied k reply => exact .pure ((hstay fun _ _ => rfl).heeds hlistening rfl)
  | answered k answer => exact .pure ((hstay fun _ _ => rfl).heeds hlistening rfl)
  | actionChosen k chosen => exact .pure ((hstay fun _ _ => rfl).heeds hlistening rfl)

theorem perform_heeds (hmake : Makes make view) (c : Controller ν) (hlistening : c.isListening = true)
    (o : Happening) (w : Window) : Gives (o.perform make c) w fun c' _ => c.Heeds view w o c' := by
  cases o with
  | start source generated index color =>
    exact (start_heeds hmake c hlistening source generated index color w w).bind fun r w₁ h => .pure h
  | finish key => exact finishWhere_heeds c hlistening (fun _ => rfl) (fun _ _ => by nofun) rfl w
  | finishAll => exact finishWhere_heeds c hlistening (fun _ => rfl) (fun _ _ => by nofun) rfl w
  | notice n => exact notice_heeds c hlistening n w

/-! ### A whole history -/

/-- A session was started in a history for good, and what it highlights is told by what came since. -/
def Traced (view : Uri → Window → Number → Bool) (active : Option String) (l : History) (e : Entry ν) :
    Prop :=
  ∃ before w color after, l = before ++ (w, .start e.source e.generated e.session.index color) :: after ∧
    (∀ p ∈ after, p.2.startedKey? ≠ some e.key) ∧
    ∀ role, linesOn (e.session.shown role).canvas = e.pointsTo view role
      (History.lastCursor? (e.uri role.other).text (History.activeUri active before) after)

theorem Begins.traced {e : Entry ν} (h : Begins view o e) (active : Option String) (l : History)
    (w : Window) : Traced view active (l ++ [(w, o)]) e := by
  obtain ⟨⟨color, rfl⟩, hcanvas⟩ := h
  exact ⟨l, w, color, [], rfl, List.forall_mem_nil _, fun role => (hcanvas role).1⟩

/-- A session that goes on takes what happens next. -/
theorem Traced.concat {e e' : Entry ν} {l : History} (h : Traced view active l e)
    (htakes : e.Takes view (l.activeUri active) w o e') (hlive : e'.isLive = true)
    (hne : e.source.text ≠ e.generated.text)
    (hview : ∀ role, hasLine (e.session.shown role).canvas = view (e.uri role)) :
    Traced view active (l ++ [(w, o)]) e' := by
  obtain ⟨before, w₀, color, after, rfl, hnone, hlines⟩ := h
  have hindex := (htakes.resumes hlive).index
  have hkey : e'.key = e.key := Entry.key_eq htakes.source htakes.generated
  refine ⟨before, w₀, color, after ++ [(w, o)], ?_, fun p hp => ?_, fun role => ?_⟩
  · rw [htakes.source, htakes.generated, hindex, List.append_assoc]
    rfl
  · rw [hkey]
    rcases List.mem_append.1 hp with hp | hp
    · exact hnone p hp
    · rw [List.mem_singleton.1 hp]
      exact (htakes.live hlive).2
  · have hactive : History.activeUri active
        (before ++ (w₀, .start e.source e.generated e.session.index color) :: after) =
          History.activeUri (History.activeUri active before) after := by
      unfold History.activeUri
      rw [List.foldl_append]
      rfl
    rw [htakes.uri, htakes.pointsTo hlive, History.lastCursor?_concat, htakes.lines hlive hne hview, hactive]
    cases o.cursor? _ (e.uri role.other).text with
    | some cursor => rfl
    | none => exact hlines role

/-- What is known of a controller after a history that began without sessions. -/
structure Follows (view : Uri → Window → Number → Bool) (active : Option String) (l : History)
    (c : Controller ν) : Prop where
  isListening : c.isListening = true
  activeUri : c.activeUri = l.activeUri active
  canvas : ∀ e ∈ c.entries, e.isLive = true → ∀ role,
    hasLine (e.session.shown role).canvas = view (e.uri role)
  traced : ∀ e ∈ c.entries, e.isLive = true → e.source.text ≠ e.generated.text → Traced view active l e

theorem Follows.heeds {c c' : Controller ν} {l : History} (h : c.Follows view active l)
    (hheeds : c.Heeds view w o c') : c'.Follows view active (l ++ [(w, o)]) := by
  obtain ⟨old, new, hentries, htakes, hbegins⟩ := hheeds.entries
  have hof : ∀ e' ∈ c'.entries, (∃ e ∈ c.entries, e.Takes view (l.activeUri active) w o e') ∨
      Begins view o e' := by
    intro e' he'
    rw [hentries] at he'
    rcases List.mem_append.1 he' with he' | he'
    · rw [← h.activeUri]
      exact .inl (forall₂_exists_left htakes he')
    · exact .inr (hbegins e' he')
  refine ⟨hheeds.isListening, ?_, fun e' he' hlive role => ?_, fun e' he' hlive hne => ?_⟩
  · rw [hheeds.activeUri, h.activeUri, History.activeUri_concat]
  · rcases hof e' he' with ⟨e, he, htakes⟩ | hbegins
    · rw [(htakes.resumes hlive).has, htakes.uri]
      exact h.canvas e he (htakes.live hlive).1 role
    · exact (hbegins.2 role).2
  · rcases hof e' he' with ⟨e, he, htakes⟩ | hbegins
    · rw [htakes.source, htakes.generated] at hne
      have hlive' := (htakes.live hlive).1
      exact (h.traced e he hlive' hne).concat htakes hlive hne (h.canvas e he hlive')
    · exact hbegins.traced active l w

theorem following_follows (hmake : Makes make view) (active : Option String) (l : History) :
    (following make { activeUri := active } l).Follows view active l := by
  induction l using List.reverseRecOn with
  | nil => exact ⟨rfl, rfl, List.forall_mem_nil _, List.forall_mem_nil _⟩
  | append_singleton l p ih =>
    obtain ⟨w, o⟩ := p
    rw [following_concat]
    exact ih.heeds (perform_heeds hmake _ ih.isListening o w)

/-- In each document of a registered session those lines are highlighted, of the ones the document has, that
belong to the line to which the cursor in the other document has come last. When it has left since, or was
never learned of, no line is. -/
theorem points_to_last_cursor (hmake : Makes make view) (active : Option String) (l : History) :
    ∀ e ∈ (following make { activeUri := active } l).live, e.source.text ≠ e.generated.text →
      ∃ before w color after, l = before ++ (w, .start e.source e.generated e.session.index color) :: after ∧
        (∀ p ∈ after, p.2.startedKey? ≠ some e.key) ∧
        linesOn e.session.source.canvas =
          (match History.lastCursor? e.generated.text (History.activeUri active before) after with
          | some (w, some line) => (e.session.index.sourceLine? line).toList.filter (view e.source w)
          | some (_, none) => []
          | none => []) ∧
        linesOn e.session.generated.canvas =
          match History.lastCursor? e.source.text (History.activeUri active before) after with
          | some (w, some line) => (e.session.index.generatedLines line).filter (view e.generated w)
          | some (_, none) => []
          | none => [] := by
  intro e he hne
  obtain ⟨he, hlive⟩ := List.mem_filter.1 he
  obtain ⟨before, w, color, after, hl, hnone, hlines⟩ :=
    (following_follows hmake active l).traced e he hlive hne
  exact ⟨before, w, color, after, hl, hnone, hlines .source, hlines .generated⟩

/-! ### A session in the editor -/

theorem makes_decorationCanvas : Makes DecorationCanvas.create fun uri w line =>
    (DecorationCanvas.lineIn? w uri line).isSome := by
  intro uri color w
  refine (DecorationCanvas.create_ends (T := fun _ => True) uri color w).mono (fun c w' h => ?_)
    fun _ _ _ => trivial
  rw [h.2.1]
  exact ⟨rfl, rfl⟩

/-- A source of two lines and an output of three, of which the last two came from the first line. -/
def linkedWindow : Window :=
  { documents := [⟨.file "/main.py", "f = lambda: 0\nf()", "/main.py", false, true⟩,
      ⟨.file "/main.asm", "RESUME\nLOAD_CONST\nRETURN_VALUE", "/main.asm", false, true⟩] }

def linkedIndex : LineIndex := .ofLines [⟨1, none, none⟩, ⟨2, none, some 1⟩, ⟨3, none, some 1⟩]

/-- The cursor comes to the first line of the source, then the output becomes active, and the cursor comes to
its second line. -/
def linkedHistory : History :=
  [(linkedWindow, .start (.file "/main.py") (.file "/main.asm") linkedIndex "blue"),
    (linkedWindow, .notice (.selectionChanged (.file "/main.py") [⟨⟨0, 0⟩, ⟨0, 0⟩⟩])),
    (linkedWindow, .notice (.activeChanged (some (.file "/main.asm")))),
    (linkedWindow, .notice (.selectionChanged (.file "/main.asm") [⟨⟨1, 0⟩, ⟨1, 0⟩⟩]))]

/-- The controller after the first of these events, when the source was active before. -/
def linkedController (events : Nat) : Controller DecorationCanvas :=
  following DecorationCanvas.create { activeUri := some "file:///main.py" } (linkedHistory.take events)

theorem eq_of_only_start {l before after : History} {w w' : Window} {source source' generated generated' : Uri}
    {index index' : LineIndex} {color color' : String} (hl : ∀ p ∈ l, p.2.startedKey? = none)
    (h : (w, .start source generated index color) :: l =
      before ++ (w', .start source' generated' index' color') :: after) :
    before = [] ∧ after = l ∧ source' = source ∧ generated' = generated ∧ index' = index := by
  cases before with
  | nil =>
    cases h
    exact ⟨rfl, rfl, rfl, rfl, rfl⟩
  | cons p before =>
    have hmem : (w', .start source' generated' index' color') ∈ l :=
      (List.cons.inj h).2 ▸ List.mem_append_right before List.mem_cons_self
    nomatch hl _ hmem

/-- The cursor in the source highlights two lines of the output. Once the source has been left no line of the output
is highlighted any more, and the cursor in the output highlights a line of the source. -/
theorem linkedController_points :
    (∃ e ∈ (linkedController 2).live,
      linesOn e.session.source.canvas = [] ∧ linesOn e.session.generated.canvas = [2, 3]) ∧
    ∃ e ∈ (linkedController 4).live,
      linesOn e.session.source.canvas = [1] ∧ linesOn e.session.generated.canvas = [] := by
  have hpoints := fun events => points_to_last_cursor makes_decorationCanvas (some "file:///main.py")
    (linkedHistory.take events)
  constructor
  · obtain ⟨e, he⟩ := List.exists_mem_of_length_pos (l := (linkedController 2).live) (by decide +kernel)
    have hapart : ∀ e ∈ (linkedController 2).live, e.source.text ≠ e.generated.text := by decide +kernel
    obtain ⟨before, w, color, after, hhistory, -, hlines⟩ := hpoints 2 e he (hapart e he)
    obtain ⟨rfl, rfl, hsource, hgenerated, hindex⟩ := eq_of_only_start (by decide +kernel) hhistory
    rw [hsource, hgenerated, hindex] at hlines
    exact ⟨e, he, hlines.1.trans (by decide +kernel), hlines.2.trans (by decide +kernel)⟩
  · obtain ⟨e, he⟩ := List.exists_mem_of_length_pos (l := (linkedController 4).live) (by decide +kernel)
    have hapart : ∀ e ∈ (linkedController 4).live, e.source.text ≠ e.generated.text := by decide +kernel
    obtain ⟨before, w, color, after, hhistory, -, hlines⟩ := hpoints 4 e he (hapart e he)
    obtain ⟨rfl, rfl, hsource, hgenerated, hindex⟩ := eq_of_only_start (by decide +kernel) hhistory
    rw [hsource, hgenerated, hindex] at hlines
    exact ⟨e, he, hlines.1.trans (by decide +kernel), hlines.2.trans (by decide +kernel)⟩

end Controller

end AsmLens
