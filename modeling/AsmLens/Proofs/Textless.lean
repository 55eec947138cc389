import AsmLens.Diagnostic
import AsmLens.Label
import AsmLens.Service.Catalog
import Mathlib.Data.List.Forall2

/-!
# Values without a text

Writing a value as text, or calculating with it, fails for one reason only: an object in it hides the text
that every object has (`Json.Textless`). For everything that reads such values, this file says on which
inputs it fails.
-/

namespace AsmLens

variable {α β : Type}

def Fails (r : Except Fault α) : Prop := ∃ e, r = .error e

theorem not_fails_ok (a : α) : ¬ Fails (.ok a : Except Fault α) := nofun

theorem fails_error (e : Fault) : Fails (.error e : Except Fault α) := ⟨e, rfl⟩

/-- A computation in two parts gives what the second one makes of what the first one gives. -/
theorem bind_eq_ok_iff {r : Except Fault α} {f : α → Except Fault β} {b : β} :
    (r >>= f) = .ok b ↔ ∃ a, r = .ok a ∧ f a = .ok b := by
  cases r with
  | error e => exact ⟨nofun, nofun⟩
  | ok a =>
    constructor
    · exact fun h => ⟨a, rfl, h⟩
    · rintro ⟨_, ⟨⟩, h⟩
      exact h

theorem mapM_eq_ok_iff {f : α → Except Fault β} {l : List α} {l' : List β} :
    l.mapM f = .ok l' ↔ List.Forall₂ (fun a b => f a = .ok b) l l' := by
  induction l generalizing l' with
  | nil =>
    rw [List.mapM_nil, List.forall₂_nil_left_iff]
    exact ⟨fun h => (Except.ok.inj h).symm, fun h => h ▸ rfl⟩
  | cons a l ih =>
    rw [List.mapM_cons, List.forall₂_cons_left_iff, bind_eq_ok_iff]
    constructor
    · rintro ⟨b, ha, h⟩
      obtain ⟨bs, hl, ⟨⟩⟩ := bind_eq_ok_iff.1 h
      exact ⟨b, bs, ha, ih.1 hl, rfl⟩
    · rintro ⟨b, bs, ha, hl, rfl⟩
      exact ⟨b, ha, bind_eq_ok_iff.2 ⟨bs, ih.2 hl, rfl⟩⟩

/-- What is read from some members of a list is read from those, in order. -/
theorem forall₂_of_mapM_option {f : α → Except Fault (Option β)} {p : α → Bool}
    (hp : ∀ a item?, f a = .ok item? → p a = item?.isSome) {l : List α} {l' : List (Option β)}
    (h : l.mapM f = .ok l') :
    List.Forall₂ (fun a b => f a = .ok (some b)) (l.filter p) (l'.filterMap id) := by
  rw [mapM_eq_ok_iff] at h
  induction h with
  | nil => exact .nil
  | @cons a item? l l' hread _ ih =>
    cases item? with
    | none =>
      rw [List.filter_cons_of_neg (ne_true_of_eq_false (hp a none hread))]
      exact ih
    | some b =>
      rw [List.filter_cons_of_pos (hp a (some b) hread)]
      exact .cons hread ih

namespace Fails

variable {r : Except Fault α}

theorem bind_iff {f : α → Except Fault β} : Fails (r >>= f) ↔ Fails r ∨ ∃ a, r = .ok a ∧ Fails (f a) := by
  cases r with
  | ok a =>
    refine ⟨fun h => .inr ⟨a, rfl, h⟩, ?_⟩
    rintro (h | ⟨_, ha, h⟩)
    · exact absurd h (not_fails_ok a)
    · cases ha
      exact h
  | error e => exact ⟨fun _ => .inl (fails_error e), fun _ => fails_error e⟩

theorem map_iff {f : α → β} : Fails (r >>= fun a => .ok (f a)) ↔ Fails r := by
  rw [bind_iff]
  exact or_iff_left fun ⟨a, _, h⟩ => not_fails_ok (f a) h

theorem mapM_iff {f : α → Except Fault β} {l : List α} : Fails (l.mapM f) ↔ ∃ a ∈ l, Fails (f a) := by
  induction l with
  | nil => exact ⟨fun h => absurd h (not_fails_ok []), fun ⟨_, h, _⟩ => nomatch h⟩
  | cons a l ih =>
    rw [List.mapM_cons, bind_iff, List.exists_mem_cons_iff, ← ih]
    -- The rest of the list is read only after the first member was.
    refine or_congr_right' fun hfirst => ?_
    cases ha : f a with
    | error e => exact absurd (ha ▸ fails_error e) hfirst
    | ok b =>
      constructor
      · rintro ⟨_, -, h⟩
        exact map_iff.1 h
      · exact fun h => ⟨b, rfl, map_iff.2 h⟩

theorem of_mapM_error {f : α → Except Fault β} {l : List α} {e : Fault} (h : l.mapM f = .error e) :
    ∃ a ∈ l, f a = .error e := by
  induction l with
  | nil => nomatch h
  | cons a l ih =>
    rw [List.mapM_cons] at h
    cases ha : f a with
    | error e' =>
      rw [ha] at h
      cases h
      exact ⟨a, List.mem_cons_self, ha⟩
    | ok b =>
      rw [ha] at h
      cases hl : l.mapM f with
      | error e' =>
        rw [hl] at h
        cases h
        obtain ⟨a', ha', he⟩ := ih hl
        exact ⟨a', List.mem_cons_of_mem a ha', he⟩
      | ok bs =>
        rw [hl] at h
        nomatch h

theorem length_of_mapM {f : α → Except Fault β} {l : List α} {l' : List β} (h : l.mapM f = .ok l') :
    l'.length = l.length :=
  (mapM_eq_ok_iff.1 h).length_eq.symm

end Fails

namespace Json

/-- A value that has no text: an object that hides it, or a list with such a member. -/
inductive Textless : Json → Prop where
  | object {fields : List (String × Json)} (h : (fields.lookup textField).isSome) : Textless (.obj fields)
  | member {items : List Json} {item : Json} (hitem : item ∈ items) (h : Textless item) : Textless (.arr items)

theorem textless_arr_iff {items : List Json} : Textless (.arr items) ↔ ∃ item ∈ items, item.Textless := by
  constructor
  · rintro (_ | ⟨hitem, h⟩)
    exact ⟨_, hitem, h⟩
  · rintro ⟨item, hitem, h⟩
    exact .member hitem h

theorem fails_text_iff (v : Json) : Fails v.text ↔ v.Textless := by
  induction v using Json.text.induct
    (motive_2 := fun items => Fails (memberTexts items) ↔ ∃ item ∈ items, item.Textless) with
  | case1 => exact ⟨fun h => absurd h (not_fails_ok _), nofun⟩
  | case2 b => exact ⟨fun h => absurd h (not_fails_ok _), nofun⟩
  | case3 x => exact ⟨fun h => absurd h (not_fails_ok _), nofun⟩
  | case4 s => exact ⟨fun h => absurd h (not_fails_ok _), nofun⟩
  | case5 items ih =>
    rw [Json.text, textless_arr_iff, ← ih]
    exact Fails.map_iff
  | case6 fields h =>
    rw [Json.text, if_pos h]
    exact ⟨fun _ => .object h, fun _ => fails_error _⟩
  | case7 fields h =>
    rw [Json.text, if_neg h]
    refine ⟨fun hfails => absurd hfails (not_fails_ok _), ?_⟩
    rintro (hhidden | _)
    exact absurd hhidden h
  | case8 => exact ⟨fun h => absurd h (not_fails_ok _), fun ⟨_, h, _⟩ => nomatch h⟩
  | case9 items ih =>
    rw [memberTexts, List.exists_mem_cons_iff, ← ih]
    exact Fails.map_iff.trans (or_iff_right nofun).symm
  | case10 item items hnull ih ihs =>
    rw [memberTexts, List.exists_mem_cons_iff, ← ih, ← ihs, Fails.bind_iff]
    · refine or_congr_right' fun hitem => ?_
      cases htext : item.text with
      | error e => exact absurd (htext ▸ fails_error e) hitem
      | ok s =>
        constructor
        · rintro ⟨_, -, h⟩
          exact Fails.map_iff.1 h
        · exact fun h => ⟨s, rfl, Fails.map_iff.2 h⟩
    · exact hnull

theorem fails_toNumber_iff (v : Json) : Fails v.toNumber ↔ v.Textless := by
  cases v with
  | arr items => exact Fails.map_iff.trans (fails_text_iff _)
  | obj fields => exact Fails.map_iff.trans (fails_text_iff _)
  | _ => exact ⟨fun h => absurd h (not_fails_ok _), nofun⟩

end Json

/-! ### Catalogs -/

/-- An entry of a catalog of languages that names a language and one of its extensions without a text. -/
def Language.IsUnreadable (entry : Json) : Prop :=
  (entry.stringField? "id").isSome ∧
    ∃ extension ∈ (entry.itemsField? "extensions").getD [], extension.Textless

theorem Language.fails_read_iff (entry : Json) : Fails (read entry) ↔ IsUnreadable entry := by
  unfold read IsUnreadable
  cases entry.stringField? "id" with
  | none => exact ⟨fun h => absurd h (not_fails_ok _), fun h => nomatch h.1⟩
  | some id =>
    refine Fails.map_iff.trans (Fails.mapM_iff.trans ?_)
    simp only [Json.fails_text_iff, Option.isSome_some, true_and]

theorem Catalog.fails_collect_iff {read : Json → Except Fault (Option α)} {entries : List Json} :
    Fails (collect read entries) ↔ ∃ entry ∈ entries, entry.isObject = true ∧ Fails (read entry) := by
  rw [collect_eq]
  refine Fails.map_iff.trans (Fails.mapM_iff.trans ?_)
  refine exists_congr fun entry => and_congr_right' ?_
  cases entry.isObject with
  | false => exact iff_of_false (not_fails_ok none) fun h => nomatch h.1
  | true => exact (and_iff_right rfl).symm

/-- A body is a catalog, and something holds of an object in it. -/
def Catalog.HasObject (P : Json → Prop) (body : Option Json) : Prop :=
  ∃ entries, body = some (.arr entries) ∧ ∃ entry ∈ entries, entry.isObject = true ∧ P entry

theorem Catalog.fails_read_iff {what : String} {entryOf : Json → Except Fault (Option α)} {body : Option Json} :
    Fails (read what entryOf body) ↔ HasObject (fun entry => Fails (entryOf entry)) body := by
  unfold read
  split
  · rename_i hnone
    refine ⟨fun h => absurd h (not_fails_ok _), ?_⟩
    rintro ⟨entries, rfl, -⟩
    nomatch hnone
  · rename_i entries hsome
    obtain ⟨v, rfl, hitems⟩ := Option.bind_eq_some_iff.1 hsome
    cases v with
    | arr items =>
      cases hitems
      refine Fails.map_iff.trans (fails_collect_iff.trans ⟨fun h => ⟨_, rfl, h⟩, ?_⟩)
      rintro ⟨_, hbody, h⟩
      cases hbody
      exact h
    | _ => nomatch hitems

theorem Language.fails_catalog_iff {what : String} {body : Option Json} :
    Fails (Catalog.read what read body) ↔ Catalog.HasObject IsUnreadable body := by
  rw [Catalog.fails_read_iff]
  unfold Catalog.HasObject
  simp only [fails_read_iff]

/-! ### Compiler messages -/

namespace Diagnostic

/-- An entry that a compiler wrote and that cannot be read: nothing at all, or a place in the source whose
column counts as something and is no number. -/
def IsUnreadable (entry : Json) : Prop :=
  entry = .null ∨ ∃ tag, entry.field? "tag" = some tag ∧ (tagLine? tag).isSome ∧
    ((tag.field? "column").getD .null).Textless

theorem isTruthy_of_textless {v : Json} (h : v.Textless) : v.isTruthy = true := by
  cases h <;> rfl

theorem fails_tagColumn_iff (tag : Json) :
    Fails (tagColumn tag) ↔ ((tag.field? "column").getD .null).Textless := by
  unfold tagColumn
  dsimp only
  generalize (tag.field? "column").getD .null = column
  cases htruthy : column.isTruthy with
  | true =>
    rw [if_pos rfl]
    exact Fails.map_iff.trans column.fails_toNumber_iff
  | false =>
    rw [if_neg Bool.false_ne_true]
    refine ⟨fun h => absurd h (not_fails_ok _), fun h => ?_⟩
    rw [isTruthy_of_textless h] at htruthy
    nomatch htruthy

theorem fails_ofEntry_iff (offset : Number) (entry : Json) :
    Fails (ofEntry offset entry) ↔ IsUnreadable entry := by
  unfold ofEntry IsUnreadable
  split
  · exact ⟨fun _ => .inl rfl, fun _ => fails_error _⟩
  · rename_i hnull
    rw [or_iff_right hnull]
    cases entry.field? "tag" with
    | none => exact ⟨fun h => absurd h (not_fails_ok _), fun ⟨_, h, _⟩ => nomatch h⟩
    | some tag =>
      have hone : (∃ tag', some tag = some tag' ∧ (tagLine? tag').isSome ∧
          ((tag'.field? "column").getD .null).Textless) ↔
          (tagLine? tag).isSome ∧ ((tag.field? "column").getD .null).Textless := by
        simp only [Option.some.injEq, exists_eq_left']
      rw [hone]
      dsimp only
      cases tagLine? tag with
      | none => exact ⟨fun h => absurd h (not_fails_ok _), fun h => nomatch h.1⟩
      | some line =>
        refine Fails.map_iff.trans (Fails.map_iff.trans ((fails_tagColumn_iff tag).trans ?_))
        exact (and_iff_right rfl).symm

theorem fails_ofStderr_iff (offset : Number) (entries : List Json) :
    Fails (ofStderr offset entries) ↔ ∃ entry ∈ entries, IsUnreadable entry := by
  refine Fails.map_iff.trans (Fails.mapM_iff.trans ?_)
  simp only [fails_ofEntry_iff]

end Diagnostic

/-! ### Labels -/

namespace Template

theorem fails_shown_iff (item : Json) (name : String) :
    Fails (shown item name) ↔ ∃ v, (fieldsOf item).lookup name = some v ∧ v.Textless := by
  unfold shown
  cases (fieldsOf item).lookup name with
  | none => exact ⟨fun h => absurd h (not_fails_ok _), fun ⟨_, h, _⟩ => nomatch h⟩
  | some v =>
    simp only [Option.some.injEq, exists_eq_left']
    cases v with
    | null => exact ⟨fun h => absurd h (not_fails_ok _), nofun⟩
    | arr items => exact Fails.map_iff.trans (Fails.map_iff.symm.trans (Json.fails_text_iff (.arr items)))
    | _ => exact Json.fails_text_iff _

theorem fails_render_iff (item : Json) (t : Template) :
    Fails (render item t) ↔ ∃ name, .field name ∈ t ∧ Fails (shown item name) := by
  induction t with
  | nil => exact ⟨fun h => absurd h (not_fails_ok _), fun ⟨_, h, _⟩ => nomatch h⟩
  | cons piece rest ih =>
    cases piece with
    | literal c =>
      simp only [List.mem_cons, reduceCtorEq, false_or]
      exact Fails.map_iff.trans ih
    | field name =>
      have hcons : (∃ name', Piece.field name' ∈ Piece.field name :: rest ∧ Fails (shown item name')) ↔
          Fails (shown item name) ∨ Fails (render item rest) := by
        simp [ih, or_and_right, exists_or]
      rw [hcons]
      refine Fails.bind_iff.trans (or_congr_right' fun hfirst => ?_)
      cases hshown : shown item name with
      | error e => exact absurd (hshown ▸ fails_error e) hfirst
      | ok s =>
        constructor
        · rintro ⟨_, -, h⟩
          exact Fails.map_iff.1 h
        · exact fun h => ⟨s, rfl, Fails.map_iff.2 h⟩

/-- An item has a label if all its fields have texts, whatever the template is. -/
theorem not_fails_label {item : Json} (h : ∀ field ∈ fieldsOf item, ¬ field.2.Textless) (template : String) :
    ¬ Fails (label template item) := by
  unfold label
  rw [fails_render_iff]
  rintro ⟨name, -, hfails⟩
  obtain ⟨v, hlookup, htextless⟩ := (fails_shown_iff item name).1 hfails
  obtain ⟨before, after, hfields, -⟩ := List.lookup_eq_some_iff.1 hlookup
  exact h (name, v) (hfields ▸ List.mem_append_cons_self) htextless

end Template

@[simp]
theorem Json.not_textless_str (text : String) : ¬ (Json.str text).Textless := nofun

@[simp]
theorem Json.not_textless_texts (texts : List String) : ¬ (Json.arr (texts.map .str)).Textless := by
  rw [textless_arr_iff]
  rintro ⟨item, hitem, htextless⟩
  obtain ⟨text, -, rfl⟩ := List.mem_map.1 hitem
  exact not_textless_str text htextless

theorem Template.not_fails_label_obj {fields : List (String × Json)} {named : List (String × Option String)}
    (h : ∀ field ∈ fields, ¬ field.2.Textless) (template : String) :
    ¬ Fails (label template (.obj (fields ++ Json.stringFields named))) := by
  refine not_fails_label (fun field hfield => ?_) template
  rcases List.mem_append.1 hfield with hfield | hfield
  · exact h field hfield
  · obtain ⟨entry, -, hentry⟩ := List.mem_filterMap.1 hfield
    obtain ⟨text, -, rfl⟩ := Option.map_eq_some_iff.1 hentry
    exact Json.not_textless_str text

theorem Language.not_fails_label (l : Language) (template : String) :
    ¬ Fails (Template.label template l.toJson) :=
  Template.not_fails_label_obj (by simp) template

theorem Compiler.not_fails_label (c : Compiler) (template : String) :
    ¬ Fails (Template.label template c.toJson) :=
  Template.not_fails_label_obj (by simp) template

theorem Formatter.not_fails_label (f : Formatter) (template : String) :
    ¬ Fails (Template.label template f.toJson) :=
  Template.not_fails_label (by simp [toJson, Template.fieldsOf, Json.fields]) template

theorem Template.not_fails_label_str (text template : String) : ¬ Fails (label template (.str text)) :=
  not_fails_label (by simp [fieldsOf]) template

end AsmLens
