import AsmLens.Proofs.Textless
import AsmLens.Text
import Mathlib.Data.List.TakeWhile

/-!
# Labels of items

Every template reads in one way as literal texts with whole places between them (`Reads`). A label has the
literals as they are and, for each place, what the item shows under its name: nothing that was inserted is read
again, and no place is missed or made of parts of others (`label_fills_places`).

An item shows the fields that it owns, and nothing under most other names; but it also answers to the names that
every object has (`labels_show_own_fields_iff`).
-/

namespace AsmLens.Template

open Text

/-! ### Places -/

def IsName (name : String) : Prop := name ≠ "" ∧ ∀ c ∈ name.toList, isNameChar c = true

def place (name : String) : String := "$\x7b" ++ name ++ "\x7d"

/-- A text without a whole place in it. It may hold any part of one. -/
def IsLiteral (s : String) : Prop := ∀ name, IsName name → ¬ (place name).toList <:+: s.toList

/-- A place is at the front of the characters. -/
def StartsPlace (cs : List Char) : Prop := ∃ name, IsName name ∧ (place name).toList <+: cs

theorem toList_place (name : String) : (place name).toList = '$' :: '{' :: (name.toList ++ ['}']) := by
  simp [place]

theorem closedName?_eq_some_iff {cs name rest : List Char} :
    closedName? cs = some (name, rest) ↔ IsName (String.ofList name) ∧ cs = name ++ '}' :: rest := by
  have hname : IsName (String.ofList name) ↔ name ≠ [] ∧ ∀ c ∈ name, isNameChar c = true := by
    simp [IsName, ← String.toList_inj]
  rw [hname]
  constructor
  · intro h
    unfold closedName? at h
    split at h
    · rename_i c cs' rest' htake hdrop
      obtain ⟨rfl, rfl⟩ := Prod.mk.inj (Option.some.inj h)
      refine ⟨⟨by simp, fun c' hc' => List.mem_takeWhile_imp (htake ▸ hc')⟩, ?_⟩
      rw [← htake, ← hdrop, List.takeWhile_append_dropWhile]
    · simp at h
  · rintro ⟨⟨hne, hall⟩, rfl⟩
    obtain ⟨c, name, rfl⟩ := List.exists_cons_of_ne_nil hne
    have hclosing : isNameChar '}' = false := by decide
    unfold closedName?
    rw [List.takeWhile_append_of_pos hall, List.dropWhile_append_of_pos hall]
    simp [hclosing]

theorem startsPlace_iff {cs : List Char} :
    StartsPlace cs ↔ ∃ name rest, IsName name ∧ cs = (place name).toList ++ rest := by
  constructor
  · rintro ⟨name, hname, rest, rfl⟩
    exact ⟨name, rest, hname, rfl⟩
  · rintro ⟨name, rest, hname, rfl⟩
    exact ⟨name, hname, rest, rfl⟩

/-! ### Reading a template -/

theorem pieces_place {name : String} (hname : IsName name) (rest : List Char) :
    pieces ((place name).toList ++ rest) = .field name :: pieces rest := by
  have hclosed : closedName? (name.toList ++ '}' :: rest) = some (name.toList, rest) :=
    closedName?_eq_some_iff.2 ⟨by rwa [String.ofList_toList], rfl⟩
  have hlist : (place name).toList ++ rest = '$' :: '{' :: (name.toList ++ '}' :: rest) := by
    simp [toList_place]
  rw [hlist, pieces]
  split
  · rename_i name' rest' h
    rw [hclosed] at h
    obtain ⟨rfl, rfl⟩ := Prod.mk.inj (Option.some.inj h)
    rw [String.ofList_toList]
  · rename_i h
    simp [hclosed] at h

theorem pieces_cons {c : Char} {cs : List Char} (h : ¬ StartsPlace (c :: cs)) :
    pieces (c :: cs) = .literal c :: pieces cs := by
  by_cases hopen : ∃ cs', c = '$' ∧ cs = '{' :: cs'
  · obtain ⟨cs', rfl, rfl⟩ := hopen
    rw [pieces]
    split
    · rename_i name rest hclosed
      obtain ⟨hname, rfl⟩ := closedName?_eq_some_iff.1 hclosed
      refine absurd (startsPlace_iff.2 ⟨_, rest, hname, ?_⟩) h
      simp [toList_place]
    · rfl
  · rw [pieces]
    rintro cs' rfl rfl
    exact hopen ⟨cs', rfl, rfl⟩

theorem chars_induction {P : List Char → Prop} (nil : P [])
    (place : ∀ name rest, IsName name → P rest → P ((place name).toList ++ rest))
    (literal : ∀ c cs, ¬ StartsPlace (c :: cs) → P cs → P (c :: cs)) (cs : List Char) : P cs := by
  induction hlength : cs.length using Nat.strongRecOn generalizing cs with
  | ind n ih =>
    subst hlength
    by_cases hstarts : StartsPlace cs
    · obtain ⟨name, rest, hname, rfl⟩ := startsPlace_iff.1 hstarts
      refine place name rest hname (ih rest.length ?_ rest rfl)
      simp [toList_place]
      omega
    · cases cs with
      | nil => exact nil
      | cons c cs => exact literal c cs hstarts (ih cs.length (by simp) cs rfl)

/-- A place does not begin in a text without one, whatever stands behind the text: a place that went beyond its end
would have a dollar sign in it. -/
theorem not_startsPlace_append {c : Char} {cs rest : List Char}
    (h : ∀ name, IsName name → ¬ (place name).toList <:+: c :: cs) (hrest : ∀ c' ∈ rest.head?, c' = '$') :
    ¬ StartsPlace (c :: (cs ++ rest)) := by
  intro hstarts
  obtain ⟨name, after, hname, heq⟩ := startsPlace_iff.1 hstarts
  rw [← List.cons_append, List.append_eq_append_iff] at heq
  obtain ⟨inside, hplace, hrest'⟩ | ⟨inside, hinside, -⟩ := heq
  · cases inside with
    | nil =>
      rw [List.append_nil] at hplace
      exact h name hname (hplace ▸ List.infix_rfl)
    | cons c' inside =>
      obtain rfl : c' = '$' := hrest c' (by simp [hrest'])
      have hmem : '$' ∈ '{' :: (name.toList ++ ['}']) := by
        rw [toList_place, List.cons_append, List.cons.injEq] at hplace
        rw [hplace.2]
        simp
      have hnot : isNameChar '$' = false := by decide
      simp only [List.mem_cons, List.mem_append, List.not_mem_nil, or_false] at hmem
      obtain hmem | hmem | hmem := hmem
      · exact absurd hmem (by decide)
      · exact absurd (hname.2 _ hmem) (by simp [hnot])
      · exact absurd hmem (by decide)
  · exact h name hname ⟨[], inside, by simpa using hinside.symm⟩

/-- A text without a place is read as its characters, up to the place behind it. -/
theorem pieces_literal_append {cs rest : List Char} (h : ∀ name, IsName name → ¬ (place name).toList <:+: cs)
    (hrest : ∀ c ∈ rest.head?, c = '$') : pieces (cs ++ rest) = cs.map .literal ++ pieces rest := by
  induction cs with
  | nil => rfl
  | cons c cs ih =>
    rw [List.cons_append, pieces_cons (not_startsPlace_append h hrest), ih]
    · rfl
    · exact fun name hname hwithin => h name hname (hwithin.trans (List.suffix_cons c cs).isInfix)

theorem exists_field_of_infix {cs : List Char} {name : String} (hname : IsName name)
    (h : (place name).toList <:+: cs) : ∃ name', .field name' ∈ pieces cs := by
  induction cs using chars_induction with
  | nil => simp [toList_place] at h
  | place name' rest hname' _ =>
    rw [pieces_place hname']
    exact ⟨name', List.mem_cons_self⟩
  | literal c cs hstarts ih =>
    obtain hfront | hwithin := List.infix_cons_iff.1 h
    · exact absurd ⟨name, hname, hfront⟩ hstarts
    · obtain ⟨name', hmem⟩ := ih hwithin
      rw [pieces_cons hstarts]
      exact ⟨name', List.mem_cons_of_mem _ hmem⟩

theorem isLiteral_iff {s : String} : IsLiteral s ↔ pieces s.toList = s.toList.map .literal := by
  constructor
  · intro h
    have hpieces : pieces (s.toList ++ []) = _ := pieces_literal_append h (by simp)
    simpa [pieces] using hpieces
  · intro h name hname hwithin
    obtain ⟨name', hmem⟩ := exists_field_of_infix hname hwithin
    simp [h] at hmem

instance : DecidablePred IsLiteral := fun _ => decidable_of_iff _ isLiteral_iff.symm

instance : DecidablePred IsName := fun name =>
  decidable_of_iff (name ≠ "" ∧ name.toList.all isNameChar = true) (by simp [IsName])

/-- A place of a template: its name, the text that is to stand in it, and the literal text behind it. -/
structure Slot where
  name : String
  value : String
  behind : String

def Slot.asPlace (slot : Slot) : String × String := (place slot.name, slot.behind)

def Slot.filled (slot : Slot) : String × String := (slot.value, slot.behind)

/-- A template is literal texts with whole places between them. -/
structure Reads (template first : String) (slots : List Slot) : Prop where
  template_eq : template = weave first (slots.map Slot.asPlace)
  first : IsLiteral first
  slots : ∀ slot ∈ slots, IsName slot.name ∧ IsLiteral slot.behind

theorem exists_reads (value : String → String) (template : String) :
    ∃ first slots, Reads template first slots ∧ ∀ slot ∈ slots, slot.value = value slot.name := by
  suffices h : ∀ cs, ∃ first slots, Reads (String.ofList cs) first slots ∧
      ∀ slot ∈ slots, slot.value = value slot.name by
    simpa using h template.toList
  intro cs
  induction cs using chars_induction with
  | nil => exact ⟨"", [], ⟨rfl, by decide +kernel, nofun⟩, nofun⟩
  | place name rest hname ih =>
    obtain ⟨first, slots, ⟨htemplate, hfirst, hslots⟩, hvalues⟩ := ih
    refine ⟨"", ⟨name, value name, first⟩ :: slots, ⟨?_, by decide +kernel, ?_⟩, ?_⟩
    · simp [weave, Slot.asPlace, ← htemplate, String.ofList_append]
    · exact List.forall_mem_cons.2 ⟨⟨hname, hfirst⟩, hslots⟩
    · exact List.forall_mem_cons.2 ⟨rfl, hvalues⟩
  | literal c cs hstarts ih =>
    obtain ⟨first, slots, ⟨htemplate, hfirst, hslots⟩, hvalues⟩ := ih
    refine ⟨String.singleton c ++ first, slots, ⟨?_, ?_, hslots⟩, hvalues⟩
    · rw [← append_weave, ← htemplate, String.ofList_cons]
    · intro name hname hwithin
      rw [String.toList_append, String.toList_singleton, List.singleton_append] at hwithin
      obtain hfront | hwithin := List.infix_cons_iff.1 hwithin
      · have hstart := prefix_weave first (slots.map Slot.asPlace)
        rw [← htemplate, String.toList_ofList] at hstart
        exact hstarts ⟨name, hname, hfront.trans (List.cons_prefix_cons.2 ⟨rfl, hstart⟩)⟩
      · exact hfirst name hname hwithin

theorem pieces_weave {first : String} {slots : List Slot} (hfirst : IsLiteral first)
    (hslots : ∀ slot ∈ slots, IsName slot.name ∧ IsLiteral slot.behind) :
    pieces (weave first (slots.map Slot.asPlace)).toList =
      first.toList.map .literal ++
        slots.flatMap fun slot => .field slot.name :: slot.behind.toList.map .literal := by
  induction slots generalizing first with
  | nil => simpa [weave] using isLiteral_iff.1 hfirst
  | cons slot slots ih =>
    obtain ⟨⟨hname, hbehind⟩, hslots⟩ := List.forall_mem_cons.1 hslots
    rw [List.map_cons, Slot.asPlace, weave, String.toList_append, String.toList_append,
      pieces_literal_append hfirst (by simp [toList_place]), pieces_place hname, ih hbehind hslots]
    simp

/-! ### Filling a template -/

variable {item : Json} {first : String} {slots : List Slot}

theorem render_literals (cs : List Char) {t : Template} {s : String} (h : render item t = .ok s) :
    render item (cs.map .literal ++ t) = .ok (String.ofList cs ++ s) := by
  induction cs with
  | nil => simpa using h
  | cons c cs ih =>
    rw [List.map_cons, List.cons_append, render, ih, String.ofList_cons, String.append_assoc]
    rfl

theorem render_slots (value : Slot → String) (hvalues : ∀ slot ∈ slots, shown item slot.name = .ok (value slot)) :
    render item (first.toList.map .literal ++
        slots.flatMap fun slot => .field slot.name :: slot.behind.toList.map .literal) =
      .ok (weave first (slots.map fun slot => (value slot, slot.behind))) := by
  induction slots generalizing first with
  | nil => simpa [weave] using render_literals first.toList (render.eq_1 item)
  | cons slot slots ih =>
    obtain ⟨hvalue, hvalues⟩ := List.forall_mem_cons.1 hvalues
    have hfield : render item (.field slot.name :: (slot.behind.toList.map .literal ++
        slots.flatMap fun slot => .field slot.name :: slot.behind.toList.map .literal)) =
          .ok (value slot ++ weave slot.behind (slots.map fun slot => (value slot, slot.behind))) := by
      rw [render, hvalue, ih hvalues]
      rfl
    simpa [weave] using render_literals first.toList hfield

/-- A label is written in a single pass from left to right. Whatever the literals are, as long as none of them holds a
whole place, and whatever the values are that an item shows in the places between them, the label is the literals
as they are, with the values as they are between them. -/
theorem label_fills_places (item : Json) (first : String) (slots : List Slot) (hfirst : IsLiteral first)
    (hslots : ∀ slot ∈ slots, IsName slot.name ∧ IsLiteral slot.behind)
    (hvalues : ∀ slot ∈ slots, shown item slot.name = .ok slot.value) :
    label (weave first (slots.map Slot.asPlace)) item = .ok (weave first (slots.map Slot.filled)) := by
  rw [label, parse, pieces_weave hfirst hslots]
  exact render_slots Slot.value hvalues

/-- Literals that hold all of a place but its name or its end, or a pattern of replacements, and values that are
templates themselves. -/
theorem broken_places_are_kept :
    label "$\x7b\x7d$\x7ba$\x7bname\x7d\x7d$&$\x7bstyles\x7d$" (.obj [("name", .str "$\x7bid\x7d"),
      ("styles", .arr [.str "$&", .str "$1"])]) = .ok "$\x7b\x7d$\x7ba$\x7bid\x7d\x7d$&$&, $1$" := by
  have hslots : ∀ slot ∈ [Slot.mk "name" "$\x7bid\x7d" "\x7d$&", Slot.mk "styles" "$&, $1" "$"],
      IsName slot.name ∧ IsLiteral slot.behind := by
    decide +kernel
  exact label_fills_places _ "$\x7b\x7d$\x7ba" [⟨"name", "$\x7bid\x7d", "\x7d$&"⟩, ⟨"styles", "$&, $1", "$"⟩]
    (by decide +kernel) hslots
    (by simp [shown, fieldsOf, Json.fields, List.lookup_cons, Json.text, Json.joined, Json.memberTexts]; rfl)

/-! ### What an item shows -/

/-- The field of a name that an item has as its own. An item that is neither object nor list has itself, under the
name `value`. -/
def own? (item : Json) (name : String) : Option Json :=
  match item with
  | .obj _ | .arr _ => item.field? name
  | _ => if name = "value" then some item else none

/-- The text of what an item owns under a name: nothing if it owns nothing there, the members of a list with commas
between them, and the text of any other value. -/
inductive OwnText (item : Json) (name : String) : String → Prop
  | missing (h : own? item name = none) : OwnText item name ""
  | null (h : own? item name = some .null) : OwnText item name ""
  | list {items : List Json} {s : String} (h : own? item name = some (.arr items))
      (hs : Json.joined ", " items = .ok s) : OwnText item name s
  | value {v : Json} {s : String} (h : own? item name = some v) (hnull : v ≠ .null) (hlist : ∀ items, v ≠ .arr items)
      (hs : v.text = .ok s) : OwnText item name s

/-- What an item shows under a name beyond what it owns there. -/
def beyond (item : Json) (name : String) : String :=
  if (own? item name).isSome then "" else (inherited? name).getD ""

theorem lookup_fieldsOf (item : Json) (name : String) : (fieldsOf item).lookup name = own? item name := by
  cases item with
  | obj _ | arr _ => rfl
  | _ =>
    by_cases h : name = "value"
    · simp [fieldsOf, own?, h]
    · have hbeq : (name == "value") = false := beq_eq_false_iff_ne.2 h
      simp [fieldsOf, own?, List.lookup_cons, h, hbeq]

theorem shown_of_ownText {name s : String} (h : OwnText item name s) :
    shown item name = .ok (s ++ beyond item name) := by
  unfold shown beyond
  rw [lookup_fieldsOf]
  cases h with
  | missing h | null h => simp [h]
  | list h hs => simp [h, hs]
  | @value v _ h hnull hlist hs =>
    rw [h]
    cases v with
    | null => exact absurd rfl hnull
    | arr items => exact absurd rfl (hlist items)
    | _ => simpa using hs

theorem ownText_of_shown {name s : String} {v : Json} (hown : own? item name = some v)
    (h : shown item name = .ok s) : OwnText item name s := by
  unfold shown at h
  rw [lookup_fieldsOf, hown] at h
  cases v with
  | null =>
    obtain rfl := Except.ok.inj h
    exact .null hown
  | arr items => exact .list hown h
  | _ => exact .value hown nofun nofun h

theorem exists_ownText (h : ∀ field ∈ fieldsOf item, ¬ field.2.Textless) (name : String) :
    ∃ s, OwnText item name s := by
  cases hown : own? item name with
  | none => exact ⟨"", .missing hown⟩
  | some v =>
    have hv : ¬ v.Textless := by
      rw [← lookup_fieldsOf] at hown
      obtain ⟨before, after, hfields, -⟩ := List.lookup_eq_some_iff.1 hown
      exact h (name, v) (hfields ▸ List.mem_append_cons_self)
    have hshown : ¬ Fails (shown item name) := by
      rw [fails_shown_iff, lookup_fieldsOf, hown]
      simpa using hv
    cases hs : shown item name with
    | ok s => exact ⟨s, ownText_of_shown hown hs⟩
    | error e => exact absurd ⟨e, hs⟩ hshown

theorem beyond_eq_empty_iff {name : String} :
    beyond item name = "" ↔ (own? item name).isSome ∨ inherited? name = none := by
  have hinherited : inherited? name ≠ some "" := by
    unfold inherited?
    split
    · simp
    · split
      · simp
      · split <;> simp
  unfold beyond
  split
  · rename_i hown
    simp [hown]
  · rename_i hown
    cases hname : inherited? name with
    | none => simp
    | some s =>
      rw [hname] at hinherited
      simpa [hown] using hinherited

/-! ### Labels -/

/-- More text in the places makes a longer label, unless there is nothing more in any of them. -/
theorem length_weave_le (first : String) (slots : List Slot) (more : Slot → String) :
    (weave first (slots.map Slot.filled)).length ≤
        (weave first (slots.map fun slot => (slot.value ++ more slot, slot.behind))).length ∧
      ((weave first (slots.map fun slot => (slot.value ++ more slot, slot.behind))).length ≤
        (weave first (slots.map Slot.filled)).length → ∀ slot ∈ slots, more slot = "") := by
  induction slots generalizing first with
  | nil => simp [weave]
  | cons slot slots ih =>
    obtain ⟨hle, hnothing⟩ := ih slot.behind
    simp only [List.map_cons, weave, Slot.filled, String.length_append]
    refine ⟨by omega, fun h => List.forall_mem_cons.2 ⟨?_, hnothing (by omega)⟩⟩
    rw [← String.length_eq_zero_iff]
    omega

/-- Every template can be read, for an item whose values all have texts, as places between literals with what the
item owns under their names. Its label is then the literals with those texts between them, just if there is no
place in it for a field that the item does not own and whose name every object answers to. -/
theorem labels_show_own_fields_iff (template : String) (item : Json)
    (htexts : ∀ field ∈ fieldsOf item, ¬ field.2.Textless) :
    (∃ first slots, Reads template first slots ∧ ∀ slot ∈ slots, OwnText item slot.name slot.value) ∧
      ∀ first slots, Reads template first slots → (∀ slot ∈ slots, OwnText item slot.name slot.value) →
        (label template item = .ok (weave first (slots.map Slot.filled)) ↔
          ∀ slot ∈ slots, (own? item slot.name).isSome ∨ inherited? slot.name = none) := by
  choose value hvalue using exists_ownText htexts
  refine ⟨?_, fun first slots hreads hvalues => ?_⟩
  · obtain ⟨first, slots, hreads, hvalues⟩ := exists_reads value template
    exact ⟨first, slots, hreads, fun slot hslot => hvalues slot hslot ▸ hvalue slot.name⟩
  · obtain ⟨rfl, hfirst, hslots⟩ := hreads
    have hlabel : label (weave first (slots.map Slot.asPlace)) item =
        .ok (weave first (slots.map fun slot => (slot.value ++ beyond item slot.name, slot.behind))) := by
      rw [label, parse, pieces_weave hfirst hslots]
      exact render_slots (fun slot => slot.value ++ beyond item slot.name) fun slot hslot =>
        shown_of_ownText (hvalues slot hslot)
    rw [hlabel, Except.ok.injEq]
    constructor
    · intro heq slot hslot
      have hlength := congrArg String.length heq
      exact beyond_eq_empty_iff.1 ((length_weave_le first slots _).2 hlength.le slot hslot)
    · intro hown
      refine congrArg (weave first) (List.map_congr_left fun slot hslot => ?_)
      simp [beyond_eq_empty_iff.2 (hown slot hslot), Slot.filled]

/-- A language that has extensions, no name in a code editor, and no version. -/
def listedLanguage : Json :=
  .obj [("id", .str "c++"), ("name", .str "C++"), ("extensions", .arr [.str ".cpp", .str ".cc"]), ("monaco", .null)]

/-- What a template for languages has to show of it. -/
def languageSlots : List Slot :=
  [⟨"name", "C++", ": "⟩, ⟨"extensions", ".cpp, .cc", ""⟩, ⟨"monaco", "", ""⟩, ⟨"semver", "", ""⟩]

theorem missing_fields_are_blank :
    label "$\x7bname\x7d: $\x7bextensions\x7d$\x7bmonaco\x7d$\x7bsemver\x7d" listedLanguage =
      .ok "C++: .cpp, .cc" := by
  have htexts : ∀ field ∈ fieldsOf listedLanguage, ¬ field.2.Textless := by
    have hlist := Json.not_textless_texts [".cpp", ".cc"]
    have hnull : ¬ Json.Textless .null := fun h => by cases h
    simpa [listedLanguage, fieldsOf, Json.fields, hnull] using hlist
  have hreads : Reads "$\x7bname\x7d: $\x7bextensions\x7d$\x7bmonaco\x7d$\x7bsemver\x7d" "" languageSlots :=
    ⟨by decide +kernel, by decide +kernel, by decide +kernel⟩
  have hvalues : ∀ slot ∈ languageSlots, OwnText listedLanguage slot.name slot.value := by
    simp only [languageSlots, List.forall_mem_cons]
    refine ⟨.value rfl (by simp) (by simp) (by simp [Json.text]), .list rfl ?_, .null rfl, .missing rfl, by simp⟩
    simp [Json.joined, Json.memberTexts, Json.text]
    rfl
  have howned : ∀ slot ∈ languageSlots, (own? listedLanguage slot.name).isSome ∨ inherited? slot.name = none := by
    decide +kernel
  exact ((labels_show_own_fields_iff _ listedLanguage htexts).2 "" languageSlots hreads hvalues).2 howned

/-- An item does not have a field of this name, and yet it is shown. -/
theorem unowned_field_is_shown : ¬ ∀ (template : String) (item : Json),
    (∀ field ∈ fieldsOf item, ¬ field.2.Textless) → ∀ first slots, Reads template first slots →
      (∀ slot ∈ slots, OwnText item slot.name slot.value) →
        label template item = .ok (weave first (slots.map Slot.filled)) := by
  intro hall
  have hlabel := hall "$\x7bconstructor\x7d" (.obj [("id", .str "python"), ("name", .str "Python")])
    (by simp [fieldsOf, Json.fields]) "" [⟨"constructor", "", ""⟩]
    ⟨by decide +kernel, by decide +kernel, by decide +kernel⟩ (by simpa using .missing rfl)
  have hshown : (label "$\x7bconstructor\x7d" (.obj [("id", .str "python"), ("name", .str "Python")])).toOption =
      some "function Object() \x7b [native code] \x7d" := by
    decide +kernel
  rw [hlabel] at hshown
  have hblank : weave "" [("", "")] = "function Object() \x7b [native code] \x7d" := Option.some.inj hshown
  simp [weave] at hblank

end AsmLens.Template
