import AsmLens.Proofs.Fitting
import AsmLens.Proofs.MessageLines

/-!
# The places of compiler messages

An editor shows a message at a line and a column, both counted from zero, with a text. What the compiler says of
these is not read but taken over: of a tag only the line is looked at closely. So a message is well formed
(`Diagnostic.WellFormed`) just if its tag is (`Diagnostic.IsPlaced`, `wellFormed_iff_isPlaced`), and a column between
two integers is one that is not (`fractional_column_is_kept`).
-/

namespace AsmLens

namespace Diagnostic

/-- A message can be shown: its line and its column are natural numbers, and what it says is a text. -/
structure WellFormed (d : Diagnostic) : Prop where
  line : ∃ n : Nat, d.line = n
  column : ∃ n : Nat, d.column = n
  message : ∃ text, d.message = some (.str text)

/-- A column that counts as something counts as an integer, or as a number that is at most one. -/
def HasColumn (tag : Json) : Prop :=
  ∀ column, tag.field? "column" = some column → column.isTruthy = true →
    ∃ x, column.toNumber = .ok x ∧ (x.isInteger = true ∨ x.le 1 = true)

/-- A tag is about a line that `offset` lines further down can still be counted, and has a column and a text. -/
structure IsPlaced (offset : Nat) (tag : Json) : Prop where
  line : ∃ line k : Nat, tag.field? "line" = some (.num line) ∧ (line : Number) - 1 = k ∧ k + offset < Number.limit
  column : HasColumn tag
  text : ∃ text, tag.field? "text" = some (.str text)

/-- If the column in the tag of an entry is a number, it is one that fits. -/
def ColumnFits (entry : Json) : Prop :=
  ∀ tag x, entry.field? "tag" = some tag → tag.field? "column" = some (.num x) → x.Fits

end Diagnostic

/-! ### Columns -/

theorem Json.fits_toNumber {v : Json} (hv : ∀ y, v = .num y → y.Fits) {x : Number} (h : v.toNumber = .ok x) :
    x.Fits := by
  have hnat : ∀ n : Nat, n ≤ 1 → (n : Number).Fits := by
    rintro n hn _ ⟨⟩
    exact Number.representable_ofInt (by omega)
  unfold toNumber at h
  split at h
  · exact Except.ok.inj h ▸ hv _ rfl
  · exact Except.ok.inj h ▸ hnat 0 (by decide)
  · rw [← Except.ok.inj h]
    split
    · exact hnat 1 (by decide)
    · exact hnat 0 (by decide)
  · exact Except.ok.inj h ▸ Number.fits_ofNumeral _
  all_goals
    obtain ⟨text, -, h⟩ := bind_eq_ok_iff.1 h
    exact Except.ok.inj h ▸ Number.fits_ofNumeral text

namespace Diagnostic

theorem tagColumn_eq_ok_iff {tag : Json} {column : Number} : tagColumn tag = .ok column ↔
    ∃ x, (if ((tag.field? "column").getD .null).isTruthy = true then ((tag.field? "column").getD .null).toNumber
      else .ok 1) = .ok x ∧ (x - 1).max 0 = column := by
  unfold tagColumn
  dsimp only
  split
  · rw [bind_eq_ok_iff]
    simp [pure, Except.pure]
  · rw [bind_eq_ok_iff]
    simp [pure, Except.pure]

theorem exists_column_iff {tag : Json} {column : Number} (hfits : ∀ x, tag.field? "column" = some (.num x) → x.Fits)
    (h : tagColumn tag = .ok column) : (∃ n : Nat, column = n) ↔ HasColumn tag := by
  obtain ⟨x, hx, rfl⟩ := tagColumn_eq_ok_iff.1 h
  by_cases htruthy : ((tag.field? "column").getD .null).isTruthy = true
  · rw [if_pos htruthy] at hx
    cases hcolumn : tag.field? "column" with
    | none =>
      rw [hcolumn] at htruthy
      nomatch htruthy
    | some v =>
      rw [hcolumn, Option.getD_some] at htruthy hx
      have hxfits : x.Fits := Json.fits_toNumber (fun y hy => hfits y (by rw [hcolumn, hy])) hx
      rw [Number.exists_natCast_eq_max_pred_iff hxfits]
      constructor
      · rintro hcounts _ hv -
        obtain rfl := Option.some.inj (hcolumn.symm.trans hv)
        exact ⟨x, hx, hcounts⟩
      · intro hcounts
        obtain ⟨y, hy, hcounts⟩ := hcounts v hcolumn htruthy
        obtain rfl := Except.ok.inj (hx.symm.trans hy)
        exact hcounts
  · -- A tag without a column is about the first.
    rw [if_neg htruthy] at hx
    cases hx
    refine iff_of_true ⟨0, by decide +kernel⟩ fun v hv hv' => absurd ?_ htruthy
    rw [hv]
    exact hv'

theorem exists_line_iff (offset : Nat) {line : Nat} (hline : 1 ≤ line) :
    (∃ n : Nat, (line : Number) - 1 + offset = n) ↔
      ∃ k : Nat, (line : Number) - 1 = k ∧ k + offset < Number.limit := by
  obtain ⟨-, k, hk⟩ | ⟨-, hinf⟩ := Number.natCast_pred_cases hline
  · rw [hk, Number.exists_natCast_eq_add_iff]
    refine ⟨fun hlt => ⟨k, rfl, hlt⟩, ?_⟩
    rintro ⟨k', hk', hlt⟩
    exact Number.natCast_inj hk' ▸ hlt
  · rw [hinf]
    exact iff_of_false nofun nofun

theorem wellFormed_ofTag_iff {offset : Nat} {tag : Json} {line : Number} {d : Diagnostic}
    (hfits : ∀ x, tag.field? "column" = some (.num x) → x.Fits) (hline : tagLine? tag = some line)
    (h : ofTag offset line tag = .ok d) : d.WellFormed ↔ IsPlaced offset tag := by
  obtain ⟨line, hpos, rfl, hfield⟩ := tagLine?_eq_some_iff.1 hline
  obtain ⟨column, hcolumn, ⟨⟩⟩ := bind_eq_ok_iff.1 h
  have hcolumns := exists_column_iff hfits hcolumn
  have hlines := exists_line_iff offset hpos
  constructor
  · rintro ⟨hl, hc, htext⟩
    obtain ⟨k, hk⟩ := hlines.1 hl
    exact ⟨⟨line, k, hfield, hk⟩, hcolumns.1 hc, htext⟩
  · rintro ⟨⟨line', k, hfield', hk⟩, hc, htext⟩
    obtain rfl := Number.natCast_inj (Json.num.inj (Option.some.inj (hfield.symm.trans hfield')))
    exact ⟨hlines.2 ⟨k, hk⟩, hcolumns.2 hc, htext⟩

/-- Of the messages of what a compiler wrote, those whose tags are well placed are well formed, and no others. -/
theorem wellFormed_iff_isPlaced {offset : Nat} {entries : List Json} {messages : List Diagnostic}
    (hfits : ∀ entry ∈ entries, ColumnFits entry) (h : ofStderr offset entries = .ok messages) :
    List.Forall₂ (fun entry d => ∃ tag, entry.field? "tag" = some tag ∧ (d.WellFormed ↔ IsPlaced offset tag))
      (entries.filter isTagged) messages := by
  have htagged : ∀ entry ∈ entries.filter isTagged, ColumnFits entry := fun entry hentry =>
    hfits entry (List.mem_filter.1 hentry).1
  refine ((List.forall₂_and_left _ _).2 ⟨htagged, forall₂_ofStderr h⟩).imp ?_
  rintro entry d ⟨hcolumn, tag, line, htag, hline, hd⟩
  exact ⟨tag, htag, wellFormed_ofTag_iff (fun x hx => hcolumn tag x htag hx) hline hd⟩

/-- An entry with a tag that is about the column `column` of the third line, both counted from one. -/
def columnEntry (column : Number) : Json :=
  .obj [("text", .str "t"), ("tag", .obj [("line", .num 3), ("column", .num column), ("text", .str "odd")])]

def twoAndHalf : Number := .finite (.ofOdd 5 1 (by decide))

theorem columnFits_columnEntry {column : Number} (h : column.Fits) : ColumnFits (columnEntry column) := by
  rintro _ _ ⟨⟩ ⟨⟩
  exact h

theorem fits_twoAndHalf : twoAndHalf.Fits := by
  rintro _ ⟨⟩
  decide +kernel

/-- A message at the second column is well formed, and one between the second and the third is not. -/
theorem columns_are_told_apart : ∃ d e,
    ofStderr (4 : Nat) [columnEntry 2, columnEntry twoAndHalf] = .ok [d, e] ∧ d.WellFormed ∧ ¬ e.WellFormed := by
  have hfits : ∀ entry ∈ [columnEntry 2, columnEntry twoAndHalf], ColumnFits entry := by
    have htwo : Number.Fits 2 := by
      rintro _ ⟨⟩
      decide +kernel
    simp [columnFits_columnEntry, htwo, fits_twoAndHalf]
  refine ⟨_, _, rfl, ?_⟩
  have hplaced := @wellFormed_iff_isPlaced 4 _ _ hfits rfl
  obtain ⟨_, _, ⟨_, ⟨⟩, hd⟩, hplaced, ⟨⟩⟩ := List.forall₂_cons_left_iff.1 hplaced
  obtain ⟨_, _, ⟨_, ⟨⟩, he⟩, -, ⟨⟩⟩ := List.forall₂_cons_left_iff.1 hplaced
  refine ⟨hd.2 ⟨⟨3, 2, rfl, by decide +kernel, by decide +kernel⟩, ?_, "odd", rfl⟩, fun h => ?_⟩
  · rintro _ ⟨⟩ -
    exact ⟨2, rfl, .inl (by decide +kernel)⟩
  · obtain ⟨_, ⟨⟩, hcounts⟩ := (he.1 h).column _ rfl rfl
    revert hcounts
    decide +kernel

/-- A column between two others is taken over as it is. -/
theorem fractional_column_is_kept :
    ¬ ∀ (offset : Nat) (entries : List Json) (messages : List Diagnostic),
      (∀ entry ∈ entries, ColumnFits entry) → ofStderr offset entries = .ok messages →
        ∀ d ∈ messages, d.WellFormed := by
  intro h
  have hfits : ∀ entry ∈ [columnEntry twoAndHalf], ColumnFits entry := by
    simp [columnFits_columnEntry, fits_twoAndHalf]
  obtain ⟨n, hn⟩ := (h 4 _ _ hfits rfl _ List.mem_cons_self).column
  have hnatural := Number.isInteger_natCast n
  rw [← hn] at hnatural
  revert hnatural
  decide +kernel

end Diagnostic

end AsmLens
