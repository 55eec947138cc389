import AsmLens.Command.Compile
import AsmLens.Proofs.Counting
import AsmLens.Proofs.Lines
import AsmLens.Window.Document

/-!
# The lines that a command is about

A source is a block of lines of a document (`Source.IsBlock`), whatever named it. Two integers, of any size and
in either order, are cut to the lines that there are; a selection stands for the lines on which it covers
something, a character or a line break (`Selection.Covers`); and where nothing is named or selected, the source
is the whole document. All of this is `chosen_source_spans`.

So to select all of a document and to select nothing come to the same, unless the text ends with a line break:
nothing of the empty line behind it can be covered (`selecting_all_begins_same_run`).
-/

namespace AsmLens

/-! ### Blocks of lines -/

theorem map_filter_zipIdx {α : Type} (l : List α) (start : Nat) {first last : Nat} :
    (((l.zipIdx start).filter fun p => decide (first ≤ p.2) && decide (p.2 ≤ last)).map (·.1)) =
      (l.drop (first - start)).take (last + 1 - max start first) := by
  induction l generalizing start with
  | nil => simp
  | cons a l ih =>
    rw [List.zipIdx_cons]
    by_cases hfirst : start < first
    · have hdrop : first - start = (first - (start + 1)) + 1 := by omega
      rw [List.filter_cons_of_neg (by simp; omega), ih, hdrop, List.drop_succ_cons]
      congr 1
      omega
    · have hnone : first - start = 0 := by omega
      have hnone' : first - (start + 1) = 0 := by omega
      by_cases hlast : start ≤ last
      · have htake : last + 1 - max start first = (last + 1 - max (start + 1) first) + 1 := by omega
        rw [List.filter_cons_of_pos (by simp; omega), List.map_cons, ih, hnone, hnone', htake, List.drop_zero,
          List.drop_zero, List.take_succ_cons]
      · have htake : last + 1 - max start first = 0 := by omega
        have htake' : last + 1 - max (start + 1) first = 0 := by omega
        rw [List.filter_cons_of_neg (by simp; omega), ih, htake, htake', List.take_zero, List.take_zero]

/-- The lines from `first` to `last`, both counted from one. -/
def Text.block (lines : List String) (first last : Nat) : List String :=
  (lines.drop (first - 1)).take (last + 1 - first)

theorem Text.block_eq_iff {lines : List String} {first last : Nat} (hfirst : 1 ≤ first) (hle : first ≤ last)
    (hlast : last ≤ lines.length) : block lines first last = lines ↔ first = 1 ∧ last = lines.length := by
  constructor
  · intro h
    have hlength := congrArg List.length h
    rw [block, List.length_take, List.length_drop] at hlength
    omega
  · rintro ⟨rfl, rfl⟩
    simp [block]

/-- A range of some of the first lines, up to a number of them. -/
def LineRange.IsAmong (range : LineRange) (count : Nat) : Prop :=
  ∃ first last : Nat, 1 ≤ first ∧ first ≤ last ∧ last ≤ count ∧ range = ⟨(first : Number), (last : Number)⟩

namespace Source

variable {lines : List String} {selection : Selection} {range : Option LineRange} {source : Source}
  {first last : Nat}

/-- A source has the lines of a document from one of them on, counted from zero, and no other ones. -/
structure IsBlock (source : Source) (lines : List String) (start : Nat) : Prop where
  first : source.range.first = ((start + 1 : Nat) : Number)
  block : Text.lines source.text <+: lines.drop start

theorem IsBlock.getElem? {start i : Nat} {line : String} (h : source.IsBlock lines start)
    (hi : (Text.lines source.text)[i]? = some line) : lines[start + i]? = some line := by
  obtain ⟨rest, hrest⟩ := h.block
  rw [← List.getElem?_drop, ← hrest, List.getElem?_append_left (List.getElem?_eq_some_iff.1 hi).1]
  exact hi

/-- A source is the lines of a document from `first` to `last`, and all of it if these are all lines. -/
structure Spans (source : Source) (lines : List String) (first last : Nat) : Prop where
  first_pos : 1 ≤ first
  first_le : first ≤ last
  last_le : last ≤ lines.length
  range : source.range = ⟨(first : Number), (last : Number)⟩
  text : Text.lines source.text = Text.block lines first last
  isWhole : source.isWhole = true ↔ Text.block lines first last = lines

theorem Spans.isBlock (h : source.Spans lines first last) : source.IsBlock lines (first - 1) := by
  refine ⟨?_, ?_⟩
  · rw [h.range, Nat.sub_add_cancel h.first_pos]
  · rw [h.text]
    exact List.take_prefix _ _

def ofBlock (lines : List String) (first last : Nat) : Source :=
  ⟨Text.joinLines (Text.block lines first last), ⟨(first : Number), (last : Number)⟩,
    decide (first = 1 ∧ last = lines.length)⟩

theorem spans_ofBlock (hlines : ∀ line ∈ lines, '\n' ∉ line.toList) (hfirst : 1 ≤ first) (hle : first ≤ last)
    (hlast : last ≤ lines.length) : (ofBlock lines first last).Spans lines first last := by
  refine ⟨hfirst, hle, hlast, rfl, ?_, ?_⟩
  · refine Text.lines_joinLines (fun hnil => ?_) fun line hline =>
      hlines line (List.mem_of_mem_drop (List.mem_of_mem_take hline))
    have hlength := congrArg List.length hnil
    rw [Text.block, List.length_take, List.length_drop, List.length_nil] at hlength
    omega
  · rw [Text.block_eq_iff hfirst hle hlast]
    exact decide_eq_true_iff

theorem linesIn_block (hfirst : 1 ≤ first) (hle : first ≤ last) (hlast : last ≤ lines.length) :
    linesIn lines ⟨(first : Number), (last : Number)⟩ = .ok (Text.block lines first last) := by
  have hinteger : (first : Number).isInteger = true := by
    show (Number.toInt? ((first : Int) : Number)).isSome = true
    rw [Number.toInt?_intCast]
    rfl
  have hpositive : Number.le 1 (first : Number) = decide (1 ≤ first) := Number.le_natCast 1 first
  have hlines : hasLines lines.length ⟨(first : Number), (last : Number)⟩ = true := by
    simp only [hasLines, LineRange.isEmpty, hinteger, hpositive, Number.le_natCast, Number.lt_natCast]
    simp only [decide_eq_true hfirst, decide_eq_true hle, decide_eq_true (Nat.lt_succ_of_le hlast)]
    rfl
  rw [linesIn, if_pos hlines]
  simp only [LineRange.contains, Number.le_natCast]
  rw [map_filter_zipIdx, Nat.max_eq_right hfirst]
  rfl

theorem ofLines_of_rangeFor (hfirst : 1 ≤ first) (hle : first ≤ last) (hlast : last ≤ lines.length)
    (hrange : rangeFor lines.length selection range = ⟨(first : Number), (last : Number)⟩) :
    ofLines lines selection range = .ok (ofBlock lines first last) := by
  have hwhole : LineRange.isWhole ⟨(first : Number), (last : Number)⟩ lines.length =
      decide (first = 1 ∧ last = lines.length) := by
    rw [LineRange.isWhole, Bool.decide_and]
    congr 1
    · exact decide_eq_decide.2 ⟨fun h => Number.natCast_inj (n := 1) h, fun h => h ▸ rfl⟩
    · exact decide_eq_decide.2 ⟨Number.natCast_inj, fun h => h ▸ rfl⟩
  unfold ofLines
  dsimp only
  rw [hrange, linesIn_block hfirst hle hlast, hwhole]
  rfl

theorem isBlock_of_isAmong (hlines : ∀ line ∈ lines, '\n' ∉ line.toList)
    (hrange : (rangeFor lines.length selection range).IsAmong lines.length)
    (hsource : ofLines lines selection range = .ok source) : ∃ start, source.IsBlock lines start := by
  obtain ⟨first, last, hfirst, hle, hlast, hrange⟩ := hrange
  rw [ofLines_of_rangeFor hfirst hle hlast hrange] at hsource
  cases hsource
  exact ⟨first - 1, (spans_ofBlock hlines hfirst hle hlast).isBlock⟩

end Source

/-! ### Lines that are named -/

theorem LineRange.of_ofArguments {arguments : List Json} {range : LineRange}
    (h : ofArguments arguments = some range) : ∃ i j : Int, range = ⟨(i : Number), (j : Number)⟩ := by
  obtain ⟨_, -, h⟩ := Option.bind_eq_some_iff.1 h
  obtain ⟨a, -, h⟩ := Option.bind_eq_some_iff.1 h
  obtain ⟨_, -, h⟩ := Option.bind_eq_some_iff.1 h
  obtain ⟨b, -, h⟩ := Option.bind_eq_some_iff.1 h
  split at h
  · rename_i hintegers
    rw [Bool.and_eq_true] at hintegers
    obtain ⟨i, hi⟩ := Option.isSome_iff_exists.1 hintegers.1
    obtain ⟨j, hj⟩ := Option.isSome_iff_exists.1 hintegers.2
    cases h
    rw [Number.of_toInt? hi, Number.of_toInt? hj]
    unfold between
    split
    · exact ⟨i, j, rfl⟩
    · exact ⟨j, i, rfl⟩
  · nomatch h

/-- The range that a command with two integers is about, or with none. -/
def LineRange.named (integers : Option (Int × Int)) : Option LineRange :=
  integers.bind fun p => ofArguments [.num (p.1 : Number), .num (p.2 : Number)]

theorem LineRange.named_some (i j : Int) :
    named (some (i, j)) = some ⟨((min i j : Int) : Number), ((max i j : Int) : Number)⟩ := by
  have hintegers : ((i : Number).isInteger && (j : Number).isInteger) = true := by
    simp [Number.isInteger, Number.toInt?_intCast]
  have hnamed : named (some (i, j)) = some (between (i : Number) (j : Number)) := if_pos hintegers
  rw [hnamed, between]
  by_cases h : i ≤ j
  · rw [if_pos (Number.le_intCast_iff.2 h), Int.min_eq_left h, Int.max_eq_right h]
  · rw [if_neg fun hle => h (Number.le_intCast_iff.1 hle), Int.min_eq_right (by omega),
      Int.max_eq_left (by omega)]

theorem LineRange.named_swap (integers : Option (Int × Int)) :
    named (integers.map Prod.swap) = named integers := by
  cases integers with
  | none => rfl
  | some p =>
    obtain ⟨i, j⟩ := p
    show named (some (j, i)) = _
    rw [named_some, named_some, Int.min_comm, Int.max_comm]

namespace Source

theorem clamp_intCast (i j : Int) (count : Nat) : clamp count ⟨(i : Number), (j : Number)⟩ =
    ⟨((min (max i 1) count : Int) : Number), ((min (max j (min (max i 1) count)) count : Int) : Number)⟩ := by
  show LineRange.mk (Number.min (Number.max (i : Number) ((1 : Int) : Number)) ((count : Int) : Number))
    (Number.min (Number.max (j : Number)
      (Number.min (Number.max (i : Number) ((1 : Int) : Number)) ((count : Int) : Number)))
        ((count : Int) : Number)) = _
  simp only [Number.max_intCast, Number.min_intCast]

theorem clamp_natCast {first last count : Nat} (hfirst : 1 ≤ first) (hle : first ≤ last) (hlast : last ≤ count) :
    clamp count ⟨(first : Number), (last : Number)⟩ = ⟨(first : Number), (last : Number)⟩ := by
  have hclamp := clamp_intCast first last count
  have hfirst' : min (max (first : Int) 1) count = first := by omega
  have hlast' : min (max (last : Int) first) count = last := by omega
  rw [hfirst', hlast'] at hclamp
  exact hclamp

theorem isAmong_clamp (i j : Int) {count : Nat} (hcount : 1 ≤ count) :
    (clamp count ⟨(i : Number), (j : Number)⟩).IsAmong count := by
  obtain ⟨first, hfirst⟩ := Int.eq_ofNat_of_zero_le (a := min (max i 1) count) (by omega)
  obtain ⟨last, hlast⟩ := Int.eq_ofNat_of_zero_le (a := min (max j (min (max i 1) count)) count) (by omega)
  refine ⟨first, last, by omega, by omega, by omega, ?_⟩
  rw [clamp_intCast, hlast, hfirst]
  rfl

end Source

/-! ### Lines that are selected -/

/-- A position that is in a document with these lines. -/
def Position.IsIn (lines : List String) (p : Position) : Prop :=
  ∃ (line column : Nat) (text : String), p.line = (line : Number) ∧ p.column = (column : Number) ∧
    lines[line]? = some text ∧ column ≤ Text.length16 text

theorem Position.le_natCast (line column line' column' : Nat) :
    Position.le ⟨(line : Number), (column : Number)⟩ ⟨(line' : Number), (column' : Number)⟩ =
      decide (line < line' ∨ line = line' ∧ column ≤ column') := by
  have hline : decide ((line : Number) = line') = decide (line = line') :=
    decide_eq_decide.2 ⟨Number.natCast_inj, fun h => h ▸ rfl⟩
  rw [le, Number.lt_natCast, Number.le_natCast, hline, Bool.decide_or, Bool.decide_and]

/-- A place of a document: a column of one of its lines, at most the one behind the last character. -/
def Text.IsPlace (lines : List String) (line column : Nat) : Prop :=
  ∃ text, lines[line]? = some text ∧ column ≤ length16 text

theorem Text.IsPlace.lt_length {lines : List String} {line column : Nat} (h : IsPlace lines line column) :
    line < lines.length := by
  obtain ⟨text, htext, -⟩ := h
  exact (List.getElem?_eq_some_iff.1 htext).1

theorem Position.IsIn.place {lines : List String} {p : Position} (h : p.IsIn lines) :
    ∃ line column : Nat, p = ⟨(line : Number), (column : Number)⟩ ∧ Text.IsPlace lines line column := by
  obtain ⟨line, column, text, hline, hcolumn, htext, hle⟩ := h
  refine ⟨line, column, ?_, text, htext, hle⟩
  rw [← hline, ← hcolumn]

/-- Something stands at a place of a document: a unit of a character, or the line break behind a line. -/
def Text.Stands (lines : List String) (line column : Nat) : Prop :=
  ∃ text, lines[line]? = some text ∧
    (column < length16 text ∨ column = length16 text ∧ line + 1 < lines.length)

namespace Selection

variable {lines : List String} {s : Selection} {line column line' column' : Nat}

/-- A selection that is in a document with these lines. -/
def IsIn (lines : List String) (s : Selection) : Prop := s.anchor.IsIn lines ∧ s.active.IsIn lines

/-- A selection covers something on a line: it starts before it and does not end before it. -/
def Covers (lines : List String) (s : Selection) (line : Nat) : Prop :=
  ∃ column : Nat, Text.Stands lines line column ∧ s.start.le ⟨(line : Number), (column : Number)⟩ = true ∧
    s.stop.le ⟨(line : Number), (column : Number)⟩ = false

theorem IsIn.ends (h : s.IsIn lines) : ∃ line column line' column' : Nat,
    s.start = ⟨(line : Number), (column : Number)⟩ ∧ s.stop = ⟨(line' : Number), (column' : Number)⟩ ∧
      Text.IsPlace lines line column ∧ Text.IsPlace lines line' column' ∧
        (line < line' ∨ line = line' ∧ column ≤ column') := by
  obtain ⟨line, column, hanchor, hplace⟩ := h.1.place
  obtain ⟨line', column', hactive, hplace'⟩ := h.2.place
  unfold start stop
  rw [hanchor, hactive, Position.le_natCast]
  by_cases hle : line < line' ∨ line = line' ∧ column ≤ column'
  · rw [decide_eq_true hle]
    exact ⟨line, column, line', column', rfl, rfl, hplace, hplace', hle⟩
  · rw [decide_eq_false hle]
    exact ⟨line', column', line, column, rfl, rfl, hplace', hplace, by omega⟩

theorem isEmpty_iff : s.isEmpty = true ↔ s.start = s.stop := by
  unfold isEmpty start stop
  rw [decide_eq_true_iff]
  split
  · exact Iff.rfl
  · exact eq_comm

theorem ends_behind_start (hstart : s.start = ⟨(line : Number), (column : Number)⟩)
    (hstop : s.stop = ⟨(line' : Number), (column' : Number)⟩) (hle : line < line' ∨ line = line' ∧ column ≤ column')
    (hselected : s.isEmpty = false) : line < line' ∨ line = line' ∧ column < column' := by
  refine hle.imp_right fun h => ⟨h.1, Nat.lt_of_le_of_ne h.2 ?_⟩
  rintro rfl
  obtain ⟨rfl, -⟩ := h
  rw [isEmpty_iff.2 (hstart.trans hstop.symm)] at hselected
  nomatch hselected

/-- The lines on which a selection covers something. At the first one that is where it starts, and at each
later one the start of the line, unless the selection ends there. -/
theorem covers_iff (hstart : s.start = ⟨(line : Number), (column : Number)⟩)
    (hstop : s.stop = ⟨(line' : Number), (column' : Number)⟩) (hplace : Text.IsPlace lines line column)
    (hplace' : Text.IsPlace lines line' column') (hlt : line < line' ∨ line = line' ∧ column < column') (k : Nat) :
    s.Covers lines k ↔ line ≤ k ∧ k < if column' = 0 ∧ line < line' then line' else line' + 1 := by
  unfold Covers
  simp only [hstart, hstop, Position.le_natCast, decide_eq_true_iff, decide_eq_false_iff_not]
  constructor
  · rintro ⟨c, -, hfrom, hto⟩
    split <;> omega
  · rintro ⟨hfrom, hto⟩
    have hk : k < lines.length := by
      have hlast := hplace'.lt_length
      split at hto <;> omega
    obtain ⟨text', htext', hcolumn'⟩ := hplace'
    have hlast : line' < lines.length := (List.getElem?_eq_some_iff.1 htext').1
    by_cases hfirst : k = line
    · subst hfirst
      obtain ⟨text, htext, hcolumn⟩ := hplace
      refine ⟨column, ⟨text, htext, ?_⟩, by omega, by omega⟩
      rcases hlt with hlt | ⟨rfl, hlt⟩
      · omega
      · cases htext.symm.trans htext'
        omega
    · refine ⟨0, ⟨lines[k], List.getElem?_eq_getElem hk, ?_⟩, by omega, by split at hto <;> omega⟩
      by_cases hend : k = line'
      · subst hend
        cases (List.getElem?_eq_getElem hk).symm.trans htext'
        split at hto <;> omega
      · split at hto <;> omega

end Selection

namespace Source

variable {lines : List String} {selection : Selection} {first last : Nat}

theorem covered_natCast {line column line' column' : Nat}
    (hstart : selection.start = ⟨(line : Number), (column : Number)⟩)
    (hstop : selection.stop = ⟨(line' : Number), (column' : Number)⟩) (hline : line < 2 ^ 53)
    (hline' : line' < 2 ^ 53) : covered selection =
      ⟨((line + 1 : Nat) : Number),
        ((if column' = 0 ∧ line < line' then line' else line' + 1 : Nat) : Number)⟩ := by
  have hcolumn : (column' : Number) = 0 ↔ column' = 0 :=
    ⟨fun h => Number.natCast_inj (n := 0) h, fun h => h ▸ rfl⟩
  have hnext : ∀ n : Nat, n < 2 ^ 53 → (n : Number) + 1 = ((n + 1 : Nat) : Number) := fun n hn =>
    Number.natCast_add (n := 1) hn
  unfold covered
  simp only [hstart, hstop, hcolumn, Number.lt_natCast, decide_eq_true_iff, hnext line hline, hnext line' hline']
  split <;> rfl

theorem isAmong_covered (hselection : selection.IsIn lines) (hcount : lines.length ≤ 2 ^ 53) :
    (covered selection).IsAmong lines.length := by
  obtain ⟨line, column, line', column', hstart, hstop, hplace, hplace', hle⟩ := hselection.ends
  have hlt := hplace.lt_length
  have hlt' := hplace'.lt_length
  rw [covered_natCast hstart hstop (by omega) (by omega)]
  refine ⟨_, _, by omega, ?_, ?_, rfl⟩
  · split <;> omega
  · split <;> omega

/-- Two integers are named as arguments, or something in the document is selected, or neither. -/
def IsChosen (lines : List String) (selection : Selection) (arguments : List Json) : Prop :=
  (LineRange.ofArguments arguments).isSome = true ∨ selection.isEmpty = true ∨ selection.IsIn lines

theorem isAmong_rangeFor {arguments : List Json} (hlines : lines ≠ []) (hcount : lines.length ≤ 2 ^ 53)
    (hchosen : IsChosen lines selection arguments) :
    (rangeFor lines.length selection (LineRange.ofArguments arguments)).IsAmong lines.length := by
  have hpos : 1 ≤ lines.length := List.length_pos_iff.2 hlines
  cases hrange : LineRange.ofArguments arguments with
  | some range =>
    obtain ⟨i, j, rfl⟩ := LineRange.of_ofArguments hrange
    exact isAmong_clamp i j hpos
  | none =>
    unfold rangeFor
    dsimp only
    split
    · exact ⟨1, lines.length, Nat.le_refl 1, hpos, Nat.le_refl _, rfl⟩
    · rename_i hselected
      obtain hsome | hempty | hin := hchosen
      · rw [hrange] at hsome
        nomatch hsome
      · exact absurd hempty hselected
      · exact isAmong_covered hin hcount

/-! ### Whatever names the lines -/

/-- The lines that a command means. Of those between two integers it means the ones that there are, or the one
next to them. Without integers it means the lines on which the selection covers something, and all of them when
nothing is selected. -/
def Means (lines : List String) (selection : Selection) (integers : Option (Int × Int)) (first last : Nat) : Prop :=
  match integers with
  | some (i, j) => (first : Int) = max 1 (min (min i j) lines.length) ∧
      (last : Int) = max 1 (min (max i j) lines.length)
  | none => (selection.isEmpty = true → first = 1 ∧ last = lines.length) ∧
      (selection.isEmpty = false → ∀ line, first ≤ line + 1 ∧ line + 1 ≤ last ↔ selection.Covers lines line)

theorem rangeFor_of_isEmpty (hempty : selection.isEmpty = true) (count : Number) :
    rangeFor count selection none = ⟨((1 : Nat) : Number), count⟩ := if_pos hempty

theorem rangeFor_of_not_isEmpty (hselected : selection.isEmpty = false) (count : Number) :
    rangeFor count selection none = covered selection := by
  unfold rangeFor
  rw [hselected]
  rfl

theorem rangeFor_named (hlines : lines ≠ []) (hcount : lines.length ≤ 2 ^ 53) (hselection : selection.IsIn lines)
    (integers : Option (Int × Int)) : ∃ first last : Nat, 1 ≤ first ∧ first ≤ last ∧ last ≤ lines.length ∧
      rangeFor lines.length selection (LineRange.named integers) = ⟨(first : Number), (last : Number)⟩ ∧
        Means lines selection integers first last := by
  have hpos : 1 ≤ lines.length := List.length_pos_iff.2 hlines
  cases integers with
  | some p =>
    obtain ⟨i, j⟩ := p
    have hrange : rangeFor lines.length selection (LineRange.named (some (i, j))) =
        clamp lines.length ⟨((min i j : Int) : Number), ((max i j : Int) : Number)⟩ := by
      rw [LineRange.named_some]
      rfl
    rw [hrange, clamp_intCast]
    obtain ⟨first, hfirst⟩ := Int.eq_ofNat_of_zero_le
      (a := min (max (min i j) 1) lines.length) (by omega)
    obtain ⟨last, hlast⟩ := Int.eq_ofNat_of_zero_le
      (a := min (max (max i j) (min (max (min i j) 1) lines.length)) lines.length) (by omega)
    refine ⟨first, last, by omega, by omega, by omega, ?_, by omega, by omega⟩
    rw [hlast, hfirst]
    rfl
  | none =>
    show ∃ first last, _ ∧ _ ∧ _ ∧ rangeFor lines.length selection none = _ ∧ _
    cases hselected : selection.isEmpty with
    | true =>
      refine ⟨1, lines.length, Nat.le_refl 1, hpos, Nat.le_refl _, rangeFor_of_isEmpty hselected _, ?_⟩
      exact ⟨fun _ => ⟨rfl, rfl⟩, fun h => nomatch hselected.symm.trans h⟩
    | false =>
      obtain ⟨line, column, line', column', hstart, hstop, hplace, hplace', hle⟩ := hselection.ends
      have hlt := hplace.lt_length
      have hlt' := hplace'.lt_length
      rw [rangeFor_of_not_isEmpty hselected, covered_natCast hstart hstop (by omega) (by omega)]
      refine ⟨_, _, by omega, ?_, ?_, rfl, ?_⟩
      · split <;> omega
      · split <;> omega
      · refine ⟨fun h => (nomatch hselected.symm.trans h), fun _ k => ?_⟩
        have hne := Selection.ends_behind_start hstart hstop hle hselected
        rw [Selection.covers_iff hstart hstop hplace hplace' hne, Nat.succ_le_succ_iff, Nat.succ_le_iff]

/-- A command always finds its source: the lines that it means, from the first to the last, and no other ones. The
order of two integers is of no importance, and the range of the source stands for the same source again, whatever
is selected then. A text has less than `2 ^ 53` units, so that its lines can be counted. -/
theorem chosen_source_spans (text : String) (hlength : Text.length16 text < 2 ^ 53) {selection : Selection}
    (hselection : selection.IsIn (Text.lines text)) (integers : Option (Int × Int)) : ∃ source first last,
      ofLines (Text.lines text) selection (LineRange.named integers) = .ok source ∧
        source.Spans (Text.lines text) first last ∧
          Means (Text.lines text) selection integers first last ∧
            ofLines (Text.lines text) selection (LineRange.named (integers.map Prod.swap)) = .ok source ∧
              ∀ selection', ofLines (Text.lines text) selection' (some source.range) = .ok source := by
  have hcount : (Text.lines text).length ≤ 2 ^ 53 := Nat.le_trans (Text.length_lines_le text) hlength
  obtain ⟨first, last, hfirst, hle, hlast, hrange, hmeans⟩ :=
    rangeFor_named (Text.lines_ne_nil text) hcount hselection integers
  have hsource := ofLines_of_rangeFor hfirst hle hlast hrange
  refine ⟨ofBlock (Text.lines text) first last, first, last, hsource,
    spans_ofBlock (fun _ => Text.notMem_of_mem_lines) hfirst hle hlast, hmeans, ?_, fun selection' => ?_⟩
  · rw [LineRange.named_swap]
    exact hsource
  · exact ofLines_of_rangeFor hfirst hle hlast (clamp_natCast hfirst hle hlast)

/-- Between two line breaks a whole line is selected, although it has no characters. The selection ends before the
third line, which is left out. -/
theorem line_breaks_are_selected : ∃ source,
    ofLines (Text.lines "f = 1\n\ng") ⟨⟨2, 0⟩, ⟨0, 5⟩⟩ (LineRange.named none) = .ok source ∧
      Text.lines source.text = ["f = 1", ""] ∧ source.isWhole = false := by
  have hlines : Text.lines "f = 1\n\ng" = ["f = 1", "", "g"] := by decide +kernel
  have hanchor : Position.IsIn (Text.lines "f = 1\n\ng") ⟨2, 0⟩ :=
    ⟨2, 0, "g", rfl, rfl, by rw [hlines]; rfl, by decide⟩
  have hactive : Position.IsIn (Text.lines "f = 1\n\ng") ⟨0, 5⟩ :=
    ⟨0, 5, "f = 1", rfl, rfl, by rw [hlines]; rfl, by decide⟩
  have hselection : Selection.IsIn (Text.lines "f = 1\n\ng") ⟨⟨2, 0⟩, ⟨0, 5⟩⟩ := ⟨hanchor, hactive⟩
  obtain ⟨source, first, last, hsource, hspans, hmeans, -, -⟩ :=
    chosen_source_spans "f = 1\n\ng" (by decide +kernel) hselection none
  have hcovers := hmeans.2 (by decide +kernel)
  rw [hlines] at hspans hcovers
  -- The line breaks of the first two lines are covered, and nothing of the third line is.
  have hfirst := (hcovers 0).2 ⟨5, ⟨"f = 1", rfl, by decide⟩, by decide +kernel, by decide +kernel⟩
  have hsecond := (hcovers 1).2 ⟨0, ⟨"", rfl, by decide⟩, by decide +kernel, by decide +kernel⟩
  have hthird : ¬ (first ≤ 2 + 1 ∧ 2 + 1 ≤ last) := by
    rw [hcovers 2]
    rintro ⟨column, -, -, hstop⟩
    have hle := Position.le_natCast 2 0 2 column
    rw [decide_eq_true (Or.inr ⟨rfl, Nat.zero_le column⟩)] at hle
    exact Bool.false_ne_true (hstop.symm.trans hle)
  have hpos := hspans.first_pos
  obtain rfl : first = 1 := by omega
  obtain rfl : last = 2 := by omega
  refine ⟨source, hsource, hspans.text, ?_⟩
  rw [← Bool.not_eq_true, hspans.isWhole]
  decide

end Source

/-! ### All of a document -/

/-- All of a document is selected, with the cursor at its end or at its start. -/
def Selection.IsAll (d : Document) (s : Selection) : Prop :=
  s = ⟨d.wholeRange.start, d.wholeRange.stop⟩ ∨ s = ⟨d.wholeRange.stop, d.wholeRange.start⟩

namespace Source

variable {d : Document} {s cursor : Selection} {init : List String} {last : String}

theorem isAll_ends (hs : s.IsAll d) (hlines : d.lines = init ++ [last]) :
    s.start = ⟨((0 : Nat) : Number), ((0 : Nat) : Number)⟩ ∧
      s.stop = ⟨(init.length : Number), (Text.length16 last : Number)⟩ := by
  have hstop : d.wholeRange.stop = ⟨(init.length : Number), (Text.length16 last : Number)⟩ := by
    simp [Document.wholeRange, Document.lineCount, hlines]
  have hstart : d.wholeRange.start = ⟨((0 : Nat) : Number), ((0 : Nat) : Number)⟩ := rfl
  rw [Selection.IsAll, hstart, hstop] at hs
  unfold Selection.start Selection.stop
  rcases hs with rfl | rfl
  · rw [Position.le_natCast, decide_eq_true (by omega)]
    exact ⟨rfl, rfl⟩
  · rw [Position.le_natCast]
    split
    · rename_i hle
      obtain ⟨hline, hcolumn⟩ : init.length = 0 ∧ Text.length16 last = 0 := by
        have := of_decide_eq_true hle
        omega
      rw [hline, hcolumn]
      exact ⟨rfl, rfl⟩
    · exact ⟨rfl, rfl⟩

/-- All lines are meant when all is selected, but not an empty one behind a line break. -/
theorem rangeFor_of_isAll (hs : s.IsAll d) (hlines : d.lines = init ++ [last]) (hcount : d.lineCount ≤ 2 ^ 53) :
    rangeFor d.lineCount s none = ⟨((1 : Nat) : Number),
      ((if Text.length16 last = 0 ∧ 0 < init.length then init.length else d.lineCount : Nat) : Number)⟩ := by
  have hlength : d.lineCount = init.length + 1 := by
    rw [Document.lineCount, hlines, List.length_append, List.length_singleton]
  obtain ⟨hstart, hstop⟩ := isAll_ends hs hlines
  cases hselected : s.isEmpty with
  | true =>
    have hnone : ¬ 0 < init.length := by
      have hsame := (hstart.symm.trans (Selection.isEmpty_iff.1 hselected)).trans hstop
      have hline := Number.natCast_inj (congrArg Position.line hsame)
      omega
    rw [rangeFor_of_isEmpty hselected, if_neg fun h => hnone h.2]
  | false =>
    rw [rangeFor_of_not_isEmpty hselected, covered_natCast hstart hstop (by decide) (by omega), hlength]

theorem ends_with_break_iff_of_lines (hlines : d.lines = init ++ [last]) :
    (∃ before, d.text = before ++ "\n") ↔ Text.length16 last = 0 ∧ 0 < init.length := by
  rw [Text.ends_with_break_iff, Text.length16_eq_zero_iff, List.length_pos_iff]
  constructor
  · rintro ⟨init', hne, hlines'⟩
    obtain ⟨rfl, hlast⟩ := List.append_inj' (hlines.symm.trans hlines') rfl
    exact ⟨List.singleton_inj.1 hlast, hne⟩
  · rintro ⟨rfl, hne⟩
    exact ⟨init, hne, hlines⟩

theorem ofBlock_all (d : Document) :
    ofBlock d.lines 1 d.lineCount = ⟨d.text, ⟨1, (d.lineCount : Number)⟩, true⟩ := by
  have hall : Text.block d.lines 1 d.lineCount = d.lines := by
    refine (Text.block_eq_iff (Nat.le_refl 1) ?_ (Nat.le_refl _)).2 ⟨rfl, rfl⟩
    exact List.length_pos_iff.2 (Text.lines_ne_nil d.text)
  unfold ofBlock
  rw [hall, decide_eq_true ⟨rfl, rfl⟩, Document.lines, Text.joinLines_lines]
  rfl

theorem ofBlock_before_break {before : String} (h : d.text = before ++ "\n") :
    ofBlock d.lines 1 (d.lineCount - 1) = ⟨before, ⟨1, ((d.lineCount - 1 : Nat) : Number)⟩, false⟩ := by
  have hlines : d.lines = Text.lines before ++ [""] := by
    rw [Document.lines, h, Text.lines_append_break]
  have hlength : d.lineCount = (Text.lines before).length + 1 := by simp [Document.lineCount, hlines]
  have hcut : Text.block d.lines 1 (d.lineCount - 1) = Text.lines before := by
    simp [Text.block, hlines, hlength]
  unfold ofBlock
  rw [hcut, Text.joinLines_lines, decide_eq_false]
  · rfl
  · rintro ⟨-, hall⟩
    rw [Document.lineCount] at hall hlength
    omega

/-- Nothing of a document is selected, or all of it: this makes no difference for what is compiled, unless the text
ends with a line break. In that case all lines are compiled but the empty one behind it, and this is no longer the
whole document. -/
theorem selecting_all_begins_same_run (hlength : Text.length16 d.text < 2 ^ 53) (hs : s.IsAll d)
    (hcursor : cursor.isEmpty = true) :
    ofLines d.lines cursor none = .ok ⟨d.text, ⟨1, (d.lineCount : Number)⟩, true⟩ ∧
      ((¬ ∃ before, d.text = before ++ "\n") → ofLines d.lines s none = ofLines d.lines cursor none ∧
        Compile.start d s none = Compile.start d cursor none) ∧
      ∀ before, d.text = before ++ "\n" →
        ofLines d.lines s none = .ok ⟨before, ⟨1, ((d.lineCount - 1 : Nat) : Number)⟩, false⟩ := by
  have hcount : d.lineCount ≤ 2 ^ 53 := Nat.le_trans (Text.length_lines_le d.text) hlength
  have hpos : 1 ≤ d.lineCount := List.length_pos_iff.2 (Text.lines_ne_nil d.text)
  obtain ⟨init, last, hlines⟩ := (List.eq_nil_or_concat' d.lines).resolve_left (Text.lines_ne_nil d.text)
  have hinit : d.lineCount = init.length + 1 := by simp [Document.lineCount, hlines]
  have hrange := rangeFor_of_isAll hs hlines hcount
  have hbreak := ends_with_break_iff_of_lines hlines
  have hnone : ofLines d.lines cursor none = .ok (ofBlock d.lines 1 d.lineCount) :=
    ofLines_of_rangeFor (Nat.le_refl 1) hpos (Nat.le_refl _) (rangeFor_of_isEmpty hcursor _)
  refine ⟨?_, fun hends => ?_, fun before hbefore => ?_⟩
  · rw [hnone, ofBlock_all]
  · rw [if_neg fun h => hends (hbreak.2 h)] at hrange
    have hall : ofLines d.lines s none = ofLines d.lines cursor none := by
      rw [hnone]
      exact ofLines_of_rangeFor (Nat.le_refl 1) hpos (Nat.le_refl _) hrange
    refine ⟨hall, ?_⟩
    unfold Compile.start
    rw [hall]
  · have hcut := hbreak.1 ⟨before, hbefore⟩
    have hinitial : init.length = d.lineCount - 1 := by omega
    rw [if_pos hcut, hinitial] at hrange
    have hsource : ofLines d.lines s none = .ok (ofBlock d.lines 1 (d.lineCount - 1)) :=
      ofLines_of_rangeFor (Nat.le_refl 1) (by omega) (Nat.sub_le _ 1) hrange
    rw [hsource, ofBlock_before_break hbefore]

def pythonDocument (text : String) : Document := ⟨.file "/main.py", text, "/main.py", false, true⟩

/-- A document is selected from its end to its start. Only if its text ends with a line break is the selection not
the whole document. -/
theorem selected_documents_are_compiled :
    ofLines (pythonDocument "f = 1\nf").lines ⟨⟨1, 1⟩, ⟨0, 0⟩⟩ none = .ok ⟨"f = 1\nf", ⟨1, 2⟩, true⟩ ∧
      ofLines (pythonDocument "f = 1\n").lines ⟨⟨1, 0⟩, ⟨0, 0⟩⟩ none = .ok ⟨"f = 1", ⟨1, 1⟩, false⟩ := by
  have hempty : Selection.isEmpty default = true := by decide +kernel
  constructor
  · have hall : Selection.IsAll (pythonDocument "f = 1\nf") ⟨⟨1, 1⟩, ⟨0, 0⟩⟩ := .inr (by decide +kernel)
    obtain ⟨hnone, hsame, -⟩ :=
      selecting_all_begins_same_run (d := pythonDocument "f = 1\nf") (by decide +kernel) hall hempty
    have hends : ¬ ∃ before, (pythonDocument "f = 1\nf").text = before ++ "\n" := by
      rintro ⟨before, hbefore⟩
      have hlines := congrArg (fun text => (Text.lines text).getLast?) hbefore
      rw [Text.lines_append_break, List.getLast?_concat] at hlines
      revert hlines
      decide +kernel
    rw [(hsame hends).1, hnone]
    rfl
  · have hall : Selection.IsAll (pythonDocument "f = 1\n") ⟨⟨1, 0⟩, ⟨0, 0⟩⟩ := .inr (by decide +kernel)
    obtain ⟨-, -, hbreak⟩ :=
      selecting_all_begins_same_run (d := pythonDocument "f = 1\n") (by decide +kernel) hall hempty
    exact hbreak "f = 1" (by decide +kernel)

/-- To select all of a document whose last line is empty is not to compile all of it. -/
theorem empty_last_line_is_left_out : ¬ ∀ (d : Document) (s cursor : Selection), d.text ≠ "" →
    Text.length16 d.text < 2 ^ 53 → s.IsAll d → cursor.isEmpty = true →
      ofLines d.lines s none = ofLines d.lines cursor none := by
  intro hall
  have hsame := hall (pythonDocument "f = 1\n") ⟨⟨0, 0⟩, ⟨1, 0⟩⟩ default (by decide +kernel) (by decide +kernel)
    (.inl (by decide +kernel)) (by decide +kernel)
  have hwhole := congrArg (fun r => r.toOption.map Source.isWhole) hsame
  exact absurd hwhole (by decide +kernel)

end Source

end AsmLens
