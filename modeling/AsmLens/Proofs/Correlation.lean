import AsmLens.Proofs.Counting
import AsmLens.Proofs.Lines
import AsmLens.Service.Output
import Mathlib.Data.List.Nodup
import Mathlib.Data.List.Enum

/-!
# The lookups of an index

What the index of an output finds: for a line of the source all lines of the output that came from it, in
ascending order, and for a line of the output the line of the source that it came from.
-/

namespace AsmLens

/-! ### Lookups -/

namespace LineIndex

theorem generatedLines_add (index : LineIndex) (line : AnnotatedLine) (s : Number) :
    (index.add line).generatedLines s =
      index.generatedLines s ++ if line.sourceLine = some s then [line.index] else [] := by
  unfold add
  cases hline : line.sourceLine with
  | none => simp
  | some t =>
    show ((index.generatedOf.put t _).get? s).getD [] = _
    rw [Table.get?_put]
    by_cases hts : t = s
    · rw [if_pos hts, if_pos (by rw [hts]), hts]
      rfl
    · rw [if_neg hts, if_neg (by simpa using hts), List.append_nil]
      rfl

theorem sourceLine?_add (index : LineIndex) (line : AnnotatedLine) (x : Number) :
    (index.add line).sourceLine? x =
      if line.index = x then line.sourceLine.or (index.sourceLine? x) else index.sourceLine? x := by
  unfold add
  cases hline : line.sourceLine with
  | none => simp
  | some t =>
    show (index.sourceOf.put line.index t).get? x = _
    rw [Table.get?_put]
    rfl

theorem generatedLines_foldl (index : LineIndex) (lines : List AnnotatedLine) (s : Number) :
    (lines.foldl add index).generatedLines s =
      index.generatedLines s ++ (lines.filter fun line => line.sourceLine = some s).map (·.index) := by
  induction lines generalizing index with
  | nil => simp
  | cons line lines ih =>
    rw [List.foldl_cons, ih, generatedLines_add, List.append_assoc]
    by_cases hline : line.sourceLine = some s
    · rw [if_pos hline, List.filter_cons_of_pos (by simpa using hline)]
      rfl
    · rw [if_neg hline, List.filter_cons_of_neg (by simpa using hline), List.nil_append]

theorem sourceLine?_foldl_of_notMem (index : LineIndex) {lines : List AnnotatedLine} {x : Number}
    (hx : x ∉ lines.map (·.index)) : (lines.foldl add index).sourceLine? x = index.sourceLine? x := by
  induction lines generalizing index with
  | nil => rfl
  | cons line lines ih =>
    rw [List.map_cons, List.mem_cons, not_or] at hx
    rw [List.foldl_cons, ih _ hx.2, sourceLine?_add, if_neg (Ne.symm hx.1)]

theorem sourceLine?_foldl (index : LineIndex) {lines : List AnnotatedLine}
    (hnodup : (lines.map (·.index)).Nodup) {line : AnnotatedLine} (hline : line ∈ lines)
    (hnone : index.sourceLine? line.index = none) :
    (lines.foldl add index).sourceLine? line.index = line.sourceLine := by
  induction lines generalizing index with
  | nil => nomatch hline
  | cons first lines ih =>
    obtain ⟨hfirst, hrest⟩ := List.nodup_cons.1 hnodup
    rw [List.foldl_cons]
    rcases List.mem_cons.1 hline with rfl | hline
    · rw [sourceLine?_foldl_of_notMem _ hfirst, sourceLine?_add, if_pos rfl, hnone, Option.or_none]
    · have hne : first.index ≠ line.index := by
        intro heq
        refine hfirst ?_
        show first.index ∈ _
        rw [heq]
        exact List.mem_map_of_mem hline
      refine ih _ hrest hline ?_
      rw [sourceLine?_add, if_neg hne, hnone]

end LineIndex

/-! ### The index of an output -/

namespace AnnotatedLine

/-- A line of an output, counted from one, came from a line of the source. -/
def CameFrom (asm : List AsmLine) (i : Nat) (s : Number) : Prop :=
  ∃ line, 1 ≤ i ∧ asm[i - 1]? = some line ∧ lineOf line.source = some s

theorem CameFrom.le_length {asm : List AsmLine} {i : Nat} {s : Number} (h : CameFrom asm i s) :
    1 ≤ i ∧ i ≤ asm.length := by
  obtain ⟨line, hi, hline, -⟩ := h
  have hlt := (List.getElem?_eq_some_iff.1 hline).1
  omega

/-- The lines of an output that came from a line of the source. -/
def linesFrom (asm : List AsmLine) (s : Number) : List Nat :=
  (asm.zipIdx.filter fun entry => lineOf entry.1.source = some s).map fun entry => entry.2 + 1

theorem ofAsm_eq (asm : List AsmLine) : ofAsm asm = asm.zipIdx.map fun entry =>
    ⟨((entry.2 + 1 : Nat) : Number), some (.str entry.1.text), lineOf entry.1.source⟩ :=
  List.mapIdx_eq_zipIdx_map

theorem pairwise_linesFrom (asm : List AsmLine) (s : Number) : (linesFrom asm s).Pairwise (· < ·) := by
  have hall : (asm.zipIdx.map Prod.snd).Pairwise (· < ·) := by
    rw [List.zipIdx_map_snd]
    exact List.pairwise_lt_range'
  unfold linesFrom
  rw [List.pairwise_map] at hall ⊢
  exact (hall.sublist List.filter_sublist).imp Nat.succ_lt_succ

theorem mem_linesFrom {asm : List AsmLine} {s : Number} {i : Nat} :
    i ∈ linesFrom asm s ↔ CameFrom asm i s := by
  unfold linesFrom CameFrom
  simp only [List.mem_map, List.mem_filter, decide_eq_true_eq, Prod.exists, List.mem_zipIdx_iff_getElem?]
  constructor
  · rintro ⟨line, j, ⟨hline, hs⟩, rfl⟩
    exact ⟨line, by omega, hline, hs⟩
  · rintro ⟨line, hi, hline, hs⟩
    exact ⟨line, i - 1, ⟨hline, hs⟩, by omega⟩

theorem generatedLines_ofAsm (asm : List AsmLine) (s : Number) :
    (LineIndex.ofLines (ofAsm asm)).generatedLines s = (linesFrom asm s).map fun i : Nat => (i : Number) := by
  unfold LineIndex.ofLines linesFrom
  rw [LineIndex.generatedLines_foldl, ofAsm_eq, List.filter_map, List.map_map, List.map_map]
  rfl

theorem nodup_ofAsm (asm : List AsmLine) : ((ofAsm asm).map (·.index)).Nodup := by
  have hindices : (ofAsm asm).map (·.index) =
      (asm.zipIdx.map Prod.snd).map fun i => ((i + 1 : Nat) : Number) := by
    rw [ofAsm_eq, List.map_map, List.map_map]
    rfl
  rw [hindices, List.zipIdx_map_snd]
  have hinjective : Function.Injective fun i : Nat => ((i + 1 : Nat) : Number) :=
    fun i j h => Nat.succ.inj (Number.natCast_inj h)
  exact (List.nodup_range' 1).map hinjective

theorem sourceLine?_ofAsm {asm : List AsmLine} {i : Nat} {line : AsmLine} (hline : asm[i]? = some line) :
    (LineIndex.ofLines (ofAsm asm)).sourceLine? ((i + 1 : Nat) : Number) = lineOf line.source := by
  have hmem : (⟨((i + 1 : Nat) : Number), some (.str line.text), lineOf line.source⟩ : AnnotatedLine) ∈
      ofAsm asm := by
    rw [ofAsm_eq, List.mem_map]
    exact ⟨(line, i), List.mem_zipIdx_iff_getElem?.2 hline, rfl⟩
  exact LineIndex.sourceLine?_foldl .empty (nodup_ofAsm asm) hmem rfl

theorem sourceLine?_ofAsm_eq_some_iff {asm : List AsmLine} {x s : Number} :
    (LineIndex.ofLines (ofAsm asm)).sourceLine? x = some s ↔
      ∃ i : Nat, x = (i : Number) ∧ CameFrom asm i s := by
  constructor
  · intro h
    by_cases hx : x ∈ (ofAsm asm).map (·.index)
    · rw [ofAsm_eq, List.map_map, List.mem_map] at hx
      obtain ⟨⟨line, i⟩, hmem, rfl⟩ := hx
      have hline := List.mem_zipIdx_iff_getElem?.1 hmem
      exact ⟨i + 1, rfl, line, Nat.succ_pos i, hline, (sourceLine?_ofAsm hline).symm.trans h⟩
    · have hnone : (LineIndex.ofLines (ofAsm asm)).sourceLine? x = none :=
        LineIndex.sourceLine?_foldl_of_notMem .empty hx
      rw [hnone] at h
      nomatch h
  · rintro ⟨i, rfl, line, hi, hline, hs⟩
    have hsource := sourceLine?_ofAsm hline
    rw [Nat.sub_add_cancel hi] at hsource
    exact hsource.trans hs

end AnnotatedLine

end AsmLens
