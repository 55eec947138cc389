import AsmLens.Proofs.Correlation
import Mathlib.Data.List.Induction
import Mathlib.Data.List.Perm.Basic

/-!
# The lookups are one relation

An index holds two tables that grow together. However the lines of the source are mixed in the output, the
two say the same: they are the two directions of the relation that the annotated lines of the output spell
out, and no line is lost, stored twice or out of order.
-/

namespace AsmLens

/-! ### Tables with one entry a key -/

namespace Table

variable {α β : Type} [DecidableEq α] {t : Table α β}

/-- Every key has one entry. -/
def HasKeys (t : Table α β) : Prop := (t.map Prod.fst).Nodup

theorem mem_remove {a : α} {entry : α × β} : entry ∈ t.remove a ↔ entry ∈ t ∧ entry.1 ≠ a := by
  unfold remove
  simp

theorem remove_cons_of_eq {entry : α × β} {a : α} (ha : entry.1 = a) :
    Table.remove (entry :: t) a = Table.remove t a :=
  List.filter_cons_of_neg (by simpa using ha)

theorem remove_cons_of_ne {entry : α × β} {a : α} (ha : entry.1 ≠ a) :
    Table.remove (entry :: t) a = entry :: Table.remove t a :=
  List.filter_cons_of_pos (by simpa using ha)

theorem remove_of_notMem {a : α} (ha : a ∉ t.map Prod.fst) : t.remove a = t := by
  refine List.filter_eq_self.2 fun entry hentry => ?_
  simpa using ne_of_mem_of_not_mem (List.mem_map_of_mem (f := Prod.fst) hentry) ha

theorem HasKeys.get?_of_mem (hkeys : t.HasKeys) {entry : α × β} (hentry : entry ∈ t) :
    t.get? entry.1 = some entry.2 := by
  induction t with
  | nil => nomatch hentry
  | cons first t ih =>
    obtain ⟨hfirst, hrest⟩ := List.nodup_cons.1 hkeys
    rcases List.mem_cons.1 hentry with rfl | hentry
    · exact if_pos rfl
    · have hne : first.1 ≠ entry.1 := (ne_of_mem_of_not_mem (List.mem_map_of_mem hentry) hfirst).symm
      rw [get?, if_neg hne, ih hrest hentry]

theorem HasKeys.remove (hkeys : t.HasKeys) (a : α) : (t.remove a).HasKeys :=
  hkeys.sublist (List.filter_sublist.map Prod.fst)

theorem HasKeys.perm_put (hkeys : t.HasKeys) (a : α) (b : β) : (t.put a b).Perm ((a, b) :: t.remove a) := by
  induction t with
  | nil => exact .refl _
  | cons first t ih =>
    obtain ⟨hfirst, hrest⟩ := List.nodup_cons.1 hkeys
    rw [put]
    by_cases ha : first.1 = a
    · rw [if_pos ha, remove_cons_of_eq ha, remove_of_notMem (ha ▸ hfirst), ha]
    · rw [if_neg ha, remove_cons_of_ne ha]
      exact ((ih hrest).cons first).trans (.swap ..)

theorem HasKeys.put (hkeys : t.HasKeys) (a : α) (b : β) : (t.put a b).HasKeys := by
  refine ((hkeys.perm_put a b).map Prod.fst).nodup_iff.2 (List.nodup_cons.2 ⟨fun ha => ?_, hkeys.remove a⟩)
  obtain ⟨entry, hentry, heq⟩ := List.mem_map.1 ha
  exact (mem_remove.1 hentry).2 heq

theorem HasKeys.flatMap_perm {t : Table α (List β)} (hkeys : t.HasKeys) (a : α) :
    (t.flatMap Prod.snd).Perm ((t.get? a).getD [] ++ (t.remove a).flatMap Prod.snd) := by
  induction t with
  | nil => exact .refl _
  | cons first t ih =>
    obtain ⟨hfirst, hrest⟩ := List.nodup_cons.1 hkeys
    rw [List.flatMap_cons, get?]
    by_cases ha : first.1 = a
    · rw [if_pos ha, remove_cons_of_eq ha, remove_of_notMem (ha ▸ hfirst)]
      exact .refl _
    · rw [if_neg ha, remove_cons_of_ne ha, List.flatMap_cons]
      exact ((ih hrest).append_left first.2).trans (List.perm_append_comm_assoc ..)

end Table

/-! ### What is stored -/

namespace LineIndex

/-- The lines of output of a list that came from somewhere. -/
def annotated (lines : List AnnotatedLine) : List Number :=
  (lines.filter fun line => line.sourceLine.isSome).map (·.index)

/-- The lines of output of a list that came from a line of the source, in the order of the list. -/
def cameFrom (lines : List AnnotatedLine) (s : Number) : List Number :=
  (lines.filter fun line => line.sourceLine = some s).map (·.index)

/-- What the table of the source's lines holds once some lines are in it. -/
structure Stores (index : LineIndex) (lines : List AnnotatedLine) : Prop where
  keys : index.generatedOf.HasKeys
  nonempty : ∀ entry ∈ index.generatedOf, entry.2 ≠ []
  /-- The lists have the annotated lines between them, each as often as it came. -/
  shared : (index.generatedOf.flatMap Prod.snd).Perm (annotated lines)

theorem stores_empty : empty.Stores [] :=
  ⟨List.nodup_nil, nofun, .nil⟩

theorem Stores.add {index : LineIndex} {lines : List AnnotatedLine} (h : index.Stores lines)
    (line : AnnotatedLine) : (index.add line).Stores (lines ++ [line]) := by
  have hannotated : annotated (lines ++ [line]) =
      annotated lines ++ if line.sourceLine.isSome then [line.index] else [] := by
    unfold annotated
    rw [List.filter_append, List.map_append, List.filter_singleton]
    cases line.sourceLine <;> rfl
  unfold LineIndex.add
  cases hline : line.sourceLine with
  | none =>
    rw [hline] at hannotated
    refine ⟨h.keys, h.nonempty, ?_⟩
    rw [hannotated]
    exact h.shared.trans (by simp)
  | some s =>
    rw [hline] at hannotated
    have hput := h.keys.perm_put s (index.generatedLines s ++ [line.index])
    refine ⟨h.keys.put s _, fun entry hentry => ?_, ?_⟩
    · rcases List.mem_cons.1 (hput.mem_iff.1 hentry) with rfl | hentry
      · simp
      · exact h.nonempty entry (Table.mem_remove.1 hentry).1
    · have hold := (h.keys.flatMap_perm s).symm.trans h.shared
      refine (hput.flatMap_right Prod.snd).trans ?_
      rw [hannotated, List.flatMap_cons, List.append_assoc]
      refine (List.Perm.append_left _ List.perm_append_comm).trans ?_
      rw [← List.append_assoc]
      exact hold.append_right [line.index]

theorem stores_ofLines (lines : List AnnotatedLine) : (ofLines lines).Stores lines := by
  induction lines using List.reverseRecOn with
  | nil => exact stores_empty
  | append_singleton lines line ih =>
    unfold ofLines at ih ⊢
    rw [List.foldl_append]
    exact ih.add line

/-! ### One relation -/

/-- The two lookups are the two directions of the relation that the annotated lines spell out. -/
structure Relates (index : LineIndex) (lines : List AnnotatedLine) : Prop where
  /-- What one lookup finds the other finds back. -/
  back : ∀ g s, g ∈ index.generatedLines s ↔ index.sourceLine? g = some s
  /-- A line of output has the line of the source that it was annotated with. -/
  spelled : ∀ g s, index.sourceLine? g = some s ↔ ∃ line ∈ lines, line.index = g ∧ line.sourceLine = some s
  /-- Every line of the source has at most one list. -/
  keys : index.generatedOf.HasKeys
  /-- A list that is stored is not empty, and has its lines in their order without repetition. -/
  listed : ∀ entry ∈ index.generatedOf, entry.2 ≠ [] ∧ entry.2 = cameFrom lines entry.1 ∧ entry.2.Nodup
  /-- The lists have every annotated line between them, and none twice. -/
  shared : (index.generatedOf.flatMap Prod.snd).Perm (annotated lines) ∧
    (index.generatedOf.flatMap Prod.snd).Nodup

variable {lines : List AnnotatedLine}

theorem generatedLines_ofLines (lines : List AnnotatedLine) (s : Number) :
    (ofLines lines).generatedLines s = cameFrom lines s :=
  generatedLines_foldl .empty lines s

theorem mem_cameFrom {g s : Number} :
    g ∈ cameFrom lines s ↔ ∃ line ∈ lines, line.index = g ∧ line.sourceLine = some s := by
  unfold cameFrom
  simp only [List.mem_map, List.mem_filter, decide_eq_true_eq]
  exact exists_congr fun line => and_assoc.trans (and_congr_right fun _ => and_comm)

theorem sourceLine?_ofLines_iff (hnodup : (lines.map (·.index)).Nodup) {g s : Number} :
    (ofLines lines).sourceLine? g = some s ↔ ∃ line ∈ lines, line.index = g ∧ line.sourceLine = some s := by
  constructor
  · intro h
    by_cases hg : g ∈ lines.map (·.index)
    · obtain ⟨line, hline, rfl⟩ := List.mem_map.1 hg
      exact ⟨line, hline, rfl, (sourceLine?_foldl .empty hnodup hline rfl).symm.trans h⟩
    · have hnone : (ofLines lines).sourceLine? g = none := sourceLine?_foldl_of_notMem .empty hg
      rw [hnone] at h
      nomatch h
  · rintro ⟨line, hline, rfl, hs⟩
    exact (sourceLine?_foldl .empty hnodup hline rfl).trans hs

theorem relates_ofLines (hnodup : (lines.map (·.index)).Nodup) : (ofLines lines).Relates lines := by
  have hstores := stores_ofLines lines
  have hlisted : ∀ entry ∈ (ofLines lines).generatedOf, entry.2 = cameFrom lines entry.1 := by
    intro entry hentry
    rw [← generatedLines_ofLines, generatedLines, hstores.keys.get?_of_mem hentry]
    rfl
  refine ⟨fun g s => ?_, fun g s => sourceLine?_ofLines_iff hnodup, hstores.keys,
    fun entry hentry => ⟨hstores.nonempty entry hentry, hlisted entry hentry, ?_⟩,
    hstores.shared, hstores.shared.nodup_iff.2 ?_⟩
  · rw [generatedLines_ofLines, mem_cameFrom, sourceLine?_ofLines_iff hnodup]
  · rw [hlisted entry hentry]
    exact hnodup.sublist (List.filter_sublist.map _)
  · exact hnodup.sublist (List.filter_sublist.map _)

end LineIndex

namespace AnnotatedLine

theorem ofEntries_toJson (asm : List AsmLine) : ofEntries (asm.map AsmLine.toJson) = .ok (ofAsm asm) := by
  unfold ofEntries
  rw [List.mapIdx_eq_zipIdx_map, List.zipIdx_map, List.map_map, List.mapM_map, ofAsm_eq]
  exact List.mapM_pure

theorem ascending_ofAsm (asm : List AsmLine) (s : Number) :
    (LineIndex.cameFrom (ofAsm asm) s).Pairwise (·.lt · = true) := by
  rw [← LineIndex.generatedLines_ofLines, generatedLines_ofAsm, List.pairwise_map]
  exact (pairwise_linesFrom asm s).imp fun h => by rwa [Number.lt_natCast, decide_eq_true_iff]

/-- Line by line: where it stands, and what it came from. -/
theorem getElem?_ofAsm_iff {asm : List AsmLine} {i : Nat} {s : Number} :
    (∃ line, (ofAsm asm)[i]? = some line ∧ line.index = ((i + 1 : Nat) : Number) ∧ line.sourceLine = some s) ↔
      ∃ line, asm[i]? = some line ∧ line.source.field? "line" = some (.num s) := by
  unfold ofAsm
  simp only [List.getElem?_mapIdx, Option.map_eq_some_iff]
  constructor
  · rintro ⟨_, ⟨line, hline, rfl⟩, -, hs⟩
    exact ⟨line, hline, Json.numberField?_eq_some_iff.1 hs⟩
  · rintro ⟨line, hline, hs⟩
    exact ⟨_, ⟨line, hline, rfl⟩, rfl, Json.numberField?_eq_some_iff.2 hs⟩

end AnnotatedLine

namespace LineIndex

/-- The two lookups of every list of lines with different positions are one relation, that of the
annotated lines; and every assembly gives such a list, whose lines are annotated with the numbers that
their sources name. -/
theorem lookups_are_one_relation :
    (∀ lines : List AnnotatedLine, (lines.map (·.index)).Nodup → (ofLines lines).Relates lines) ∧
    ∀ asm : List AsmLine,
      AnnotatedLine.ofEntries (asm.map AsmLine.toJson) = .ok (AnnotatedLine.ofAsm asm) ∧
      ((AnnotatedLine.ofAsm asm).map (·.index)).Nodup ∧
      (∀ entry ∈ (ofLines (AnnotatedLine.ofAsm asm)).generatedOf, entry.2.Pairwise (·.lt · = true)) ∧
      ∀ i s, (∃ line, (AnnotatedLine.ofAsm asm)[i]? = some line ∧
          line.index = ((i + 1 : Nat) : Number) ∧ line.sourceLine = some s) ↔
        ∃ line, asm[i]? = some line ∧ line.source.field? "line" = some (.num s) := by
  refine ⟨fun lines => relates_ofLines, fun asm => ?_⟩
  have hnodup := AnnotatedLine.nodup_ofAsm asm
  refine ⟨AnnotatedLine.ofEntries_toJson asm, hnodup, fun entry hentry => ?_,
    fun i s => AnnotatedLine.getElem?_ofAsm_iff⟩
  obtain ⟨-, hlines, -⟩ := (relates_ofLines hnodup).listed entry hentry
  rw [hlines]
  exact AnnotatedLine.ascending_ofAsm asm entry.1

/-- Lines that came from two lines of the source by turns, one of them before its beginning. -/
def interleaved : List AnnotatedLine :=
  [⟨4, none, some 2⟩, ⟨1, none, some (-3)⟩, ⟨9, none, none⟩, ⟨2, none, some 2⟩]

theorem interleaved_lookups_are_one_relation :
    (interleaved.map (·.index)).Nodup ∧ (ofLines interleaved).Relates interleaved ∧
      (ofLines interleaved).generatedOf = [(2, [4, 2]), (-3, [1])] := by
  have hnodup : (interleaved.map (·.index)).Nodup := by decide
  exact ⟨hnodup, lookups_are_one_relation.1 interleaved hnodup, by decide⟩

end LineIndex

end AsmLens
