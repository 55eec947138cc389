import AsmLens.Text
import Mathlib.Data.List.Basic

/-!
# Lines put together

The lines of a text, put together again, are the text, and what is put together from lines has at
least as many of them. Lines put together come back as the lines of the text, unless one of them is no
line: a text with a line feed in it.

The end of the last line is the end of the text, whatever its lines are.
-/

namespace AsmLens.Text

theorem splitAt_ne_nil (sep : Char) (cs : List Char) : splitAt sep cs ≠ [] := by
  cases cs with
  | nil => exact List.cons_ne_nil _ _
  | cons c cs =>
    unfold splitAt
    split
    · exact List.cons_ne_nil _ _
    · split <;> exact List.cons_ne_nil _ _

theorem lines_ne_nil (s : String) : lines s ≠ [] := fun hnil =>
  splitAt_ne_nil _ _ (List.map_eq_nil_iff.1 hnil)

theorem splitAt_of_notMem {sep : Char} {cs : List Char} (h : sep ∉ cs) : splitAt sep cs = [cs] := by
  induction cs with
  | nil => rfl
  | cons c cs ih =>
    rw [List.mem_cons, not_or] at h
    obtain ⟨hc, hcs⟩ := h
    rw [splitAt, if_neg (Ne.symm hc), ih hcs]

theorem splitAt_append_sep (sep : Char) (cs cs' : List Char) :
    splitAt sep (cs ++ sep :: cs') = splitAt sep cs ++ splitAt sep cs' := by
  induction cs with
  | nil => simp [splitAt]
  | cons c cs ih =>
    obtain ⟨part, parts, hparts⟩ := List.exists_cons_of_ne_nil (splitAt_ne_nil sep cs)
    by_cases hc : c = sep
    · simp [splitAt, hc, ih]
    · simp [splitAt, hc, ih, hparts]

theorem splitAt_append_cons {sep : Char} {cs : List Char} (h : sep ∉ cs) (cs' : List Char) :
    splitAt sep (cs ++ sep :: cs') = cs :: splitAt sep cs' := by
  rw [splitAt_append_sep, splitAt_of_notMem h, List.singleton_append]

theorem intercalate_splitAt (sep : Char) (cs : List Char) :
    [sep].intercalate (splitAt sep cs) = cs := by
  induction cs with
  | nil => rfl
  | cons c cs ih =>
    have hne := splitAt_ne_nil sep cs
    unfold splitAt
    by_cases hc : c = sep
    · rw [if_pos hc, List.intercalate_cons_of_ne_nil hne, ih, hc]
      rfl
    · rw [if_neg hc]
      obtain ⟨part, parts, hparts⟩ := List.exists_cons_of_ne_nil hne
      rw [hparts] at ih ⊢
      dsimp only
      rw [List.intercalate_cons_cons_left, ih]

theorem joinLines_lines (s : String) : joinLines (lines s) = s := by
  unfold joinLines lines
  rw [← String.toList_inj, String.toList_intercalate, List.map_map]
  have hid : String.toList ∘ String.ofList = id := by
    funext cs
    exact String.toList_ofList
  rw [hid, List.map_id]
  exact intercalate_splitAt '\n' s.toList

theorem length_splitAt (sep : Char) (cs : List Char) :
    (splitAt sep cs).length = cs.count sep + 1 := by
  induction cs with
  | nil => rfl
  | cons c cs ih =>
    unfold splitAt
    by_cases hc : c = sep
    · rw [if_pos hc, List.length_cons, ih, hc, List.count_cons_self]
    · rw [if_neg hc, List.count_cons_of_ne hc, ← ih]
      obtain ⟨part, parts, hparts⟩ := List.exists_cons_of_ne_nil (splitAt_ne_nil sep cs)
      rw [hparts]
      rfl

theorem width_pos (c : Char) : 0 < width c := by
  unfold width
  split <;> decide

theorem length16_eq_zero_iff {s : String} : length16 s = 0 ↔ s = "" := by
  rw [← String.toList_inj]
  unfold length16
  cases s.toList with
  | nil => simp
  | cons c cs =>
    have hwidth := width_pos c
    simp only [List.foldr_cons, String.toList_empty, reduceCtorEq, iff_false]
    omega

theorem length_lines_le (s : String) : (lines s).length ≤ length16 s + 1 := by
  have hcount : ∀ cs : List Char, cs.count '\n' ≤ cs.foldr (fun c n => width c + n) 0 := by
    intro cs
    induction cs with
    | nil => exact Nat.le_refl 0
    | cons c cs ih =>
      have hwidth := width_pos c
      rw [List.count_cons, List.foldr_cons]
      split <;> omega
  rw [lines, List.length_map, length_splitAt]
  exact Nat.succ_le_succ (hcount s.toList)

theorem length_le_count_intercalate (sep : Char) (parts : List (List Char)) :
    parts.length ≤ ([sep].intercalate parts).count sep + 1 := by
  induction parts with
  | nil => exact Nat.zero_le _
  | cons part parts ih =>
    by_cases hparts : parts = []
    · rw [hparts]
      exact Nat.succ_le_succ (Nat.zero_le _)
    · rw [List.intercalate_cons_of_ne_nil hparts, List.count_append, List.count_append,
        List.count_singleton_self, List.length_cons]
      omega

theorem length_le_lines_joinLines (ls : List String) : ls.length ≤ (lines (joinLines ls)).length := by
  unfold lines joinLines
  rw [List.length_map, length_splitAt, String.toList_intercalate]
  have hlength : ls.length = (ls.map String.toList).length := (List.length_map _).symm
  rw [hlength]
  exact length_le_count_intercalate '\n' _

theorem notMem_of_mem_splitAt {sep : Char} {cs part : List Char} (h : part ∈ splitAt sep cs) : sep ∉ part := by
  induction cs generalizing part with
  | nil =>
    rw [List.mem_singleton.1 h]
    exact List.not_mem_nil
  | cons c cs ih =>
    obtain ⟨first, parts, hparts⟩ := List.exists_cons_of_ne_nil (splitAt_ne_nil sep cs)
    rw [hparts] at ih
    unfold splitAt at h
    split at h
    · rcases List.mem_cons.1 h with rfl | h
      · exact List.not_mem_nil
      · exact ih (hparts ▸ h)
    · rename_i hc
      rw [hparts] at h
      rcases List.mem_cons.1 h with rfl | h
      · exact List.not_mem_cons_of_ne_of_not_mem (Ne.symm hc) (ih List.mem_cons_self)
      · exact ih (List.mem_cons_of_mem _ h)

theorem notMem_of_mem_lines {s line : String} (h : line ∈ lines s) : '\n' ∉ line.toList := by
  obtain ⟨part, hpart, rfl⟩ := List.mem_map.1 h
  rw [String.toList_ofList]
  exact notMem_of_mem_splitAt hpart

theorem splitAt_intercalate {sep : Char} {parts : List (List Char)} (hne : parts ≠ [])
    (h : ∀ part ∈ parts, sep ∉ part) : splitAt sep ([sep].intercalate parts) = parts := by
  induction parts with
  | nil => exact absurd rfl hne
  | cons part parts ih =>
    have hpart := h part List.mem_cons_self
    by_cases hparts : parts = []
    · rw [hparts, List.intercalate_singleton]
      exact splitAt_of_notMem hpart
    · rw [List.intercalate_cons_of_ne_nil hparts, List.append_assoc, List.singleton_append,
        splitAt_append_cons hpart, ih hparts fun p hp => h p (List.mem_cons_of_mem _ hp)]

theorem lines_joinLines {ls : List String} (hne : ls ≠ []) (h : ∀ line ∈ ls, '\n' ∉ line.toList) :
    lines (joinLines ls) = ls := by
  have hparts : ∀ part ∈ ls.map String.toList, '\n' ∉ part := by
    intro part hpart
    obtain ⟨line, hline, rfl⟩ := List.mem_map.1 hpart
    exact h line hline
  unfold lines joinLines
  rw [String.toList_intercalate]
  show (splitAt '\n' (['\n'].intercalate _)).map String.ofList = ls
  rw [splitAt_intercalate (fun hnil => hne (List.map_eq_nil_iff.1 hnil)) hparts, List.map_map]
  have hid : String.ofList ∘ String.toList = id := by
    funext line
    exact String.ofList_toList
  rw [hid, List.map_id]

theorem lines_append_break (s : String) : lines (s ++ "\n") = lines s ++ [""] := by
  have hchars : (s ++ "\n").toList = s.toList ++ '\n' :: [] := String.toList_append
  unfold lines
  rw [hchars, splitAt_append_sep, List.map_append]
  rfl

theorem ends_with_break_iff (s : String) :
    (∃ before, s = before ++ "\n") ↔ ∃ init, init ≠ [] ∧ lines s = init ++ [""] := by
  constructor
  · rintro ⟨before, rfl⟩
    exact ⟨lines before, lines_ne_nil before, lines_append_break before⟩
  · rintro ⟨init, hne, hlines⟩
    refine ⟨joinLines init, ?_⟩
    have hinit : lines (joinLines init) = init := by
      apply lines_joinLines hne
      intro line hline
      apply notMem_of_mem_lines (s := s)
      rw [hlines]
      exact List.mem_append_left _ hline
    -- The two texts have the same lines.
    rw [← joinLines_lines s, ← joinLines_lines (joinLines init ++ "\n"), lines_append_break, hinit, hlines]

/-- Texts that are put together are the lines of the whole, each in its place, exactly if none of them has a
line feed in it. -/
theorem getElem?_lines_joinLines_iff (ls : List String) :
    (∀ (i : Nat) (line : String), ls[i]? = some line → (lines (joinLines ls))[i]? = some line) ↔
      ∀ line ∈ ls, '\n' ∉ line.toList := by
  refine ⟨fun h line hline => ?_, fun h i line hi => ?_⟩
  · obtain ⟨i, hi⟩ := List.mem_iff_getElem?.1 hline
    exact notMem_of_mem_lines (List.mem_of_getElem? (h i line hi))
  · have hne : ls ≠ [] := List.ne_nil_of_mem (List.mem_of_getElem? hi)
    rw [lines_joinLines hne h, hi]

/-! ### The two ends of a text -/

theorem splitPlace_start (cs : List Char) : splitPlace 0 0 cs = ([], cs) := by
  cases cs with
  | nil => rfl
  | cons c cs => exact if_pos (.inr (width_pos c))

theorem splitPlace_stop {cs : List Char} {parts : List (List Char)} {last : List Char}
    (h : splitAt '\n' cs = parts ++ [last]) :
    splitPlace parts.length (last.foldr (fun c n => width c + n) 0) cs = (cs, []) := by
  induction cs generalizing parts last with
  | nil => rfl
  | cons c cs ih =>
    obtain ⟨parts', last', hlast⟩ := (List.eq_nil_or_concat' (splitAt '\n' cs)).resolve_left (splitAt_ne_nil _ _)
    have hrest := ih hlast
    rw [splitAt, hlast] at h
    by_cases hc : c = '\n'
    · rw [if_pos hc, ← List.cons_append] at h
      obtain ⟨rfl, hsame⟩ := List.append_inj' h rfl
      rw [← List.singleton_inj.1 hsame, List.length_cons, splitPlace, if_pos hc, hrest]
      rfl
    · rw [if_neg hc] at h
      cases parts' with
      | nil =>
        change [] ++ [c :: last'] = _ at h
        obtain ⟨rfl, hsame⟩ := List.append_inj' h rfl
        rw [← List.singleton_inj.1 hsame]
        show splitPlace 0 (width c + _) (c :: cs) = _
        rw [splitPlace, if_neg (by rintro (h | h) <;> first | exact hc h | omega), Nat.add_sub_cancel_left]
        exact congrArg (Prod.map (c :: ·) id) hrest
      | cons part parts' =>
        change (c :: part) :: parts' ++ [last'] = _ at h
        obtain ⟨rfl, hsame⟩ := List.append_inj' h rfl
        rw [← List.singleton_inj.1 hsame, List.length_cons, splitPlace, if_neg hc]
        exact congrArg (Prod.map (c :: ·) id) hrest

end AsmLens.Text
