import AsmLens.Json.Text
import AsmLens.Proofs.Rounding
import Mathlib.Algebra.Group.Int.Defs

/-!
# Numbers that fit

A number that is read or calculated has a value that fits (`Number.Fits`). Counting from zero in place of one takes
one away and goes no lower than zero. Of the numbers that fit, that makes a natural number of the integers and of
whatever is at most one, and of no others (`Number.exists_natCast_eq_max_pred_iff`).
-/

namespace AsmLens

namespace Number

/-- A finite number has a value that fits. -/
def Fits (x : Number) : Prop := ∀ v, x = .finite v → Representable v

/-! ### What is calculated and read -/

theorem fits_ofDyadic (v : Dyadic) : (ofDyadic v).Fits := by
  unfold ofDyadic
  intro w hw
  split at hw
  · rename_i hrep
    exact Number.finite.inj hw ▸ hrep
  · dsimp only at hw
    split at hw
    · rename_i hrep
      exact Number.finite.inj hw ▸ hrep
    · split at hw <;> nomatch hw

theorem representable_neg {v : Dyadic} (h : Representable v) : Representable (-v) := by
  cases v with
  | zero => trivial
  | ofOdd n k hodd =>
    show (-n).natAbs < Nat.pow 2 53 ∧ k ≤ 1074 ∧ ((-n).natAbs.log2 : Int) - k < 1024
    rw [Int.natAbs_neg]
    exact h

theorem fits_neg {x : Number} (h : x.Fits) : (-x).Fits := by
  cases x with
  | finite v =>
    rintro _ ⟨⟩
    exact representable_neg (h v rfl)
  | _ => exact nofun

theorem fits_ofScientific (m : Nat) (x : Int) : (ofScientific m x).Fits := by
  have hzero : (Number.finite 0).Fits := by
    rintro _ ⟨⟩
    trivial
  unfold ofScientific
  dsimp only
  split
  · exact hzero
  · split
    · exact nofun
    · split
      · exact hzero
      · split
        · exact fits_ofDyadic _
        · exact fits_ofDyadic _

theorem fits_ofDecimal? {cs : List Char} {x : Number} (h : ofDecimal? cs = some x) : x.Fits := by
  unfold ofDecimal? at h
  dsimp only at h
  split at h
  all_goals
    split at h
    · nomatch h
    · obtain ⟨m, -, h⟩ := Option.bind_eq_some_iff.1 h
      obtain ⟨e, -, h⟩ := Option.bind_eq_some_iff.1 h
      exact Option.some.inj h ▸ fits_ofScientific m _

theorem fits_ofUnsigned? {cs : List Char} {x : Number} (h : ofUnsigned? cs = some x) : x.Fits := by
  unfold ofUnsigned? at h
  split at h
  · obtain rfl := Option.some.inj h
    exact nofun
  · exact fits_ofDecimal? h

theorem fits_ofNumeral (s : String) : (ofNumeral s).Fits := by
  have hnan : Number.nan.Fits := nofun
  have hunsigned : ∀ cs, Fits ((ofUnsigned? cs).getD .nan) := fun cs => by
    cases h : ofUnsigned? cs with
    | none => exact hnan
    | some x => exact fits_ofUnsigned? h
  unfold ofNumeral
  dsimp only
  split
  · rintro _ ⟨⟩
    trivial
  iterate 6
    · split
      · exact hnan
      · split
        · exact fits_ofDyadic _
        · exact hnan
  · rename_i cs _
    cases h : ofUnsigned? cs with
    | none => exact hnan
    | some x => exact fits_neg (fits_ofUnsigned? h)
  · exact hunsigned _
  · exact hunsigned _

/-! ### Sums and differences of natural numbers -/

/-- One less than a natural number is a natural number, or infinity if the number is above the limit. -/
theorem natCast_pred_cases {n : Nat} (hpos : 1 ≤ n) :
    n ≤ limit ∧ (∃ k : Nat, (n : Number) - 1 = k) ∨ limit < n ∧ (n : Number) - 1 = .posInf := by
  have hpred : (n : Int) + -1 = (n - 1 : Nat) := by omega
  have hsub : (n : Number) - 1 = ofInt (n - 1 : Nat) := by
    rw [← hpred]
    exact intCast_add_eq_ofInt n (-1)
  rw [hsub]
  obtain ⟨hlt, hk⟩ | ⟨hle, hinf⟩ := ofInt_natCast (n - 1)
  · exact .inl ⟨by omega, hk⟩
  · exact .inr ⟨by omega, hinf⟩

theorem exists_natCast_eq_add_iff (m n : Nat) : (∃ k : Nat, (m : Number) + n = k) ↔ m + n < limit := by
  have hsum : (m : Number) + n = ofInt (m + n : Nat) := intCast_add_eq_ofInt m n
  rw [hsum]
  obtain ⟨hlt, hk⟩ | ⟨hle, hinf⟩ := ofInt_natCast (m + n)
  · exact iff_of_true hk hlt
  · rw [hinf]
    exact iff_of_false nofun (by omega)

/-! ### One less, and not below zero -/

theorem divNearest_nonpos {n : Int} (hn : n ≤ 0) (d : Nat) : divNearest n d ≤ 0 := by
  unfold divNearest
  dsimp only
  obtain rfl | hd := Nat.eq_zero_or_pos d
  · simp
    omega
  · have hdiv : n / d ≤ 0 := Int.ediv_nonpos_of_nonpos_of_neg hn (by omega)
    have hvalue := Int.mul_ediv_add_emod n d
    split
    · exact hdiv
    · split
      · by_contra hlt
        have hzero : n / d = 0 := by omega
        rw [hzero] at hvalue
        omega
      · omega

theorem ofIntWithPrec_nonpos {n : Int} (hn : n ≤ 0) (e : Int) : Dyadic.ofIntWithPrec n e ≤ 0 := by
  unfold Dyadic.ofIntWithPrec
  split
  · exact Dyadic.le_refl _
  · refine decide_eq_true ?_
    rw [Int.shiftRight_eq_div_pow]
    exact Int.ediv_nonpos_of_nonpos_of_neg hn (by exact_mod_cast Nat.two_pow_pos _)

theorem roundToGrid_nonpos {v : Dyadic} (hv : v ≤ 0) (e : Int) : roundToGrid v e ≤ 0 := by
  unfold roundToGrid
  cases v with
  | zero => exact hv
  | ofOdd n k hodd =>
    dsimp only
    split
    · exact hv
    · exact ofIntWithPrec_nonpos (divNearest_nonpos (of_decide_eq_true hv) _) _

theorem ofDyadic_le_zero {v : Dyadic} (hv : v ≤ 0) : (ofDyadic v).le 0 = true := by
  unfold ofDyadic
  dsimp only
  split
  · exact decide_eq_true hv
  · rename_i hrep
    split
    · exact decide_eq_true (roundToGrid_nonpos hv _)
    · rw [if_pos]
      · rfl
      · by_contra hlt
        obtain rfl := Dyadic.le_antisymm hv (Dyadic.not_le.1 hlt)
        exact hrep trivial

theorem max_zero {x : Number} (hnan : x ≠ .nan) : x.max 0 = if x.le 0 then 0 else x := by
  have hzero : (0 : Number) ≠ .nan := nofun
  rw [Number.max, if_neg (not_or.2 ⟨hnan, hzero⟩)]

theorem pred_le_zero {x : Number} (h : x.le 1 = true) : (x - 1).le 0 = true := by
  cases x with
  | finite v =>
    have hle : v ≤ Dyadic.ofInt 1 := of_decide_eq_true h
    refine ofDyadic_le_zero ?_
    rw [← Dyadic.toRat_le_toRat_iff] at hle ⊢
    rw [Dyadic.toRat_add, Dyadic.toRat_neg, Dyadic.toRat_zero, ← Rat.add_neg_cancel (Dyadic.ofInt 1).toRat]
    exact Rat.add_le_add_right.2 hle
  | negInf => rfl
  | posInf => nomatch h
  | nan => nomatch h

theorem max_pred_of_le {x : Number} (h : x.le 1 = true) : (x - 1).max 0 = 0 := by
  have hle := pred_le_zero h
  have hnan : x - 1 ≠ .nan := by
    intro hnan
    rw [hnan] at hle
    nomatch hle
  rw [max_zero hnan, if_pos hle]

theorem ofOdd_le_one_iff {n : Int} {k : Nat} {hodd : n % 2 = 1} :
    Dyadic.ofOdd n (k + 1) hodd ≤ Dyadic.ofInt 1 ↔ n ≤ 2 ^ (k + 1) := by
  have hone : Dyadic.ofInt 1 = .ofOdd 1 0 (by decide) := by decide +kernel
  rw [hone]
  show Dyadic.ble _ _ = true ↔ _
  unfold Dyadic.ble
  simp only
  split
  · rename_i l hl
    have hcast : (0 : Int) - (k + 1) = (l : Int) := hl
    omega
  · rename_i l hl
    obtain rfl : l = k := by omega
    rw [decide_eq_true_iff, Int.shiftLeft_eq, Int.one_mul]

theorem ofOdd_sub_one {n : Int} {k : Nat} (hodd : n % 2 = 1) (hodd' : (n - 2 ^ (k + 1)) % 2 = 1) :
    Dyadic.ofOdd n (k + 1) hodd + -Dyadic.ofInt 1 = .ofOdd (n - 2 ^ (k + 1)) (k + 1) hodd' := by
  have hneg : -Dyadic.ofInt 1 = .ofOdd (-1) 0 (by decide) := by decide +kernel
  rw [hneg]
  show Dyadic.add _ _ = _
  unfold Dyadic.add
  simp only
  split
  · omega
  · rename_i l hl
    obtain rfl : l = k := by
      have hcast : (k : Int) + 1 - 0 = (l + 1 : Nat) := hl
      omega
    rw [Dyadic.ofOdd.injEq, Int.shiftLeft_eq]
    exact ⟨by omega, rfl⟩
  · omega

/-- A number between two integers that is above one is still between two integers when one is taken away: it is not
rounded, as it needs no more bits than before. -/
theorem pred_of_not_le {n : Int} {k : Nat} {hodd : n % 2 = 1} (hrep : Representable (.ofOdd n (k + 1) hodd))
    (hlt : ¬ Dyadic.ofOdd n (k + 1) hodd ≤ Dyadic.ofInt 1) :
    ∃ m hodd', 0 < m ∧ Number.finite (.ofOdd n (k + 1) hodd) - 1 = .finite (.ofOdd m (k + 1) hodd') := by
  rw [ofOdd_le_one_iff] at hlt
  have hpow : (2 : Int) ^ (k + 1) = 2 * 2 ^ k := by rw [Int.pow_succ, Int.mul_comm]
  have hpos : (0 : Int) < 2 ^ k := by exact_mod_cast Nat.two_pow_pos k
  have hodd' : (n - 2 ^ (k + 1)) % 2 = 1 := by omega
  have habs : (n - 2 ^ (k + 1)).natAbs ≤ n.natAbs := by omega
  have hrep' : Representable (.ofOdd (n - 2 ^ (k + 1)) (k + 1) hodd') := by
    obtain ⟨hbits, hlow, hhigh⟩ := hrep
    have hlog : (n - 2 ^ (k + 1)).natAbs.log2 ≤ n.natAbs.log2 := by
      rw [Nat.le_log2 (by omega)]
      exact Nat.le_trans (Nat.log2_self_le (by omega)) habs
    exact ⟨by omega, hlow, by omega⟩
  refine ⟨n - 2 ^ (k + 1), hodd', by omega, ?_⟩
  show ofDyadic (_ + -Dyadic.ofInt 1) = _
  rw [ofOdd_sub_one hodd hodd']
  exact if_pos hrep'

theorem isInteger_ofOdd_iff {n k : Int} {hodd : n % 2 = 1} :
    (Number.finite (.ofOdd n k hodd)).isInteger = true ↔ k ≤ 0 := by
  simp [isInteger, toInt?]

theorem isInteger_natCast (n : Nat) : isInteger n = true := congrArg Option.isSome (toInt?_intCast n)

theorem exists_natCast_eq_max_pred {x : Number} (hx : x.Fits) (hinteger : x.isInteger = true)
    (hone : ¬ x.le 1 = true) : ∃ n : Nat, (x - 1).max 0 = n := by
  obtain ⟨i, hi⟩ := Option.isSome_iff_exists.1 hinteger
  obtain rfl := of_toInt? hi
  have hpos : 1 < i := by
    by_contra hle
    exact hone ((le_intCast_iff (n := 1)).2 (by omega))
  obtain ⟨n, rfl⟩ := Int.eq_ofNat_of_zero_le (a := i) (by omega)
  have hlimit : n < limit := lt_limit_of_representable (hx _ rfl)
  obtain ⟨-, k, hk⟩ | ⟨hlt, -⟩ := natCast_pred_cases (n := n) (by omega)
  · refine ⟨k, ?_⟩
    show ((n : Number) - 1).max 0 = k
    rw [hk]
    show Number.max ((k : Int) : Number) ((0 : Int) : Number) = ((k : Int) : Number)
    rw [max_intCast, Int.max_eq_left (Int.natCast_nonneg k)]
  · omega

theorem isInteger_of_max_pred {v : Dyadic} (hrep : Representable v) (hone : ¬ v ≤ Dyadic.ofInt 1) {n : Nat}
    (h : (Number.finite v - 1).max 0 = n) : (Number.finite v).isInteger = true := by
  cases v with
  | zero => exact absurd (by decide +kernel) hone
  | ofOdd m k hodd =>
    by_contra hinteger
    rw [isInteger_ofOdd_iff] at hinteger
    obtain ⟨j, rfl⟩ : ∃ j : Nat, k = j + 1 := ⟨(k - 1).toNat, by omega⟩
    obtain ⟨m', hodd', hpos, hpred⟩ := pred_of_not_le hrep hone
    have hpositive : ¬ Number.le (.finite (.ofOdd m' (j + 1) hodd')) 0 = true := fun hle => by
      have hnonpos : m' ≤ 0 := of_decide_eq_true (of_decide_eq_true hle)
      omega
    have hnan : Number.finite (.ofOdd m' (j + 1) hodd') ≠ .nan := nofun
    rw [hpred, max_zero hnan, if_neg hpositive] at h
    have hle := isInteger_natCast n
    rw [← h, isInteger_ofOdd_iff] at hle
    exact hinteger hle

/-- Of the numbers that fit, the integers and what is at most one become natural numbers. -/
theorem exists_natCast_eq_max_pred_iff {x : Number} (hx : x.Fits) :
    (∃ n : Nat, (x - 1).max 0 = n) ↔ x.isInteger = true ∨ x.le 1 = true := by
  by_cases hone : x.le 1 = true
  · exact iff_of_true ⟨0, max_pred_of_le hone⟩ (.inr hone)
  rw [or_iff_left hone]
  cases x with
  | nan => exact iff_of_false nofun nofun
  | posInf => exact iff_of_false nofun nofun
  | negInf => exact absurd rfl hone
  | finite v =>
    refine ⟨?_, fun hinteger => exists_natCast_eq_max_pred hx hinteger hone⟩
    rintro ⟨n, hn⟩
    exact isInteger_of_max_pred (hx v rfl) (fun hle => hone (decide_eq_true hle)) hn

end Number

end AsmLens
