import AsmLens.Number.Basic
import Mathlib.Algebra.Group.Nat.Defs
import Mathlib.Tactic.Common

/-!
# Counting with numbers

The integers among the numbers, by which lines and columns are counted. They can be told from all other numbers,
their order is that of the integers, and sums and differences are exact as far as `2 ^ 53` (`intCast_add`,
`intCast_sub`). From there on they are rounded.
-/

namespace AsmLens.Number

/-! ### Integers and natural numbers -/

theorem toInt?_intCast (n : Int) : toInt? (n : Number) = some n := by
  show toInt? (.finite (Dyadic.ofIntWithPrec n 0)) = some n
  unfold Dyadic.ofIntWithPrec
  split
  · rename_i h
    rw [h]
    rfl
  · rename_i h
    have hle : 0 - (n.trailingZeros : Int) ≤ 0 := by omega
    have hexponent : (-(0 - (n.trailingZeros : Int))).toNat = n.trailingZeros := by omega
    have hvalue : n >>> n.trailingZeros * ((Nat.pow 2 n.trailingZeros : Nat) : Int) = n := by
      rw [Int.shiftRight_eq_div_pow, Nat.pow_eq, Int.natCast_pow]
      exact Int.ediv_mul_cancel (Int.two_pow_trailingZeros_dvd h)
    show (if 0 - (n.trailingZeros : Int) ≤ 0 then some _ else none) = some n
    rw [if_pos hle, hexponent, hvalue]

theorem toNat?_natCast (n : Nat) : toNat? (n : Number) = some n := by
  show (toInt? ((n : Int) : Number)).bind _ = some n
  rw [toInt?_intCast]
  show (if 0 ≤ (n : Int) then some (n : Int).toNat else none) = some n
  rw [if_pos (Int.natCast_nonneg n), Int.toNat_natCast]

theorem natCast_inj {m n : Nat} (h : (m : Number) = n) : m = n := by
  have hnat := congrArg toNat? h
  rw [toNat?_natCast, toNat?_natCast] at hnat
  exact Option.some.inj hnat

theorem of_toInt? {x : Number} {n : Int} (h : x.toInt? = some n) : x = (n : Number) := by
  cases x with
  | finite value =>
    refine congrArg finite ?_
    cases value with
    | zero =>
      rw [← Option.some.inj h]
      rfl
    | ofOdd m k hodd =>
      change (if k ≤ 0 then some _ else none) = some n at h
      by_cases hk : k ≤ 0
      · rw [if_pos hk] at h
        have hshift : n = m <<< (-k).toNat := by
          rw [Int.shiftLeft_eq, ← Option.some.inj h, Nat.pow_eq, Int.natCast_pow]
          rfl
        have hzero : k + ((-k).toNat : Int) = 0 := by omega
        have hinteger := Dyadic.ofIntWithPrec_shiftLeft_add (x := m) (i := k) (n := (-k).toNat)
        rw [hzero, ← hshift] at hinteger
        rw [Dyadic.ofOdd_eq_ofIntWithPrec]
        exact hinteger.symm
      · rw [if_neg hk] at h
        nomatch h
  | _ => nomatch h

theorem toNat?_eq_some_iff {x : Number} {n : Nat} : x.toNat? = some n ↔ x = (n : Number) := by
  refine ⟨fun h => ?_, fun h => h ▸ toNat?_natCast n⟩
  obtain ⟨i, hi, h⟩ := Option.bind_eq_some_iff.1 h
  by_cases hle : 0 ≤ i
  · rw [if_pos hle] at h
    rw [of_toInt? hi, ← Option.some.inj h]
    show ((i : Int) : Number) = (((i.toNat : Nat) : Int) : Number)
    rw [Int.toNat_of_nonneg hle]
  · rw [if_neg hle] at h
    nomatch h

/-! ### Order -/

theorem le_intCast_iff {m n : Int} : (m : Number).le n = true ↔ m ≤ n := by
  show decide (Dyadic.ofInt m ≤ Dyadic.ofInt n) = true ↔ _
  rw [decide_eq_true_iff, ← Dyadic.toRat_le_toRat_iff]
  exact (Dyadic.toRat_intCast m).symm ▸ (Dyadic.toRat_intCast n).symm ▸ Rat.intCast_le_intCast

theorem lt_intCast_iff {m n : Int} : (m : Number).lt n = true ↔ m < n := by
  rw [lt, Bool.and_eq_true, Bool.not_eq_true', ← Bool.not_eq_true, le_intCast_iff, le_intCast_iff]
  omega

theorem le_natCast (m n : Nat) : (m : Number).le n = decide (m ≤ n) := by
  rw [Bool.eq_iff_iff, decide_eq_true_iff]
  exact le_intCast_iff.trans Int.ofNat_le

theorem lt_natCast (m n : Nat) : (m : Number).lt n = decide (m < n) := by
  rw [Bool.eq_iff_iff, decide_eq_true_iff]
  exact lt_intCast_iff.trans Int.ofNat_lt

theorem max_intCast (m n : Int) : Number.max (m : Number) n = ((Max.max m n : Int) : Number) := by
  have hnan : ¬ ((m : Number) = .nan ∨ (n : Number) = .nan) := nofun
  rw [Number.max, if_neg hnan]
  by_cases h : m ≤ n
  · rw [if_pos (le_intCast_iff.2 h), Int.max_eq_right h]
  · rw [if_neg (fun hle => h (le_intCast_iff.1 hle)), Int.max_eq_left (by omega)]

theorem min_intCast (m n : Int) : Number.min (m : Number) n = ((Min.min m n : Int) : Number) := by
  have hnan : ¬ ((m : Number) = .nan ∨ (n : Number) = .nan) := nofun
  rw [Number.min, if_neg hnan]
  by_cases h : m ≤ n
  · rw [if_pos (le_intCast_iff.2 h), Int.min_eq_left h]
  · rw [if_neg (fun hle => h (le_intCast_iff.1 hle)), Int.min_eq_right (by omega)]

/-! ### Sums and differences -/

theorem representable_ofOdd {m : Int} {k : Nat} (hodd : m % 2 = 1) (h : m.natAbs * 2 ^ k ≤ 2 ^ 53) :
    Representable (.ofOdd m (0 - k) hodd) := by
  -- An odd number is not the one that would be too large by one.
  have hlt : m.natAbs < 2 ^ 53 := by
    have hle : m.natAbs ≤ 2 ^ 53 := Nat.le_trans (Nat.le_mul_of_pos_right _ (Nat.two_pow_pos k)) h
    omega
  have hlog : m.natAbs.log2 + k ≤ 53 := by
    rw [← Nat.pow_le_pow_iff_right (a := 2) (by decide), Nat.pow_add]
    exact Nat.le_trans (Nat.mul_le_mul_right _ (Nat.log2_self_le (by omega))) h
  exact ⟨hlt, by omega, by omega⟩

theorem representable_ofInt {n : Int} (h : n.natAbs ≤ 2 ^ 53) : Representable (Dyadic.ofInt n) := by
  show Representable (Dyadic.ofIntWithPrec n 0)
  unfold Dyadic.ofIntWithPrec
  split
  · trivial
  · rename_i hzero
    have hvalue : n >>> n.trailingZeros * 2 ^ n.trailingZeros = n := by
      rw [Int.shiftRight_eq_div_pow, Int.natCast_pow]
      exact Int.ediv_mul_cancel (Int.two_pow_trailingZeros_dvd hzero)
    refine representable_ofOdd (Int.shiftRight_trailingZeros_mod_two hzero) ?_
    have habs := congrArg Int.natAbs hvalue
    rw [Int.natAbs_mul, Int.natAbs_pow] at habs
    exact habs ▸ h

theorem ofDyadic_ofInt {n : Int} (h : n.natAbs ≤ 2 ^ 53) : ofDyadic (Dyadic.ofInt n) = (n : Number) :=
  if_pos (representable_ofInt h)

/-- A sum of integers is taken exactly and then rounded. -/
theorem intCast_add_eq_ofInt (m n : Int) : (m : Number) + n = ofInt (m + n) := by
  have hsum : Dyadic.ofInt m + Dyadic.ofInt n = Dyadic.ofInt (m + n) := by
    rw [← Dyadic.toRat_inj, Dyadic.toRat_add]
    have hm := Dyadic.toRat_intCast m
    have hn := Dyadic.toRat_intCast n
    have hmn := Dyadic.toRat_intCast (m + n)
    rw [Rat.intCast_add, ← hm, ← hn] at hmn
    exact hmn.symm
  rw [ofInt, ← hsum]
  rfl

theorem intCast_add {m n : Int} (h : (m + n).natAbs ≤ 2 ^ 53) : (m : Number) + n = ((m + n : Int) : Number) :=
  (intCast_add_eq_ofInt m n).trans (ofDyadic_ofInt h)

theorem neg_intCast (n : Int) : -(n : Number) = ((-n : Int) : Number) :=
  congrArg finite Dyadic.neg_ofIntWithPrec

theorem intCast_sub {m n : Int} (h : (m - n).natAbs ≤ 2 ^ 53) : (m : Number) - n = ((m - n : Int) : Number) := by
  show (m : Number) + -(n : Number) = _
  rw [neg_intCast, intCast_add h]
  rfl

theorem natCast_add {m n : Nat} (h : m + n ≤ 2 ^ 53) : (m : Number) + n = ((m + n : Nat) : Number) :=
  intCast_add (m := m) (n := n) (by omega)

theorem natCast_pred {n : Nat} (hpos : 1 ≤ n) (h : n ≤ 2 ^ 53) : (n : Number) - 1 = ((n - 1 : Nat) : Number) := by
  have hpred : ((n - 1 : Nat) : Int) = (n : Int) - 1 := by omega
  show ((n : Int) : Number) - ((1 : Int) : Number) = (((n - 1 : Nat) : Int) : Number)
  rw [hpred, intCast_sub (by omega)]

end AsmLens.Number
