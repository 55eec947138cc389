import AsmLens.Proofs.Counting

/-!
# Rounding of integers

An integer that is rounded stays an integer, unless it is too large for every finite number: that is so from
`limit` on, half way from the largest finite number to `2 ^ 1024` (`ofInt_natCast`).
-/

namespace AsmLens.Number

/-- The least natural number that is rounded to infinity. -/
def limit : Nat := 2 ^ 1024 - 2 ^ 970

/-! ### Integers that fit -/

theorem log2_mul_two_pow {m : Nat} (hm : m ≠ 0) (s : Nat) : (m * 2 ^ s).log2 = m.log2 + s := by
  have hpos := Nat.two_pow_pos s
  rw [Nat.log2_eq_iff (Nat.mul_ne_zero hm (Nat.pos_iff_ne_zero.1 hpos)), Nat.add_right_comm, Nat.pow_add, Nat.pow_add]
  exact ⟨Nat.mul_le_mul_right _ (Nat.log2_self_le hm), Nat.mul_lt_mul_of_pos_right Nat.lt_log2_self hpos⟩

theorem exists_ofOdd {N : Nat} (hN : N ≠ 0) : ∃ (m s : Nat) (hodd : (m : Int) % 2 = 1),
    N = m * 2 ^ s ∧ Dyadic.ofInt N = .ofOdd m (0 - s) hodd := by
  have hne : (N : Int) ≠ 0 := by omega
  have hodd := Int.shiftRight_trailingZeros_mod_two hne
  refine ⟨N >>> (N : Int).trailingZeros, (N : Int).trailingZeros, hodd, ?_, ?_⟩
  · rw [Nat.shiftRight_eq_div_pow]
    refine (Nat.div_mul_cancel ?_).symm
    have hdvd := Int.two_pow_trailingZeros_dvd hne
    exact_mod_cast hdvd
  · show Dyadic.ofIntWithPrec N 0 = _
    rw [Dyadic.ofIntWithPrec, dif_neg hne]
    rfl

theorem representable_ofOdd_iff {m s : Nat} (hodd : (m : Int) % 2 = 1) :
    Representable (.ofOdd m (0 - s) hodd) ↔ m < 2 ^ 53 ∧ m * 2 ^ s < 2 ^ 1024 := by
  have hm : m ≠ 0 := by omega
  rw [← Nat.log2_lt (Nat.mul_ne_zero hm (Nat.pos_iff_ne_zero.1 (Nat.two_pow_pos s))), log2_mul_two_pow hm]
  show m < Nat.pow 2 53 ∧ (0 - (s : Int) ≤ 1074) ∧ (m.log2 : Int) - (0 - s) < 1024 ↔ _
  rw [Nat.pow_eq]
  omega

theorem le_of_mul_two_pow_eq {m s q t : Nat} (hodd : (m : Int) % 2 = 1) (h : m * 2 ^ s = q * 2 ^ t) : m ≤ q := by
  obtain ⟨d, rfl⟩ | ⟨d, rfl⟩ : (∃ d, s = t + d) ∨ ∃ d, t = s + (d + 1) := by
    by_cases hle : t ≤ s
    · exact .inl ⟨s - t, by omega⟩
    · exact .inr ⟨t - s - 1, by omega⟩
  · rw [Nat.add_comm t, Nat.pow_add, ← Nat.mul_assoc] at h
    rw [← Nat.eq_of_mul_eq_mul_right (Nat.two_pow_pos t) h]
    exact Nat.le_mul_of_pos_right m (Nat.two_pow_pos d)
  · rw [Nat.add_comm s, Nat.pow_add, ← Nat.mul_assoc] at h
    have hm := Nat.eq_of_mul_eq_mul_right (Nat.two_pow_pos s) h
    rw [Nat.pow_succ, ← Nat.mul_assoc] at hm
    omega

/-- The integers that fit have at most `53` significant bits and are below `2 ^ 1024`. -/
theorem representable_natCast_iff {N : Nat} :
    Representable (Dyadic.ofInt N) ↔ N < 2 ^ 1024 ∧ ∃ q t, q < 2 ^ 53 ∧ N = q * 2 ^ t := by
  by_cases hN : N = 0
  · subst hN
    have hpos : ∀ k, 0 < 2 ^ k := Nat.two_pow_pos
    exact iff_of_true trivial ⟨hpos 1024, 0, 0, hpos 53, (Nat.zero_mul _).symm⟩
  · obtain ⟨m, s, hodd, hvalue, heq⟩ := exists_ofOdd hN
    rw [heq, representable_ofOdd_iff, ← hvalue, and_comm]
    refine and_congr_right fun _ => ⟨fun hm => ⟨m, s, hm, hvalue⟩, ?_⟩
    rintro ⟨q, t, hq, hvalue'⟩
    exact Nat.lt_of_le_of_lt (le_of_mul_two_pow_eq hodd (hvalue.symm.trans hvalue')) hq

/-! ### The nearest integer -/

theorem divNearest_mul (n : Int) (d : Nat) {c : Nat} (hc : 0 < c) :
    divNearest (n * c) (d * c) = divNearest n d := by
  have hc' : (0 : Int) < c := by omega
  have hmod : n * c % (d * c) = n % d * c := by
    rw [Int.mul_comm n, Int.mul_comm (d : Int), Int.mul_emod_mul_of_pos _ _ hc', Int.mul_comm]
  have hdiv : n * c / (d * c) = n / d := Int.mul_ediv_mul_of_pos_left _ _ hc'
  have hlt : ∀ a b : Int, a * c < b * c ↔ a < b := fun a b => Int.mul_lt_mul_right hc'
  simp only [divNearest, Int.natCast_mul, hmod, hdiv, ← Int.mul_assoc, hlt]

/-- The quotient of natural numbers is rounded to one of its two neighbours. Half way between them it is the even
one. -/
theorem divNearest_natCast (n d : Nat) : ∃ q : Nat, divNearest n d = q ∧
    (q = n / d ∧ 2 * (n % d) ≤ d ∨ q = n / d + 1 ∧ d ≤ 2 * (n % d)) ∧ (2 * (n % d) = d → q % 2 = 0) := by
  have hmod : (n : Int) % d = (n % d : Nat) := by simp
  have hdiv : (n : Int) / d = (n / d : Nat) := by simp
  simp only [divNearest, hmod, hdiv]
  split
  · exact ⟨n / d, rfl, .inl ⟨rfl, by omega⟩, by omega⟩
  · split
    · exact ⟨n / d + 1, by omega, .inr ⟨rfl, by omega⟩, by omega⟩
    · exact ⟨n / d + n / d % 2, by omega, by omega, by omega⟩

/-! ### Rounding an integer -/

theorem ofIntWithPrec_neg (q : Int) (e : Nat) :
    Dyadic.ofIntWithPrec q (-e) = Dyadic.ofInt (q * (2 ^ e : Nat)) := by
  have hshift := Dyadic.ofIntWithPrec_shiftLeft_add (x := q) (i := -e) (n := e)
  rw [Int.shiftLeft_eq, Int.add_left_neg] at hshift
  rw [← hshift, Int.natCast_pow]
  rfl

/-- An integer with `53` bits or more is rounded to a multiple of the power of two by which it has too many. -/
theorem roundToGrid_natCast {N : Nat} (hN : 52 ≤ N.log2) : ∃ q : Nat,
    divNearest N (2 ^ (N.log2 - 52)) = q ∧
      roundToGrid (Dyadic.ofInt N) (gridExponent (Dyadic.ofInt N)) = Dyadic.ofInt (q * 2 ^ (N.log2 - 52) : Nat) := by
  have hne : N ≠ 0 := by
    rintro rfl
    simp at hN
  obtain ⟨m, s, hodd, hvalue, heq⟩ := exists_ofOdd hne
  have hlog : N.log2 = m.log2 + s := by rw [hvalue, log2_mul_two_pow (by omega)]
  generalize he : N.log2 - 52 = e
  have hgrid : gridExponent (Dyadic.ofInt N) = e := by
    rw [heq]
    show Max.max ((m.log2 : Int) - (0 - s) - 52) (-1074) = e
    omega
  obtain ⟨q, hq, hnearest, -⟩ := divNearest_natCast N (2 ^ e)
  refine ⟨q, hq, ?_⟩
  rw [hgrid, heq, roundToGrid]
  have hpos := Nat.two_pow_pos e
  split
  · -- There are enough zeros at the end, so nothing is lost.
    have hdvd : 2 ^ e ∣ N := by
      rw [hvalue]
      exact Nat.dvd_mul_left_of_dvd (Nat.pow_dvd_pow 2 (by omega)) m
    have hmod := Nat.mod_eq_zero_of_dvd hdvd
    obtain ⟨rfl, -⟩ | ⟨-, hle⟩ := hnearest
    · rw [Nat.div_mul_cancel hdvd, heq]
    · omega
  · have hexponent : (e + (0 - s) : Int).toNat = e - s := by omega
    have hscale : 2 ^ (e - s) * 2 ^ s = 2 ^ e := by
      rw [← Nat.pow_add]
      congr 1
      omega
    have hm := divNearest_mul m (2 ^ (e - s)) (Nat.two_pow_pos s)
    rw [hscale, ← Int.natCast_mul, ← hvalue, hq] at hm
    rw [hexponent, Nat.pow_eq, ← hm, ofIntWithPrec_neg, ← Int.natCast_mul]

theorem nearest_lt_iff {N : Nat} (hN : 52 ≤ N.log2) {q : Nat} (hq : divNearest N (2 ^ (N.log2 - 52) : Nat) = q) :
    q ≤ 2 ^ 53 ∧ (q * 2 ^ (N.log2 - 52) < 2 ^ 1024 ↔ N < limit) := by
  obtain ⟨e, he⟩ : ∃ e, N.log2 = e + 52 := ⟨N.log2 - 52, by omega⟩
  have hne : N ≠ 0 := by
    rintro rfl
    simp at hN
  obtain ⟨hlow, hhigh⟩ := (Nat.log2_eq_iff hne).1 he
  rw [he, Nat.add_sub_cancel] at hq ⊢
  obtain ⟨q', hq', hnearest, heven⟩ := divNearest_natCast N (2 ^ e)
  obtain rfl : q' = q := by
    rw [hq] at hq'
    omega
  have hpos := Nat.two_pow_pos e
  have hdiv : N / 2 ^ e < 2 ^ 53 := by
    rw [Nat.div_lt_iff_lt_mul hpos, ← Nat.pow_add, Nat.add_comm 53]
    exact hhigh
  have hdiv' : 2 ^ 52 ≤ N / 2 ^ e := by
    rw [Nat.le_div_iff_mul_le hpos, ← Nat.pow_add, Nat.add_comm 52]
    exact hlow
  have hq53 : q' ≤ 2 ^ 53 := by omega
  have hpow : ∀ {a b : Nat}, a ≤ b → 2 ^ a ≤ 2 ^ b := fun h => Nat.pow_le_pow_right (by decide) h
  refine ⟨hq53, ?_⟩
  unfold limit
  obtain hsmall | rfl | hlarge : e ≤ 970 ∨ e = 971 ∨ 972 ≤ e := by omega
  · have hproduct : q' * 2 ^ e ≤ 2 ^ 53 * 2 ^ 970 := Nat.mul_le_mul hq53 (hpow hsmall)
    have hbound : 2 ^ (e + 52 + 1) ≤ 2 ^ 1023 := hpow (by omega)
    omega
  · omega
  · have hproduct : 2 ^ 52 * 2 ^ 972 ≤ q' * 2 ^ e := Nat.mul_le_mul (by omega) (hpow hlarge)
    have hbound : 2 ^ 1024 ≤ 2 ^ (e + 52) := hpow (by omega)
    omega

theorem lt_limit_of_representable {N : Nat} (h : Representable (Dyadic.ofInt N)) : N < limit := by
  obtain ⟨hlt, q, t, hq, rfl⟩ := representable_natCast_iff.1 h
  have hpow : ∀ {a b : Nat}, a ≤ b → 2 ^ a ≤ 2 ^ b := fun h => Nat.pow_le_pow_right (by decide) h
  unfold limit
  by_cases ht : t ≤ 971
  · have hproduct : q * 2 ^ t ≤ (2 ^ 53 - 1) * 2 ^ 971 := Nat.mul_le_mul (by omega) (hpow ht)
    omega
  · obtain ⟨d, rfl⟩ : ∃ d, t = d + 971 := ⟨t - 971, by omega⟩
    rw [Nat.pow_add, ← Nat.mul_assoc] at hlt ⊢
    omega

/-- A natural number is rounded to a natural number below the limit, and to infinity from there on. -/
theorem ofInt_natCast (N : Nat) :
    N < limit ∧ (∃ n : Nat, ofInt N = n) ∨ limit ≤ N ∧ ofInt N = .posInf := by
  unfold ofInt ofDyadic
  by_cases hrep : Representable (Dyadic.ofInt N)
  · rw [if_pos hrep]
    exact .inl ⟨lt_limit_of_representable hrep, N, rfl⟩
  · have hlog : 52 ≤ N.log2 := by
      by_contra hlog
      have hsmall : 2 ^ (N.log2 + 1) ≤ 2 ^ 53 := Nat.pow_le_pow_right (by decide) (by omega)
      have hN : N < 2 ^ (N.log2 + 1) := Nat.lt_log2_self
      exact hrep (representable_ofInt (by omega))
    obtain ⟨q, hq, hround⟩ := roundToGrid_natCast hlog
    obtain ⟨hq53, hlimit⟩ := nearest_lt_iff hlog hq
    have hrep' : Representable (Dyadic.ofInt (q * 2 ^ (N.log2 - 52) : Nat)) ↔ N < limit := by
      rw [← hlimit, representable_natCast_iff]
      refine ⟨fun h => h.1, fun h => ⟨h, ?_⟩⟩
      obtain hq53 | rfl := Nat.lt_or_eq_of_le hq53
      · exact ⟨q, _, hq53, rfl⟩
      · exact ⟨2 ^ 52, N.log2 - 52 + 1, by decide, by rw [Nat.pow_succ]; omega⟩
    have hpos : ¬ Dyadic.ofInt N < 0 :=
      Dyadic.not_le.2 (of_decide_eq_true (le_intCast_iff.2 (Int.natCast_nonneg N)))
    rw [if_neg hrep, hround]
    by_cases hN : N < limit
    · rw [if_pos (hrep'.2 hN)]
      exact .inl ⟨hN, _, rfl⟩
    · rw [if_neg (hrep'.not.2 hN), if_neg hpos]
      exact .inr ⟨by omega, rfl⟩

end AsmLens.Number
