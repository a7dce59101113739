import Tilework.Proofs.Number.Single

namespace Tilework

namespace Rounding

theorem bitLength_le {n k : Nat} (small : n < 1 <<< k) : bitLength n ≤ k := by
  unfold bitLength
  split
  · exact Nat.zero_le k
  · rename_i nonzero
    rw [Nat.one_shiftLeft] at small
    exact (Nat.log2_lt nonzero).mpr small

theorem significant_of_dvd {precision n : Nat} (whole : 1 <<< (bitLength n - precision) ∣ n) :
    significant precision n 1 = n := by
  obtain ⟨m, split⟩ := whole
  have positive : 0 < 1 <<< (bitLength n - precision) := by
    rw [Nat.one_shiftLeft]
    exact Nat.two_pow_pos _
  simp only [significant, Nat.div_one, Nat.one_mul]
  generalize 1 <<< (bitLength n - precision) = step at split positive ⊢
  subst split
  simp only [nearest, Nat.mul_div_cancel_left m positive, Nat.mul_mod_right, Nat.mul_zero, if_pos positive]
  exact Nat.mul_comm m step

theorem shiftLeft_lt {n k e : Nat} (small : n < 1 <<< k) : n <<< e < 1 <<< (k + e) := by
  rw [Nat.one_shiftLeft] at small
  rw [Nat.shiftLeft_eq, Nat.one_shiftLeft, Nat.pow_add]
  exact Nat.mul_lt_mul_of_pos_right small (Nat.two_pow_pos e)

theorem significant_shiftLeft {precision n e : Nat} (short : n < 1 <<< precision) :
    significant precision (n <<< e) 1 = n <<< e := by
  apply significant_of_dvd
  have length := bitLength_le (shiftLeft_lt short (e := e))
  rw [Nat.one_shiftLeft]
  generalize bitLength (n <<< e) = digits at length ⊢
  rw [Nat.shiftLeft_eq]
  exact Nat.dvd_mul_left_of_dvd (Nat.pow_dvd_pow 2 (by omega)) n

end Rounding

namespace Single

section Order

variable {a b : Single}

theorem units_of_subnormal (small : a.magnitude < 0x800000) : a.units = a.magnitude := by
  have exponent : a.magnitude >>> 23 = 0 := by
    rw [Nat.shiftRight_eq_div_pow]
    exact Nat.div_eq_of_lt small
  simp only [units, exponent, if_true]
  exact Nat.mod_eq_of_lt small

theorem units_of_normal (normal : 0x800000 ≤ a.magnitude) :
    a.units = (0x800000 + a.magnitude % 0x800000) <<< (a.magnitude >>> 23 - 1) := by
  have exponent : a.magnitude >>> 23 ≠ 0 := by
    rw [Nat.shiftRight_eq_div_pow]
    omega
  simp only [units, if_neg exponent]

theorem units_lt_units (less : a.magnitude < b.magnitude) : a.units < b.units := by
  by_cases low : b.magnitude < 0x800000
  · rw [units_of_subnormal low, units_of_subnormal (Nat.lt_trans less low)]
    exact less
  rw [units_of_normal (Nat.not_lt.mp low), Nat.shiftLeft_eq]
  have one := Nat.two_pow_pos (b.magnitude >>> 23 - 1)
  by_cases small : a.magnitude < 0x800000
  · rw [units_of_subnormal small]
    calc a.magnitude < 0x800000 := small
      _ ≤ 0x800000 + b.magnitude % 0x800000 := Nat.le_add_right _ _
      _ ≤ (0x800000 + b.magnitude % 0x800000) * 2 ^ (b.magnitude >>> 23 - 1) := Nat.le_mul_of_pos_right _ one
  rw [units_of_normal (Nat.not_lt.mp small), Nat.shiftLeft_eq]
  have digits : a.magnitude % 0x800000 < 0x800000 := Nat.mod_lt _ (by decide)
  rcases Nat.lt_or_ge (a.magnitude >>> 23) (b.magnitude >>> 23) with below | same
  · have double : 2 * 2 ^ (a.magnitude >>> 23 - 1) ≤ 2 ^ (b.magnitude >>> 23 - 1) := by
      rw [← Nat.pow_succ']
      refine Nat.pow_le_pow_right (by decide) ?_
      rw [Nat.shiftRight_eq_div_pow] at below ⊢
      omega
    calc (0x800000 + a.magnitude % 0x800000) * 2 ^ (a.magnitude >>> 23 - 1)
        < 0x1000000 * 2 ^ (a.magnitude >>> 23 - 1) := Nat.mul_lt_mul_of_pos_right (by omega) (Nat.two_pow_pos _)
      _ = 0x800000 * (2 * 2 ^ (a.magnitude >>> 23 - 1)) := (Nat.mul_assoc 0x800000 2 _)
      _ ≤ (0x800000 + b.magnitude % 0x800000) * 2 ^ (b.magnitude >>> 23 - 1) :=
        Nat.mul_le_mul (Nat.le_add_right _ _) double
  · have exponent : a.magnitude >>> 23 = b.magnitude >>> 23 := by
      rw [Nat.shiftRight_eq_div_pow, Nat.shiftRight_eq_div_pow] at same ⊢
      omega
    rw [exponent]
    refine Nat.mul_lt_mul_of_pos_right ?_ one
    rw [Nat.shiftRight_eq_div_pow, Nat.shiftRight_eq_div_pow] at exponent
    omega

theorem units_le_units : a.units ≤ b.units ↔ a.magnitude ≤ b.magnitude := by
  constructor
  · intro below
    refine Nat.le_of_not_lt fun above => ?_
    exact Nat.not_lt.mpr below (units_lt_units above)
  · intro below
    rcases Nat.lt_or_eq_of_le below with less | same
    · exact Nat.le_of_lt (units_lt_units less)
    · simp only [units, same, Nat.le_refl]

theorem le_iff_value_le (first : a.isFinite = true) (second : b.isFinite = true) :
    a.le b = true ↔ a.value ≤ b.value := by
  have ascending := units_le_units (a := a) (b := b)
  have descending := units_le_units (a := b) (b := a)
  have least := units_le_units (a := a) (b := zero)
  have other := units_le_units (a := b) (b := zero)
  have origin : zero.units = 0 ∧ zero.magnitude = 0 := by decide
  rw [origin.1, origin.2] at least other
  simp only [le, isNaN_of_isFinite first, isNaN_of_isFinite second, Bool.not_false, Bool.true_and, decide_eq_true_eq]
  simp only [rank, value]
  split <;> split <;> omega

end Order

section Sums

theorem toNat_neg (a : Single) :
    a.neg.bits.toNat = if a.isNegative then a.bits.toNat - 0x80000000 else a.bits.toNat + 0x80000000 := by
  have bounded := a.bits.toNat_lt
  have high : a.neg.bits.toNat / 0x80000000 = a.bits.toNat / 0x80000000 ^^^ 1 := by
    simp only [neg, UInt32.toNat_xor]
    exact Nat.xor_div_two_pow (n := 31)
  have low : a.neg.bits.toNat % 0x80000000 = a.bits.toNat % 0x80000000 := by
    simp only [neg, UInt32.toNat_xor]
    exact (Nat.xor_mod_two_pow (n := 31)).trans (Nat.xor_zero _)
  simp only [isNegative, decide_eq_true_eq]
  have sign : a.bits.toNat / 0x80000000 = 0 ∨ a.bits.toNat / 0x80000000 = 1 := by omega
  rcases sign with plus | minus
  · rw [plus] at high
    change _ = 1 at high
    rw [if_neg (by omega)]
    omega
  · rw [minus] at high
    change _ = 0 at high
    rw [if_pos (by omega)]
    omega

theorem magnitude_neg (a : Single) : a.neg.magnitude = a.magnitude := by
  have bounded := a.bits.toNat_lt
  simp only [magnitude, toNat_neg, isNegative, decide_eq_true_eq]
  split <;> omega

theorem isFinite_neg (a : Single) : a.neg.isFinite = a.isFinite := by rw [isFinite, magnitude_neg, isFinite]

theorem value_neg (a : Single) : a.neg.value = -a.value := by
  have bounded := a.bits.toNat_lt
  have same : a.neg.units = a.units := by simp only [units, magnitude_neg]
  simp only [value, same, isNegative, toNat_neg, decide_eq_true_eq]
  split <;> split <;> omega

theorem units_pack {a : Single} {n e : Nat} (short : n < 1 <<< 24) (packed : a.magnitude = pack (n <<< e)) :
    a.units = n <<< e := by
  by_cases subnormal : n <<< e < 0x800000
  · rw [pack, if_pos subnormal] at packed
    rw [units_of_subnormal (packed ▸ subnormal), packed]
  · obtain ⟨leading, digits, filled⟩ := pack_of_normal (Nat.not_lt.mp subnormal)
    have zeros : (n <<< e).log2 - 23 ≤ e := by
      have bounded := Rounding.shiftLeft_lt short (e := e)
      rw [Nat.one_shiftLeft, ← Nat.log2_lt (by omega)] at bounded
      omega
    have restored : n <<< e >>> ((n <<< e).log2 - 23) <<< ((n <<< e).log2 - 23) = n <<< e := by
      rw [Nat.shiftRight_eq_div_pow, Nat.shiftLeft_eq]
      generalize (n <<< e).log2 - 23 = cut at zeros ⊢
      refine Nat.div_mul_cancel ?_
      rw [Nat.shiftLeft_eq]
      exact Nat.dvd_mul_left_of_dvd (Nat.pow_dvd_pow 2 zeros) n
    generalize (n <<< e).log2 - 23 = cut at leading digits filled restored
    rw [filled] at packed
    have exponent : a.magnitude >>> 23 = cut + 1 := by
      rw [packed, Nat.shiftRight_eq_div_pow]
      omega
    have fraction : 0x800000 + a.magnitude % 0x800000 = n <<< e >>> cut := by omega
    rw [units_of_normal (by omega), exponent, fraction, Nat.add_sub_cancel, restored]

theorem magnitude_ofBody (negative : Bool) {body : Nat} (bounded : body < 0x80000000) :
    (⟨UInt32.ofNat (if negative then 0x80000000 + body else body)⟩ : Single).magnitude = body ∧
      (⟨UInt32.ofNat (if negative then 0x80000000 + body else body)⟩ : Single).isNegative = negative := by
  simp only [magnitude, isNegative, UInt32.toNat_ofNat']
  cases negative <;> simp <;> omega

theorem ofUnits_of_short (negative : Bool) {n e : Nat} (short : n < 1 <<< 24) (small : n <<< e < 1 <<< 277) :
    (ofUnits negative (n <<< e) 1).isFinite = true ∧
      (ofUnits negative (n <<< e) 1).value = if negative then -((n <<< e : Nat) : Int) else ((n <<< e : Nat) : Int) := by
  have below := pack_lt small
  simp only [ofUnits, Rounding.significant_shiftLeft short, if_pos small]
  obtain ⟨body, sign⟩ := magnitude_ofBody negative (Nat.lt_trans below (by decide))
  constructor
  · rw [isFinite, body, decide_eq_true_eq]
    exact below
  · rw [value, sign, units_pack short body]

end Sums

section Grains

/-- The number is `n` times two to the power -24. -/
structure IsGrains (a : Single) (n : Nat) : Prop where
  finite : a.isFinite = true
  value : a.value = ((n <<< 125 : Nat) : Int)

variable {a b : Single} {m n : Nat}

theorem isGrains_ofUnits (short : n < 0x1000000) : (ofUnits false (n <<< 125) 1).IsGrains n := by
  have small : n <<< 125 < 1 <<< 277 := by
    rw [Nat.shiftLeft_eq]
    omega
  obtain ⟨finite, value⟩ := ofUnits_of_short false (e := 125) short small
  exact ⟨finite, value⟩

theorem IsGrains.le_iff (first : a.IsGrains m) (second : b.IsGrains n) : a.le b = true ↔ m ≤ n := by
  rw [le_iff_value_le first.finite second.finite, first.value, second.value, Nat.shiftLeft_eq, Nat.shiftLeft_eq]
  omega

theorem IsGrains.value_pos (grains : a.IsGrains n) : 0 < a.value ↔ 0 < n := by
  rw [grains.value, Nat.shiftLeft_eq]
  omega

theorem IsGrains.sub (first : a.IsGrains m) (second : b.IsGrains n) (short : m < 0x1000000) (below : n ≤ m) :
    (a.sub b).IsGrains (m - n) := by
  have rest : a.value + b.neg.value = (((m - n) <<< 125 : Nat) : Int) := by
    rw [value_neg, first.value, second.value, Nat.shiftLeft_eq, Nat.shiftLeft_eq, Nat.shiftLeft_eq]
    omega
  rw [Single.sub, add, first.finite, isFinite_neg, second.finite, rest]
  simp only [Bool.and_self, if_true]
  split
  · rename_i nothing
    have none : m - n = 0 := by
      rw [Nat.shiftLeft_eq] at nothing
      omega
    rw [none]
    split
    · exact ⟨by decide, by decide⟩
    · exact ⟨by decide, by decide⟩
  · have positive : decide ((((m - n) <<< 125 : Nat) : Int) < 0) = false := decide_eq_false (by omega)
    rw [positive, Int.natAbs_natCast]
    exact isGrains_ofUnits (by omega)

end Grains

end Single

end Tilework
