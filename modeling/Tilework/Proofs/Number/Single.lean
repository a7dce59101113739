import Tilework.Number.Single

namespace Tilework.Single

/-- Twenty-four digits are left of a number when all but the leading ones are cut off. -/
theorem pack_of_normal {m : Nat} (normal : 0x800000 ≤ m) :
    0x800000 ≤ m >>> (m.log2 - 23) ∧ m >>> (m.log2 - 23) < 0x1000000 ∧
      pack m = (m.log2 - 23 + 1) * 0x800000 + (m >>> (m.log2 - 23) - 0x800000) := by
  have nonzero : m ≠ 0 := by omega
  have low : 23 ≤ m.log2 := (Nat.le_log2 nonzero).mpr normal
  have split : m.log2 = 23 + (m.log2 - 23) := by omega
  refine ⟨?_, ?_, ?_⟩
  · rw [Nat.shiftRight_eq_div_pow, Nat.le_div_iff_mul_le (Nat.two_pow_pos _)]
    have below := Nat.log2_self_le nonzero
    rw [split, Nat.pow_add] at below
    exact below
  · rw [Nat.shiftRight_eq_div_pow, Nat.div_lt_iff_lt_mul (Nat.two_pow_pos _)]
    have above := Nat.lt_log2_self (n := m)
    rw [split, Nat.add_right_comm, Nat.pow_add] at above
    exact above
  · rw [pack, if_neg (Nat.not_lt.mpr normal)]
    simp only [Nat.shiftLeft_eq]

theorem pack_lt {m : Nat} (small : m < 1 <<< 277) : pack m < infiniteMagnitude := by
  by_cases subnormal : m < 0x800000
  · rw [pack, if_pos subnormal]
    exact Nat.lt_trans subnormal (by decide)
  · obtain ⟨-, digits, packed⟩ := pack_of_normal (Nat.not_lt.mp subnormal)
    have top : m.log2 < 277 := by
      rw [Nat.one_shiftLeft] at small
      exact (Nat.log2_lt (by omega)).mpr small
    rw [packed, infiniteMagnitude]
    omega

theorem isNaN_of_magnitude (negative : Bool) {body : Nat} (bounded : body ≤ infiniteMagnitude) :
    (⟨UInt32.ofNat (if negative then 0x80000000 + body else body)⟩ : Single).isNaN = false := by
  simp only [infiniteMagnitude] at bounded
  simp only [isNaN, magnitude, infiniteMagnitude, decide_eq_false_iff_not, UInt32.toNat_ofNat']
  split <;> omega

theorem isNaN_ofUnits (negative : Bool) (num den : Nat) : (ofUnits negative num den).isNaN = false := by
  apply isNaN_of_magnitude
  split
  · rename_i small
    exact Nat.le_of_lt (pack_lt small)
  · exact Nat.le_refl _

theorem isNaN_of_isFinite {a : Single} (finite : a.isFinite = true) : a.isNaN = false := by
  simp only [isFinite, isNaN, decide_eq_true_eq, decide_eq_false_iff_not] at finite ⊢
  omega

theorem isNaN_add {a b : Single} (number : a.isNaN = false) (finite : b.isFinite = true) : (a.add b).isNaN = false := by
  unfold add
  cases ha : a.isFinite
  · simp [number, isNaN_of_isFinite finite, finite]
  · simp only [finite, Bool.and_self, if_true]
    split
    · split <;> decide
    · exact isNaN_ofUnits _ _ _

theorem le_eq_not_lt {a b : Single} (first : a.isNaN = false) (second : b.isNaN = false) : a.le b = !b.lt a := by
  simp only [le, lt, first, second, Bool.not_false, Bool.true_and]
  rw [← decide_not]
  exact decide_eq_decide.mpr Int.not_lt.symm

end Tilework.Single
