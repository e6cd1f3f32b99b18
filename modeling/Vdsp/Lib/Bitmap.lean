import Mathlib.Data.Finset.Card
import Mathlib.Data.Finset.Range

/-!
# Sets of small numbers as bit vectors

`bits t` is the set of the positions of the set bits of `t`.  The mask operations of an allocation bitmap are
the set operations: setting a bit inserts its position, clearing it erases the position, and the two usual bit
tests are membership.
-/

namespace Bitmap

variable {w : Nat}

/-- The positions of the set bits. -/
def bits (t : BitVec w) : Finset Nat := (Finset.range w).filter fun i => t.getLsbD i = true

theorem mem_bits {t : BitVec w} {i : Nat} : i ∈ bits t ↔ t.getLsbD i = true := by
  simp only [bits, Finset.mem_filter, Finset.mem_range, and_iff_right_iff_imp]
  exact fun h => BitVec.lt_of_getLsbD h

theorem lt_of_mem_bits {t : BitVec w} {i : Nat} (h : i ∈ bits t) : i < w :=
  BitVec.lt_of_getLsbD (mem_bits.1 h)

theorem bits_injective {t u : BitVec w} (h : bits t = bits u) : t = u := by
  refine BitVec.eq_of_getLsbD_eq fun i _ => ?_
  have := Finset.ext_iff.1 h i
  rw [mem_bits, mem_bits] at this
  exact Bool.eq_iff_iff.2 this

theorem bits_subset_range (t : BitVec w) : bits t ⊆ Finset.range w := Finset.filter_subset _ _

@[simp] theorem bits_zero : bits (0#w) = ∅ := by
  ext i
  simp [mem_bits]

private theorem getLsbD_bit (i j : Nat) : (1#w <<< i).getLsbD j = (decide (i < w) && decide (i = j)) := by
  rw [← BitVec.twoPow_eq, BitVec.getLsbD_twoPow]

/-- Setting a bit. -/
theorem bits_set {t : BitVec w} {i : Nat} (hi : i < w) : bits (t ||| 1#w <<< i) = insert i (bits t) := by
  ext j
  rw [Finset.mem_insert, mem_bits, mem_bits, BitVec.getLsbD_or, getLsbD_bit]
  simp only [hi, decide_true, Bool.true_and, Bool.or_eq_true, decide_eq_true_eq]
  rw [or_comm, eq_comm]

/-- Clearing a bit. -/
theorem bits_clear (t : BitVec w) (i : Nat) : bits (t &&& ~~~(1#w <<< i)) = (bits t).erase i := by
  ext j
  rw [Finset.mem_erase, mem_bits, mem_bits, BitVec.getLsbD_and, BitVec.getLsbD_not, getLsbD_bit]
  constructor
  · intro h
    simp only [Bool.and_eq_true, decide_eq_true_eq, Bool.not_eq_eq_eq_not, Bool.not_true, Bool.and_eq_false_iff,
      decide_eq_false_iff_not] at h
    refine ⟨?_, h.1⟩
    rintro rfl
    rcases h.2.2 with h' | h'
    · exact h' h.2.1
    · exact h' rfl
  · rintro ⟨hne, h⟩
    have hj := BitVec.lt_of_getLsbD h
    simp [h, hj, Ne.symm hne]

/-- Testing a bit with a mask. -/
theorem and_bit_eq_zero {t : BitVec w} {i : Nat} : t &&& 1#w <<< i = 0#w ↔ i ∉ bits t := by
  rw [← BitVec.twoPow_eq, BitVec.and_twoPow, mem_bits]
  cases h : t.getLsbD i with
  | false => simp
  | true =>
    simp only [if_true, not_true_eq_false, iff_false]
    intro h0
    have hb := congrArg (·.getLsbD i) h0
    rw [BitVec.getLsbD_twoPow] at hb
    simp [BitVec.lt_of_getLsbD h] at hb

/-- Testing a bit of the complement by shifting it to position `0`. -/
theorem compl_bit_ne_zero {t : BitVec w} {i : Nat} (hi : i < w) :
    ((t ^^^ BitVec.allOnes w) >>> i) &&& 1#w ≠ 0#w ↔ i ∉ bits t := by
  have h1 : (1#w) = 1#w <<< 0 := by simp
  rw [h1, ne_eq, and_bit_eq_zero, not_not, mem_bits, mem_bits, BitVec.getLsbD_ushiftRight, BitVec.getLsbD_xor,
    BitVec.getLsbD_allOnes]
  cases t.getLsbD (i + 0) <;> simp_all

end Bitmap
