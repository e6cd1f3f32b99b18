import Vdsp.Lib.Bitmap

/-!
# The fd table of the server-mode client

`Alloc_Fd`, `Free_Fd` and `Check_FdValid` of `vdsp_server_interface.cpp` on the 32-bit word `g_fdtable`, and
what they do to the set of allocated fds.
-/

namespace Vdsp

open Bitmap

/-- `USE_FD_MAX_NUM`. -/
def useFdMaxNum : Nat := 32

/-- `Alloc_Fd`: the returned fd and the new table. -/
def allocFd (t : BitVec 32) : Int × BitVec 32 :=
  let validBits := t ^^^ 0xffffffff#32
  match (List.range useFdMaxNum).find? fun i => (validBits >>> i) &&& 1#32 != 0#32 with
  | some i => (i, t ||| 1#32 <<< i)
  | none => (-1, t)

/-- `Free_Fd`: the returned code and the new table. -/
def freeFd (t : BitVec 32) (fd : Int) : Int × BitVec 32 :=
  if fd < 0 then (-1, t)
  else if t &&& 1#32 <<< fd.toNat = 0#32 then (-1, t)
  else (0, t &&& ~~~(1#32 <<< fd.toNat))

/-- `Check_FdValid`. -/
def checkFdValid (t : BitVec 32) (fd : Int) : Int :=
  if fd < 0 then -1
  else if t &&& 1#32 <<< fd.toNat = 0#32 then -1
  else 0

theorem checkFdValid_eq_zero {t : BitVec 32} {fd : Int} :
    checkFdValid t fd = 0 ↔ 0 ≤ fd ∧ fd.toNat ∈ bits t := by
  unfold checkFdValid
  by_cases h : fd < 0
  · simp only [h, if_true]
    omega
  · by_cases hb : fd.toNat ∈ bits t
    · rw [if_neg h, if_neg (fun hz => and_bit_eq_zero.1 hz hb)]
      exact iff_of_true rfl ⟨by omega, hb⟩
    · rw [if_neg h, if_pos (and_bit_eq_zero.2 hb)]
      exact iff_of_false (by decide) fun hz => hb hz.2

private theorem free_iff {t : BitVec 32} {i : Nat} (hi : i < useFdMaxNum) :
    ((((t ^^^ 0xffffffff#32) >>> i) &&& 1#32 != 0#32) = true) ↔ i ∉ bits t := by
  rw [bne_iff_ne]
  exact compl_bit_ne_zero hi

/-- `Alloc_Fd` takes the least free fd, or fails because there is none. -/
theorem allocFd_spec (t : BitVec 32) :
    (∃ i : Nat, i < useFdMaxNum ∧ i ∉ bits t ∧ (∀ j < i, j ∈ bits t) ∧ (allocFd t).1 = i ∧
      bits (allocFd t).2 = insert i (bits t)) ∨
    (bits t = Finset.range useFdMaxNum ∧ allocFd t = (-1, t)) := by
  unfold allocFd
  rcases hf : (List.range useFdMaxNum).find? fun i => ((t ^^^ 0xffffffff#32) >>> i) &&& 1#32 != 0#32 with _ | i
  · right
    refine ⟨?_, by simp only [hf]⟩
    refine (bits_subset_range t).antisymm fun i hi => ?_
    have hi' := Finset.mem_range.1 hi
    by_contra hn
    exact List.find?_eq_none.1 hf i (List.mem_range.2 hi') ((free_iff hi').2 hn)
  · left
    obtain ⟨hp, hlt, hmin⟩ := List.find?_range_eq_some.1 hf
    have hi := List.mem_range.1 hlt
    refine ⟨i, hi, (free_iff hi).1 hp, fun j hj => ?_, by simp only [hf], ?_⟩
    · by_contra hn
      have := (free_iff (hj.trans hi)).2 hn
      have hj' := hmin j hj
      rw [this] at hj'
      cases hj'
    · simp only [hf]
      exact bits_set hi

/-- `Free_Fd` leaves the other fds allocated. -/
theorem bits_freeFd (t : BitVec 32) (fd : Int) :
    bits (freeFd t fd).2 = if 0 ≤ fd then (bits t).erase fd.toNat else bits t := by
  unfold freeFd
  by_cases h : 0 ≤ fd
  · rw [if_neg (Int.not_lt.2 h), if_pos h]
    by_cases hb : fd.toNat ∈ bits t
    · rw [if_neg (fun hz => and_bit_eq_zero.1 hz hb)]
      exact bits_clear t _
    · rw [if_pos (and_bit_eq_zero.2 hb), Finset.erase_eq_of_notMem hb]
  · rw [if_pos (Int.not_le.1 h), if_neg h]

/-- Freeing an fd that is not allocated changes nothing. -/
theorem freeFd_of_not_valid {t : BitVec 32} {fd : Int} (h : checkFdValid t fd ≠ 0) : freeFd t fd = (-1, t) := by
  unfold freeFd checkFdValid at *
  split
  · rfl
  · rename_i h0
    rw [if_neg h0] at h
    split
    · rfl
    · rename_i h1
      rw [if_neg h1] at h
      exact absurd rfl h

/-- Giving back what was just allocated restores the set of allocated fds. -/
theorem bits_freeFd_allocFd {t : BitVec 32} (h : 0 ≤ (allocFd t).1) :
    bits (freeFd (allocFd t).2 (allocFd t).1).2 = bits t := by
  rcases allocFd_spec t with ⟨i, -, hi, -, h1, h2⟩ | ⟨-, h'⟩
  · rw [bits_freeFd, if_pos h, h1, h2]
    exact Finset.erase_insert hi
  · rw [h'] at h
    simp at h

end Vdsp
