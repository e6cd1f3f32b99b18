import Mathlib.Algebra.BigOperators.Group.List.Basic
import Mathlib.Algebra.GroupWithZero.Nat

/-!
# The checksums of the buffers

`print_checksum_result` adds up the bytes of each buffer.  It starts with the bytes 0 and 1 and then adds the
one behind the next, so of a buffer of `size` bytes it reads `size + 1`; and it keeps the sum of the buffer
before for a buffer without bytes.
-/

namespace Vdsp

/-- A `struct VdspInputOutput`: the memory from `viraddr` on, of which `size` bytes are the buffer. -/
structure VdspInputOutput where
  viraddr : Nat → UInt8
  size : Nat

/-- The body of the inner loop: `tempresult`, and the offsets that have been read. -/
def checksumStep (temp : Nat → UInt8) (s : UInt64 × List Nat) (j : Nat) : UInt64 × List Nat :=
  if j = 0 then ((temp j).toUInt64 + (temp (j + 1)).toUInt64, s.2 ++ [j, j + 1])
  else (s.1 + (temp (j + 1)).toUInt64, s.2 ++ [j + 1])

/-- The inner loop. -/
def checksumLoop (b : VdspInputOutput) (tempresult : UInt64) : UInt64 × List Nat :=
  (List.range b.size).foldl (checksumStep b.viraddr) (tempresult, [])

/-- The outer loop from the `i`-th buffer on: `result`, and the reads as pairs of a buffer and an offset. -/
def checksums (i : Nat) (tempresult : UInt64) : List VdspInputOutput → List UInt64 × List (Nat × Nat)
  | [] => ([], [])
  | b :: bs =>
    let (tempresult, read) := checksumLoop b tempresult
    let (result, reads) := checksums (i + 1) tempresult bs
    (tempresult :: result, read.map (i, ·) ++ reads)

/-- `print_checksum_result`; `malloc` tells whether `result` is allocated.  A store through `NULL` is `none`. -/
def printChecksumResult (malloc : Bool) (buffer : Option (List VdspInputOutput)) :
    Option (List UInt64 × List (Nat × Nat)) :=
  match buffer with
  | none => some ([], [])
  | some buffer => if 0 < buffer.length ∧ malloc = false then none else some (checksums 0 0 buffer)

/-- The sum of the first `n` bytes. -/
def byteSum (mem : Nat → UInt8) (n : Nat) : Nat := ((List.range n).map fun k => (mem k).toNat).sum

/-- The results are the sums of the bytes of the buffers, and nothing else is read. -/
def ChecksumsOf (buffer : List VdspInputOutput) (r : Option (List UInt64 × List (Nat × Nat))) : Prop :=
  ∃ result reads, r = some (result, reads) ∧
    result.map UInt64.toNat = buffer.map (fun b => byteSum b.viraddr b.size) ∧
    ∀ i k, (i, k) ∈ reads → ∃ b, buffer[i]? = some b ∧ k < b.size

theorem byteSum_succ (mem : Nat → UInt8) (n : Nat) : byteSum mem (n + 1) = byteSum mem n + (mem n).toNat := by
  simp [byteSum, List.range_succ]

/-- One byte too many is added and read, or the sum before is kept. -/
theorem checksumLoop_eq (b : VdspInputOutput) (tempresult : UInt64) :
    checksumLoop b tempresult =
      if b.size = 0 then (tempresult, [])
      else (UInt64.ofNat (byteSum b.viraddr (b.size + 1)), List.range (b.size + 1)) := by
  unfold checksumLoop
  generalize b.size = n
  induction n with
  | zero => rfl
  | succ n ih =>
    have hbyte : ∀ k, (b.viraddr k).toUInt64 = UInt64.ofNat (b.viraddr k).toNat := fun k => by simp
    rw [if_neg (by omega), List.range_succ, List.foldl_append, ih]
    cases n with
    | zero =>
      simp only [List.foldl_cons, List.foldl_nil, checksumStep, if_true, byteSum_succ, hbyte, UInt64.ofNat_add]
      simp [byteSum, List.range_succ]
    | succ n =>
      simp only [List.foldl_cons, List.foldl_nil, checksumStep, if_neg (Nat.succ_ne_zero n), hbyte,
        byteSum_succ _ (n + 1 + 1), UInt64.ofNat_add, List.range_succ (n := n + 1 + 1)]

/-- The first byte behind a buffer is read. -/
theorem checksums_reads (i : Nat) (tempresult : UInt64) {j : Nat} {buffer : List VdspInputOutput}
    {b : VdspInputOutput} (hb : buffer[j]? = some b) (hsize : b.size ≠ 0) :
    (i + j, b.size) ∈ (checksums i tempresult buffer).2 := by
  induction buffer generalizing i j tempresult with
  | nil => simp at hb
  | cons c buffer ih =>
    rw [checksums]
    cases j with
    | zero =>
      cases hb
      refine List.mem_append_left _ (List.mem_map.2 ⟨b.size, ?_, rfl⟩)
      rw [checksumLoop_eq, if_neg hsize]
      simp
    | succ j =>
      refine List.mem_append_right _ ?_
      rw [show i + (j + 1) = i + 1 + j by omega]
      exact ih _ _ (by simpa using hb)

/-- Without bytes nothing is read, and all sums are 0. -/
theorem checksums_empty {i : Nat} {buffer : List VdspInputOutput} (h : ∀ b ∈ buffer, b.size = 0) :
    checksums i 0 buffer = (buffer.map fun _ => 0, []) := by
  induction buffer generalizing i with
  | nil => rfl
  | cons b buffer ih =>
    have hb : checksumLoop b 0 = (0, []) := by rw [checksumLoop_eq, if_pos (h b (by simp))]
    simp only [checksums, hb, ih fun c hc => h c (by simp [hc])]
    rfl

/-- The checksums are right exactly when no buffer has a byte, and the results could be allocated. -/
theorem checksumsOf_iff (malloc : Bool) (buffer : List VdspInputOutput) :
    ChecksumsOf buffer (printChecksumResult malloc (some buffer)) ↔
      (∀ b ∈ buffer, b.size = 0) ∧ (buffer = [] ∨ malloc = true) := by
  have hres : printChecksumResult malloc (some buffer) =
      if 0 < buffer.length ∧ malloc = false then none else some (checksums 0 0 buffer) := rfl
  rw [hres]
  constructor
  · rintro ⟨result, reads, hr, -, hreads⟩
    split at hr
    · cases hr
    · rename_i halloc
      constructor
      · intro b hb
        by_contra hsize
        obtain ⟨j, hj⟩ := List.mem_iff_getElem?.1 hb
        have hread := checksums_reads 0 0 hj hsize
        simp only [Option.some.injEq] at hr
        rw [hr, Nat.zero_add] at hread
        obtain ⟨c, hc, hlt⟩ := hreads _ _ hread
        rw [hj] at hc
        cases hc
        omega
      · by_cases hempty : buffer = []
        · exact .inl hempty
        · have hpos := List.length_pos_iff.2 hempty
          exact .inr (by simpa [hpos] using halloc)
  · rintro ⟨hsize, halloc⟩
    have hcond : ¬ (0 < buffer.length ∧ malloc = false) := by
      rintro ⟨hpos, hm⟩
      rcases halloc with rfl | h
      · exact absurd hpos (by decide)
      · rw [hm] at h
        cases h
    rw [if_neg hcond, checksums_empty hsize]
    refine ⟨_, _, rfl, ?_, fun i k h => by cases h⟩
    rw [List.map_map]
    refine List.map_congr_left fun b hb => ?_
    simp [hsize b hb, byteSum]

/-- A buffer of one byte. -/
theorem one_byte_checksum_wrong :
    ¬ ChecksumsOf [⟨fun _ => 1, 1⟩] (printChecksumResult true (some [⟨fun _ => 1, 1⟩])) := by
  rintro ⟨result, reads, hr, hresult, -⟩
  have hsum : printChecksumResult true (some [⟨fun _ => 1, 1⟩]) = some ([2], [(0, 0), (0, 1)]) := rfl
  rw [hsum] at hr
  cases hr
  exact absurd hresult (by decide)

end Vdsp
