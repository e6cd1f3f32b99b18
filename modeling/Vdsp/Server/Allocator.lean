import Vdsp.Server.Table
import Vdsp.Lib.IndexPool
import Vdsp.Lib.System

/-!
# The fd table as an allocator

Over any run of `Alloc_Fd`, `Free_Fd` and `Check_FdValid`, with fds below 32 as their shifts need them, the word
`g_fdtable` is a pool of 32 indexes (`fdTable_refines_pool`).
-/

namespace Vdsp

open Bitmap IndexPool Lts

/-- A call of one of the three functions: the returned code and the new table. -/
def fdCall (t : BitVec 32) : PoolCall → Int × BitVec 32
  | .alloc => allocFd t
  | .free fd => freeFd t fd
  | .check fd => (checkFdValid t fd, t)

/-- A shift by 32 or more is undefined. -/
def FdBelow : PoolCall → Prop
  | .alloc => True
  | .free fd => fd < useFdMaxNum
  | .check fd => fd < useFdMaxNum

instance : (c : PoolCall) → Decidable (FdBelow c)
  | .alloc => inferInstanceAs (Decidable True)
  | .free fd => inferInstanceAs (Decidable (fd < useFdMaxNum))
  | .check fd => inferInstanceAs (Decidable (fd < useFdMaxNum))

/-- The calls on the table `t₀`. -/
def fdCalls (t₀ : BitVec 32) : System (BitVec 32) PoolCall where
  init t := t = t₀
  step t c := some (fdCall t c).2

/-- The runs, with the calls that were made and the codes that they returned. -/
def fdRuns (t₀ : BitVec 32) : System (BitVec 32 × List (PoolCall × Int)) PoolCall :=
  (fdCalls t₀).record [] fun t c calls => calls ++ [(c, (fdCall t c).1)]

/-! ### The steps -/

theorem allocFd_step (t : BitVec 32) :
    Step useFdMaxNum (bits t) .alloc (allocFd t).1 (bits (allocFd t).2) := by
  rcases allocFd_spec t with ⟨i, hi, hfree, hleast, hret, hbits⟩ | ⟨hfull, he⟩
  · rw [hret, hbits]
    refine .alloc ⟨⟨hi, hfree⟩, fun k hk => ?_⟩
    by_contra hlt
    exact hk.2 (hleast k (Nat.lt_of_not_le hlt))
  · rw [he]
    refine .full fun k hk => ?_
    rw [hfull]
    exact Finset.mem_range.2 hk

/-- An fd is a member, or names none. -/
private theorem member_or_none (t : BitVec 32) (fd : Int) :
    (∃ i : Nat, i ∈ bits t ∧ fd = i ∧ checkFdValid t fd = 0) ∨
      ((∀ k ∈ bits t, (k : Int) ≠ fd) ∧ checkFdValid t fd = -1) := by
  by_cases h : checkFdValid t fd = 0
  · obtain ⟨hpos, hmem⟩ := checkFdValid_eq_zero.1 h
    exact .inl ⟨fd.toNat, hmem, (Int.toNat_of_nonneg hpos).symm, h⟩
  · refine .inr ⟨?_, ?_⟩
    · rintro k hk rfl
      exact h (checkFdValid_eq_zero.2 ⟨Int.natCast_nonneg k, hk⟩)
    · unfold checkFdValid at h ⊢
      split
      · rfl
      · rename_i h0
        rw [if_neg h0] at h
        split
        · rfl
        · rename_i h1
          rw [if_neg h1] at h
          exact absurd rfl h

private theorem freeFd_step (t : BitVec 32) (fd : Int) :
    Step useFdMaxNum (bits t) (.free fd) (freeFd t fd).1 (bits (freeFd t fd).2) := by
  rcases member_or_none t fd with ⟨i, hi, rfl, -⟩ | ⟨hnone, hcheck⟩
  · have hret : (freeFd t i).1 = 0 := by
      have hbit : t &&& 1#32 <<< (i : Int).toNat ≠ 0#32 := fun hz => and_bit_eq_zero.1 hz hi
      rw [freeFd, if_neg (by omega), if_neg hbit]
    have hbits : bits (freeFd t i).2 = (bits t).erase i := by
      rw [bits_freeFd, if_pos (Int.natCast_nonneg i), Int.toNat_natCast]
    rw [hret, hbits]
    exact .free hi
  · rw [freeFd_of_not_valid (by rw [hcheck]; decide)]
    exact .notFreed hnone

private theorem checkFdValid_step (t : BitVec 32) (fd : Int) :
    Step useFdMaxNum (bits t) (.check fd) (checkFdValid t fd) (bits t) := by
  rcases member_or_none t fd with ⟨i, hi, rfl, hcheck⟩ | ⟨hnone, hcheck⟩
  · rw [hcheck]
    exact .valid hi
  · rw [hcheck]
    exact .notValid hnone

/-- What a call does to the table, it does to the pool. -/
theorem fdCall_step (t : BitVec 32) (c : PoolCall) :
    Step useFdMaxNum (bits t) c (fdCall t c).1 (bits (fdCall t c).2) := by
  cases c with
  | alloc => exact allocFd_step t
  | free fd => exact freeFd_step t fd
  | check fd => exact checkFdValid_step t fd

/-! ### The runs -/

theorem fdRun_of_reach {t₀ : BitVec 32} {p : BitVec 32 × List (PoolCall × Int)}
    (h : Reach (fdRuns t₀) (fun _ c => FdBelow c) p) : Run useFdMaxNum (bits t₀) p.2 (bits p.1) := by
  refine h.invariant (P := fun p => Run useFdMaxNum (bits t₀) p.2 (bits p.1)) ?_ ?_
  · rintro ⟨t, calls⟩ ⟨rfl, rfl⟩
    exact .nil
  · rintro ⟨t, calls⟩ c ⟨t', calls'⟩ hrun - hs
    obtain ⟨hs, rfl⟩ := System.record_step hs
    cases hs
    exact hrun.snoc (fdCall_step t c)

/-- In every run the functions return what a pool of 32 indexes returns, and the table is its set; so an fd is
freed before it is allocated again. -/
theorem fdTable_refines_pool {t₀ : BitVec 32} {p : BitVec 32 × List (PoolCall × Int)}
    (h : Reach (fdRuns t₀) (fun _ c => FdBelow c) p) :
    Run useFdMaxNum (bits t₀) p.2 (bits p.1) ∧
      ∀ (i : Nat) pre mid post, p.2 = pre ++ (.alloc, (i : Int)) :: mid ++ (.alloc, (i : Int)) :: post →
        (.free i, 0) ∈ mid := by
  have hrun := fdRun_of_reach h
  refine ⟨hrun, fun i pre mid post hcalls => ?_⟩
  rw [hcalls] at hrun
  exact hrun.free_between

/-- The last index is handed out, refused while it is taken, and handed out again. -/
theorem fdTable_refines_pool_lastIndex :
    ∃ p, Reach (fdRuns 0x7fffffff) (fun _ c => FdBelow c) p ∧
      p.2 = [(.alloc, 31), (.alloc, -1), (.free (-1), -1), (.free 31, 0), (.check 31, -1), (.alloc, 31)] ∧
      Run useFdMaxNum (bits (0x7fffffff : BitVec 32)) p.2 (bits p.1) := by
  obtain ⟨p, -, hp, hcalls⟩ := Reach.exists_exec (fdRuns 0x7fffffff) (fun _ c => FdBelow c) (0x7fffffff, [])
    [.alloc, .alloc, .free (-1), .free 31, .check 31, .alloc]
    (fun p => p.2 = [(.alloc, 31), (.alloc, -1), (.free (-1), -1), (.free 31, 0), (.check 31, -1),
      (.alloc, 31)])
    ⟨rfl, rfl⟩ (by decide)
  exact ⟨p, hp, of_decide_eq_true hcalls, (fdTable_refines_pool hp).1⟩

end Vdsp
