import Mathlib.Algebra.Group.Int.Defs
import Mathlib.Algebra.Group.Nat.Defs

/-!
# Machine words

The code is built for 32 and for 64 bits.  `int` has 32 bits in both; `size_t`, `unsigned long` and the pointers
are words.
-/

namespace Vdsp

inductive Abi
  | ilp32
  | lp64
  deriving DecidableEq, Repr

def Abi.bits : Abi → Nat
  | ilp32 => 32
  | lp64 => 64

/-- The value of a `size_t`. -/
def Abi.sizeT (a : Abi) (n : Nat) : Nat := n % 2 ^ a.bits

/-- `SIZE_MAX`, to which `-1` is converted. -/
def Abi.sizeMax (a : Abi) : Nat := 2 ^ a.bits - 1

/-- `sizeof(size_t)`. -/
def Abi.sizeofSizeT (a : Abi) : Nat := a.bits / 8

/-- Allocators give no block of more than `PTRDIFF_MAX` bytes. -/
def Abi.allocates (a : Abi) (bytes : Nat) : Prop := bytes < 2 ^ (a.bits - 1)

instance Abi.decidableAllocates (a : Abi) (bytes : Nat) : Decidable (a.allocates bytes) :=
  inferInstanceAs (Decidable (_ < _))

theorem Abi.sizeT_of_lt {a : Abi} {n : Nat} (h : n < 2 ^ a.bits) : a.sizeT n = n := Nat.mod_eq_of_lt h

/-! ### `int` -/

/-- The conversion of an `unsigned int` to `int`. -/
def intArg (n : Nat) : Int := (BitVec.ofNat 32 n).toInt

theorem intArg_of_lt {n : Nat} (h : n < 2 ^ 31) : intArg n = n := by
  rw [intArg, BitVec.toInt_eq_toNat_cond, BitVec.toNat_ofNat, Nat.mod_eq_of_lt (by omega), if_pos (by omega)]

theorem intArg_of_nonneg {n : Nat} (hn : n < 2 ^ 32) (h : 0 ≤ intArg n) : intArg n = n := by
  by_cases hlt : n < 2 ^ 31
  · exact intArg_of_lt hlt
  · rw [intArg, BitVec.toInt_eq_toNat_cond, BitVec.toNat_ofNat, Nat.mod_eq_of_lt hn, if_neg (by omega)] at h
    omega

/-- The result of `int` arithmetic; an overflow is undefined. -/
def int32 (x : Int) : Option Int := if -2 ^ 31 ≤ x ∧ x < 2 ^ 31 then some x else none

theorem int32_of_lt {n : Nat} (h : n < 2 ^ 31) : int32 n = some (n : Int) := by
  rw [int32, if_pos (by omega)]

theorem int32_of_le {n : Nat} (h : 2 ^ 31 ≤ n) : int32 n = none := by
  rw [int32, if_neg (by omega)]

end Vdsp
