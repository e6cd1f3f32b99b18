import Mathlib.Tactic.TypeStar

/-!
# Enumerations and plain structures of the interface

The enumerations of `xrp_api.h`, `xrp_host_common.h` and `vdsp_interface.h`, with the C values where the code
passes them through an `int`, and `struct vdsp_handle`.
-/

namespace Vdsp

/-- An address; `NULL` is the absent one. -/
abbrev Addr := Nat

/-- `enum xrp_status`. -/
inductive XrpStatus
  | success
  | failure
  | pending
  deriving DecidableEq, Repr

/-- `enum sprd_vdsp_status`. -/
inductive SprdVdspStatus
  | success
  | failure
  | pending
  deriving DecidableEq, Repr

def SprdVdspStatus.toInt : SprdVdspStatus → Int
  | success => 0
  | failure => 1
  | pending => 2

/-- `enum sprd_vdsp_result`. -/
inductive SprdVdspResult
  | success
  | fail
  | oldGeneration
  | notSupport
  deriving DecidableEq, Repr

def SprdVdspResult.toInt : SprdVdspResult → Int
  | success => 0
  | fail => 1
  | oldGeneration => 2
  | notSupport => 3

/-- `enum sprd_vdsp_worktype`. -/
inductive SprdVdspWorktype
  | normal
  | faceid
  | maxtype
  deriving DecidableEq, Repr

/-- `enum xrp_open_type`. -/
inductive XrpOpenType
  | normal
  | faceid
  | max
  deriving DecidableEq, Repr

/-- `enum xrp_access_flags`. -/
inductive XrpAccessFlags
  | read
  | write
  | readWrite
  deriving DecidableEq, Repr

def XrpAccessFlags.toNat : XrpAccessFlags → Nat
  | read => 0x1
  | write => 0x2
  | readWrite => 0x3

/-- `enum sprd_vdsp_bufflag`. -/
inductive SprdVdspBufflag
  | read
  | write
  | readWrite
  | accessMax
  deriving DecidableEq, Repr

/-- `struct vdsp_handle`. -/
structure VdspHandle where
  fd : Int
  generation : BitVec 32
  deriving DecidableEq, Repr

end Vdsp
