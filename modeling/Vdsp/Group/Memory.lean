import Vdsp.Abi
import Vdsp.Group
import Vdsp.Lib.Block
import Vdsp.Lib.System
import Mathlib.Data.Multiset.AddSub
import Mathlib.Logic.Function.Basic

/-!
# A buffer group in memory (`xrp_host_common.c`)

The `struct xrp_buffer_group` with the array at `group->buffer`, and the reference counts of the buffers, where
a count of 0 is a freed buffer.  A function is `none` where the code accesses a cell outside the array or one
that it has not stored to, or a freed object.

The clients call the functions in any order, on references that they own.  `owned` are the references to buffers
that they own; all references to the group are theirs.
-/

namespace Vdsp

open Memory Lts

/-- `sizeof(struct xrp_buffer_group_record)`: a pointer and an `enum`. -/
def Abi.sizeofRecord : Abi → Nat
  | ilp32 => 8
  | lp64 => 16

/-- An entry of a group. -/
abbrev GroupEntry := XrpBufferGroupRecord Nat

/-- The fields of `struct xrp_buffer_group`. -/
structure GroupMemory where
  nBuffers : Nat
  capacity : Nat
  buffer : Block GroupEntry
  deriving DecidableEq

structure GroupState where
  group : GroupMemory
  /-- `group->ref.count`, or 0 once the group is freed. -/
  ref : Nat
  /-- The reference counts of the buffers, which do not wrap around here. -/
  count : Nat → Nat
  owned : Multiset Nat

/-- `xrp_retain_buffer`. -/
def xrpRetainBuffer (count : Nat → Nat) (b : Nat) : Option (Nat → Nat) :=
  if count b = 0 then none else some (Function.update count b (count b + 1))

/-- `xrp_release_buffer`; the last release frees the buffer. -/
def xrpReleaseBuffer (count : Nat → Nat) (b : Nat) : Option (Nat → Nat) :=
  if count b = 0 then none else some (Function.update count b (count b - 1))

/-- `realloc` of the array, which may fail, and has to for more than `PTRDIFF_MAX` bytes. -/
def reallocRecords (a : Abi) (buffer : Block GroupEntry) (bytes : Nat) (ok : Bool) :
    Option (Block GroupEntry) :=
  if ok = true ∧ a.allocates bytes then some (realloc buffer (bytes / a.sizeofRecord)) else none

/-- The first part of `xrp_add_buffer_to_group`, which makes room. -/
def GroupMemory.reserve (a : Abi) (g : GroupMemory) (ok : Bool) : Option GroupMemory :=
  if g.nBuffers = g.capacity then
    let capacity := a.sizeT (a.sizeT (g.capacity + 2) * 2)
    match reallocRecords a g.buffer (a.sizeT (a.sizeofRecord * capacity)) ok with
    | none => none
    | some r => some { g with buffer := r, capacity := capacity }
  else some g

/-- `enum xrp_buffer_group_info`, and the values that are none of it. -/
inductive GroupInfo
  | bufferFlags
  | size
  | other
  deriving DecidableEq, Repr

/-- What `xrp_buffer_group_get_info` copies to `out`. -/
inductive GroupInfoValue
  | flags (flags : XrpAccessFlags)
  | size (n : Nat)
  deriving DecidableEq, Repr

/-- What a call returns: its status, and the index, the buffer or the value. -/
inductive GroupResult
  | added (status : XrpStatus) (n : Nat)
  | set (status : XrpStatus)
  | got (status : XrpStatus) (buffer : Option Nat)
  | info (status : XrpStatus) (value : Option GroupInfoValue)
  | done
  deriving DecidableEq, Repr

/-- The status of a call that has one. -/
def GroupResult.status : GroupResult → Option XrpStatus
  | added status _ | set status | got status _ | info status _ => some status
  | done => none

/-- `xrp_add_buffer_to_group`. -/
def GroupState.addBuffer (a : Abi) (s : GroupState) (b : Nat) (flags : XrpAccessFlags) (ok : Bool) :
    Option (GroupState × GroupResult) :=
  match s.group.reserve a ok with
  | none => some (s, .added .failure a.sizeMax)
  | some g =>
    (xrpRetainBuffer s.count b).bind fun count =>
      (store g.buffer g.nBuffers ⟨b, flags⟩).map fun buffer =>
        ({ s with
          group := { g with buffer := buffer, nBuffers := a.sizeT (g.nBuffers + 1) }
          count := count }, .added .success g.nBuffers)

/-- `xrp_set_buffer_in_group`. -/
def GroupState.setBuffer (s : GroupState) (index : Nat) (b : Nat) (flags : XrpAccessFlags) :
    Option (GroupState × GroupResult) :=
  (xrpRetainBuffer s.count b).bind fun count =>
    if index < s.group.nBuffers then
      (fetch s.group.buffer index).bind fun old =>
        (store s.group.buffer index ⟨b, flags⟩).bind fun buffer =>
          (xrpReleaseBuffer count old.buffer).map fun count =>
            ({ s with group := { s.group with buffer := buffer }, count := count }, .set .success)
    else (xrpReleaseBuffer count b).map fun count => ({ s with count := count }, .set .failure)

/-- `xrp_get_buffer_from_group`; the caller owns the reference it gets. -/
def GroupState.getBuffer (s : GroupState) (idx : Nat) : Option (GroupState × GroupResult) :=
  if idx < s.group.nBuffers then
    (fetch s.group.buffer idx).bind fun r =>
      (xrpRetainBuffer s.count r.buffer).map fun count =>
        ({ s with count := count, owned := r.buffer ::ₘ s.owned }, .got .success (some r.buffer))
  else some (s, .got .failure none)

/-- `sizeof(enum xrp_access_flags)`. -/
def sizeofXrpAccessFlags : Nat := 4

/-- `xrp_buffer_group_get_info`. -/
def GroupState.getInfo (a : Abi) (s : GroupState) (info : GroupInfo) (idx outSz : Nat) :
    Option (GroupState × GroupResult) :=
  match info with
  | .bufferFlags =>
    if s.group.nBuffers ≤ idx then some (s, .info .failure none)
    else if sizeofXrpAccessFlags = outSz then
      (fetch s.group.buffer idx).map fun r => (s, .info .success (some (.flags r.accessFlags)))
    else some (s, .info .failure none)
  | .size =>
    if a.sizeofSizeT = outSz then some (s, .info .success (some (.size s.group.nBuffers)))
    else some (s, .info .failure none)
  | .other => some (s, .info .failure none)

/-- `xrp_release_buffer_group`. -/
def GroupState.releaseGroup (s : GroupState) : Option (GroupState × GroupResult) :=
  if s.ref = 1 then
    (loop s.group.nBuffers (fun i count =>
      (fetch s.group.buffer i).bind fun r => xrpReleaseBuffer count r.buffer) s.count).map fun count =>
        ({ s with group := ⟨0, 0, []⟩, ref := 0, count := count }, .done)
  else some ({ s with ref := s.ref - 1 }, .done)

inductive GroupCall
  | add (b : Nat) (flags : XrpAccessFlags) (ok : Bool)
  | set (index b : Nat) (flags : XrpAccessFlags)
  | get (idx : Nat)
  | getInfo (info : GroupInfo) (idx outSz : Nat)
  | retainGroup
  | releaseGroup
  | retain (b : Nat)
  | release (b : Nat)
  deriving DecidableEq, Repr

/-- The clients own what they pass to the call. -/
def GroupState.owns (s : GroupState) : GroupCall → Prop
  | .add b _ _ | .set _ b _ => 0 < s.ref ∧ b ∈ s.owned
  | .get _ | .getInfo .. | .retainGroup | .releaseGroup => 0 < s.ref
  | .retain b | .release b => b ∈ s.owned

instance (s : GroupState) (c : GroupCall) : Decidable (s.owns c) := by
  cases c <;> unfold GroupState.owns <;> infer_instance

def GroupState.exec (a : Abi) (s : GroupState) : GroupCall → Option (GroupState × GroupResult)
  | .add b flags ok => s.addBuffer a b flags ok
  | .set index b flags => s.setBuffer index b flags
  | .get idx => s.getBuffer idx
  | .getInfo info idx outSz => s.getInfo a info idx outSz
  | .retainGroup => some ({ s with ref := s.ref + 1 }, .done)
  | .releaseGroup => s.releaseGroup
  | .retain b => (xrpRetainBuffer s.count b).map fun count =>
    ({ s with count := count, owned := b ::ₘ s.owned }, .done)
  | .release b => (xrpReleaseBuffer s.count b).map fun count =>
    ({ s with count := count, owned := s.owned - {b} }, .done)

/-- A new group, and buffers to which only the clients have references. -/
def GroupState.start (owned : Multiset Nat) : GroupState := ⟨⟨0, 0, []⟩, 1, fun b => owned.count b, owned⟩

/-- The calls with their results. -/
def groupCalls (a : Abi) : System GroupState (GroupCall × GroupResult) where
  init s := ∃ owned, s = .start owned
  step s l := if s.owns l.1 then (s.exec a l.1).bind fun r => if r.2 = l.2 then some r.1 else none else none

end Vdsp
