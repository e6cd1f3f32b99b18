import Vdsp.Ion
import Vdsp.Lib.Ownership
import Vdsp.Lib.System

/-!
# Who owns what of the ION memory

The functions that flush, invalidate and look up ION memory ask the device again: the static ones open it for
each call, and the others use the descriptor of the object.  Here all functions of ION memory run together: any
number of calls are in progress, and each system call is a step of its own.  Descriptors are reused as soon as
they are closed, so a function that closed one too many would take the memory of another handle.

The system gives away what is free, and answers as it wants; only the version of the ION interface stays.
-/

namespace Vdsp

open Lts Ownership Resource

/-- `MEMION_NO_ERROR`, `MEMION_NO_DEV`, `MEMION_OP_FAILED` and `MEMION_NOT_SUPPORTED`. -/
def memionNoError : Int := 0

def memionNoDev : Int := -1

def memionOpFailed : Int := -2

def memionNotSupported : Int := -3

/-- The requests of the functions below, with the fields of their data. -/
inductive IonRequest
  | version
  /-- `ION_IOC_CUSTOM`, with `ION_SPRD_CUSTOM_PHYS`, `_MSYNC`, `_INVALIDATE`, `_MAP_KERNEL` and `_UNMAP_KERNEL`. -/
  | customPhys (fdBuffer : Int)
  | customMsync (fdBuffer : Int) (vaddr paddr size : Nat)
  | customInvalidate (fdBuffer : Int)
  | customMapKernel (fdBuffer : Int)
  | customUnmapKernel (fdBuffer : Int)
  | sync (handle fd : Int)
  | phy (fd : Int)
  /-- `DMA_BUF_IOCTL_SYNC`, for reading only, or at the end of reading and writing. -/
  | dmaBufSyncRead
  | dmaBufSyncRwEnd
  deriving DecidableEq, Repr

inductive IonSyscall
  | event (e : Event IonResource)
  | ioctl (fd : Int) (request : IonRequest)
  deriving DecidableEq

/-- What an `ioctl` returns, and an address and a size that it may fill in. -/
structure IoctlAnswer where
  ret : Int
  addr : Nat
  size : Nat
  deriving DecidableEq, Repr

/-- The result, what is stored through the two pointers, and the system calls. -/
structure IonReply where
  ret : Int
  out : Option (Nat × Nat)
  syscalls : List IonSyscall

inductive IonOp
  | phyAddr
  | flush (vAddr pAddr size : Nat)
  | invalid
  | sync
  | kaddr
  | freeKaddr
  deriving DecidableEq, Repr

namespace IonOp

/-- The request to the device in the legacy interface. -/
def legacyRequest (handle fd : Int) : IonOp → IonRequest
  | phyAddr => .customPhys fd
  | flush vAddr pAddr size => .customMsync fd vAddr pAddr size
  | invalid => .customInvalidate fd
  | sync => .sync handle fd
  | kaddr => .customMapKernel fd
  | freeKaddr => .customUnmapKernel fd

/-- The request in the new interface, to the device or to the buffer. -/
def newRequest (device fd : Int) : IonOp → Option (Int × IonRequest)
  | phyAddr => some (device, .phy fd)
  | flush .. | sync => some (fd, .dmaBufSyncRwEnd)
  | invalid => some (fd, .dmaBufSyncRead)
  | kaddr | freeKaddr => none

/-- The function has two pointers for an address and a size. -/
def hasOut : IonOp → Bool
  | phyAddr | kaddr => true
  | flush .. | invalid | sync | freeKaddr => false

def request (op : IonOp) (legacy : Bool) (device handle fd : Int) (answer : IoctlAnswer) : IonReply :=
  let done : Int × IonRequest → IonReply := fun r =>
    { ret := if answer.ret ≠ 0 then memionOpFailed else memionNoError
      out := if op.hasOut then some (answer.addr, answer.size) else none
      syscalls := [.ioctl r.1 r.2] }
  if legacy then done (device, op.legacyRequest handle fd)
  else (op.newRequest device fd).elim ⟨memionNotSupported, none, []⟩ done

/-- The static functions: the device is opened and closed again. -/
def static (op : IonOp) (legacy : Bool) (openFd : Option Nat) (answer : IoctlAnswer) (bufferFd : Int) : IonReply :=
  match openFd with
  | none => ⟨memionNoDev, none, []⟩
  | some fd =>
    let reply := op.request legacy fd (-1) bufferFd answer
    { reply with
      syscalls := .event (.acquire (.fd fd)) :: .ioctl fd .version :: reply.syscalls ++ [.event (.release (.fd fd))] }

/-- The functions of an object. -/
def member (op : IonOp) (legacy : Bool) (answer : IoctlAnswer) (ion : VdspIon) : IonReply :=
  if ion.mIonDeviceFd < 0 then ⟨memionNoDev, none, []⟩
  else
    let reply := op.request legacy ion.mIonDeviceFd ion.mIonHandle ion.mFD answer
    { reply with syscalls := .ioctl ion.mIonDeviceFd .version :: reply.syscalls }

end IonOp

namespace VdspIon

variable (legacy : Bool) (openFd : Option Nat) (answer : IoctlAnswer)

/-- `VdspIon::Get_phy_addr_from_ion` and the other functions with a descriptor. -/
def staticGetPhyAddrFromIon (bufferFd : Int) : IonReply := IonOp.phyAddr.static legacy openFd answer bufferFd

def staticFlushIonBuffer (bufferFd : Int) (vAddr pAddr size : Nat) : IonReply :=
  (IonOp.flush vAddr pAddr size).static legacy openFd answer bufferFd

def staticInvalidIonBuffer (bufferFd : Int) : IonReply := IonOp.invalid.static legacy openFd answer bufferFd

def staticSyncIonBuffer (bufferFd : Int) : IonReply := IonOp.sync.static legacy openFd answer bufferFd

def staticGetKaddr (bufferFd : Int) : IonReply := IonOp.kaddr.static legacy openFd answer bufferFd

def staticFreeKaddr (bufferFd : Int) : IonReply := IonOp.freeKaddr.static legacy openFd answer bufferFd

/-- `VdspIon::get_phy_addr_from_ion` and the other functions of an object. -/
def getPhyAddrFromIon (ion : VdspIon) : IonReply := IonOp.phyAddr.member legacy answer ion

/-- The addresses are looked at in the legacy interface only. -/
def flushIonBuffer (abi : Abi) (ion : VdspIon) (vAddr pAddr size : Nat) : IonReply :=
  let base : Nat := ion.mBase.getD 0
  if 0 ≤ ion.mIonDeviceFd ∧ legacy = true ∧
      (vAddr < base ∨ abi.sizeT (base + ion.mSize) < abi.sizeT (vAddr + size)) then
    ⟨-3, none, [.ioctl ion.mIonDeviceFd .version]⟩
  else (IonOp.flush vAddr pAddr size).member legacy answer ion

def invalidIonBuffer (ion : VdspIon) : IonReply := IonOp.invalid.member legacy answer ion

def syncIonBuffer (ion : VdspIon) : IonReply := IonOp.sync.member legacy answer ion

def getKaddr (ion : VdspIon) : IonReply := IonOp.kaddr.member legacy answer ion

def freeKaddr (ion : VdspIon) : IonReply := IonOp.freeKaddr.member legacy answer ion

end VdspIon

/-- What `sprd_flush_ionmem` and `sprd_invalid_ionmem` make of the reply. -/
def IonReply.status (r : IonReply) : SprdVdspStatus := if r.ret = 0 then .success else .failure

/-- `sprd_flush_ionmem` and `vdsp_flush_ionmem`. -/
def flushIonmem (legacy : Bool) (openFd : Option Nat) (answer : IoctlAnswer) (handle : Option VdspIon)
    (vaddr paddr : Nat) (size : BitVec 32) : SprdVdspStatus × List IonSyscall :=
  match handle with
  | some ion =>
    let reply := VdspIon.staticFlushIonBuffer legacy openFd answer ion.mFD vaddr paddr size.toNat
    (reply.status, reply.syscalls)
  | none => (.failure, [])

/-- `sprd_invalid_ionmem` and `vdsp_invalid_ionmem`. -/
def invalidIonmem (legacy : Bool) (openFd : Option Nat) (answer : IoctlAnswer) (handle : Option VdspIon) :
    SprdVdspStatus × List IonSyscall :=
  match handle with
  | some ion =>
    let reply := VdspIon.staticInvalidIonBuffer legacy openFd answer ion.mFD
    (reply.status, reply.syscalls)
  | none => (.failure, [])

/-- `sprd_alloc_ionmem2` and `vdsp_alloc_ionmem2`, with `ION_HEAP_ID_MASK_CAM` and what is stored to `*phyaddr`. -/
def allocIonmem2 (p : IonPlatform) (heapIdMaskCam : BitVec 32) (env : IonAnswers) (size : BitVec 32)
    (iscache : BitVec 8) (answer : IoctlAnswer) : IonMem × Option Nat × List IonSyscall :=
  let (ion, events) :=
    if iscache ≠ 0 then
      vdspIon p env (size.setWidth _) 0 (VdspIon.cached ||| heapIdMaskCam ||| p.flagNoClear)
    else vdspIon p env (size.setWidth _) VdspIon.noCaching (heapIdMaskCam ||| p.flagNoClear)
  let reply := ion.getPhyAddrFromIon env.legacy answer
  (⟨some ion, ion.mFD, ion.mBase⟩, reply.out.map Prod.fst, events.map IonSyscall.event ++ reply.syscalls)

/-! ### All calls together -/

/-- What a call does with a handle: one of the functions of the handle, of its descriptor or of its object. -/
inductive IonUse
  | flushIonmem (openFd : Option Nat) (answer : IoctlAnswer) (vaddr paddr : Nat) (size : BitVec 32)
  | invalidIonmem (openFd : Option Nat) (answer : IoctlAnswer)
  | static (op : IonOp) (openFd : Option Nat) (answer : IoctlAnswer)
  | member (op : IonOp) (answer : IoctlAnswer)
  deriving DecidableEq, Repr

def IonUse.syscalls (p : IonPlatform) (legacy : Bool) (ion : VdspIon) : IonUse → List IonSyscall
  | flushIonmem openFd answer vaddr paddr size =>
    (Vdsp.flushIonmem legacy openFd answer (some ion) vaddr paddr size).2
  | invalidIonmem openFd answer => (Vdsp.invalidIonmem legacy openFd answer (some ion)).2
  | static op openFd answer =>
    let reply :=
      match op with
      | .phyAddr => VdspIon.staticGetPhyAddrFromIon legacy openFd answer ion.mFD
      | .flush vAddr pAddr size => VdspIon.staticFlushIonBuffer legacy openFd answer ion.mFD vAddr pAddr size
      | .invalid => VdspIon.staticInvalidIonBuffer legacy openFd answer ion.mFD
      | .sync => VdspIon.staticSyncIonBuffer legacy openFd answer ion.mFD
      | .kaddr => VdspIon.staticGetKaddr legacy openFd answer ion.mFD
      | .freeKaddr => VdspIon.staticFreeKaddr legacy openFd answer ion.mFD
    reply.syscalls
  | member op answer =>
    let reply :=
      match op with
      | .phyAddr => ion.getPhyAddrFromIon legacy answer
      | .flush vAddr pAddr size => ion.flushIonBuffer legacy answer p.abi vAddr pAddr size
      | .invalid => ion.invalidIonBuffer legacy answer
      | .sync => ion.syncIonBuffer legacy answer
      | .kaddr => ion.getKaddr legacy answer
      | .freeKaddr => ion.freeKaddr legacy answer
    reply.syscalls

inductive IonCall
  /-- `new` gives the address of the object. -/
  | alloc (handle : Addr) (env : IonAnswers) (size : BitVec 32) (iscache : BitVec 8)
  | alloc2 (handle : Addr) (heapIdMaskCam : BitVec 32) (env : IonAnswers) (size : BitVec 32) (iscache : BitVec 8)
      (answer : IoctlAnswer)
  | use (handle : Option Addr) (use : IonUse)
  | free (handle : Option Addr)
  /-- The next system call of the call `i`, and its return. -/
  | next (i : Nat)
  | finish (i : Nat)

/-- What an object has, as its members tell. -/
def VdspIon.resources (legacy : Bool) (ion : VdspIon) : List IonResource :=
  (if ion.mSize = 0 then [] else [.mapping ion.mBase ion.mSize]) ++
    (if ion.mIonDeviceFd > 0 then
      (if legacy then [.handle ion.mIonDeviceFd ion.mIonHandle] else []) ++ [.fd ion.mIonDeviceFd]
    else []) ++
    if ion.mFD ≥ 0 then [.fd ion.mFD] else []

/-- An `ioctl` uses the descriptor, if it is one. -/
def IonSyscall.acts : IonSyscall → List (Act IonResource)
  | event e => [.event e]
  | ioctl fd _ => if 0 ≤ fd then [.use (.fd fd)] else []

/-- The objects of the handles, with their addresses. -/
abbrev IonState := State IonResource (Addr × VdspIon)

namespace IonState

/-- Memory that is allocated is at no object's address. -/
def fresh (s : IonState) (a : Addr) : Bool :=
  s.live.all (fun x => x.1 ≠ a) && s.calls.all fun c => c.leaves.all fun x => x.1 ≠ a

def object (s : IonState) (a : Addr) : Option (Addr × VdspIon) := s.live.find? fun x => x.1 = a

def step (p : IonPlatform) (legacy : Bool) (s : IonState) : IonCall → Option IonState
  | .alloc a env size iscache =>
    let r := allocIonmem p { env with legacy := legacy } size iscache
    if s.fresh a then
      some (s.enter ⟨[], r.2.map Act.event, none, r.1.handle.map fun ion => (a, ion)⟩)
    else none
  | .alloc2 a heapIdMaskCam env size iscache answer =>
    let r := allocIonmem2 p heapIdMaskCam { env with legacy := legacy } size iscache answer
    if s.fresh a then
      some (s.enter ⟨[], r.2.2.flatMap IonSyscall.acts, none, r.1.handle.map fun ion => (a, ion)⟩)
    else none
  | .use none _ | .free none => some s
  | .use (some a) use =>
    match s.object a with
    | some x => some (s.enter ⟨[], (use.syscalls p legacy x.2).flatMap IonSyscall.acts, some x, none⟩)
    | none => some { s with fault := true }
  | .free (some a) =>
    match s.object a with
    | some x =>
      let events := (freeIonmem legacy (some x.2)).1
      some ({ s with live := s.live.erase x }.enter ⟨x.2.resources legacy, events.map Act.event, none, none⟩)
    | none => some { s with fault := true }
  | .next i => s.next i
  | .finish i => s.finish i

end IonState

def ionCalls (p : IonPlatform) (legacy : Bool) : System IonState IonCall where
  init s := s = .start
  step := IonState.step p legacy

/-- The system does not open the device with the descriptor 0, and clients pass handles that they have, and free
none that a call uses. -/
def keepsIonHandles (s : IonState) : IonCall → Prop
  | .alloc _ env .. | .alloc2 _ _ env .. => env.openFd ≠ some 0
  | .use (some a) _ => (s.object a).isSome
  | .free (some a) => (s.object a).isSome ∧ ∀ c ∈ s.calls, c.lent ≠ s.object a
  | .use none _ | .free none | .next _ | .finish _ => True

instance (s : IonState) : (e : IonCall) → Decidable (keepsIonHandles s e)
  | .alloc .. | .alloc2 .. => inferInstanceAs (Decidable (_ ≠ _))
  | .use (some _) _ => inferInstanceAs (Decidable (_ = true))
  | .free (some _) => inferInstanceAs (Decidable (_ ∧ _))
  | .use none _ | .free none | .next _ | .finish _ => inferInstanceAs (Decidable True)

/-- The object of a handle has all its memory, in whole pages that are mapped, or nothing. -/
def VdspIon.Backed (p : IonPlatform) (ion : VdspIon) : Prop :=
  ion = .initial ∨
    0 < ion.mIonDeviceFd ∧ 0 ≤ ion.mFD ∧ ion.mBase.isSome = true ∧ ion.mSize ≠ 0 ∧ p.pagesize ∣ ion.mSize

/-- Nothing is released or used that is not held; what is held is what the calls in progress and the objects have,
and nothing belongs to two of them; and each object has all its memory or nothing. -/
structure IonOwned (p : IonPlatform) (legacy : Bool) (s : IonState) : Prop where
  owned : Owned (fun x => x.2.resources legacy) s
  backed : ∀ x ∈ s.live, x.2.Backed p

/-! ### The calls are sound -/

variable {p : IonPlatform} {legacy : Bool}

theorem VdspIon.destroy_eq_map (legacy : Bool) (ion : VdspIon) :
    ion.destroy legacy = (ion.resources legacy).map Event.release := by
  simp only [VdspIon.destroy, VdspIon.resources, munmap, List.map_append, List.append_assoc, apply_ite (List.map _),
    List.map_cons, List.map_nil]

/-- The constructor leaves what the object has, and the members are those of an object with memory or without. -/
private theorem vdspIon_sound {env : IonAnswers} {size : p.SizeT} {flags memoryType : BitVec 32} {ion : VdspIon}
    {events : IonEvents} (he : vdspIon p env size flags memoryType = (ion, events))
    (hmap : flags &&& VdspIon.dontMapLocally = 0) (hdevice : env.openFd ≠ some 0) :
    Sound [] (ion.resources env.legacy) [] (events.map Act.event) ∧ ion.Backed p := by
  by_cases hmakes : env.Makes p (pageAlign p size) flags memoryType
  · obtain ⟨device, hopen, h⟩ := vdspIon_makes hmakes
    have hpos : (0 : Int) < device := by
      have : device ≠ 0 := by
        rintro rfl
        exact hdevice hopen
      omega
    have hpage := (pageAlign_spec p size).1
    cases hlegacy : env.legacy with
    | true =>
      simp only [hlegacy, if_true, hmap] at h
      obtain ⟨handle, fd, base, hlen, he'⟩ := h
      cases he.symm.trans he'
      refine ⟨sound_of_replay rfl ?_, .inr ⟨hpos, Int.natCast_nonneg fd, rfl, hlen, hpage⟩⟩
      simp only [VdspIon.resources, hlen, hpos, if_true, if_false, Int.natCast_nonneg, ge_iff_le]
      have hmove := List.perm_append_singleton (IonResource.fd fd) [.handle device handle, .fd device]
      exact .cons _ hmove.symm
    | false =>
      simp only [hlegacy, Bool.false_eq_true, if_false] at h
      obtain ⟨fd, base, hlen, he'⟩ := h
      cases he.symm.trans he'
      refine ⟨sound_of_replay rfl ?_, .inr ⟨hpos, Int.natCast_nonneg fd, rfl, hlen, hpage⟩⟩
      simp only [VdspIon.resources, hlen, hpos, if_true, if_false, Int.natCast_nonneg, ge_iff_le]
      exact .cons _ (.swap ..)
  · obtain ⟨events', he', hclean⟩ := vdspIon_fails hmakes
    cases he.symm.trans he'
    exact ⟨sound_of_replay hclean (by simp [VdspIon.resources, VdspIon.initial]), .inl rfl⟩

/-- A descriptor is asked that the call has opened, or that the object has. -/
private theorem request_sound (op : IonOp) (legacy : Bool) (handle : Int) (answer : IoctlAnswer) {device fd : Int}
    {lent final own : List IonResource} {rest : List (Act IonResource)}
    (hdevice : 0 ≤ device → .fd device ∈ own ∨ .fd device ∈ lent) (hfd : 0 ≤ fd → .fd fd ∈ own ∨ .fd fd ∈ lent)
    (hrest : Sound lent final own rest) :
    Sound lent final own ((op.request legacy device handle fd answer).syscalls.flatMap IonSyscall.acts ++ rest) := by
  have hioctl : ∀ (n : Int) (request : IonRequest), (0 ≤ n → .fd n ∈ own ∨ .fd n ∈ lent) →
      Sound lent final own ([IonSyscall.ioctl n request].flatMap IonSyscall.acts ++ rest) := by
    intro n request hn
    by_cases h0 : 0 ≤ n
    · simpa [IonSyscall.acts, h0] using ⟨hn h0, hrest⟩
    · simpa [IonSyscall.acts, h0] using hrest
  unfold IonOp.request
  cases legacy with
  | true => exact hioctl device _ hdevice
  | false =>
    cases op with
    | phyAddr => exact hioctl device _ hdevice
    | flush | invalid | sync => exact hioctl fd _ hfd
    | kaddr | freeKaddr => exact hrest

/-- The static functions use the descriptor that they open, and the one that they get. -/
private theorem static_sound {op : IonOp} {openFd : Option Nat} {answer : IoctlAnswer} {fd : Int}
    {lent : List IonResource} (hfd : 0 ≤ fd → .fd fd ∈ lent) :
    Sound lent [] [] ((op.static legacy openFd answer fd).syscalls.flatMap IonSyscall.acts) := by
  cases openFd with
  | none => exact .refl _
  | some n =>
    have hclose : Sound lent [] [IonResource.fd n] [.event (.release (.fd n))] := by
      refine ⟨List.mem_cons_self, ?_⟩
      simp [Sound]
    have hown : IonResource.fd n ∈ [IonResource.fd n] := List.mem_cons_self
    have h := request_sound op legacy (-1) answer (fun _ => .inl hown)
      (fun h => .inr (hfd h)) hclose
    simp only [IonOp.static, List.cons_append, List.flatMap_cons, List.flatMap_append, List.flatMap_nil,
      IonSyscall.acts, Int.natCast_nonneg, if_true, List.nil_append, List.append_nil]
    exact ⟨.inl hown, h⟩

private theorem mem_resources_fd {ion : VdspIon} (h : 0 ≤ ion.mFD) : .fd ion.mFD ∈ ion.resources legacy := by
  simp [VdspIon.resources, h]

private theorem mem_resources_device {ion : VdspIon} (hb : ion.Backed p) (h : 0 ≤ ion.mIonDeviceFd) :
    .fd ion.mIonDeviceFd ∈ ion.resources legacy := by
  rcases hb with rfl | ⟨hpos, -⟩
  · simp [VdspIon.initial] at h
  · simp [VdspIon.resources, hpos]

/-- The functions of an object use the descriptors of the object. -/
private theorem member_sound {op : IonOp} {answer : IoctlAnswer} {ion : VdspIon}
    {lent final own : List IonResource} (hb : ion.Backed p)
    (hhas : ∀ r ∈ ion.resources legacy, r ∈ own ∨ r ∈ lent) (hfinal : own.Perm final) :
    Sound lent final own ((op.member legacy answer ion).syscalls.flatMap IonSyscall.acts) := by
  unfold IonOp.member
  split
  · exact hfinal
  · have hdevice : .fd ion.mIonDeviceFd ∈ own ∨ .fd ion.mIonDeviceFd ∈ lent :=
      hhas _ (mem_resources_device hb (by omega))
    have hend : Sound lent final own [] := hfinal
    have h := request_sound op legacy ion.mIonHandle answer (fun _ => hdevice)
      (fun h => hhas _ (mem_resources_fd h)) hend
    rw [List.append_nil] at h
    rw [List.flatMap_cons, IonSyscall.acts, if_pos (by omega)]
    exact ⟨hdevice, h⟩

private theorem use_sound {use : IonUse} {ion : VdspIon} (hb : ion.Backed p) :
    Sound (ion.resources legacy) [] [] ((use.syscalls p legacy ion).flatMap IonSyscall.acts) := by
  have hfd : 0 ≤ ion.mFD → .fd ion.mFD ∈ ion.resources legacy := fun h => mem_resources_fd h
  have hhas : ∀ r ∈ ion.resources legacy, r ∈ [] ∨ r ∈ ion.resources legacy := fun _ h => .inr h
  cases use with
  | flushIonmem | invalidIonmem => exact static_sound hfd
  | static op =>
    cases op with
    | phyAddr | flush | invalid | sync | kaddr | freeKaddr => exact static_sound hfd
  | member op answer =>
    cases op with
    | phyAddr | invalid | sync | kaddr | freeKaddr => exact member_sound hb hhas (.refl _)
    | flush vAddr pAddr size =>
      simp only [IonUse.syscalls, VdspIon.flushIonBuffer]
      split
      · rename_i h
        rw [List.flatMap_singleton, IonSyscall.acts, if_pos h.1]
        exact ⟨.inr (mem_resources_device hb h.1), .refl _⟩
      · exact member_sound hb hhas (.refl _)

/-! ### The steps keep the owners -/

structure IonInv (p : IonPlatform) (legacy : Bool) (s : IonState) : Prop where
  owned : Owned (fun x => x.2.resources legacy) s
  made : Made (fun x => x.2.Backed p) s

variable {s s' : IonState}

private theorem mem_of_object {a : Addr} {x : Addr × VdspIon} (h : s.object a = some x) : x ∈ s.live :=
  List.mem_of_find?_eq_some h

private theorem IonInv.enter (hi : IonInv p legacy s) {c : Call IonResource (Addr × VdspIon)} (hown : c.own = [])
    (hlent : ∀ x, c.lent = some x → x ∈ s.live) (hleaves : ∀ x, c.leaves = some x → x.2.Backed p)
    (hsound : Sound (ofObject (fun x => x.2.resources legacy) c.lent)
      (ofObject (fun x => x.2.resources legacy) c.leaves) [] c.rest) : IonInv p legacy (s.enter c) :=
  ⟨hi.owned.enter hown hlent hsound, hi.made.enter hleaves⟩

private theorem IonInv.alloc (hi : IonInv p legacy s) (a : Addr) {env : IonAnswers} (size : BitVec 32)
    (iscache : BitVec 8) (hdevice : env.openFd ≠ some 0) :
    let r := allocIonmem p { env with legacy := legacy } size iscache
    IonInv p legacy (s.enter ⟨[], r.2.map Act.event, none, r.1.handle.map fun ion => (a, ion)⟩) := by
  obtain ⟨ion, events, hion, halloc⟩ := allocIonmem_eq p { env with legacy := legacy } size iscache
  have hmap : (if iscache ≠ 0 then (0 : BitVec 32) else VdspIon.noCaching) &&& VdspIon.dontMapLocally = 0 := by
    split <;> decide
  obtain ⟨hsound, hbacked⟩ := vdspIon_sound hion hmap hdevice
  simp only [halloc]
  refine hi.enter rfl nofun (fun x hx => ?_) hsound
  cases hx
  exact hbacked

private theorem IonInv.alloc2 (hi : IonInv p legacy s) (a : Addr) (heapIdMaskCam : BitVec 32) {env : IonAnswers}
    (size : BitVec 32) (iscache : BitVec 8) (answer : IoctlAnswer) (hdevice : env.openFd ≠ some 0) :
    let r := allocIonmem2 p heapIdMaskCam { env with legacy := legacy } size iscache answer
    IonInv p legacy (s.enter ⟨[], r.2.2.flatMap IonSyscall.acts, none, r.1.handle.map fun ion => (a, ion)⟩) := by
  have hcall : ∀ flags memoryType : BitVec 32, flags &&& VdspIon.dontMapLocally = 0 →
      let r := vdspIon p { env with legacy := legacy } (size.setWidth _) flags memoryType
      let syscalls := r.2.map IonSyscall.event ++ (r.1.getPhyAddrFromIon legacy answer).syscalls
      IonInv p legacy (s.enter ⟨[], syscalls.flatMap IonSyscall.acts, none, some (a, r.1)⟩) := by
    intro flags memoryType hmap
    rcases he : vdspIon p { env with legacy := legacy } (size.setWidth _) flags memoryType with ⟨ion, events⟩
    obtain ⟨hsound, hbacked⟩ := vdspIon_sound he hmap hdevice
    refine hi.enter rfl nofun (fun x hx => ?_) ?_
    · cases hx
      exact hbacked
    · have hevents : (events.map IonSyscall.event).flatMap IonSyscall.acts = events.map Act.event := by
        rw [List.flatMap_map, List.map_eq_flatMap]
        rfl
      rw [List.flatMap_append, hevents]
      exact hsound.append fun own hown => member_sound hbacked (fun r hr => .inl (hown.mem_iff.2 hr)) hown
  simp only [allocIonmem2]
  split
  · exact hcall _ _ (by decide)
  · exact hcall _ _ (by decide)

private theorem IonInv.use (hi : IonInv p legacy s) {a : Addr} {x : Addr × VdspIon} (hx : s.object a = some x)
    (use : IonUse) :
    IonInv p legacy (s.enter ⟨[], (use.syscalls p legacy x.2).flatMap IonSyscall.acts, some x, none⟩) := by
  have hmem := mem_of_object hx
  refine hi.enter rfl (fun y hy => ?_) nofun (use_sound (hi.made.live x hmem))
  cases hy
  exact hmem

private theorem IonInv.free (hi : IonInv p legacy s) {a : Addr} {x : Addr × VdspIon} (hx : s.object a = some x)
    (hfree : ∀ c ∈ s.calls, c.lent ≠ some x) :
    IonInv p legacy ({ s with live := s.live.erase x }.enter
      ⟨x.2.resources legacy, (freeIonmem legacy (some x.2)).1.map Act.event, none, none⟩) := by
  have hmem := mem_of_object hx
  refine ⟨hi.owned.leave hmem hfree rfl rfl ?_, (hi.made.leave x).enter nofun⟩
  rw [freeIonmem, VdspIon.destroy_eq_map, List.map_map]
  exact sound_releases (.refl _)

theorem IonInv.step {e : IonCall} (hi : IonInv p legacy s) (hok : keepsIonHandles s e)
    (hs : (ionCalls p legacy).step s e = some s') : IonInv p legacy s' := by
  simp only [ionCalls] at hs
  cases e with
  | alloc a env size iscache =>
    simp only [IonState.step, Option.ite_none_right_eq_some, Option.some.injEq] at hs
    obtain ⟨-, rfl⟩ := hs
    exact hi.alloc a size iscache hok
  | alloc2 a cam env size iscache answer =>
    simp only [IonState.step, Option.ite_none_right_eq_some, Option.some.injEq] at hs
    obtain ⟨-, rfl⟩ := hs
    exact hi.alloc2 a cam size iscache answer hok
  | use handle use =>
    cases handle with
    | none =>
      cases hs
      exact hi
    | some a =>
      obtain ⟨x, hx⟩ := Option.isSome_iff_exists.1 hok
      simp only [IonState.step, hx, Option.some.injEq] at hs
      subst hs
      exact hi.use hx use
  | free handle =>
    cases handle with
    | none =>
      cases hs
      exact hi
    | some a =>
      obtain ⟨hobj, hfree⟩ := hok
      obtain ⟨x, hx⟩ := Option.isSome_iff_exists.1 hobj
      simp only [IonState.step, hx, Option.some.injEq] at hs
      subst hs
      rw [hx] at hfree
      exact hi.free hx hfree
  | next i => exact ⟨hi.owned.next hs, hi.made.next hs⟩
  | finish i => exact ⟨hi.owned.finish hs, hi.made.finish hs⟩

/-- In every run of any number of calls, however their system calls are interleaved, the resources of the process
are those of the objects and of the calls in progress. -/
theorem ion_owned (hr : Reach (ionCalls p legacy) keepsIonHandles s) : IonOwned p legacy s := by
  have hi : IonInv p legacy s := by
    induction hr with
    | @start s h0 =>
      rw [show s = .start from h0]
      exact ⟨.start, nofun, nofun⟩
    | step _ hok hs ih => exact ih.step hok hs
  exact ⟨hi.owned, hi.made.live⟩

/-- The device with other descriptors, for a second handle. -/
def moreIon : IonAnswers :=
  { someIon with openFd := some 6, newAlloc := fun _ => some 7, mapped := fun _ _ => some 0x9000 }

/-- Memory is flushed while more is allocated; then the first handle is freed, and its descriptors are given to a
third one. -/
def reusesFds : List IonCall :=
  [.alloc 100 someIon 100 0, .next 0, .next 0, .next 0, .finish 0,
   .use (some 100) (.flushIonmem (some 5) ⟨0, 0, 0⟩ 0x7000 0 100), .next 0, .alloc 200 moreIon 5000 1, .next 1,
   .next 0, .next 1, .next 0, .next 1, .next 0, .finish 0, .finish 0, .free (some 100), .next 0, .next 0, .next 0,
   .finish 0,
   .alloc2 300 4 someIon 100 0 ⟨0, 0x80000000, 4096⟩, .next 0, .next 0, .next 0, .next 0, .next 0, .finish 0]

theorem ion_owned_reusesFds :
    ∃ s, (ionCalls lp64Platform false).exec keepsIonHandles .start reusesFds = some s ∧
      s.live.map (fun x => (x.1, x.2.mFD)) = [(300, 4), (200, 7)] ∧ s.held.length = 6 ∧
      IonOwned lp64Platform false s := by
  obtain ⟨s, hs, hr, hend⟩ := Reach.exists_exec (ionCalls lp64Platform false) keepsIonHandles .start reusesFds
    (fun s => s.live.map (fun x => (x.1, x.2.mFD)) = [(300, 4), (200, 7)] ∧ s.held.length = 6) rfl
    (by decide +kernel)
  obtain ⟨hlive, hheld⟩ := of_decide_eq_true hend
  exact ⟨s, hs, hlive, hheld, ion_owned hr⟩

end Vdsp
