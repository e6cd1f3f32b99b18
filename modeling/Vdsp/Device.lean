import Vdsp.Command.Path
import Vdsp.Lib.System
import Mathlib.Data.Finset.Insert
import Mathlib.Data.Finset.Erase
import Mathlib.Data.Finset.Basic
import Mathlib.Logic.Function.Basic

/-!
# Devices and their descriptors

The two ways of opening a device, the release, and the commands as far as the descriptor they act on goes.  A
device of `xrp_open_device` wraps one of `xrp_open_device_newmode`: the address of that one is split over the
two words of the union that a new-mode device uses for its descriptor.  The release puts the address together
again; the commands and the power hint take the first word for the descriptor.

Allocated addresses and the results of `open` are in the events.  `owned` counts the references to a device that
clients and their queues and buffers hold, and `made` is the descriptor that `open` returned for it.
-/

namespace Vdsp

open Lts

/-- The address of a device. -/
abbrev DevicePtr := BitVec 64

/-- The two words that `sprd_cavdsp_open_device` makes of an address. -/
def splitPtr (p : DevicePtr) : VdspHandle := ⟨(p.extractLsb' 0 32).toInt, p.extractLsb' 32 32⟩

/-- The address that `sprd_cavdsp_close_device` makes of the two words. -/
def joinPtr (h : VdspHandle) : DevicePtr := h.generation ++ BitVec.ofInt 32 h.fd

theorem joinPtr_splitPtr (p : DevicePtr) : joinPtr (splitPtr p) = p := by
  unfold joinPtr splitPtr
  rw [BitVec.ofInt_toInt]
  ext i hi
  rw [BitVec.getElem_append]
  split
  · simp [BitVec.getLsbD_eq_getElem hi]
  · simp [show 32 + (i - 32) = i by omega, BitVec.getLsbD_eq_getElem hi]

/-- An `xrp_device` with its reference count, which does not wrap around here. -/
structure CountedDevice where
  device : XrpDevice
  count : Nat
  deriving DecidableEq

structure DeviceHost where
  heap : DevicePtr → Option CountedDevice
  openFds : Finset Int
  /-- Every `ioctl`, with the descriptor that was opened for the device of the command. -/
  log : List (Int × Ioctl)
  /-- A freed device was used, or a closed descriptor closed. -/
  fault : Bool
  owned : DevicePtr → Nat
  made : DevicePtr → Int

/-- `close`. -/
def DeviceHost.close (s : DeviceHost) (fd : Int) : DeviceHost :=
  if fd ∈ s.openFds then { s with openFds := s.openFds.erase fd } else { s with fault := true }

def DeviceHost.store (s : DeviceHost) (p : DevicePtr) (d : Option CountedDevice) : DeviceHost :=
  { s with heap := Function.update s.heap p d }

/-- `xrp_open_device_newmode`, where `open` gives `fd` and `alloc_refcounted` gives `p`. -/
def xrpOpenDeviceNewmode (s : DeviceHost) (type : XrpOpenType) (fd : Option Int) (p : Option DevicePtr) :
    DeviceHost × Option DevicePtr :=
  match type, fd with
  | .max, _ | _, none => (s, none)
  | _, some fd =>
    let s := { s with openFds := insert fd s.openFds }
    match p with
    | none => (s.close fd, none)
    | some p => (s.store p (some ⟨⟨⟨fd, 0⟩, .newmode⟩, 1⟩), some p)

/-- `sprd_vdsp_open_device`. -/
def sprdVdspOpenDevice (s : DeviceHost) (type : SprdVdspWorktype) (fd : Option Int) (p : Option DevicePtr) :
    DeviceHost × Option DevicePtr :=
  match type with
  | .normal => xrpOpenDeviceNewmode s .normal fd p
  | .faceid => xrpOpenDeviceNewmode s .faceid fd p
  | .maxtype => (s, none)

/-- `sprd_cavdsp_open_device`. -/
def sprdCavdspOpenDevice (s : DeviceHost) (type : SprdVdspWorktype) (fd : Option Int) (p : Option DevicePtr) :
    DeviceHost × Option VdspHandle :=
  let (s, hnddev) := sprdVdspOpenDevice s type fd p
  (s, hnddev.map splitPtr)

/-- `translate_opentype`. -/
def translateOpentype : XrpOpenType → SprdVdspWorktype
  | .normal => .normal
  | .faceid => .faceid
  | .max => .maxtype

/-- `xrp_open_device`; `inner` and `outer` are the addresses of the new-mode device and of its wrapper. -/
def xrpOpenDevice (s : DeviceHost) (type : XrpOpenType) (fd : Option Int) (inner outer : Option DevicePtr) :
    DeviceHost × Option DevicePtr :=
  match sprdCavdspOpenDevice s (translateOpentype type) fd inner with
  | (s, none) => (s, none)
  | (s, some handle) =>
    match outer with
    | none => (s, none)
    | some p => (s.store p (some ⟨⟨handle, .normal⟩, 1⟩), some p)

/-- `sprd_cavdsp_close_device`, with `sprd_vdsp_release_device` as an argument. -/
def sprdCavdspCloseDevice (release : DeviceHost → DevicePtr → DeviceHost) (s : DeviceHost) (handle : VdspHandle) :
    DeviceHost :=
  if joinPtr handle = 0 then s else release s (joinPtr handle)

/-- `xrp_impl_release_device`. -/
def xrpImplReleaseDevice (release : DeviceHost → DevicePtr → DeviceHost) (s : DeviceHost) (device : XrpDevice) :
    DeviceHost :=
  match device.type with
  | .normal => sprdCavdspCloseDevice release s device.impl
  | .newmode => s.close device.implFd

/-- `xrp_release_device`; the first argument bounds how deep wrapped devices are nested. -/
def xrpReleaseDevice : Nat → DeviceHost → DevicePtr → DeviceHost
  | 0, s, _ => { s with fault := true }
  | n + 1, s, p =>
    match s.heap p with
    | none => { s with fault := true }
    | some d =>
      let s := s.store p (some { d with count := d.count - 1 })
      if d.count = 1 then (xrpImplReleaseDevice (xrpReleaseDevice n) s d.device).store p none else s

/-- `xrp_retain_device`. -/
def xrpRetainDevice (s : DeviceHost) (p : DevicePtr) : DeviceHost :=
  match s.heap p with
  | none => { s with fault := true }
  | some d => s.store p (some { d with count := d.count + 1 })

/-- What is run on a device: a queued command, a direct one (either may be for face-id) or a power hint. -/
inductive DeviceCommand
  | queued (env : Answers) (useNsid : Bool) (priority : BitVec 32) (nsid : Nsid) (input output : XrpData)
      (group : Option (XrpBufferGroup XrpBuffer))
  | direct (env : Answers) (nsid : Nsid) (input output : Option SprdVdspInout) (buffer : List SprdVdspInout)
      (bufNum : Nat) (priority : BitVec 32)
  | powerHint (level : Int) (acquireRelease : Nat) (ret : Int)

/-- The `ioctl` that a command issues, if any. -/
def DeviceCommand.ioctl (device : XrpDevice) : DeviceCommand → Option Ioctl
  | .queued env useNsid priority nsid input output group =>
    (xrpRunCommand env ⟨device, useNsid, priority, nsid⟩ input output group).bind Prod.fst
  | .direct env nsid input output buffer bufNum priority =>
    (sprdVdspSendCommandDirectly env device nsid input output buffer bufNum priority).bind Prod.fst
  | .powerHint level acquireRelease ret => some (sprdVdspPowerHintDirect device level acquireRelease ret).1

inductive DeviceEvent
  | openDevice (type : XrpOpenType) (fd : Option Int) (inner outer : Option DevicePtr)
  | openDeviceNewmode (type : XrpOpenType) (fd : Option Int) (p : Option DevicePtr)
  | retain (p : DevicePtr)
  | release (p : DevicePtr)
  | command (p : DevicePtr) (c : DeviceCommand)

/-- An address that the allocator can return, if it returns one. -/
def DeviceHost.allocates (s : DeviceHost) : Option DevicePtr → Prop
  | some p => p ≠ 0 ∧ s.heap p = none
  | none => True

/-- A descriptor that `open` can return, if it returns one. -/
def DeviceHost.opens (s : DeviceHost) : Option Int → Prop
  | some fd => 0 ≤ fd ∧ fd ∉ s.openFds
  | none => True

instance (s : DeviceHost) : ∀ p, Decidable (s.allocates p)
  | some p => inferInstanceAs (Decidable (p ≠ 0 ∧ s.heap p = none))
  | none => inferInstanceAs (Decidable True)

instance (s : DeviceHost) : ∀ fd, Decidable (s.opens fd)
  | some fd => inferInstanceAs (Decidable (0 ≤ fd ∧ fd ∉ s.openFds))
  | none => inferInstanceAs (Decidable True)

/-- The client gets the first reference to a device that was opened with the descriptor `fd`. -/
def DeviceHost.handOut (fd : Option Int) : DeviceHost × Option DevicePtr → DeviceHost
  | (s, some p) =>
    { s with owned := Function.update s.owned p 1, made := Function.update s.made p (fd.getD (-1)) }
  | (s, none) => s

def DeviceHost.step (s : DeviceHost) : DeviceEvent → Option DeviceHost
  | .openDevice type fd inner outer =>
    if s.opens fd ∧ s.allocates inner ∧ s.allocates outer ∧ (outer ≠ none → inner ≠ outer) then
      some (DeviceHost.handOut fd (xrpOpenDevice s type fd inner outer))
    else none
  | .openDeviceNewmode type fd p =>
    if s.opens fd ∧ s.allocates p then
      some (DeviceHost.handOut fd (xrpOpenDeviceNewmode s type fd p))
    else none
  | .retain p =>
    if 0 < s.owned p then
      some { xrpRetainDevice s p with owned := Function.update s.owned p (s.owned p + 1) }
    else none
  | .release p =>
    if 0 < s.owned p then
      some { xrpReleaseDevice 2 s p with owned := Function.update s.owned p (s.owned p - 1) }
    else none
  | .command p c =>
    if 0 < s.owned p then
      match s.heap p with
      | none => some { s with fault := true }
      | some d => some { s with log := s.log ++ (c.ioctl d.device).toList.map fun io => (s.made p, io) }
    else none

def DeviceHost.start : DeviceHost where
  heap := fun _ => none
  openFds := ∅
  log := []
  fault := false
  owned := fun _ => 0
  made := fun _ => -1

def deviceHost : System DeviceHost DeviceEvent where
  init := fun s => s = .start
  step := DeviceHost.step

end Vdsp
