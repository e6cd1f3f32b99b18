import Vdsp.Group
import Mathlib.Data.List.TakeWhile

/-!
# What the host library hands to the driver

The device and queue objects as the command path reads them, and the requests of the driver
(`xrp_kernel_defs.h`).  Sizes are `Nat`, cut to 32 bits where the code stores them in a `__u32`; the flags and
the priority are words.
-/

namespace Vdsp

/-- `enum device_type`. -/
inductive DeviceType
  | normal
  | newmode
  deriving DecidableEq, Repr

/-- A `struct xrp_device` without its reference count.  `struct xrp_device_impl` is a union of `int fd` and
`struct vdsp_handle handle`, so `fd` is the first word of the handle. -/
structure XrpDevice where
  impl : VdspHandle
  type : DeviceType
  deriving DecidableEq, Repr

/-- `device->impl.fd`. -/
def XrpDevice.implFd (d : XrpDevice) : Int := d.impl.fd

def xrpNamespaceIdSize : Nat := 32

/-- The `XRP_NAMESPACE_ID_SIZE` bytes of a namespace id. -/
structure Nsid where
  bytes : List UInt8
  length_eq : bytes.length = xrpNamespaceIdSize
  deriving DecidableEq

/-- `strlen`; on 32 bytes without a terminator it is at least 32. -/
def strlen (s : List UInt8) : Nat := (s.takeWhile (· ≠ 0)).length

/-- `memset` to zero and `strncpy` of the first `n` bytes of the string. -/
def strncpy (s : Nsid) (n : Nat) : Nsid where
  bytes := s.bytes.take n ++ List.replicate (xrpNamespaceIdSize - n) 0
  length_eq := by
    have := s.length_eq
    simp only [List.length_append, List.length_take, List.length_replicate]
    omega

theorem Nsid.ext {a b : Nsid} (h : a.bytes = b.bytes) : a = b := by
  cases a
  cases b
  cases h
  rfl

/-- The id padded with zeros; longer ones are cut. -/
def padNsid (id : List UInt8) : Nsid where
  bytes := id.take xrpNamespaceIdSize ++ List.replicate (xrpNamespaceIdSize - id.length) 0
  length_eq := by
    simp only [List.length_append, List.length_take, List.length_replicate]
    omega

theorem padNsid_bytes {id : List UInt8} (h : id.length ≤ 32) :
    (padNsid id).bytes = id ++ List.replicate (32 - id.length) 0 := by
  show id.take 32 ++ _ = _
  rw [List.take_of_length_le h]
  rfl

/-- An id of at most 31 bytes has its own length, and is copied as it is. -/
theorem strncpy_padNsid {id : List UInt8} (hlen : id.length ≤ 31) (h : ∀ b ∈ id, b ≠ 0) :
    strlen (padNsid id).bytes = id.length ∧ strncpy (padNsid id) (strlen (padNsid id).bytes) = padNsid id := by
  have hb := padNsid_bytes (show id.length ≤ 32 by omega)
  have hs : strlen (padNsid id).bytes = id.length := by
    rw [hb, strlen, List.takeWhile_append_of_pos (by simpa using h)]
    have : 32 - id.length = (31 - id.length) + 1 := by omega
    rw [this, List.replicate_succ]
    simp
  refine ⟨hs, Nsid.ext ?_⟩
  show (padNsid id).bytes.take _ ++ List.replicate (32 - _) 0 = _
  rw [hs, hb, List.take_left]

/-- The copy is the string padded with zeros. -/
theorem strncpy_eq_padNsid (nsid : Nsid) :
    strncpy nsid (strlen nsid.bytes) = padNsid (nsid.bytes.takeWhile (· ≠ 0)) := by
  have hpre : nsid.bytes.take (strlen nsid.bytes) = nsid.bytes.takeWhile (· ≠ 0) :=
    (List.prefix_iff_eq_take.1 (List.takeWhile_prefix _)).symm
  have hlen : strlen nsid.bytes ≤ xrpNamespaceIdSize := by
    rw [← nsid.length_eq]
    exact (List.takeWhile_prefix _).length_le
  refine Nsid.ext ?_
  show nsid.bytes.take _ ++ List.replicate (xrpNamespaceIdSize - strlen nsid.bytes) 0 =
    (nsid.bytes.takeWhile (· ≠ 0)).take xrpNamespaceIdSize ++ List.replicate _ 0
  rw [hpre, List.take_of_length_le hlen]
  rfl

/-- A string that is copied again stays as it is. -/
theorem strncpy_strncpy {nsid : Nsid} (h : strlen nsid.bytes ≤ 31) :
    strlen (strncpy nsid (strlen nsid.bytes)).bytes = strlen nsid.bytes ∧
      strncpy (strncpy nsid (strlen nsid.bytes)) (strlen (strncpy nsid (strlen nsid.bytes)).bytes) =
        strncpy nsid (strlen nsid.bytes) := by
  rw [strncpy_eq_padNsid]
  exact strncpy_padNsid h fun b hb => by simpa using List.mem_takeWhile_imp hb

/-- A `struct xrp_queue` as far as commands read it. -/
structure XrpQueue where
  device : XrpDevice
  useNsid : Bool
  priority : BitVec 32
  nsid : Nsid
  deriving DecidableEq

/-- `enum buf_type`. -/
inductive BufType
  | host
  | device
  deriving DecidableEq, Repr

/-- A `struct xrp_buffer` as far as commands read it. -/
structure XrpBuffer where
  type : BufType
  ptr : Option Addr
  size : Nat
  ionFd : Int
  deriving DecidableEq, Repr

/-- The three arguments that describe the input or the output of a command. -/
structure XrpData where
  addr : Option Addr
  fd : Int
  size : Nat
  deriving DecidableEq, Repr

/-- `struct xrp_ioctl_buffer`. -/
structure XrpIoctlBuffer where
  flags : Nat
  size : Nat
  addr : Option Addr
  fd : Int
  deriving DecidableEq, Repr

/-- `struct xrp_ioctl_queue`, with the bytes at `nsid_addr` and the table at `buffer_addr`. -/
structure XrpIoctlQueue where
  flags : BitVec 32
  inDataSize : Nat
  outDataSize : Nat
  bufferSize : Nat
  inDataAddr : Option Addr
  inDataFd : Int
  outDataAddr : Option Addr
  outDataFd : Int
  buffer : List XrpIoctlBuffer
  nsid : Nsid
  deriving DecidableEq

/-- The requests that the device file takes on the command path. -/
inductive DriverCall
  | queue (request : XrpIoctlQueue)
  | faceidCmd (inFd outFd : Int)
  | setPowerhint (level : Int) (acquireRelease : Nat)
  deriving DecidableEq

/-- An `ioctl` on a file descriptor. -/
structure Ioctl where
  fd : Int
  call : DriverCall
  deriving DecidableEq

/-- `sizeof(struct xrp_ioctl_buffer)`. -/
def sizeofXrpIoctlBuffer : Nat := 24

def xrpQueueFlagNsid : BitVec 32 := 0x4
def xrpQueueFlagPrio : BitVec 32 := 0xff00
def xrpQueueFlagPrioShift : Nat := 8

/-- The flags word of a request. -/
def queueFlags (useNsid : Bool) (priority : BitVec 32) : BitVec 32 :=
  (if useNsid then xrpQueueFlagNsid else 0) ||| ((priority <<< xrpQueueFlagPrioShift) &&& xrpQueueFlagPrio)

/-- `set_status` after an `ioctl`. -/
def statusOfIoctl (ret : Int) : XrpStatus := if ret < 0 then .failure else .success

/-- `xrp_run_command_directly`, where the `ioctl` returns `ret`. -/
def xrpRunCommandDirectly (device : XrpDevice) (nsid : Nsid) (priority : BitVec 32) (input output : XrpData)
    (group : XrpBufferGroup XrpBuffer) (ret : Int) : Ioctl × XrpStatus :=
  ({ fd := device.implFd
     call := .queue
      { flags := queueFlags true priority
        inDataSize := input.size % 2 ^ 32
        inDataFd := input.fd
        outDataSize := output.size % 2 ^ 32
        outDataFd := output.fd
        bufferSize := group.nBuffers * sizeofXrpIoctlBuffer % 2 ^ 32
        inDataAddr := input.addr
        outDataAddr := output.addr
        buffer := group.buffer.map fun r =>
          { flags := r.accessFlags.toNat, size := r.buffer.size % 2 ^ 32, addr := r.buffer.ptr, fd :=
            r.buffer.ionFd }
        nsid := nsid } }, statusOfIoctl ret)

/-- `xrp_run_faceid_command_directly`. -/
def xrpRunFaceidCommandDirectly (device : XrpDevice) (inFd outFd : Int) (ret : Int) : Ioctl × XrpStatus :=
  ({ fd := device.implFd, call := .faceidCmd inFd outFd }, statusOfIoctl ret)

/-- `sprd_vdsp_power_hint_direct`. -/
def sprdVdspPowerHintDirect (device : XrpDevice) (level : Int) (acquireRelease : Nat) (ret : Int) :
    Ioctl × Int :=
  ({ fd := device.implFd, call := .setPowerhint level acquireRelease }, ret)

end Vdsp
