import Vdsp.Command.Status

/-!
# The two implementations of `_xrp_run_command`

The plain implementation builds the driver's request itself; the one of the `USE_SPRD_MODE` build takes the
command apart and has `xrp_run_command_directly` build it.  The two requests say the same exactly when the queue
has a namespace, data of a size that is not a multiple of 2^32 has an address, and the group has fewer than 2^32
buffers: `xrp_run_command_directly` sets `XRP_QUEUE_FLAG_NSID` for every command.
-/

namespace Vdsp

namespace Plain

/-- `_xrp_run_command` without `USE_SPRD_MODE`. -/
def xrpRunCommand (queue : XrpQueue) (input output : XrpData) (group : Option (XrpBufferGroup XrpBuffer))
    (ret : Int) : XrpIoctlQueue × Int × XrpStatus :=
  ({ flags := queueFlags queue.useNsid queue.priority
     inDataSize := input.size % 2 ^ 32
     inDataFd := 0
     outDataSize := output.size % 2 ^ 32
     outDataFd := 0
     bufferSize := (recordsOf group).length * sizeofXrpIoctlBuffer % 2 ^ 32
     inDataAddr := input.addr
     outDataAddr := output.addr
     buffer := (recordsOf group).map fun r =>
      { flags := r.accessFlags.toNat, size := r.buffer.size % 2 ^ 32, addr := r.buffer.ptr, fd := 0 }
     nsid := queue.nsid }, queue.device.implFd, statusOfIoctl ret)

end Plain

/-- What the DSP reads of a table entry. -/
def XrpIoctlBuffer.view (b : XrpIoctlBuffer) : Nat × Nat × Option Addr := (b.flags, b.size, b.addr)

/-- The commands in question: a namespace id of at most 31 bytes that is not one for face-id, padded with zeros;
buffers with an ION fd; and no failing allocation. -/
structure Ordinary (env : Answers) (queue : XrpQueue) (group : Option (XrpBufferGroup XrpBuffer)) : Prop where
  named : ∃ name : List UInt8, name.length ≤ 31 ∧ (∀ b ∈ name, b ≠ 0) ∧
    queue.nsid.bytes = name ++ List.replicate (32 - name.length) 0
  notFaceid : ¬ queue.nsid.faceid
  ionFd : ∀ r ∈ recordsOf group, r.buffer.ionFd ≠ -1
  inout : env.inout = true
  buf : env.buf = true
  group : env.group = true
  buffer : ∀ i, env.buffer i = true
  realloc : ∀ i, env.realloc i = true

/-- A padded id is as long as its name, and is copied as it is. -/
private theorem Ordinary.nsid {env : Answers} {queue : XrpQueue} {group : Option (XrpBufferGroup XrpBuffer)}
    (h : Ordinary env queue group) :
    strlen queue.nsid.bytes ≤ 31 ∧ strncpy queue.nsid (strlen queue.nsid.bytes) = queue.nsid := by
  obtain ⟨name, hlen, hne, hb⟩ := h.named
  have hpad : queue.nsid = padNsid name := Nsid.ext (hb.trans (padNsid_bytes (by omega)).symm)
  obtain ⟨hs, hcpy⟩ := strncpy_padNsid hlen hne
  rw [hpad]
  exact ⟨hs ▸ hlen, hcpy⟩

end Vdsp
