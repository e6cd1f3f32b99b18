import Vdsp.Driver

/-!
# The way of a command to the driver

`_xrp_run_command`, `sprd_vdsp_send_cmd_direc` and `sprd_vdsp_send_command_directly` as the code computes them.
The outcomes of the allocations and of the `ioctl` are in an `Answers`.  The functions return the `ioctl` they
issued, if any, and their result; `none` is a dereferenced `NULL` pointer.
-/

namespace Vdsp

/-- What the allocators and the driver answer while one command is on its way. -/
structure Answers where
  /-- `malloc` of the request and of the copy of its input, and the event, in `xrp_enqueue_command`. -/
  rq : Bool
  inDataCopy : Option Addr
  event : Bool
  /-- `calloc` of the descriptors in `_xrp_run_command`. -/
  inout : Bool
  /-- `calloc` of the buffer pointers and the group, in `sprd_vdsp_send_command_directly`. -/
  buf : Bool
  group : Bool
  /-- The `i`-th buffer, its ION memory, and the `realloc` when it is added. -/
  buffer : Nat → Bool
  ionmem : Nat → Option (Int × Option Addr)
  realloc : Nat → Bool
  ioctl : Int

/-- `struct sprd_vdsp_inout`, the same as `struct sprd_vdsp_client_inout`. -/
structure SprdVdspInout where
  fd : Int
  virAddr : Option Addr
  size : Nat
  flag : SprdVdspBufflag
  deriving DecidableEq, Repr

/-- `translate_access_flag` of `xrp_linux.c`. -/
def translateAccessFlag : XrpAccessFlags → SprdVdspBufflag
  | .read => .read
  | .write => .write
  | .readWrite => .readWrite

/-- `translate_access_flag` of `vdsp_interface_internal.c`. -/
def translateBufflag : SprdVdspBufflag → XrpAccessFlags
  | .read => .read
  | .write => .write
  | .readWrite => .readWrite
  | .accessMax => .read

@[simp] theorem translateBufflag_translateAccessFlag (f : XrpAccessFlags) :
    translateBufflag (translateAccessFlag f) = f := by
  cases f <;> rfl

/-- `xrp_create_buffer` of the `i`-th buffer: the buffer, or `NULL` with a failure.  When the ION memory of a
buffer cannot be allocated the code frees it, sets `buf` to `NULL` and then stores to `buf->apptr`. -/
def xrpCreateBuffer (env : Answers) (i : Nat) (device : Option XrpDevice) (size : Nat) (hostPtr : Option Addr)
    (fd : Int) : Option (Option XrpBuffer × XrpStatus) :=
  if hostPtr = none ∧ device = none then some (none, .failure)
  else if env.buffer i = false then some (none, .failure)
  else if fd ≠ -1 then some (some ⟨.host, hostPtr, size, fd⟩, .success)
  else match device, env.ionmem i with
    | some _, some (ionFd, viraddr) => some (some ⟨.device, viraddr, size, ionFd⟩, .success)
    | _, _ => none

/-- The loop of `sprd_vdsp_send_command_directly` that wraps the descriptors from the `i`-th on and adds them to
`group`; `some none` when it is left with a failure. -/
def addBuffers (env : Answers) (device : XrpDevice) (i : Nat) (group : XrpBufferGroup XrpBuffer) :
    List SprdVdspInout → Option (Option (XrpBufferGroup XrpBuffer))
  | [] => some (some group)
  | b :: bs =>
    match xrpCreateBuffer env i (some device) b.size b.virAddr b.fd with
    | none => none
    | some (none, _) => some none
    | some (some buf, _) =>
      match xrpAddBufferToGroup group buf (translateBufflag b.flag) (env.realloc i) with
      | none => some none
      | some (group, _) => addBuffers env device (i + 1) group bs

/-- `FACEID_NSID`, the nine characters `faceid_fw`. -/
def faceidNsid : List UInt8 := [0x66, 0x61, 0x63, 0x65, 0x69, 0x64, 0x5f, 0x66, 0x77]

/-- `0 == strncmp(ns_id, FACEID_NSID, 9)`. -/
def Nsid.faceid (nsid : Nsid) : Prop := nsid.bytes.take 9 = faceidNsid

instance (nsid : Nsid) : Decidable nsid.faceid := inferInstanceAs (Decidable (_ = _))

/-- The data that `sprd_vdsp_send_command_directly` takes from its input or output descriptor. -/
def dataOfInout : Option SprdVdspInout → XrpData
  | some d => ⟨d.virAddr, d.fd, d.size⟩
  | none => ⟨none, -1, 0⟩

/-- The status of `sprd_vdsp_send_command_directly` after the command ran. -/
def sendStatus (status : XrpStatus) : SprdVdspStatus := if status ≠ .success then .failure else .success

/-- `sprd_vdsp_send_command_directly`. -/
def sprdVdspSendCommandDirectly (env : Answers) (device : XrpDevice) (nsid : Nsid)
    (input output : Option SprdVdspInout) (buffer : List SprdVdspInout) (bufNum : Nat) (priority : BitVec 32) :
    Option (Option Ioctl × SprdVdspStatus) :=
  if strlen nsid.bytes > xrpNamespaceIdSize - 1 then some (none, .failure)
  else
    let nsId := strncpy nsid (strlen nsid.bytes)
    let inp := dataOfInout input
    let out := dataOfInout output
    if nsId.faceid then
      if inp.addr ≠ none then
        let (io, status) := xrpRunFaceidCommandDirectly device inp.fd out.fd env.ioctl
        some (some io, sendStatus status)
      else some (none, .failure)
    else if env.buf = false then some (none, .failure)
    else if env.group = false then some (none, .failure)
    else match addBuffers env device 0 .empty (buffer.take bufNum) with
      | none => none
      | some none => some (none, .failure)
      | some (some group) =>
        let (io, status) := xrpRunCommandDirectly device nsId priority inp out group env.ioctl
        some (some io, sendStatus status)

/-- `sprd_vdsp_send_cmd_direc`. -/
def sprdVdspSendCmdDirec (env : Answers) (handle : XrpDevice) (nsid : Nsid) (inp out : Option SprdVdspInout)
    (buffer : List SprdVdspInout) (bufnum : Nat) (priority : BitVec 32) :
    Option (Option Ioctl × SprdVdspResult) :=
  (sprdVdspSendCommandDirectly env handle nsid inp out buffer bufnum priority).map fun (io, ret1) =>
    (io, if ret1.toInt = 0 then .success else .fail)

/-- `buffer_group->buffer`, or nothing without a group. -/
def recordsOf : Option (XrpBufferGroup XrpBuffer) → List (XrpBufferGroupRecord XrpBuffer)
  | some group => group.buffer
  | none => []

/-- The descriptor that `_xrp_run_command` makes of a group entry. -/
def inoutOfRecord (r : XrpBufferGroupRecord XrpBuffer) : SprdVdspInout :=
  ⟨r.buffer.ionFd, r.buffer.ptr, r.buffer.size % 2 ^ 32, translateAccessFlag r.accessFlags⟩

/-- The descriptor that `_xrp_run_command` makes of the input or output, if there is any. -/
def inoutOfData (d : XrpData) : Option SprdVdspInout :=
  if d.addr = none ∨ d.size = 0 then none else some ⟨d.fd, d.addr, d.size % 2 ^ 32, .read⟩

/-- The status that `_xrp_run_command` sets at `__exit`. -/
def exitStatus (ret : Int) : XrpStatus := if ret < 0 then .failure else .success

/-- `_xrp_run_command` of the `USE_SPRD_MODE` build. -/
def xrpRunCommand (env : Answers) (queue : XrpQueue) (input output : XrpData)
    (group : Option (XrpBufferGroup XrpBuffer)) : Option (Option Ioctl × XrpStatus) :=
  let records := recordsOf group
  if 0 < records.length ∧ env.inout = false then some (none, exitStatus (-1))
  else
    (sprdVdspSendCmdDirec env queue.device queue.nsid (inoutOfData input) (inoutOfData output)
      (records.map inoutOfRecord) (records.length % 2 ^ 32) queue.priority).map fun (io, ret) =>
        (io, exitStatus ret.toInt)

/-! ### What the path does -/

/-- The allocations for the `i`-th descriptor succeed. -/
def Answers.wraps (env : Answers) (i : Nat) (b : SprdVdspInout) : Prop :=
  env.buffer i = true ∧ (b.fd = -1 → (env.ionmem i).isSome = true) ∧ (GrowsAt i → env.realloc i = true)

private theorem xrpCreateBuffer_cases (env : Answers) (i : Nat) (device : XrpDevice) (b : SprdVdspInout) :
    (env.buffer i = true ∧ (b.fd = -1 → (env.ionmem i).isSome = true) ∧
      ∃ buf, xrpCreateBuffer env i (some device) b.size b.virAddr b.fd = some (some buf, .success)) ∨
    (¬ (env.buffer i = true ∧ (b.fd = -1 → (env.ionmem i).isSome = true)) ∧
      (xrpCreateBuffer env i (some device) b.size b.virAddr b.fd = none ∨
        xrpCreateBuffer env i (some device) b.size b.virAddr b.fd = some (none, .failure))) := by
  by_cases hb : env.buffer i = true
  · by_cases hfd : b.fd = -1
    · cases hion : env.ionmem i with
      | none =>
        right
        exact ⟨fun h => by simpa using h.2 hfd, .inl (by simp [xrpCreateBuffer, hb, hfd, hion])⟩
      | some p =>
        left
        exact ⟨hb, fun _ => rfl, ⟨.device, p.2, b.size, p.1⟩, by simp [xrpCreateBuffer, hb, hfd, hion]⟩
    · left
      exact ⟨hb, fun h => absurd h hfd, ⟨.host, b.virAddr, b.size, b.fd⟩, by simp [xrpCreateBuffer, hb, hfd]⟩
  · right
    exact ⟨fun h => hb h.1, .inr (by simp [xrpCreateBuffer, hb])⟩

/-- The loop ends with a group exactly when the allocations for every descriptor succeed. -/
theorem addBuffers_iff (env : Answers) (device : XrpDevice) (i : Nat) (group : XrpBufferGroup XrpBuffer)
    (bs : List SprdVdspInout) (ht : group.Tight) (hi : group.nBuffers = i) :
    (∃ g, addBuffers env device i group bs = some (some g)) ↔ ∀ j b, bs[j]? = some b → env.wraps (i + j) b := by
  induction bs generalizing i group with
  | nil => simp [addBuffers]
  | cons b bs ih =>
    have hsplit : (∀ j c, (b :: bs)[j]? = some c → env.wraps (i + j) c) ↔
        env.wraps i b ∧ ∀ j c, bs[j]? = some c → env.wraps (i + 1 + j) c := by
      constructor
      · intro h
        refine ⟨h 0 b rfl, fun j c hc => ?_⟩
        have := h (j + 1) c (by simpa using hc)
        rwa [show i + 1 + j = i + (j + 1) by omega]
      · rintro ⟨h0, h1⟩ j c hc
        cases j with
        | zero =>
          cases hc
          exact h0
        | succ j =>
          have := h1 j c (by simpa using hc)
          rwa [show i + (j + 1) = i + 1 + j by omega]
    rw [hsplit]
    rcases xrpCreateBuffer_cases env i device b with ⟨hb, hion, buf, he⟩ | ⟨hn, he⟩
    · cases hadd : xrpAddBufferToGroup group buf (translateBufflag b.flag) (env.realloc i) with
      | none =>
        have hsome : (xrpAddBufferToGroup group buf (translateBufflag b.flag) (env.realloc i)).isSome =
          true ↔ _ :=
          xrpAddBufferToGroup_isSome
        rw [hadd, ht.full_iff, hi] at hsome
        have hfalse : ¬ env.wraps i b := fun h => by simpa using hsome.2 h.2.2
        simp [addBuffers, he, hadd, hfalse]
      | some p =>
        obtain ⟨g', n⟩ := p
        have hsome : (xrpAddBufferToGroup group buf (translateBufflag b.flag) (env.realloc i)).isSome =
          true ↔ _ :=
          xrpAddBufferToGroup_isSome
        rw [hadd, ht.full_iff, hi] at hsome
        have hbuf := (xrpAddBufferToGroup_buffer hadd).1
        have hn : g'.nBuffers = i + 1 := by
          rw [← hi]
          simp [XrpBufferGroup.nBuffers, hbuf]
        have hw : env.wraps i b := ⟨hb, hion, hsome.1 rfl⟩
        simp only [addBuffers, he, hadd, hw, true_and]
        exact ih (i + 1) g' (xrpAddBufferToGroup_grow ht hadd) hn
    · have hfalse : ¬ env.wraps i b := fun h => hn ⟨h.1, h.2.1⟩
      rcases he with he | he <;> simp [addBuffers, he, hfalse]

/-- The loop over the first `n` descriptors, from an empty group. -/
theorem addBuffers_take_iff (env : Answers) (device : XrpDevice) (bs : List SprdVdspInout) (n : Nat) :
    (∃ g, addBuffers env device 0 .empty (bs.take n) = some (some g)) ↔
      ∀ i b, i < n → bs[i]? = some b → env.wraps i b := by
  rw [addBuffers_iff env device 0 .empty _ XrpBufferGroup.tight_empty rfl]
  constructor
  · intro h i b hi hb
    have := h i b (by rw [List.getElem?_take, if_pos hi, hb])
    rwa [Nat.zero_add] at this
  · intro h i b hb
    rw [List.getElem?_take] at hb
    split at hb
    · rename_i hi
      rw [Nat.zero_add]
      exact h i b hi hb
    · cases hb

/-- The `i`-th buffer is made without its ION memory, after all those before it. -/
def Answers.Derefs (env : Answers) (i : Nat) : List SprdVdspInout → Prop
  | [] => False
  | b :: bs => (env.buffer i = true ∧ b.fd = -1 ∧ env.ionmem i = none) ∨ (env.wraps i b ∧ env.Derefs (i + 1) bs)

private theorem xrpCreateBuffer_none_iff {env : Answers} {i : Nat} (device : XrpDevice) {b : SprdVdspInout} :
    xrpCreateBuffer env i (some device) b.size b.virAddr b.fd = none ↔
      env.buffer i = true ∧ b.fd = -1 ∧ env.ionmem i = none := by
  unfold xrpCreateBuffer
  cases env.buffer i with
  | false => simp
  | true =>
    by_cases hfd : b.fd = -1
    · cases env.ionmem i <;> simp [hfd]
    · simp [hfd]

/-- The loop dereferences `NULL` exactly when the ION memory of a buffer cannot be allocated. -/
theorem addBuffers_none_iff {env : Answers} {device : XrpDevice} {i : Nat} {group : XrpBufferGroup XrpBuffer}
    {bs : List SprdVdspInout} (ht : group.Tight) (hi : group.nBuffers = i) :
    addBuffers env device i group bs = none ↔ env.Derefs i bs := by
  induction bs generalizing i group with
  | nil => simp [addBuffers, Answers.Derefs]
  | cons b bs ih =>
    rw [Answers.Derefs, ← xrpCreateBuffer_none_iff device]
    rcases xrpCreateBuffer_cases env i device b with ⟨hb, hion, buf, he⟩ | ⟨hn, he⟩
    · have hsome :
          (xrpAddBufferToGroup group buf (translateBufflag b.flag) (env.realloc i)).isSome = true ↔ _ :=
        xrpAddBufferToGroup_isSome
      rw [ht.full_iff, hi] at hsome
      cases hadd : xrpAddBufferToGroup group buf (translateBufflag b.flag) (env.realloc i) with
      | none =>
        rw [hadd] at hsome
        have hfalse : ¬ env.wraps i b := fun h => by simpa using hsome.2 h.2.2
        simp [addBuffers, he, hadd, hfalse]
      | some p =>
        obtain ⟨g', n⟩ := p
        rw [hadd] at hsome
        have hn : g'.nBuffers = i + 1 := by
          rw [← hi]
          simp [XrpBufferGroup.nBuffers, (xrpAddBufferToGroup_buffer hadd).1]
        have hw : env.wraps i b := ⟨hb, hion, hsome.1 rfl⟩
        simp only [addBuffers, he, hadd, hw, true_and, reduceCtorEq, false_or]
        exact ih (xrpAddBufferToGroup_grow ht hadd) hn
    · have hfalse : ¬ env.wraps i b := fun h => hn ⟨h.1, h.2.1⟩
      rcases he with he | he <;> simp [addBuffers, he, hfalse]

/-- The memory of the `i`-th buffer: that of its descriptor, or new ION memory if this has the fd -1. -/
def Answers.memory (env : Answers) (i : Nat) (fd : Int) (virAddr : Option Addr) : Int × Option Addr :=
  if fd ≠ -1 then (fd, virAddr) else (env.ionmem i).getD (-1, none)

/-- The entry that the path makes of the `i`-th descriptor. -/
def Answers.record (env : Answers) (i : Nat) (b : SprdVdspInout) : XrpBufferGroupRecord XrpBuffer :=
  ⟨⟨if b.fd ≠ -1 then .host else .device, (env.memory i b.fd b.virAddr).2, b.size,
    (env.memory i b.fd b.virAddr).1⟩,
    translateBufflag b.flag⟩

private theorem xrpCreateBuffer_record {env : Answers} {i : Nat} {device : XrpDevice} {b : SprdVdspInout}
    {buf : XrpBuffer} {status : XrpStatus}
    (h : xrpCreateBuffer env i (some device) b.size b.virAddr b.fd = some (some buf, status)) :
    buf = (env.record i b).buffer := by
  unfold xrpCreateBuffer at h
  unfold Answers.record Answers.memory
  cases hb : env.buffer i with
  | false => simp [hb] at h
  | true =>
    by_cases hfd : b.fd = -1
    · cases hion : env.ionmem i with
      | none => simp [hb, hfd, hion] at h
      | some p =>
        simp only [hb, hfd, hion, reduceCtorEq, and_false, Bool.true_eq_false, not_true, ne_eq, if_false,
          Option.some.injEq, Prod.mk.injEq] at h
        simp [hfd, ← h.1]
    · simp only [hb, hfd, reduceCtorEq, and_false, Bool.true_eq_false, not_false_iff, ne_eq, if_false, if_true,
        Option.some.injEq, Prod.mk.injEq] at h
      simp [hfd, ← h.1]

/-- The loop makes one entry of each descriptor, in order. -/
theorem addBuffers_buffer {env : Answers} {device : XrpDevice} {i : Nat} {group g : XrpBufferGroup XrpBuffer}
    {bs : List SprdVdspInout} (h : addBuffers env device i group bs = some (some g)) :
    g.buffer = group.buffer ++ bs.mapIdx fun j b => env.record (i + j) b := by
  induction bs generalizing i group with
  | nil =>
    cases h
    simp
  | cons b bs ih =>
    simp only [addBuffers] at h
    split at h
    · cases h
    · cases h
    · rename_i buf st hc
      split at h
      · cases h
      · rename_i g' n hadd
        have hshift : (fun j b => env.record (i + 1 + j) b) = fun j b => env.record (i + (j + 1)) b := by
          funext j b
          rw [Nat.add_assoc, Nat.add_comm 1 j]
        rw [ih h, (xrpAddBufferToGroup_buffer hadd).1, xrpCreateBuffer_record hc, List.mapIdx_cons, hshift,
          List.append_assoc]
        rfl

section Directly

variable {env : Answers} {device : XrpDevice} {nsid : Nsid} {input output : Option SprdVdspInout}
  {buffer : List SprdVdspInout} {bufNum : Nat} {priority : BitVec 32}

/-- What `sprd_vdsp_send_command_directly` issues, if it issues anything. -/
theorem sprdVdspSendCommandDirectly_io {io : Ioctl} {status : SprdVdspStatus}
    (h : sprdVdspSendCommandDirectly env device nsid input output buffer bufNum priority =
      some (some io, status)) :
    if (strncpy nsid (strlen nsid.bytes)).faceid then
      io = ⟨device.implFd, .faceidCmd (dataOfInout input).fd (dataOfInout output).fd⟩
    else ∃ request, io = ⟨device.implFd, .queue request⟩ ∧ request.nsid = strncpy nsid (strlen nsid.bytes) ∧
      request.inDataAddr = (dataOfInout input).addr ∧ request.inDataFd = (dataOfInout input).fd ∧
      request.inDataSize = (dataOfInout input).size % 2 ^ 32 := by
  unfold sprdVdspSendCommandDirectly at h
  split at h
  · simp at h
  · split
    · rename_i hf
      simp only [hf, if_true] at h
      split at h
      · simp only [Option.some.injEq, Prod.mk.injEq] at h
        exact h.1.symm
      · simp at h
    · rename_i hf
      simp only [hf, if_false] at h
      split at h
      · simp at h
      · split at h
        · simp at h
        · split at h
          · simp at h
          · simp at h
          · rename_i group _
            simp only [Option.some.injEq, Prod.mk.injEq] at h
            exact ⟨_, h.1.symm, rfl, rfl, rfl, rfl⟩

end Directly

end Vdsp
