import Vdsp.Command.Send

/-!
# The buffer table of a request

A descriptor goes through `xrp_create_buffer` into a group, and from there into the table of the request; on the
way through a queue it does so twice.  `xrp_create_buffer` wraps the memory of a descriptor that has an fd; for
one with the fd -1 it allocates new ION memory, and nothing is copied.  A call that reports success has sent the
memory of its descriptors exactly when none of them has the fd -1, the size of the table fits the 32 bits of
`buffer_size`, and a queued command gets its allocations on the way; one whose input has a size and no address
does not return.
-/

namespace Vdsp

/-- `sprd_vdsp_send_command` without the objects that it releases again. -/
def sprdVdspSendCommand (env : SendAnswers) (device : XrpDevice) (nsid : Nsid)
    (input output : Option SprdVdspInout)
    (buffer : List SprdVdspInout) (bufNum : Nat) (priority : BitVec 32) :
    Option (Option Ioctl × SprdVdspStatus) :=
  if strlen nsid.bytes > xrpNamespaceIdSize - 1 then some (none, .failure)
  else if env.own.buf = false then some (none, .failure)
  else if env.own.group = false then some (none, .failure)
  else if env.queue = false then some (none, .failure)
  -- a queue without a worker never answers, and its release stores through `NULL`
  else if env.thread = false then none
  else
    -- every buffer is added with `XRP_READ_WRITE`
    match addBuffers env.own device 0 .empty ((buffer.take bufNum).map ({ · with flag := .readWrite })) with
    | none => none
    | some none => some (none, .failure)
    | some (some group) =>
      (xrpRunCommandSync env.command ⟨device, true, priority, strncpy nsid (strlen nsid.bytes)⟩
        (dataOfInout input) (dataOfInout output) (some group)).map fun (io, status) => (io, sendStatus status)

/-! ### The conditions -/

/-- The memory of a table entry. -/
def XrpIoctlBuffer.memory (e : XrpIoctlBuffer) : Int × Option Addr × Nat := (e.fd, e.addr, e.size)

/-- The table has the memory of the descriptors, in order, and nothing else. -/
def XrpIoctlQueue.Carries (request : XrpIoctlQueue) (buffer : List SprdVdspInout) : Prop :=
  request.bufferSize = buffer.length * sizeofXrpIoctlBuffer ∧
    request.buffer.map XrpIoctlBuffer.memory = buffer.map fun b => (b.fd, b.virAddr, b.size)

/-- If the call returns success, its request carries the buffers. -/
def Intact (device : XrpDevice) (buffer : List SprdVdspInout) (r : Option (Option Ioctl × SprdVdspStatus)) :
    Prop :=
  ∀ io, r = some (io, .success) → ∃ request, io = some ⟨device.implFd, .queue request⟩ ∧ request.Carries buffer

/-- The allocations for a group of the descriptors succeed. -/
def Answers.Gathers (env : Answers) (bs : List SprdVdspInout) : Prop :=
  env.buf = true ∧ env.group = true ∧ ∀ i b, bs[i]? = some b → env.wraps i b

/-- The descriptors that the worker makes of the entries of the client's group. -/
def SendAnswers.inner (env : SendAnswers) (buffer : List SprdVdspInout) : List SprdVdspInout :=
  buffer.mapIdx fun i b => inoutOfRecord (env.own.record i { b with flag := .readWrite })

/-- The table fits, and all descriptors keep their memory: those with the fd -1 satisfy `P`. -/
def KeepsTable (buffer : List SprdVdspInout) (P : Nat → SprdVdspInout → Prop) : Prop :=
  buffer.length * sizeofXrpIoctlBuffer < 2 ^ 32 ∧ ∀ i b, buffer[i]? = some b → b.fd = -1 → P i b

/-! ### One pass -/

private theorem gathers_iff {env : Answers} (device : XrpDevice) {bs : List SprdVdspInout} :
    (∃ g, addBuffers env device 0 .empty bs = some (some g)) ↔ ∀ i b, bs[i]? = some b → env.wraps i b := by
  have h := addBuffers_iff env device 0 .empty bs XrpBufferGroup.tight_empty rfl
  simpa using h

private theorem derefs_iff {env : Answers} (device : XrpDevice) {bs : List SprdVdspInout} :
    addBuffers env device 0 .empty bs = none ↔ env.Derefs 0 bs :=
  addBuffers_none_iff XrpBufferGroup.tight_empty rfl

private theorem Answers.Gathers.not_derefs {env : Answers} {bs : List SprdVdspInout} (h : env.Gathers bs) :
    ¬ env.Derefs 0 bs := by
  let device : XrpDevice := ⟨⟨0, 0⟩, .newmode⟩
  rw [← derefs_iff device]
  obtain ⟨g, hg⟩ := (gathers_iff device).2 h.2.2
  rw [hg]
  exact fun h => by cases h

/-- What `xrp_create_buffer` makes of the descriptors is what the request has. -/
private theorem directly_gathers {env : Answers} {nsid : Nsid} {bs : List SprdVdspInout}
    (hlen : strlen nsid.bytes ≤ 31) (hf : ¬ (strncpy nsid (strlen nsid.bytes)).faceid) (h : env.Gathers bs)
    (hsize : ∀ b ∈ bs, b.size < 2 ^ 32) (device : XrpDevice) (input output : Option SprdVdspInout)
    (priority : BitVec 32) :
    ∃ request, sprdVdspSendCommandDirectly env device nsid input output bs bs.length priority =
        some (some ⟨device.implFd, .queue request⟩, sendStatus (statusOfIoctl env.ioctl)) ∧
      request.bufferSize = bs.length * sizeofXrpIoctlBuffer % 2 ^ 32 ∧
      request.buffer.map XrpIoctlBuffer.memory = bs.mapIdx fun i b =>
        ((env.memory i b.fd b.virAddr).1, (env.memory i b.fd b.virAddr).2, b.size) := by
  obtain ⟨hbuf, hgroup, hw⟩ := h
  obtain ⟨g, hg⟩ := (gathers_iff device).2 hw
  have hrecords : g.buffer = bs.mapIdx env.record := by
    have := addBuffers_buffer hg
    simpa [XrpBufferGroup.empty] using this
  have hlen' : ¬ strlen nsid.bytes > xrpNamespaceIdSize - 1 := by
    unfold xrpNamespaceIdSize
    omega
  have he : sprdVdspSendCommandDirectly env device nsid input output bs bs.length priority =
      some (some (xrpRunCommandDirectly device (strncpy nsid (strlen nsid.bytes)) priority (dataOfInout input)
        (dataOfInout output) g env.ioctl).1, sendStatus (statusOfIoctl env.ioctl)) := by
    simp only [sprdVdspSendCommandDirectly, hlen', if_false, hf, hbuf, hgroup, reduceCtorEq,
      List.take_length, hg]
    rfl
  refine ⟨_, he, ?_, ?_⟩
  · show g.nBuffers * _ % _ = _
    rw [XrpBufferGroup.nBuffers, hrecords, List.length_mapIdx]
  · show (g.buffer.map _).map _ = _
    rw [hrecords, List.map_map]
    refine (List.mapIdx_eq_iff.2 fun i => ?_).symm
    rw [List.getElem?_map, List.getElem?_mapIdx, Option.map_map]
    refine Option.map_congr fun b hb => ?_
    have hmod := Nat.mod_eq_of_lt (hsize b (List.mem_of_getElem? hb))
    show (_, _, b.size % 2 ^ 32) = _
    rw [hmod]
    rfl

/-- Without the allocations the call fails, unless it dereferences `NULL`. -/
private theorem directly_fails {env : Answers} {nsid : Nsid} {bs : List SprdVdspInout}
    (hlen : strlen nsid.bytes ≤ 31) (hf : ¬ (strncpy nsid (strlen nsid.bytes)).faceid) (h : ¬ env.Gathers bs)
    (device : XrpDevice) (input output : Option SprdVdspInout) (priority : BitVec 32) :
    (env.buf = true ∧ env.group = true ∧ env.Derefs 0 bs ∧
      sprdVdspSendCommandDirectly env device nsid input output bs bs.length priority = none) ∨
    (¬ (env.buf = true ∧ env.group = true ∧ env.Derefs 0 bs) ∧
      sprdVdspSendCommandDirectly env device nsid input output bs bs.length priority =
        some (none, .failure)) := by
  have hlen' : ¬ strlen nsid.bytes > xrpNamespaceIdSize - 1 := by
    unfold xrpNamespaceIdSize
    omega
  unfold sprdVdspSendCommandDirectly
  simp only [hlen', if_false, hf, List.take_length]
  cases hbuf : env.buf with
  | false => simp
  | true =>
    cases hgroup : env.group with
    | false => simp
    | true =>
      have hw : ¬ ∃ g, addBuffers env device 0 .empty bs = some (some g) := fun hg =>
        h ⟨hbuf, hgroup, (gathers_iff device).1 hg⟩
      rcases he : addBuffers env device 0 .empty bs with _ | _ | g
      · left
        exact ⟨rfl, rfl, (derefs_iff device).1 he, by simp⟩
      · right
        refine ⟨fun hd => ?_, by simp⟩
        have := (derefs_iff device).2 hd.2.2
        rw [he] at this
        cases this
      · exact absurd ⟨g, he⟩ hw

/-! ### The table -/

private theorem memory_eq_iff {env : Answers} {i : Nat} {b : SprdVdspInout} (h : env.wraps i b) :
    env.memory i b.fd b.virAddr = (b.fd, b.virAddr) ↔ (b.fd = -1 → env.ionmem i = some (-1, b.virAddr)) := by
  unfold Answers.memory
  by_cases hfd : b.fd = -1
  · obtain ⟨m, hm⟩ := Option.isSome_iff_exists.1 (h.2.1 hfd)
    simp [hfd, hm]
  · simp [hfd]

/-- A table of one entry for each descriptor carries the buffers when it fits and each entry has the memory of
its descriptor. -/
private theorem carries_iff {request : XrpIoctlQueue} {buffer : List SprdVdspInout}
    {m : Nat → SprdVdspInout → Int × Option Addr}
    (hsize : request.bufferSize = buffer.length * sizeofXrpIoctlBuffer % 2 ^ 32)
    (htable : request.buffer.map XrpIoctlBuffer.memory = buffer.mapIdx fun i b =>
      ((m i b).1, (m i b).2, b.size)) :
    request.Carries buffer ↔ buffer.length * sizeofXrpIoctlBuffer < 2 ^ 32 ∧
      ∀ i b, buffer[i]? = some b → m i b = (b.fd, b.virAddr) := by
  unfold XrpIoctlQueue.Carries
  rw [hsize, htable, List.mapIdx_eq_iff]
  refine and_congr ⟨fun h => ?_, Nat.mod_eq_of_lt⟩ ⟨fun h i b hb => ?_, fun h i => ?_⟩
  · rw [← h]
    exact Nat.mod_lt _ (by decide)
  · have hi := h i
    rw [List.getElem?_map, hb] at hi
    simp only [Option.map_some, Option.some.injEq, Prod.mk.injEq] at hi
    exact Prod.ext hi.1.symm hi.2.1.symm
  · rw [List.getElem?_map]
    cases hb : buffer[i]? with
    | none => rfl
    | some b => simp [h i b hb]

variable {device : XrpDevice} {buffer : List SprdVdspInout}

private theorem intact_issued {request : XrpIoctlQueue} {status : SprdVdspStatus} :
    Intact device buffer (some (some ⟨device.implFd, .queue request⟩, status)) ↔
      (status = .success → request.Carries buffer) := by
  constructor
  · rintro h rfl
    obtain ⟨r, hr, hc⟩ := h _ rfl
    cases hr
    exact hc
  · intro h io hio
    cases hio
    exact ⟨request, rfl, h rfl⟩

private theorem intact_failed (io : Option Ioctl) : Intact device buffer (some (io, .failure)) := by
  intro io' h
  cases h

private theorem intact_none : Intact device buffer none := by
  intro io h
  cases h

private theorem not_intact_unsent : ¬ Intact device buffer (some (none, .success)) := by
  intro h
  obtain ⟨r, hr, -⟩ := h none rfl
  cases hr

private theorem sendStatus_statusOfIoctl {ret : Int} : sendStatus (statusOfIoctl ret) = .success ↔ 0 ≤ ret := by
  unfold sendStatus statusOfIoctl
  by_cases h : ret < 0
  · simp [h]
  · have h0 : 0 ≤ ret := by omega
    simp [h, h0]

variable {env : Answers} {nsid : Nsid}

/-- `sprd_vdsp_send_command_directly`. -/
theorem sprdVdspSendCommandDirectly_intact (hf : ¬ (strncpy nsid (strlen nsid.bytes)).faceid)
    (hsize : ∀ b ∈ buffer, b.size < 2 ^ 32) (input output : Option SprdVdspInout) (priority : BitVec 32) :
    Intact device buffer
        (sprdVdspSendCommandDirectly env device nsid input output buffer buffer.length priority) ↔
      31 < strlen nsid.bytes ∨ ¬ env.Gathers buffer ∨ env.ioctl < 0 ∨
        KeepsTable buffer fun i b => env.ionmem i = some (-1, b.virAddr) := by
  by_cases hlen : strlen nsid.bytes ≤ 31
  · have hlen' : ¬ 31 < strlen nsid.bytes := by omega
    by_cases hg : env.Gathers buffer
    · obtain ⟨request, he, hbs, htable⟩ := directly_gathers hlen hf hg hsize device input output priority
      have hkeeps : request.Carries buffer ↔ KeepsTable buffer fun i b =>
        env.ionmem i = some (-1, b.virAddr) := by
        rw [carries_iff (m := fun i b => env.memory i b.fd b.virAddr) hbs htable]
        refine and_congr_right fun _ => forall_congr' fun i => forall_congr' fun b => ?_
        exact imp_congr_right fun hb => memory_eq_iff (hg.2.2 i b hb)
      rw [he, intact_issued, sendStatus_statusOfIoctl, hkeeps]
      have hret : env.ioctl < 0 ↔ ¬ 0 ≤ env.ioctl := by omega
      tauto
    · refine iff_of_true ?_ (.inr (.inl hg))
      rcases directly_fails hlen hf hg device input output priority with ⟨-, -, -, he⟩ | ⟨-, he⟩
      · rw [he]
        exact intact_none
      · rw [he]
        exact intact_failed none
  · refine iff_of_true ?_ (.inl (by omega))
    have hlen' : strlen nsid.bytes > xrpNamespaceIdSize - 1 := by
      unfold xrpNamespaceIdSize
      omega
    rw [sprdVdspSendCommandDirectly, if_pos hlen']
    exact intact_failed none

/-! ### The way through a queue -/

/-- The descriptors of the client, as it adds them. -/
private theorem gathers_flagged {bs : List SprdVdspInout} :
    (∀ i b, (bs.map fun b => { b with flag := SprdVdspBufflag.readWrite })[i]? = some b → env.wraps i b) ↔
      ∀ i b, bs[i]? = some b → env.wraps i b := by
  constructor
  · intro h i b hb
    exact h i { b with flag := .readWrite } (by rw [List.getElem?_map, hb, Option.map_some])
  · intro h i b hb
    rw [List.getElem?_map, Option.map_eq_some_iff] at hb
    obtain ⟨c, hc, rfl⟩ := hb
    exact h i c hc

/-- The worker's descriptors are those of the client's group. -/
private theorem inner_eq {env : SendAnswers} {g : XrpBufferGroup XrpBuffer}
    (h : addBuffers env.own device 0 .empty (buffer.map ({ · with flag := .readWrite })) = some (some g)) :
    (recordsOf (some g)).map inoutOfRecord = env.inner buffer := by
  have hg := addBuffers_buffer h
  show g.buffer.map inoutOfRecord = _
  rw [hg, SendAnswers.inner]
  refine (List.mapIdx_eq_iff.2 fun i => ?_).symm
  simp [XrpBufferGroup.empty, Option.map_map, Function.comp_def]

private theorem inner_length (env : SendAnswers) (bs : List SprdVdspInout) :
    (env.inner bs).length = bs.length := by
  rw [SendAnswers.inner, List.length_mapIdx]

private theorem inner_getElem? {env : SendAnswers} {i : Nat} {b : SprdVdspInout} (h : buffer[i]? = some b) :
    (env.inner buffer)[i]? = some (inoutOfRecord (env.own.record i { b with flag := .readWrite })) := by
  rw [SendAnswers.inner, List.getElem?_mapIdx, h, Option.map_some]

/-- The memory of an entry that went through both passes. -/
def SendAnswers.twice (env : SendAnswers) (i : Nat) (b : SprdVdspInout) : Int × Option Addr :=
  env.command.memory i (env.own.memory i b.fd b.virAddr).1 (env.own.memory i b.fd b.virAddr).2

/-- A descriptor keeps its memory on both passes if it has an fd, or if neither allocation gives it any. -/
private theorem memory_twice_iff {env : SendAnswers} {i : Nat} {b : SprdVdspInout} (h : env.own.wraps i b)
    (h' : env.command.wraps i (inoutOfRecord (env.own.record i { b with flag := .readWrite }))) :
    env.twice i b = (b.fd, b.virAddr) ↔
      (b.fd = -1 → (∃ a, env.own.ionmem i = some (-1, a)) ∧ env.command.ionmem i = some (-1, b.virAddr)) := by
  by_cases hfd : b.fd = -1
  · obtain ⟨m, hm⟩ := Option.isSome_iff_exists.1 (h.2.1 hfd)
    have hown : env.own.memory i b.fd b.virAddr = m := by simp [Answers.memory, hfd, hm]
    have hfd' : (inoutOfRecord (env.own.record i { b with flag := .readWrite })).fd = m.1 := by
      show (env.own.memory i b.fd b.virAddr).1 = _
      rw [hown]
    rw [SendAnswers.twice, hown]
    by_cases hm1 : m.1 = -1
    · obtain ⟨m', hm'⟩ := Option.isSome_iff_exists.1 (h'.2.1 (hfd'.trans hm1))
      have hexists : ∃ a, m = (-1, a) := ⟨m.2, Prod.ext hm1 rfl⟩
      simp [Answers.memory, hfd, hm, hm1, hm', hexists]
    · have hne : ∀ a, m ≠ (-1, a) := fun a ha => hm1 (by rw [ha])
      simp [Answers.memory, hfd, hm, hm1, hne]
  · simp [SendAnswers.twice, Answers.memory, hfd]

private theorem sync_result {r : Option (Option Ioctl × SprdVdspStatus)} :
    ((r.map fun p => (p.1, if p.2.toInt = 0 then SprdVdspResult.success else .fail)).map fun p =>
      (p.1, exitStatus p.2.toInt)).map (fun p => (p.1, sendStatus p.2)) = r.map fun p => (p.1, .success) := by
  rcases r with _ | ⟨io, status⟩
  · rfl
  · cases status <;> rfl

/-- Before the command is queued, the call fails or dereferences `NULL`. -/
private theorem sprdVdspSendCommand_fails {env : SendAnswers}
    (h : ¬ (strlen nsid.bytes ≤ 31 ∧ env.own.Gathers buffer ∧ env.queue = true ∧ env.thread = true))
    (device : XrpDevice) (input output : Option SprdVdspInout) (priority : BitVec 32) :
    sprdVdspSendCommand env device nsid input output buffer buffer.length priority = none ∨
      sprdVdspSendCommand env device nsid input output buffer buffer.length priority =
        some (none, .failure) := by
  unfold sprdVdspSendCommand
  split
  · exact .inr rfl
  · rename_i hlen
    split
    · exact .inr rfl
    · rename_i hbuf
      split
      · exact .inr rfl
      · rename_i hgroup
        split
        · exact .inr rfl
        · rename_i hqueue
          split
          · exact .inl rfl
          · rename_i hthread
            have hlen' : strlen nsid.bytes ≤ 31 := by
              unfold xrpNamespaceIdSize at hlen
              omega
            simp only [Bool.not_eq_false] at hbuf hgroup hqueue hthread
            rw [List.take_length]
            split
            · exact .inl rfl
            · exact .inr rfl
            · rename_i g hg
              exact absurd ⟨hlen', ⟨hbuf, hgroup, gathers_flagged.1 ((gathers_iff device).1 ⟨g, hg⟩)⟩,
                hqueue, hthread⟩ h

/-- A queued command is given up, or copied from `NULL`, or run by the worker on the descriptors of the group; all
that the worker reports is success. -/
private theorem sprdVdspSendCommand_runs {env : SendAnswers} (device : XrpDevice)
    (hlen : strlen nsid.bytes ≤ 31)
    (hown : env.own.Gathers buffer) (hqueue : env.queue = true) (hthread : env.thread = true)
    (hnum : buffer.length < 2 ^ 32) (input output : Option SprdVdspInout) (priority : BitVec 32) :
    ((EnqueueFails env.command (dataOfInout input) ∨ (dataOfInout input).Null ∨
        (0 < buffer.length ∧ env.command.inout = false)) ∧
      (sprdVdspSendCommand env device nsid input output buffer buffer.length priority = none ∨
        sprdVdspSendCommand env device nsid input output buffer buffer.length priority =
          some (none, .failure))) ∨
    (¬ (EnqueueFails env.command (dataOfInout input) ∨ (dataOfInout input).Null ∨
        (0 < buffer.length ∧ env.command.inout = false)) ∧
      ∃ inp out, sprdVdspSendCommand env device nsid input output buffer buffer.length priority =
        (sprdVdspSendCommandDirectly env.command device (strncpy nsid (strlen nsid.bytes)) inp out
          (env.inner buffer) (env.inner buffer).length priority).map fun p => (p.1, .success)) := by
  obtain ⟨hbuf, hgroup, hw⟩ := hown
  obtain ⟨g, hg⟩ := (gathers_iff device).2 (gathers_flagged.2 hw)
  have hinner := inner_eq hg
  have hrecords : (recordsOf (some g)).length = buffer.length := by
    have := congrArg List.length hinner
    rwa [List.length_map, inner_length] at this
  have hlen' : ¬ strlen nsid.bytes > xrpNamespaceIdSize - 1 := by
    unfold xrpNamespaceIdSize
    omega
  have hrun : sprdVdspSendCommand env device nsid input output buffer buffer.length priority =
      (xrpRunCommandSync env.command ⟨device, true, priority, strncpy nsid (strlen nsid.bytes)⟩
        (dataOfInout input) (dataOfInout output) (some g)).map fun p => (p.1, sendStatus p.2) := by
    simp only [sprdVdspSendCommand, hlen', if_false, hbuf, hgroup, hqueue, hthread, reduceCtorEq,
      List.take_length, hg]
  rw [hrun]
  rcases xrpRunCommandSync_cases env.command ⟨device, true, priority, strncpy nsid (strlen nsid.bytes)⟩
    (dataOfInout input) (dataOfInout output) (some g) with ⟨hf, he⟩ | ⟨-, hnull, he⟩ | ⟨hf, hnull, he⟩
  · left
    rw [he]
    exact ⟨.inl hf, .inr rfl⟩
  · left
    rw [he]
    exact ⟨.inr (.inl hnull), .inl rfl⟩
  · rw [he]
    unfold xrpRunCommand
    by_cases hino : 0 < buffer.length ∧ env.command.inout = false
    · left
      refine ⟨.inr (.inr hino), .inr ?_⟩
      simp only [hrecords, hino, and_self, if_true]
      rfl
    · right
      refine ⟨fun h => h.elim hf fun h => h.elim hnull hino,
        inoutOfData { dataOfInout input with addr := env.command.inDataCopy }, inoutOfData (dataOfInout output), ?_⟩
      have hcall := Nat.mod_eq_of_lt hnum
      simp only [hrecords, hino, if_false, sprdVdspSendCmdDirec, hinner, hcall]
      rw [inner_length]
      exact sync_result

/-- `sprd_vdsp_send_command`. -/
theorem sprdVdspSendCommand_intact {env : SendAnswers} (hf : ¬ (strncpy nsid (strlen nsid.bytes)).faceid)
    (hsize : ∀ b ∈ buffer, b.size < 2 ^ 32) (hnum : buffer.length < 2 ^ 32)
    (input output : Option SprdVdspInout)
    (priority : BitVec 32) :
    Intact device buffer (sprdVdspSendCommand env device nsid input output buffer buffer.length priority) ↔
      ¬ (strlen nsid.bytes ≤ 31 ∧ env.own.Gathers buffer ∧ env.queue = true ∧ env.thread = true) ∨
      EnqueueFails env.command (dataOfInout input) ∨ (dataOfInout input).Null ∨
      (0 < buffer.length ∧ env.command.inout = false) ∨
      (env.command.buf = true ∧ env.command.group = true ∧ env.command.Derefs 0 (env.inner buffer)) ∨
      (env.command.Gathers (env.inner buffer) ∧ KeepsTable buffer fun i b =>
        (∃ a, env.own.ionmem i = some (-1, a)) ∧ env.command.ionmem i = some (-1, b.virAddr)) := by
  by_cases hok : strlen nsid.bytes ≤ 31 ∧ env.own.Gathers buffer ∧ env.queue = true ∧ env.thread = true
  · obtain ⟨hlen, hown, hqueue, hthread⟩ := hok
    obtain ⟨hlen', hcpy⟩ := strncpy_strncpy hlen
    rw [or_iff_right (fun h => h ⟨hlen, hown, hqueue, hthread⟩), ← or_assoc, ← or_assoc,
      or_assoc (b := (dataOfInout input).Null)]
    rcases sprdVdspSendCommand_runs device hlen hown hqueue hthread hnum input output priority with
      ⟨hearly, he | he⟩ | ⟨hearly, inp, out, he⟩
    · rw [he]
      exact iff_of_true intact_none (.inl hearly)
    · rw [he]
      exact iff_of_true (intact_failed none) (.inl hearly)
    · rw [he, or_iff_right hearly]
      rw [← hlen'] at hlen
      have hf' : ¬ (strncpy (strncpy nsid (strlen nsid.bytes))
          (strlen (strncpy nsid (strlen nsid.bytes)).bytes)).faceid := by
        rwa [hcpy]
      by_cases hg : env.command.Gathers (env.inner buffer)
      · have hinner : ∀ b ∈ env.inner buffer, b.size < 2 ^ 32 := by
          intro b hb
          rw [SendAnswers.inner, List.mem_mapIdx] at hb
          obtain ⟨i, hi, rfl⟩ := hb
          exact Nat.mod_lt _ (by decide)
        obtain ⟨request, hr, hbs, htable⟩ := directly_gathers hlen hf' hg hinner device inp out priority
        have htable' : request.buffer.map XrpIoctlBuffer.memory = buffer.mapIdx fun i b =>
            ((env.twice i b).1, (env.twice i b).2, b.size) := by
          rw [htable, SendAnswers.inner, List.mapIdx_mapIdx, List.mapIdx_eq_mapIdx_iff]
          intro i hi
          have hmod := Nat.mod_eq_of_lt (hsize _ (List.getElem_mem hi))
          show (_, _, buffer[i].size % 2 ^ 32) = _
          rw [hmod]
          rfl
        rw [inner_length] at hbs
        rw [hr, Option.map_some, intact_issued, carries_iff hbs htable',
          or_iff_right fun h => hg.not_derefs h.2.2, and_iff_right hg, forall_prop_of_true rfl]
        refine and_congr_right fun _ => forall_congr' fun i => forall_congr' fun b => ?_
        exact imp_congr_right fun hb => memory_twice_iff (hown.2.2 i b hb) (hg.2.2 i _ (inner_getElem? hb))
      · rw [or_iff_left fun h => hg h.1]
        rcases directly_fails hlen hf' hg device inp out priority with ⟨hbuf, hgroup, hd, he⟩ | ⟨hd, he⟩
        · rw [he]
          exact iff_of_true intact_none ⟨hbuf, hgroup, hd⟩
        · rw [he]
          exact iff_of_false not_intact_unsent hd
  · refine iff_of_true ?_ (.inl hok)
    rcases sprdVdspSendCommand_fails hok device input output priority with he | he
    · rw [he]
      exact intact_none
    · rw [he]
      exact intact_failed none

/-- A call that reports success has sent the buffers exactly when it cannot report success; or no descriptor has
the fd -1 (unless it has no memory, and gets none), the size of the table fits, and the command reaches the
driver.  A queued command that does not is given up by the worker, and reported as a success. -/
theorem buffers_intact_iff (env : Answers) (sendEnv : SendAnswers) (device : XrpDevice) (nsid : Nsid)
    (input output : Option SprdVdspInout) (buffer : List SprdVdspInout) (priority : BitVec 32)
    (hf : ¬ (strncpy nsid (strlen nsid.bytes)).faceid) (hsize : ∀ b ∈ buffer, b.size < 2 ^ 32)
    (hnum : buffer.length < 2 ^ 32) :
    (Intact device buffer
        (sprdVdspSendCommandDirectly env device nsid input output buffer buffer.length priority) ↔
      31 < strlen nsid.bytes ∨ ¬ env.Gathers buffer ∨ env.ioctl < 0 ∨
        KeepsTable buffer fun i b => env.ionmem i = some (-1, b.virAddr)) ∧
    (Intact device buffer
        (sprdVdspSendCommand sendEnv device nsid input output buffer buffer.length priority) ↔
      ¬ (strlen nsid.bytes ≤ 31 ∧ sendEnv.own.Gathers buffer ∧ sendEnv.queue = true ∧ sendEnv.thread = true) ∨
      EnqueueFails sendEnv.command (dataOfInout input) ∨ (dataOfInout input).Null ∨
      (0 < buffer.length ∧ sendEnv.command.inout = false) ∨
      (sendEnv.command.buf = true ∧ sendEnv.command.group = true ∧
        sendEnv.command.Derefs 0 (sendEnv.inner buffer)) ∨
      (sendEnv.command.Gathers (sendEnv.inner buffer) ∧ KeepsTable buffer fun i b =>
        (∃ a, sendEnv.own.ionmem i = some (-1, a)) ∧ sendEnv.command.ionmem i = some (-1, b.virAddr))) :=
  ⟨sprdVdspSendCommandDirectly_intact hf hsize input output priority,
    sprdVdspSendCommand_intact hf hsize hnum input output priority⟩

/-- Everything is allocated, with ION memory at 0x9000. -/
def Answers.withIon : Answers := { Answers.allOk with ionmem := fun _ => some (7, some 0x9000) }

/-- Two buffers that have an fd. -/
def twoBuffers : List SprdVdspInout := [⟨5, some 0x3000, 64, .read⟩, ⟨6, none, 128, .write⟩]

theorem buffers_intact_iff_twoBuffers :
    Intact defaultQueue.device twoBuffers (sprdVdspSendCommandDirectly .withIon defaultQueue.device
      (padNsid [0x6e, 0x73]) none none twoBuffers twoBuffers.length 0) ∧
    Intact defaultQueue.device twoBuffers (sprdVdspSendCommand ⟨.withIon, true, true, .withIon, .first⟩
      defaultQueue.device (padNsid [0x6e, 0x73]) none none twoBuffers twoBuffers.length 0) := by
  have hiff := buffers_intact_iff .withIon ⟨.withIon, true, true, .withIon, .first⟩ defaultQueue.device
    (padNsid [0x6e, 0x73]) none none twoBuffers 0 (by decide) (by decide) (by decide)
  have hfds : ∀ b ∈ twoBuffers, b.fd ≠ -1 := by decide
  have hkeeps : ∀ P, KeepsTable twoBuffers P := fun P =>
    ⟨by decide, fun i b hb hfd => absurd hfd (hfds b (List.mem_of_getElem? hb))⟩
  have hgathers : ∀ bs, Answers.withIon.Gathers bs :=
    fun bs => ⟨rfl, rfl, fun _ _ _ => ⟨rfl, fun _ => rfl, fun _ => rfl⟩⟩
  exact ⟨hiff.1.2 (.inr (.inr (.inr (hkeeps _)))), hiff.2.2 (.inr (.inr (.inr (.inr (.inr ⟨hgathers _, hkeeps _⟩)))))⟩

/-- A buffer with an address and no fd. -/
def plainBuffer : List SprdVdspInout := [⟨-1, some 0x3000, 64, .read⟩]

/-- The data at that address is not sent: the DSP gets the new ION memory. -/
theorem plainBuffer_not_intact :
    ¬ Intact defaultQueue.device plainBuffer (sprdVdspSendCommandDirectly .withIon defaultQueue.device
      (padNsid [0x6e, 0x73]) none none plainBuffer plainBuffer.length 0) := by
  rw [sprdVdspSendCommandDirectly_intact (by decide) (by decide)]
  rintro (h | h | h | h)
  · exact absurd h (by decide)
  · exact h ⟨rfl, rfl, fun _ _ _ => ⟨rfl, fun _ => rfl, fun _ => rfl⟩⟩
  · exact absurd h (by decide)
  · have := h.2 0 _ rfl rfl
    exact absurd this (by decide)

end Vdsp
