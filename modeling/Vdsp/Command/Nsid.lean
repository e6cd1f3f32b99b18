import Vdsp.Command.Status
import Vdsp.Lib.CString

/-!
# Namespace ids

An id is measured when its queue is created (`str_len`, which stops behind the 32nd byte) and copied to the
queue; each command measures the copy again, now with `strlen`.  An id of at most 31 bytes comes to the driver
as it is, padded with zeros.  The copy of one of 32 bytes has no terminator, so `strlen` runs on behind it; and
commands for ids that begin with `faceid_fw` go another way, without an id.
-/

namespace Vdsp

/-- The loop of `str_len`, at the `i`-th byte; it counts the terminator. -/
def strLenFrom (maxLen i : Nat) : List UInt8 → Option Nat
  | [] => none
  | c :: str => if c = 0 then some (i + 1) else if i + 1 ≥ maxLen then some maxLen
    else strLenFrom maxLen (i + 1) str

/-- `str_len` of the bytes that may be read from `str` on. -/
def strLen (str : List UInt8) (maxLen : Nat) : Option Nat := strLenFrom maxLen 0 str

/-- `memset` to zero and `memcpy` of `n` bytes to the field `nsid` of a queue. -/
def memcpyNsid (src : List UInt8) (n : Nat) : Option Nsid :=
  if h : n ≤ src.length ∧ n ≤ xrpNamespaceIdSize then
    some ⟨src.take n ++ List.replicate (xrpNamespaceIdSize - n) 0, by
      simp only [List.length_append, List.length_take, List.length_replicate]
      omega⟩
  else none

/-- `xrp_create_nsp_queue`; `queue` tells whether it is allocated. -/
def xrpCreateNspQueue (queue : Bool) (device : XrpDevice) (nsid : Option (List UInt8)) (priority : BitVec 32) :
    Option (Option XrpQueue) :=
  if queue = false then some none
  else
    match nsid with
    | none => some (some ⟨device, false, priority, padNsid []⟩)
    | some nsid =>
      ((strLen nsid xrpNamespaceIdSize).bind (memcpyNsid nsid)).map fun nsid =>
        some ⟨device, true, priority, nsid⟩

/-- `xrp_create_ns_queue`. -/
def xrpCreateNsQueue (queue : Bool) (device : XrpDevice) (nsid : Option (List UInt8)) :
    Option (Option XrpQueue) :=
  xrpCreateNspQueue queue device nsid 0

/-! ### What is claimed -/

/-- What may be read of an id: up to its terminator, or its 32nd byte. -/
def idMemory (id : List UInt8) : List UInt8 := if id.length < xrpNamespaceIdSize then id ++ [0] else id

/-- The id comes into the queue padded with zeros, whatever lies behind it. -/
def Created (id : List UInt8) : Prop :=
  ∀ device priority rest,
    xrpCreateNspQueue true device (some (idMemory id ++ rest)) priority =
      some (some ⟨device, true, priority, padNsid id⟩) ∧
    xrpCreateNsQueue true device (some (idMemory id ++ rest)) = some (some ⟨device, true, 0, padNsid id⟩)

/-- `strlen` finds its terminator in the field of the queue. -/
def ReadInside (nsid : Nsid) : Prop := ∃ n, CString.strlen nsid.bytes = some n

/-- A command gets all its allocations. -/
def Allocated (env : Answers) (group : Option (XrpBufferGroup XrpBuffer)) : Prop :=
  ¬ InoutFails env group ∧ env.buf = true ∧ env.group = true ∧
    ∀ i r, i < (recordsOf group).length % 2 ^ 32 → (recordsOf group)[i]? = some r →
      env.wraps i (inoutOfRecord r)

/-- The request presents the id to the driver. -/
def Presents (queue : XrpQueue) (nsid : Nsid) (io : Ioctl) : Prop :=
  ∃ request, io = ⟨queue.device.implFd, .queue request⟩ ∧ request.nsid = nsid

/-- The commands of every queue with the id present it: whatever is sent, and every command that does not fail
for another reason. -/
structure Presented (nsid : Nsid) : Prop where
  only : ∀ env queue rq io event, queue.nsid = nsid →
    xrpRequestProcess env queue rq = some (some io, event) → Presents queue nsid io
  every : ∀ env queue rq, queue.nsid = nsid → Allocated env rq.bufferGroup →
    ∃ io event, xrpRequestProcess env queue rq = some (some io, event)

/-- The commands of every queue with the id are for face-id: they go to the driver with the fds of their input
and output, if they have input. -/
structure PresentedFaceid (nsid : Nsid) : Prop where
  only : ∀ env queue rq io event, queue.nsid = nsid →
    xrpRequestProcess env queue rq = some (some io, event) →
    io = ⟨queue.device.implFd, .faceidCmd (dataOfInout (inoutOfData rq.inData)).fd
      (dataOfInout (inoutOfData rq.outData)).fd⟩
  every : ∀ env queue rq, queue.nsid = nsid → ¬ InoutFails env rq.bufferGroup → rq.inData.addr ≠ none →
    rq.inData.size ≠ 0 → ∃ io event, xrpRequestProcess env queue rq = some (some io, event)

/-- The id survives the trip to the driver. -/
structure NsidSurvives (id : List UInt8) : Prop where
  created : Created id
  inside : ReadInside (padNsid id)
  presented : Presented (padNsid id)

/-! ### Creation -/

/-- The loop stops behind the terminator, or at `maxLen`. -/
theorem strLenFrom_string {id : List UInt8} {maxLen i : Nat} (hid : CString.IsString id)
    (hlen : i + id.length < maxLen) (rest : List UInt8) :
    strLenFrom maxLen i (id ++ 0 :: rest) = some (i + id.length + 1) := by
  induction id generalizing i with
  | nil => simp [strLenFrom]
  | cons c id ih =>
    have hc : c ≠ 0 := hid c (by simp)
    rw [List.length_cons] at hlen
    have hnext := ih (i := i + 1) (fun d hd => hid d (by simp [hd])) (by omega)
    rw [List.cons_append, strLenFrom, if_neg hc, if_neg (by omega), hnext, List.length_cons]
    congr 1
    omega

theorem strLenFrom_long {id : List UInt8} {maxLen i : Nat} (hid : CString.IsString id) (hne : id ≠ [])
    (hlen : i + id.length = maxLen) (rest : List UInt8) : strLenFrom maxLen i (id ++ rest) = some maxLen := by
  induction id generalizing i with
  | nil => exact absurd rfl hne
  | cons c id ih =>
    have hc : c ≠ 0 := hid c (by simp)
    rw [List.length_cons] at hlen
    rw [List.cons_append, strLenFrom, if_neg hc]
    by_cases hlast : id = []
    · subst hlast
      rw [List.length_nil] at hlen
      rw [if_pos (by omega)]
    · have hpos := List.length_pos_iff.2 hlast
      rw [if_neg (by omega)]
      exact ih (fun d hd => hid d (by simp [hd])) hlast (by omega)

/-- Also an id of 32 bytes comes into its queue. -/
theorem created {id : List UInt8} (hid : CString.IsString id) (hlen : id.length ≤ xrpNamespaceIdSize) :
    Created id := by
  have h32 : xrpNamespaceIdSize = 32 := rfl
  have hcopy : ∀ rest, ((strLen (idMemory id ++ rest) xrpNamespaceIdSize).bind
      (memcpyNsid (idMemory id ++ rest))) = some (padNsid id) := by
    intro rest
    unfold strLen idMemory
    by_cases hlt : id.length < xrpNamespaceIdSize
    · rw [if_pos hlt, List.append_assoc, List.singleton_append,
        strLenFrom_string hid (by omega), Option.bind_some, memcpyNsid, dif_pos ⟨by simp, by omega⟩]
      refine congrArg some (Nsid.ext ?_)
      have hzeros : xrpNamespaceIdSize - id.length = (xrpNamespaceIdSize - (0 + id.length + 1)) + 1 := by omega
      show (id ++ 0 :: rest).take (0 + id.length + 1) ++ _ = id.take xrpNamespaceIdSize ++ List.replicate _ 0
      rw [List.take_of_length_le (by omega : id.length ≤ _), hzeros, List.replicate_succ, Nat.zero_add,
        List.take_length_add_append]
      simp
    · have hne : id ≠ [] := fun h => hlt (by simp [h, h32])
      have heq : id.length = xrpNamespaceIdSize := by omega
      rw [if_neg hlt, strLenFrom_long hid hne (by omega), Option.bind_some, memcpyNsid,
        dif_pos ⟨by rw [List.length_append]; omega, le_rfl⟩]
      refine congrArg some (Nsid.ext ?_)
      show (id ++ rest).take xrpNamespaceIdSize ++ List.replicate _ 0 =
        id.take xrpNamespaceIdSize ++ List.replicate _ 0
      rw [← heq, List.take_left, List.take_length]
  have hboth : ∀ device priority rest, xrpCreateNspQueue true device (some (idMemory id ++ rest)) priority =
      some (some ⟨device, true, priority, padNsid id⟩) := by
    intro device priority rest
    simp only [xrpCreateNspQueue, Bool.true_eq_false, if_false, hcopy rest, Option.map_some]
  exact fun device priority rest => ⟨hboth device priority rest, hboth device 0 rest⟩

/-! ### Commands -/

/-- Whether the id is refused for its length does not depend on what lies behind the field. -/
theorem strlen_beyond {nsid : Nsid} {beyond : List UInt8} {n : Nat}
    (h : CString.strlen (nsid.bytes ++ beyond) = some n) :
    n > xrpNamespaceIdSize - 1 ↔ strlen nsid.bytes > xrpNamespaceIdSize - 1 := by
  have hmin : ∀ (s : List UInt8) (m : Nat), CString.strlen (s ++ beyond) = some m →
      min m s.length = strlen s := by
    intro s
    induction s with
    | nil => simp [strlen]
    | cons c s ih =>
      intro m hs
      rw [List.cons_append, CString.strlen] at hs
      by_cases hc : c = 0
      · rw [if_pos hc] at hs
        cases hs
        simp [strlen, hc]
      · rw [if_neg hc, Option.map_eq_some_iff] at hs
        obtain ⟨m, hm, rfl⟩ := hs
        have hlen : strlen (c :: s) = strlen s + 1 := by simp [strlen, hc]
        have := ih m hm
        rw [hlen, List.length_cons]
        omega
  have := hmin _ n h
  rw [nsid.length_eq] at this
  have h32 : xrpNamespaceIdSize = 32 := rfl
  omega

private theorem xrpRequestProcess_io {env : Answers} {queue : XrpQueue} {rq : XrpRequest} {io : Ioctl}
    {event : Option XrpEvent} (h : xrpRequestProcess env queue rq = some (some io, event)) :
    if (strncpy queue.nsid (strlen queue.nsid.bytes)).faceid then
      io = ⟨queue.device.implFd, .faceidCmd (dataOfInout (inoutOfData rq.inData)).fd
        (dataOfInout (inoutOfData rq.outData)).fd⟩
    else Presents queue (strncpy queue.nsid (strlen queue.nsid.bytes)) io := by
  unfold xrpRequestProcess at h
  rw [Option.map_eq_some_iff] at h
  obtain ⟨⟨io', status⟩, hrun, heq⟩ := h
  simp only [Prod.mk.injEq] at heq
  obtain ⟨rfl, -⟩ := heq
  simp only [xrpRunCommand] at hrun
  split at hrun
  · simp at hrun
  · unfold sprdVdspSendCmdDirec at hrun
    simp only [Option.map_map, Option.map_eq_some_iff, Function.comp_apply, Prod.mk.injEq] at hrun
    obtain ⟨⟨io', result⟩, hsend, rfl, -⟩ := hrun
    have hio := sprdVdspSendCommandDirectly_io hsend
    split
    · rename_i hf
      rwa [if_pos hf] at hio
    · rename_i hf
      rw [if_neg hf] at hio
      obtain ⟨request, hrequest, hnsid, -⟩ := hio
      exact ⟨request, hrequest, hnsid⟩

/-- A command that reaches the driver is processed with an `ioctl`. -/
private theorem xrpRequestProcess_reaches {env : Answers} {queue : XrpQueue} {rq : XrpRequest}
    (hn : ¬ InoutFails env rq.bufferGroup) (h : ReachesDriver env queue rq.inData rq.bufferGroup) :
    ∃ io event, xrpRequestProcess env queue rq = some (some io, event) := by
  unfold xrpRequestProcess
  rcases xrpRunCommand_cases env queue rq.inData rq.outData rq.bufferGroup rfl with
    ⟨hf, -⟩ | ⟨-, -, io, he⟩ | ⟨-, hd, -⟩
  · exact absurd hf hn
  · exact ⟨io, _, by rw [he]; rfl⟩
  · exact absurd h hd

theorem presented {id : List UInt8} (hid : CString.IsString id) (hlen : id.length ≤ 31)
    (hf : ¬ (padNsid id).faceid) : Presented (padNsid id) := by
  obtain ⟨hs, hcpy⟩ := strncpy_padNsid hlen hid
  constructor
  · rintro env queue rq io event hq h
    have hio := xrpRequestProcess_io h
    rwa [hq, hcpy, if_neg hf] at hio
  · rintro env queue rq hq ⟨hn, hbuf, hgroup, hwraps⟩
    refine xrpRequestProcess_reaches hn ?_
    rw [ReachesDriver, hq, hcpy, hs, if_neg hf]
    exact ⟨hlen, hbuf, hgroup, hwraps⟩

theorem presentedFaceid {id : List UInt8} (hid : CString.IsString id) (hlen : id.length ≤ 31)
    (hf : (padNsid id).faceid) : PresentedFaceid (padNsid id) := by
  obtain ⟨hs, hcpy⟩ := strncpy_padNsid hlen hid
  constructor
  · rintro env queue rq io event hq h
    have hio := xrpRequestProcess_io h
    rwa [hq, hcpy, if_pos hf] at hio
  · rintro env queue rq hq hn haddr hsize
    refine xrpRequestProcess_reaches hn ?_
    rw [ReachesDriver, hq, hcpy, hs, if_pos hf]
    exact ⟨hlen, haddr, hsize⟩

/-- An id of at most 31 bytes comes into its queue and is read inside the field; it is presented to the driver
unless it is for face-id. -/
theorem nsid_carried {id : List UInt8} (hid : ∀ b ∈ id, b ≠ 0) (hlen : id.length ≤ 31) :
    Created id ∧ ReadInside (padNsid id) ∧
      if (padNsid id).faceid then PresentedFaceid (padNsid id) else Presented (padNsid id) := by
  have hinside : ReadInside (padNsid id) := by
    have hzeros : 32 - id.length = (31 - id.length) + 1 := by omega
    refine ⟨id.length, ?_⟩
    rw [padNsid_bytes (by omega), hzeros, List.replicate_succ]
    exact CString.strlen_string hid _
  refine ⟨created hid (le_trans hlen (by decide)), hinside, ?_⟩
  split
  · rename_i hf
    exact presentedFaceid hid hlen hf
  · rename_i hf
    exact presented hid hlen hf

/-- The id `ns`. -/
theorem nsid_carried_ns : Created [0x6e, 0x73] ∧ ReadInside (padNsid [0x6e, 0x73]) ∧
    if (padNsid [0x6e, 0x73]).faceid then PresentedFaceid (padNsid [0x6e, 0x73])
    else Presented (padNsid [0x6e, 0x73]) :=
  nsid_carried (by simp) (by decide)

/-- An id for face-id is not presented; one of 32 bytes is read behind its field. -/
theorem nsid_not_carried : ¬ NsidSurvives faceidNsid ∧ ¬ NsidSurvives (List.replicate 32 0x61) := by
  constructor
  · rintro ⟨-, -, h⟩
    have hid : CString.IsString faceidNsid := by decide
    have hf : (padNsid faceidNsid).faceid := rfl
    let queue : XrpQueue := ⟨⟨⟨3, 0⟩, .newmode⟩, true, 0, padNsid faceidNsid⟩
    let rq : XrpRequest := ⟨⟨some 0x2000, 5, 16⟩, ⟨none, -1, 0⟩, none, none⟩
    have hn : ¬ InoutFails Answers.allOk rq.bufferGroup := fun h' => absurd h'.1 (by decide)
    obtain ⟨io, event, hio⟩ := (presentedFaceid hid (by decide) hf).every Answers.allOk queue rq rfl hn
      (by decide) (by decide)
    have hface := (presentedFaceid hid (by decide) hf).only _ _ _ _ _ rfl hio
    obtain ⟨request, hrq, -⟩ := h.only _ _ _ _ _ rfl hio
    rw [hface] at hrq
    cases hrq
  · rintro ⟨-, ⟨n, hn⟩, -⟩
    have hbytes : (padNsid (List.replicate 32 0x61)).bytes = List.replicate 32 0x61 := rfl
    rw [hbytes, CString.strlen_unterminated (by decide)] at hn
    cases hn

end Vdsp
