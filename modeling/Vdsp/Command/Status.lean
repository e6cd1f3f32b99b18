import Vdsp.Command.Path

/-!
# The status of a command

The layers around `_xrp_run_command`: a command is copied into a request, the worker of the queue runs it and
stores its status in the event, and the client that waited for the event reads it there.  The status is the
outcome of the command exactly when the command fails before `sprd_vdsp_send_cmd_direc` is called, or reaches
the driver and is taken there: the result of that function is one of the positive values of
`enum sprd_vdsp_result`, and `_xrp_run_command` takes only negative ones for a failure.  A command with a size
and no input is not reported at all.
-/

namespace Vdsp

/-- A `struct xrp_event` without its condition variable. -/
structure XrpEvent where
  status : XrpStatus
  deriving DecidableEq, Repr

/-- A `struct xrp_request`; the group is the one the worker finds. -/
structure XrpRequest where
  inData : XrpData
  outData : XrpData
  bufferGroup : Option (XrpBufferGroup XrpBuffer)
  event : Option XrpEvent
  deriving DecidableEq

/-- `xrp_event_create`. -/
def xrpEventCreate (env : Answers) : Option XrpEvent := if env.event then some ⟨.pending⟩ else none

/-- There are bytes to be copied, and `NULL` is where they are. -/
def XrpData.Null (d : XrpData) : Prop := d.addr = none ∧ d.size ≠ 0

instance (d : XrpData) : Decidable d.Null := inferInstanceAs (Decidable (_ ∧ _))

/-- `xrp_enqueue_command`: the request that it pushes, if any, and its status; `none` when `memcpy` reads the
input through `NULL`. -/
def xrpEnqueueCommand (env : Answers) (input output : XrpData) (group : Option (XrpBufferGroup XrpBuffer))
    (evt : Bool) : Option (Option XrpRequest × XrpStatus) :=
  if env.rq = false ∨ (input.size ≠ 0 ∧ env.inDataCopy = none) then some (none, .failure)
  else if input.Null then none
  else
    let inData := { input with addr := env.inDataCopy }
    if evt then
      match xrpEventCreate env with
      | none => some (none, .failure)
      | some event => some (some ⟨inData, output, group, some event⟩, .success)
    else some (some ⟨inData, output, group, none⟩, .success)

/-- `xrp_request_process`: the `ioctl`, and the event with its status stored. -/
def xrpRequestProcess (env : Answers) (queue : XrpQueue) (rq : XrpRequest) :
    Option (Option Ioctl × Option XrpEvent) :=
  (xrpRunCommand env queue rq.inData rq.outData rq.bufferGroup).map fun (io, status) =>
    (io, rq.event.map fun event => { event with status := status })

/-- `xrp_event_status`. -/
def xrpEventStatus (event : XrpEvent) : XrpStatus := event.status

/-- What `xrp_event_status` gives after `xrp_wait`: by then the worker has processed the request. -/
def statusAfterWait (env : Answers) (queue : XrpQueue) (rq : XrpRequest) : Option (Option Ioctl × XrpStatus) :=
  match xrpRequestProcess env queue rq with
  | some (io, some event) => some (io, xrpEventStatus event)
  | _ => none

/-- `xrp_run_command_sync`. -/
def xrpRunCommandSync (env : Answers) (queue : XrpQueue) (input output : XrpData)
    (group : Option (XrpBufferGroup XrpBuffer)) : Option (Option Ioctl × XrpStatus) :=
  match xrpEnqueueCommand env input output group true with
  | none => none
  | some (none, s) => some (none, s)
  | some (some rq, _) => statusAfterWait env queue rq

/-- The reported status is the outcome: success if an `ioctl` was issued and did not fail, and failure
otherwise. -/
def ReportsOutcome (env : Answers) (report : Option (Option Ioctl × XrpStatus)) : Prop :=
  ∃ io status, report = some (io, status) ∧
    status = if io.isSome = true ∧ 0 ≤ env.ioctl then .success else .failure

/-- The command gets as far as the `ioctl`: the namespace id has a terminator, a face-id command has input, and
any other gets all its allocations. -/
def ReachesDriver (env : Answers) (queue : XrpQueue) (input : XrpData)
    (group : Option (XrpBufferGroup XrpBuffer)) : Prop :=
  strlen queue.nsid.bytes ≤ 31 ∧
    if (strncpy queue.nsid (strlen queue.nsid.bytes)).faceid then input.addr ≠ none ∧ input.size ≠ 0
    else env.buf = true ∧ env.group = true ∧
      ∀ i r, i < (recordsOf group).length % 2 ^ 32 → (recordsOf group)[i]? = some r →
      env.wraps i (inoutOfRecord r)

/-- `calloc` of the descriptors fails. -/
def InoutFails (env : Answers) (group : Option (XrpBufferGroup XrpBuffer)) : Prop :=
  0 < (recordsOf group).length ∧ env.inout = false

private theorem dataOfInout_inoutOfData (d : XrpData) :
    (dataOfInout (inoutOfData d)).addr ≠ none ↔ d.addr ≠ none ∧ d.size ≠ 0 := by
  unfold inoutOfData
  split
  · rename_i h
    refine iff_of_false (fun h' => h' rfl) fun h' => ?_
    exact h.elim h'.1 h'.2
  · rename_i h
    rw [not_or] at h
    exact iff_of_true h.1 h

/-- A command that reaches the driver issues its `ioctl`; any other is given up, or dereferences `NULL`. -/
theorem sprdVdspSendCommandDirectly_cases (env : Answers) (queue : XrpQueue) (input output : XrpData)
    (group : Option (XrpBufferGroup XrpBuffer)) {r : Option (Option Ioctl × SprdVdspStatus)}
    (hr : r = sprdVdspSendCommandDirectly env queue.device queue.nsid (inoutOfData input) (inoutOfData output)
      ((recordsOf group).map inoutOfRecord) ((recordsOf group).length % 2 ^ 32) queue.priority) :
    (ReachesDriver env queue input group ∧ ∃ io, r = some (some io, sendStatus (statusOfIoctl env.ioctl))) ∨
    (¬ ReachesDriver env queue input group ∧ (r = none ∨ r = some (none, .failure))) := by
  subst hr
  unfold ReachesDriver sprdVdspSendCommandDirectly
  by_cases hlen : strlen queue.nsid.bytes ≤ 31
  · have hlen' : ¬ strlen queue.nsid.bytes > xrpNamespaceIdSize - 1 := by
      unfold xrpNamespaceIdSize
      omega
    simp only [hlen', if_false, hlen, true_and]
    by_cases hf : (strncpy queue.nsid (strlen queue.nsid.bytes)).faceid
    · simp only [hf, if_true]
      by_cases hin : input.addr ≠ none ∧ input.size ≠ 0
      · left
        rw [if_pos ((dataOfInout_inoutOfData input).2 hin)]
        exact ⟨hin, _, rfl⟩
      · right
        rw [if_neg fun h => hin ((dataOfInout_inoutOfData input).1 h)]
        exact ⟨hin, .inr rfl⟩
    · simp only [hf, if_false]
      cases hbuf : env.buf with
      | false => simp
      | true =>
        cases hgroup : env.group with
        | false => simp
        | true =>
          have hiff := addBuffers_take_iff env queue.device ((recordsOf group).map inoutOfRecord)
            ((recordsOf group).length % 2 ^ 32)
          have hmap : (∀ i b, i < (recordsOf group).length % 2 ^ 32 →
              ((recordsOf group).map inoutOfRecord)[i]? = some b → env.wraps i b) ↔
              ∀ i r, i < (recordsOf group).length % 2 ^ 32 → (recordsOf group)[i]? = some r →
                env.wraps i (inoutOfRecord r) := by
            simp only [List.getElem?_map, Option.map_eq_some_iff]
            constructor
            · exact fun h i r hi hr => h i _ hi ⟨r, hr, rfl⟩
            · rintro h i b hi ⟨r, hr, rfl⟩
              exact h i r hi hr
          rw [hmap] at hiff
          simp only [reduceCtorEq, if_false, true_and]
          rw [← hiff]
          split
          · rename_i he
            right
            refine ⟨?_, .inl rfl⟩
            rintro ⟨g, hg⟩
            cases he.symm.trans hg
          · rename_i he
            right
            refine ⟨?_, .inr rfl⟩
            rintro ⟨g, hg⟩
            cases he.symm.trans hg
          · rename_i g he
            left
            exact ⟨⟨g, he⟩, _, rfl⟩
  · right
    have hlen' : strlen queue.nsid.bytes > xrpNamespaceIdSize - 1 := by
      unfold xrpNamespaceIdSize
      omega
    simp [hlen, hlen']

/-- `_xrp_run_command` reports a failure only when `calloc` of the descriptors fails. -/
theorem xrpRunCommand_cases (env : Answers) (queue : XrpQueue) (input output : XrpData)
    (group : Option (XrpBufferGroup XrpBuffer)) {r : Option (Option Ioctl × XrpStatus)}
    (hr : r = xrpRunCommand env queue input output group) :
    (InoutFails env group ∧ r = some (none, .failure)) ∨
    (¬ InoutFails env group ∧ ReachesDriver env queue input group ∧ ∃ io, r = some (some io, .success)) ∨
    (¬ InoutFails env group ∧ ¬ ReachesDriver env queue input group ∧ (r = none ∨ r = some (none, .success))) :=
      by
  subst hr
  unfold xrpRunCommand
  by_cases hf : InoutFails env group
  · left
    exact ⟨hf, if_pos hf⟩
  · right
    have hexit : ∀ b : SprdVdspStatus,
        exitStatus (if b.toInt = 0 then SprdVdspResult.success else .fail).toInt = .success := by
      intro b
      cases b <;> rfl
    have hcond : ¬ (0 < (recordsOf group).length ∧ env.inout = false) := hf
    simp only [if_neg hcond, sprdVdspSendCmdDirec]
    rcases sprdVdspSendCommandDirectly_cases env queue input output group rfl with ⟨hd, io, he⟩ | ⟨hd, he | he⟩
    · left
      refine ⟨hf, hd, io, ?_⟩
      simp only [he, Option.map_some, hexit]
    · right
      refine ⟨hf, hd, .inl ?_⟩
      simp only [he, Option.map_none]
    · right
      refine ⟨hf, hd, .inr ?_⟩
      simp only [he, Option.map_some, hexit]

/-- The status of `_xrp_run_command` is the outcome of the command. -/
theorem xrpRunCommand_reportsOutcome (env : Answers) (queue : XrpQueue) (input output : XrpData)
    (group : Option (XrpBufferGroup XrpBuffer)) :
    ReportsOutcome env (xrpRunCommand env queue input output group) ↔
      InoutFails env group ∨ (ReachesDriver env queue input group ∧ 0 ≤ env.ioctl) := by
  rcases xrpRunCommand_cases env queue input output group rfl with ⟨hf, he⟩ | ⟨hf, hd, io, he⟩ | ⟨hf, hd, he⟩
  · exact iff_of_true ⟨none, .failure, he, rfl⟩ (.inl hf)
  · rw [he]
    constructor
    · rintro ⟨io', status, h, hs⟩
      cases h
      by_cases h0 : 0 ≤ env.ioctl
      · exact .inr ⟨hd, h0⟩
      · simp [h0] at hs
    · rintro (h | ⟨-, h0⟩)
      · exact absurd h hf
      · exact ⟨_, _, rfl, by simp [h0]⟩
  · refine iff_of_false ?_ ?_
    · rintro ⟨io, status, h, hs⟩
      rcases he with he | he <;> rw [he] at h <;> cases h
      simp at hs
    · rintro (h | ⟨h, -⟩)
      · exact hf h
      · exact hd h

/-- The event of a request carries the status of `_xrp_run_command`. -/
private theorem statusAfterWait_eq (env : Answers) (queue : XrpQueue) {rq : XrpRequest} {event : XrpEvent}
    (h : rq.event = some event) :
    statusAfterWait env queue rq = xrpRunCommand env queue rq.inData rq.outData rq.bufferGroup := by
  unfold statusAfterWait xrpRequestProcess
  rw [h]
  cases xrpRunCommand env queue rq.inData rq.outData rq.bufferGroup <;> rfl

/-- `xrp_enqueue_command` gives up: before the copy, or behind it for want of an event. -/
def EnqueueFails (env : Answers) (input : XrpData) : Prop :=
  env.rq = false ∨ (input.size ≠ 0 ∧ env.inDataCopy = none) ∨ (¬ input.Null ∧ env.event = false)

private theorem xrpEnqueueCommand_cases (env : Answers) (input output : XrpData)
    (group : Option (XrpBufferGroup XrpBuffer)) :
    (EnqueueFails env input ∧ xrpEnqueueCommand env input output group true = some (none, .failure)) ∨
    (¬ EnqueueFails env input ∧ input.Null ∧ xrpEnqueueCommand env input output group true = none) ∨
    (¬ EnqueueFails env input ∧ ¬ input.Null ∧ xrpEnqueueCommand env input output group true =
      some (some ⟨{ input with addr := env.inDataCopy }, output, group, some ⟨.pending⟩⟩, .success)) := by
  unfold EnqueueFails xrpEnqueueCommand xrpEventCreate
  by_cases h : env.rq = false ∨ (input.size ≠ 0 ∧ env.inDataCopy = none)
  · left
    exact ⟨by tauto, if_pos h⟩
  · rw [if_neg h]
    by_cases hnull : input.Null
    · right; left
      exact ⟨by tauto, hnull, if_pos hnull⟩
    · rw [if_neg hnull]
      cases he : env.event with
      | false => exact .inl ⟨by tauto, rfl⟩
      | true => exact .inr (.inr ⟨by simpa [not_or] using h, hnull, rfl⟩)

/-- A command that is not given up before is run on the copy of its input. -/
theorem xrpRunCommandSync_cases (env : Answers) (queue : XrpQueue) (input output : XrpData)
    (group : Option (XrpBufferGroup XrpBuffer)) :
    (EnqueueFails env input ∧ xrpRunCommandSync env queue input output group = some (none, .failure)) ∨
    (¬ EnqueueFails env input ∧ input.Null ∧ xrpRunCommandSync env queue input output group = none) ∨
    (¬ EnqueueFails env input ∧ ¬ input.Null ∧ xrpRunCommandSync env queue input output group =
      xrpRunCommand env queue { input with addr := env.inDataCopy } output group) := by
  unfold xrpRunCommandSync
  rcases xrpEnqueueCommand_cases env input output group with ⟨hf, he⟩ | ⟨hf, hnull, he⟩ | ⟨hf, hnull, he⟩
  · left
    rw [he]
    exact ⟨hf, rfl⟩
  · right; left
    rw [he]
    exact ⟨hf, hnull, rfl⟩
  · right; right
    rw [he]
    exact ⟨hf, hnull, statusAfterWait_eq env queue rfl⟩

/-- The reported status is the outcome of the command exactly when the command fails in `xrp_enqueue_command`; or
the input is not to be copied from `NULL` and the command fails before the call of `sprd_vdsp_send_cmd_direc`, or
reaches the driver and the `ioctl` does not fail: for `xrp_run_command_sync`, and for `xrp_event_status` after
`xrp_wait` for a command that `xrp_enqueue_command` accepted. -/
theorem commandStatus_reportsOutcome_iff (env : Answers) (queue : XrpQueue) (input output : XrpData)
    (group : Option (XrpBufferGroup XrpBuffer)) :
    (ReportsOutcome env (xrpRunCommandSync env queue input output group) ↔
      EnqueueFails env input ∨ (¬ input.Null ∧ (InoutFails env group ∨
        (ReachesDriver env queue { input with addr := env.inDataCopy } group ∧ 0 ≤ env.ioctl)))) ∧
    ∀ rq, xrpEnqueueCommand env input output group true = some (some rq, .success) →
      (ReportsOutcome env (statusAfterWait env queue rq) ↔
        InoutFails env group ∨
          (ReachesDriver env queue { input with addr := env.inDataCopy } group ∧ 0 ≤ env.ioctl)) := by
  constructor
  · rcases xrpRunCommandSync_cases env queue input output group with ⟨hf, he⟩ | ⟨hf, hnull, he⟩ | ⟨hf, hnull, he⟩
    · rw [he]
      exact iff_of_true ⟨none, .failure, rfl, rfl⟩ (.inl hf)
    · rw [he]
      refine iff_of_false ?_ ?_
      · rintro ⟨io, status, h, -⟩
        cases h
      · rintro (h | ⟨h, -⟩)
        · exact hf h
        · exact h hnull
    · rw [he, xrpRunCommand_reportsOutcome, or_iff_right hf, and_iff_right hnull]
  · intro rq h
    rcases xrpEnqueueCommand_cases env input output group with ⟨-, he⟩ | ⟨-, -, he⟩ | ⟨-, -, he⟩
    · cases he.symm.trans h
    · cases he.symm.trans h
    · cases he.symm.trans h
      have hevent : (XrpRequest.mk { input with addr := env.inDataCopy } output group (some ⟨.pending⟩)).event =
        some ⟨.pending⟩ := rfl
      rw [statusAfterWait_eq env queue hevent]
      exact xrpRunCommand_reportsOutcome ..

/-- Every allocation succeeds and the driver takes the command. -/
def Answers.allOk : Answers where
  rq := true
  inDataCopy := some 0x1000
  event := true
  inout := true
  buf := true
  group := true
  buffer := fun _ => true
  ionmem := fun _ => none
  realloc := fun _ => true
  ioctl := 0

/-- A queue for the DSP's own commands. -/
def defaultQueue : XrpQueue where
  device := ⟨⟨3, 0⟩, .newmode⟩
  useNsid := false
  priority := 0
  nsid := ⟨List.replicate 32 0, rfl⟩

/-- The driver refuses the command, and the client is told that it succeeded. -/
theorem refused_command_reported_success :
    ¬ ∀ env queue input output group, ReportsOutcome env (xrpRunCommandSync env queue input output group) := by
  intro h
  obtain ⟨io, status, he, hs⟩ := h { Answers.allOk with ioctl := -1 } defaultQueue ⟨some 0x2000, 5, 16⟩
    ⟨none, -1, 0⟩ none
  have hrep : (xrpRunCommandSync { Answers.allOk with ioctl := -1 } defaultQueue ⟨some 0x2000, 5, 16⟩
    ⟨none, -1, 0⟩ none).map Prod.snd = some .success := by decide
  rw [he] at hrep
  cases hrep
  simp at hs

end Vdsp
