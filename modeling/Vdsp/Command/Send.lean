import Vdsp.Command.Store
import Vdsp.Command.Status

/-!
# A command and its objects

`sprd_vdsp_send_command` and `sprd_vdsp_send_command_directly` with all the objects they create, on the heaps of
a `Store`.  The first one queues its command, and the worker of the queue runs the second one for it.  The
worker wakes the client before it drops its reference to the event: `WorkerTurn` tells when it gets to that.
-/

namespace Vdsp

open Counted

/-- When the worker drops its reference to the event of a command whose client it has woken. -/
inductive WorkerTurn
  /-- Before the client drops its own. -/
  | first
  /-- After that, before the client drops the queue. -/
  | between
  /-- After the client has returned. -/
  | after
  deriving DecidableEq, Repr

/-- What the allocators answer to `sprd_vdsp_send_command` itself, and to the command on its way. -/
structure SendAnswers where
  own : Answers
  queue : Bool
  thread : Bool
  command : Answers
  turn : WorkerTurn

/-- The loop over the descriptors from the `i`-th on, with the buffers made before: they are `buf[0]` to
`buf[i - 1]`.  It ends at the first failure; the last component tells whether it went through. -/
def Store.addBuffers (s : Store) (env : Answers) (device : Addr) (group : Nat)
    (flags : SprdVdspInout → XrpAccessFlags) (i : Nat) (made : List Nat) :
    List SprdVdspInout → Option (Store × List Nat × Bool)
  | [] => some (s, made, true)
  | b :: bs =>
    match s.createBuffer (env.buffer i) (env.ionmem i) (some device) b.size b.virAddr b.fd with
    | none => none
    | some (s, none, _) => some (s, made, false)
    | some (s, some buf, _) =>
      match s.addBufferToGroup group buf (flags b) (env.realloc i) with
      | none => none
      | some (s, .success) => s.addBuffers env device group flags (i + 1) (made ++ [buf]) bs
      | some (s, _) => some (s, made, false)

/-- Every exit behind the loop releases the group and the buffers made. -/
def Store.dropBuffers (s : Store) (group : Nat) (made : List Nat) : Option Store :=
  (s.releaseBufferGroup group).bind fun s => s.releaseBuffers made

/-- `sprd_vdsp_send_command_directly`. -/
def Store.sendCommandDirectly (s : Store) (env : Answers) (device : Addr) (nsid : Nsid)
    (input : Option SprdVdspInout)
    (buffer : List SprdVdspInout) (bufNum : Nat) : Option (Store × SprdVdspStatus) :=
  if strlen nsid.bytes > xrpNamespaceIdSize - 1 then some (s, .failure)
  else if (strncpy nsid (strlen nsid.bytes)).faceid then
    if (dataOfInout input).addr ≠ none then some (s, sendStatus (statusOfIoctl env.ioctl)) else some (s, .failure)
  else if env.buf = false then some (s, .failure)
  else
    match s.createBufferGroup env.group with
    | (s, none) => some (s, .failure)
    | (s, some group) =>
      (s.addBuffers env device group (fun b => translateBufflag b.flag) 0 [] (buffer.take bufNum)).bind
        fun (s, made, ok) =>
          (s.dropBuffers group made).map fun s =>
            (s, if ok then sendStatus (statusOfIoctl env.ioctl) else .failure)

/-- The entries of a group, as `_xrp_run_command` reads them. -/
def Store.entries (s : Store) : List (XrpBufferGroupRecord Nat) → Option (List (XrpBufferGroupRecord XrpBuffer))
  | [] => some []
  | r :: rs =>
    match Counted.get s.buffers r.buffer with
    | none => none
    | some b => (s.entries rs).map (⟨b.buffer, r.accessFlags⟩ :: ·)

/-- `_xrp_run_command` of the `USE_SPRD_MODE` build, with a group. -/
def Store.runCommand (s : Store) (env : Answers) (queue : QueueCell) (input : XrpData) (group : Nat) :
    Option (Store × XrpStatus) :=
  (Counted.get s.groups group).bind fun table =>
    (s.entries table.buffer).bind fun records =>
      if 0 < records.length ∧ env.inout = false then some (s, exitStatus (-1))
      else
        (s.sendCommandDirectly env queue.device queue.nsid (inoutOfData input) (records.map inoutOfRecord)
          (records.length % 2 ^ 32)).map fun (s, ret1) =>
            (s, exitStatus (if ret1.toInt = 0 then SprdVdspResult.success else .fail).toInt)

/-- `xrp_enqueue_command` with an event: the event, if the command was queued; `none` when `memcpy` reads the input
through `NULL`. -/
def Store.enqueueCommand (s : Store) (env : Answers) (queue group : Nat) (input : XrpData) :
    Option (Store × Option Nat) :=
  if env.rq = false ∨ (input.size ≠ 0 ∧ env.inDataCopy = none) then some (s, none)
  else if input.Null then none
  else if env.event = false then some (s, none)
  else
    (Counted.retain s.queues queue).bind fun queues =>
      (Counted.retain (Counted.alloc s.events queue) s.events.length).bind fun events =>
        (Counted.retain s.groups group).map fun groups =>
          ({ s with queues := queues, events := events, groups := groups }, some s.events.length)

/-- `xrp_request_process` up to the wake-up of the client. -/
def Store.requestProcess (s : Store) (env : Answers) (queue : Nat) (input : XrpData) (group : Nat) :
    Option (Store × XrpStatus) :=
  (Counted.get s.queues queue).bind fun q =>
    (s.runCommand env q { input with addr := env.inDataCopy } group).bind fun (s, status) =>
      (s.releaseBufferGroup group).map fun s => (s, status)

/-- The worker drops its reference to the event, if it is its turn. -/
def Store.workerTurn (s : Store) (turn now : WorkerTurn) (event : Nat) : Option Store :=
  if turn = now then s.releaseEvent event else some s

/-- The client drops its reference to the event, and so does the worker, unless it gets to that later. -/
def Store.dropEvent (s : Store) (turn : WorkerTurn) (event : Nat) : Option Store :=
  (s.workerTurn turn .first event).bind fun s =>
    (s.releaseEvent event).bind fun s => s.workerTurn turn .between event

/-- `xrp_run_command_sync`; without a worker the client waits forever. -/
def Store.runCommandSync (s : Store) (env : Answers) (turn : WorkerTurn) (queue group : Nat) (input : XrpData) :
    Option (Store × XrpStatus) :=
  (s.enqueueCommand env queue group input).bind fun
    | (s, none) => some (s, .failure)
    | (s, some event) =>
      (Counted.get s.queues queue).bind fun q =>
        if q.thread = false then none
        else
          (s.requestProcess env queue input group).bind fun (s, status) =>
            (s.dropEvent turn event).map fun s => (s, status)

end Vdsp
