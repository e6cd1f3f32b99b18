import Vdsp.Group
import Vdsp.Lib.System
import Mathlib.Data.Multiset.AddSub

/-!
# The objects of the host library under any number of threads

The heap holds the reference-counted objects: devices, buffers, buffer groups, queues and events.  A thread has
the instructions it still has to execute; each is one atomic operation or one critical section of the source,
and is one step.  A call of the API is started by a client thread that has no instruction left, and puts the
instructions of the function there; a queue's worker starts with `enter`.  The label of a step says which thread
is scheduled, and the outcome of an allocation, of `realloc`, of `pthread_create`, of the range check of a
mapping, or of a command.

An object's address is its index in the heap, and addresses are not used again: an access to a freed object is a
`fault`.  References are counted where they are: in the `pool` of the clients, with a running thread (`held`),
as an outstanding mapping, in a request, or in another object.  A call reserves the references it uses until it
returns.  A count is a natural number, as the counter of the source is while fewer references are outstanding than
it can count.

The driver call of `_xrp_run_command` is one step that reads the queue and its device; what it copied from the
buffer group before is in `snap`.
-/

namespace Vdsp

open Lts

/-- The address of an object. -/
abbrev Id := Nat

/-- A `struct xrp_request`. -/
structure Request where
  id : Nat
  queue : Id
  group : Option Id
  event : Option Id
  deriving DecidableEq, Repr

/-- A `struct xrp_queue` with its `struct xrp_request_queue`; the request list is in the state.  `syncExit` is the
thread whose local `exit` the pointer `sync_exit` designates, and `wakes` counts the broadcasts. -/
structure QueueBody where
  device : Id
  exit : Bool
  syncExit : Option Nat
  wakes : Nat
  worker : Option Nat
  destroyed : Bool
  deriving DecidableEq

/-- A `struct xrp_event`. -/
structure EventBody where
  queue : Option Id
  status : XrpStatus
  wakes : Nat
  deriving DecidableEq

inductive Body
  /-- A device, with the new-mode device that it wraps. -/
  | device (wrapped : Option Id)
  /-- A buffer, with its device if it is of the device type, and its `map_count`. -/
  | buffer (device : Option Id) (mapCount : Nat)
  | group (table : XrpBufferGroup Id)
  | queue (b : QueueBody)
  | event (b : EventBody)
  deriving DecidableEq

structure Cell where
  count : Nat
  body : Body
  freed : Bool
  deriving DecidableEq

/-- The buffers in the slots of a group. -/
def XrpBufferGroup.slots (table : XrpBufferGroup Id) : List Id := table.buffer.map XrpBufferGroupRecord.buffer

/-- The objects that an object holds references to. -/
def Body.refs : Body → List Id
  | .device wrapped => wrapped.toList
  | .buffer d _ => d.toList
  | .group table => table.slots
  | .queue b => [b.device]
  | .event b => b.queue.toList

/-- The references of a request. -/
def Request.refs (r : Request) : List Id := r.group.toList ++ r.event.toList

inductive Instr
  /-- The call returns. -/
  | ret
  | retain (x : Id)
  | release (x : Id)
  | free (x : Id)
  /-- The allocations; those that depend on an earlier one follow it. -/
  | openNewmode
  | openInner
  | openWrapper (inner : Id)
  | newBuffer (device : Option Id)
  | attachDevice (b d : Id)
  | ionmem
  | newGroup
  | newQueue (d : Id)
  | createThread (q : Id)
  | mapCheck (b : Id)
  | mapInc (b : Id)
  | mapDec (b : Id)
  | add (g b : Id) (flags : XrpAccessFlags)
  | swap (g : Id) (i : Nat) (b : Id) (flags : XrpAccessFlags)
  | get (g : Id) (i : Nat)
  | newRequest (q : Id) (g : Option Id) (evt sync : Bool)
  | newEvent (q : Id) (g : Option Id) (sync : Bool)
  | attachQueue (e q : Id)
  | push (q : Id) (g e : Option Id)
  /-- `xrp_wait`, asleep since the event had `n` broadcasts in `asleep`. -/
  | wait (e : Id)
  | asleep (e : Id) (n : Nat)
  | eventStatus (e : Id)
  /-- The worker: the start of `xrp_queue_process`, its loop, and its wait. -/
  | enter (q : Id)
  | process (q : Id)
  | asleepQueue (q : Id) (n : Nat)
  /-- `_xrp_run_command` up to the unlock of the group, and its driver call. -/
  | snapshot (rq : Request)
  | ioctl (rq : Request)
  | complete (e : Id) (status : XrpStatus)
  /-- The return of `xrp_queue_process` to the loop of `xrp_queue_thread`. -/
  | loop (q : Id)
  | condDestroy (e : Id)
  /-- `xrp_queue_destroy` up to its join, the join, and the rest; `d` is `queue->device`. -/
  | setExit (q d : Id)
  | join (q d : Id)
  | closeQueue (q d : Id)
  deriving DecidableEq

/-- What the last release of an object does. -/
def destroyCode (x : Id) (body : Body) : List Instr :=
  (match body with
    | .queue b => [.setExit x b.device]
    | .event _ => [.condDestroy x]
    | _ => []) ++ (body.refs.map .release ++ [.free x])

structure Thread where
  /-- The queue whose worker this is. -/
  role : Option Id
  code : List Instr
  held : Multiset Id
  /-- The local `exit` of `xrp_queue_process`. -/
  exit : Bool
  /-- The group of the command on its way to the driver, and the buffers whose fd and address were copied from
  it. -/
  snap : Option (Id × List Id)
  /-- The status of a command, of its event, or of its refusal that the thread got last. -/
  result : Option XrpStatus
  deriving DecidableEq

/-- A client thread between two calls. -/
def Thread.idle : Thread := ⟨none, [], 0, false, none, none⟩

structure Host where
  heap : List Cell
  threads : List Thread
  requests : List Request
  pool : Multiset Id
  maps : Multiset Id
  /-- References that nothing holds any more. -/
  leaked : Multiset Id
  nextRequest : Nat
  /-- The accepted and the executed commands, with their queues. -/
  accepted : List (Nat × Id)
  executed : List (Nat × Id)
  fault : Bool
  /-- A `NULL` pointer was dereferenced, and the process is gone. -/
  crashed : Bool

def Cell.inc (c : Cell) : Cell := { c with count := c.count + 1 }
def Cell.dec (c : Cell) : Cell := { c with count := c.count - 1 }
def Cell.setBody (b : Body) (c : Cell) : Cell := { c with body := b }
def Cell.markFreed (c : Cell) : Cell := { c with freed := true }

def Host.modify (s : Host) (x : Id) (g : Cell → Cell) : Host := { s with heap := s.heap.modify x g }
def Host.frame (s : Host) (t : Nat) (f : Thread) : Host := { s with threads := s.threads.set t f }

def Host.body (s : Host) (x : Id) : Option Body := (s.heap[x]?).map Cell.body

def Host.queueBody (s : Host) (q : Id) : Option QueueBody :=
  match s.body q with
  | some (.queue b) => some b
  | _ => none

def Host.eventBody (s : Host) (e : Id) : Option EventBody :=
  match s.body e with
  | some (.event b) => some b
  | _ => none

def Host.table (s : Host) (g : Id) : Option (XrpBufferGroup Id) :=
  match s.body g with
  | some (.group table) => some table
  | _ => none

/-- The object is not there: it is freed, or was never allocated. -/
def Host.gone (s : Host) (x : Id) : Bool := ((s.heap[x]?).map Cell.freed).getD true

/-- `alloc_refcounted`, and the stores to the new object; `code` goes on with its address. -/
def Host.alloc (s : Host) (t : Nat) (f : Thread) (body : Body) (code : Id → List Instr) : Host :=
  ({ s with heap := s.heap ++ [⟨1, body, false⟩] } : Host).frame t
    { f with code := code s.heap.length, held := s.heap.length ::ₘ (f.held - body.refs) }

/-- The thread goes on. -/
def Host.goOn (s : Host) (t : Nat) (f : Thread) (code : List Instr) : Host := s.frame t { f with code := code }

/-- `*queue->sync_exit = 1`. -/
def Host.raiseExit (s : Host) (w : Nat) : Host :=
  { s with threads := s.threads.modify w fun f => { f with exit := true } }

/-- The objects that an instruction reads or writes. -/
def Instr.accesses (s : Host) : Instr → List Id
  | .retain x | .release x | .free x => [x]
  | .attachDevice b d => [b, d]
  | .createThread q => [q]
  | .mapCheck b | .mapInc b | .mapDec b => [b]
  | .add g b _ => [g, b]
  | .swap g _ _ _ => [g]
  | .get g i => g :: ((s.table g).bind fun table => xrpGetBufferFromGroup table i).toList
  | .attachQueue e q => [e, q]
  | .push q _ _ => [q]
  | .wait e | .asleep e _ | .eventStatus e | .complete e _ | .condDestroy e => [e]
  | .enter q | .process q | .asleepQueue q _ => [q]
  | .snapshot rq =>
    rq.queue :: rq.group.toList.flatMap fun g => g :: ((s.table g).map XrpBufferGroup.slots).getD []
  | .ioctl rq => rq.queue :: ((s.queueBody rq.queue).map QueueBody.device).toList
  | .setExit q _ | .join q _ | .closeQueue q _ => [q]
  | .ret | .openNewmode | .openInner | .openWrapper _ | .newBuffer _ | .ionmem | .newGroup | .newQueue _
  | .newRequest .. | .newEvent .. | .loop _ => []

/-- Is a request of `q` waiting? -/
def Host.waiting (s : Host) (q : Id) : Bool := s.requests.any fun r => r.queue = q

/-- What the worker does with a request after the driver call. -/
def finishCode (rq : Request) (status : XrpStatus) : List Instr :=
  rq.group.toList.map .release ++ rq.event.toList.flatMap fun e => [.complete e status, .release e]

/-- The rest of `xrp_enqueue_command` once the request and the event, if one is asked for, are there, and of
`xrp_run_command_sync` if that called it. -/
def enqueueCode (q : Id) (g e : Option Id) (sync : Bool) : List Instr :=
  (e.toList.flatMap fun e => [.attachQueue e q, .retain e]) ++ g.toList.map .retain ++ [.push q g e] ++
    if sync then e.toList.flatMap fun e => [.wait e, .eventStatus e, .release e] else []

/-- The effect of one instruction of the thread `t`. -/
def Host.exec (s : Host) (t : Nat) (f : Thread) (rest : List Instr) (ok : Bool) : Instr → Option Host
  | .ret => some { s.frame t { f with code := rest, held := 0 } with pool := f.held + s.pool }
  | .retain x => some ((s.modify x Cell.inc).frame t { f with code := rest, held := x ::ₘ f.held })
  | .release x =>
    match s.heap[x]? with
    | some c =>
      if c.count = 1 then
        some ((s.modify x Cell.dec).frame t
          { f with code := destroyCode x c.body ++ rest, held := c.body.refs + (f.held - {x}) })
      else some ((s.modify x Cell.dec).frame t { f with code := rest, held := f.held - {x} })
    | none => none
  | .free x => some ((s.modify x Cell.markFreed).goOn t f rest)
  | .openNewmode => some (if ok then s.alloc t f (.device none) fun _ => rest else s.goOn t f rest)
  | .openInner =>
    some (if ok then s.alloc t f (.device none) fun n => .openWrapper n :: rest else s.goOn t f rest)
  | .openWrapper n =>
    some (if ok then s.alloc t f (.device (some n)) fun _ => rest
      else { s.frame t { f with code := rest, held := f.held - {n} } with leaked := n ::ₘ s.leaked })
  | .newBuffer device =>
    some (if ok then
        s.alloc t f (.buffer none 0) fun b =>
          (device.toList.flatMap fun d => [.attachDevice b d, .ionmem]) ++ rest
      else s.goOn t f rest)
  | .attachDevice b d =>
    match s.body b with
    | some (.buffer none n) =>
      some (((s.modify d Cell.inc).modify b (Cell.setBody (.buffer (some d) n))).goOn t f rest)
    | _ => none
  -- without ION memory the code frees the buffer and stores through a `NULL` pointer
  | .ionmem => some (if ok then s.goOn t f rest else { s with crashed := true })
  | .newGroup => some (if ok then s.alloc t f (.group .empty) fun _ => rest else s.goOn t f rest)
  | .newQueue d =>
    some (if ok then s.alloc t f (.queue ⟨d, false, none, 0, none, false⟩) fun q => .createThread q :: rest
      else s.goOn t f (.release d :: rest))
  | .createThread q =>
    match s.queueBody q with
    | some b =>
      if ok then
        let s' := (s.modify q (Cell.setBody (.queue { b with worker := some s.threads.length }))).goOn t f rest
        some { s' with threads := s'.threads ++ [⟨some q, [.enter q], 0, false, none, none⟩] }
      else some (s.goOn t f rest)
    | none => none
  | .mapCheck b => some (s.goOn t f (if ok then .retain b :: .mapInc b :: rest else rest))
  | .mapInc b =>
    match s.body b with
    | some (.buffer d n) =>
      some { (s.modify b (Cell.setBody (.buffer d (n + 1)))).frame t
          { f with code := rest, held := f.held - {b} } with
        maps := b ::ₘ s.maps }
    | _ => none
  | .mapDec b =>
    match s.body b with
    | some (.buffer d n) => some ((s.modify b (Cell.setBody (.buffer d (n - 1)))).goOn t f rest)
    | _ => none
  | .add g b flags =>
    match s.table g with
    | some table =>
      match xrpAddBufferToGroup table b flags ok with
      | some (table, _) => some (((s.modify b Cell.inc).modify g (Cell.setBody (.group table))).goOn t f rest)
      | none => some (s.goOn t f rest)
    | none => none
  | .swap g i b flags =>
    match s.table g with
    | some table =>
      match xrpSetBufferInGroup table i b flags with
      | some (table, old) =>
        some ((s.modify g (Cell.setBody (.group table))).frame t
          { f with code := .release old :: rest, held := old ::ₘ (f.held - {b}) })
      | none => some (s.goOn t f (.release b :: rest))
    | none => none
  | .get g i =>
    match s.table g with
    | some table =>
      match xrpGetBufferFromGroup table i with
      | some b => some ((s.modify b Cell.inc).frame t { f with code := rest, held := b ::ₘ f.held })
      | none => some (s.goOn t f rest)
    | none => none
  | .newRequest q g evt sync =>
    some (if ok then s.goOn t f (if evt then .newEvent q g sync :: rest else enqueueCode q g none false ++ rest)
      else s.frame t { f with code := rest, result := some .failure })
  | .newEvent q g sync =>
    some (if ok then s.alloc t f (.event ⟨none, .pending, 0⟩) fun e => enqueueCode q g (some e) sync ++ rest
      else s.frame t { f with code := rest, result := some .failure })
  | .attachQueue e q =>
    match s.eventBody e with
    | some b =>
      match b.queue with
      | none =>
        some (((s.modify q Cell.inc).modify e (Cell.setBody (.event { b with queue := some q }))).goOn t f rest)
      | some _ => none
    | none => none
  | .push q g e =>
    match s.queueBody q with
    | some b =>
      let wakes := if s.waiting q then b.wakes else b.wakes + 1
      some { (s.modify q (Cell.setBody (.queue { b with wakes := wakes }))).frame t
          { f with code := rest, held := f.held - (g.toList ++ e.toList : List Id) } with
        requests := s.requests ++ [⟨s.nextRequest, q, g, e⟩]
        nextRequest := s.nextRequest + 1
        accepted := s.accepted ++ [(s.nextRequest, q)] }
    | none => none
  | .wait e =>
    match s.eventBody e with
    | some b => some (s.goOn t f (if b.status = .pending then .asleep e b.wakes :: rest else rest))
    | none => none
  | .asleep e _ => some (s.goOn t f (.wait e :: rest))
  | .eventStatus e =>
    match s.eventBody e with
    | some b => some (s.frame t { f with code := rest, result := some b.status })
    | none => none
  | .enter q =>
    match s.queueBody q with
    | some b =>
      some ((s.modify q (Cell.setBody (.queue { b with syncExit := some t }))).frame t
        { f with code := .process q :: rest, exit := false })
    | none => none
  | .process q =>
    match s.queueBody q with
    | some b =>
      match s.requests.find? fun r => r.queue = q with
      | some rq =>
        some { s.frame t { f with code := .snapshot rq :: .loop q :: rest, held := rq.refs + f.held } with
          requests := s.requests.eraseP fun r => r.queue = q }
      | none => some (s.goOn t f (if b.exit then rest else .asleepQueue q b.wakes :: rest))
    | none => none
  | .asleepQueue q _ => some (s.goOn t f (.process q :: rest))
  | .snapshot rq =>
    match rq.group with
    | some g =>
      match s.table g with
      | some table => some (s.frame t { f with code := .ioctl rq :: rest, snap := some (g, table.slots) })
      | none => none
    | none => some (s.frame t { f with code := .ioctl rq :: rest, snap := none })
  | .ioctl rq =>
    some { s.frame t { f with
        code := finishCode rq (if ok then .success else .failure) ++ rest
        snap := none } with
      executed := s.executed ++ [(rq.id, rq.queue)] }
  | .complete e status =>
    match s.eventBody e with
    | some b =>
      some ((s.modify e (Cell.setBody (.event { b with status := status, wakes := b.wakes + 1 }))).goOn t f rest)
    | none => none
  | .loop q => some (s.goOn t f (if f.exit then rest else .enter q :: rest))
  | .condDestroy _ => some (s.goOn t f rest)
  | .setExit q d =>
    match s.queueBody q with
    | some b =>
      some ((s.modify q (Cell.setBody (.queue { b with exit := true, wakes := b.wakes + 1 }))).goOn t f
        (.join q d :: rest))
    | none => none
  -- joining oneself, or a thread that was never created, fails
  | .join q d =>
    match s.queueBody q with
    | some b =>
      match b.worker with
      | some w =>
        if w = t then
          match b.syncExit with
          | some w => some ((s.goOn t f (.closeQueue q d :: rest)).raiseExit w)
          | none => some { s with crashed := true }
        else if (s.threads[w]?).map Thread.code = some [] then
          some (s.goOn t f (.closeQueue q d :: rest))
        else none
      | none =>
        match b.syncExit with
        | some w => some ((s.goOn t f (.closeQueue q d :: rest)).raiseExit w)
        | none => some { s with crashed := true }
    | none => none
  | .closeQueue q _ =>
    match s.queueBody q with
    | some b => some ((s.modify q (Cell.setBody (.queue { b with destroyed := true }))).goOn t f rest)
    | none => none

/-- The calls of the API, with the buffers, groups, queues and events they are made on. -/
inductive ApiCall
  | openDevice
  | openDeviceNewmode
  | retain (x : Id)
  | release (x : Id)
  | createBuffer (device : Option Id)
  | mapBuffer (b : Id)
  | unmapBuffer (b : Id)
  | createBufferGroup
  | addBufferToGroup (g b : Id) (flags : XrpAccessFlags)
  | setBufferInGroup (g : Id) (i : Nat) (b : Id) (flags : XrpAccessFlags)
  | getBufferFromGroup (g : Id) (i : Nat)
  | createQueue (d : Id)
  | enqueueCommand (q : Id) (g : Option Id) (evt : Bool)
  | runCommandSync (q : Id) (g : Option Id)
  | wait (e : Id)
  | eventStatus (e : Id)
  deriving DecidableEq

/-- The references that a call uses. -/
def ApiCall.uses : ApiCall → List Id
  | .openDevice | .openDeviceNewmode | .createBufferGroup | .createBuffer none | .unmapBuffer _ => []
  | .retain x | .release x => [x]
  | .createBuffer (some d) | .createQueue d => [d]
  | .mapBuffer b => [b]
  | .addBufferToGroup g b _ => [g, b]
  | .setBufferInGroup g _ b _ => [g, b]
  | .getBufferFromGroup g _ => [g]
  | .enqueueCommand q g _ | .runCommandSync q g => q :: g.toList
  | .wait e | .eventStatus e => [e]

/-- The mapping that a call ends. -/
def ApiCall.unmaps : ApiCall → List Id
  | .unmapBuffer b => [b]
  | _ => []

def ApiCall.code : ApiCall → List Instr
  | .openDevice => [.openInner, .ret]
  | .openDeviceNewmode => [.openNewmode, .ret]
  | .retain x => [.retain x, .ret]
  | .release x => [.release x, .ret]
  | .createBuffer device => [.newBuffer device, .ret]
  | .mapBuffer b => [.mapCheck b, .ret]
  | .unmapBuffer b => [.mapDec b, .release b, .ret]
  | .createBufferGroup => [.newGroup, .ret]
  | .addBufferToGroup g b flags => [.add g b flags, .ret]
  | .setBufferInGroup g i b flags => [.retain b, .swap g i b flags, .ret]
  | .getBufferFromGroup g i => [.get g i, .ret]
  | .createQueue d => [.retain d, .newQueue d, .ret]
  | .enqueueCommand q g evt => [.newRequest q g evt false, .ret]
  | .runCommandSync q g => [.newRequest q g true true, .ret]
  | .wait e => [.wait e, .ret]
  | .eventStatus e => [.eventStatus e, .ret]

inductive HostLabel
  /-- A new client thread. -/
  | attach
  | call (t : Nat) (c : ApiCall)
  | run (t : Nat) (ok : Bool)
  deriving DecidableEq

def Host.step (s : Host) : HostLabel → Option Host
  | .attach => some { s with threads := s.threads ++ [.idle] }
  | .call t c =>
    match s.threads[t]? with
    | some f =>
      if f.role = none ∧ f.code = [] ∧ (c.uses : Multiset Id) ≤ s.pool ∧ (c.unmaps : Multiset Id) ≤ s.maps then
        some { s.frame t { f with code := c.code, held := c.uses + c.unmaps } with
          pool := s.pool - c.uses
          maps := s.maps - c.unmaps }
      else none
    | none => none
  | .run t ok =>
    match s.threads[t]? with
    | some f =>
      match f.code with
      | i :: rest => if (i.accesses s).any s.gone then some { s with fault := true } else s.exec t f rest ok i
      | [] => none
    | none => none

def Host.start : Host := ⟨[], [], [], 0, 0, 0, 0, [], [], false, false⟩

/-- Nothing happens after a fault or a crash. -/
def host : System Host HostLabel where
  init := fun s => s = .start
  step := fun s l => if s.fault ∨ s.crashed then none else s.step l

end Vdsp
