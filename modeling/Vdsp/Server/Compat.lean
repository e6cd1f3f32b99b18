import Vdsp.Lib.Parcel
import Vdsp.Server.Threads

/-!
# Handles for both ways to the DSP (`sprd_cavdsp_*_compat`)

The compatible interface allocates a `struct vdsp_wrap_handle` for each open, and a `struct vdsp_handle` beside it
when the device is opened by the service; a close frees them when the device is closed.  It runs here over the
server-mode client of `Vdsp.Server.Threads`, under any number of threads: what a call does before and after the
call of the client is a step with the first and the last step of that call.  Its blocks are its own then, so no
other thread can tell.

The subject are the two structures and the handles in them.  A load, a store or a `free` of a structure that is
not allocated, a load of what was not stored, and a direct call on a device that is not open set `fault`.  What
a command does with its buffers is in `Vdsp.Command`, and how often `gLock` is given back in `Vdsp.Server.Lock`.
-/

namespace Vdsp

open Lts Parcel

/-- `enum sprd_vdsp_interface_type`. -/
inductive SprdVdspInterfaceType
  | directly
  | byserver
  | max
  deriving DecidableEq, Repr

/-- The two structures that are allocated, with indeterminate fields at first.  The pointers that are stored are
not `NULL`. -/
inductive CompatBlock
  | wrapHandle (fields : Option (SprdVdspInterfaceType × Addr))
  | vdspHandle (fields : Option Handle)
  deriving DecidableEq

abbrev CompatHeap := Heap Addr CompatBlock

/-- `wrap_handle->type` and `wrap_handle->handle`. -/
def wrapFields (heap : CompatHeap) (w : Addr) : Option (SprdVdspInterfaceType × Addr) :=
  match heap w with
  | some (.wrapHandle fields) => fields
  | _ => none

/-- The fields of a `struct vdsp_handle`. -/
def vdspFields (heap : CompatHeap) (v : Addr) : Option Handle :=
  match heap v with
  | some (.vdspHandle fields) => fields
  | _ => none

/-- `sprd_cavdsp_open_device_compat` after `sprd_vdsp_open_device_direc`, with `NULL` or a device: the heap. -/
def openedDirectly (heap : CompatHeap) (w : Addr) (directhandle : Option Addr) : Option CompatHeap :=
  match directhandle with
  | some device => store heap w (.wrapHandle (some (.directly, device)))
  | none => free heap w

/-- `sprd_cavdsp_open_device_compat` after `sprd_vdsp_open_device_serv`, which has filled `*vdsphandle`. -/
def openedByServer (heap : CompatHeap) (w v : Addr) (ret : SprdVdspResult) (filled : Option Handle) :
    Option CompatHeap :=
  if ret = .success then
    (store heap v (.vdspHandle filled)).bind fun heap => store heap w (.wrapHandle (some (.byserver, v)))
  else (free heap w).bind fun heap => free heap v

/-- `sprd_cavdsp_close_device_compat` after `sprd_vdsp_close_device_serv`. -/
def closedByServer (heap : CompatHeap) (w : Addr) (ret : SprdVdspResult) : Option CompatHeap :=
  if ret = .success ∨ ret = .oldGeneration then
    (wrapFields heap w).bind fun fields => (free heap fields.2).bind fun heap => free heap w
  else some heap

/-- What a client has, or will have when its open succeeds: a direct device, or a handle of the service. -/
inductive Grant
  | opening (t : Nat) (wrap vdsp : Addr)
  | direct (wrap device : Addr)
  | served (wrap vdsp : Addr) (h : Handle)
  deriving DecidableEq

def Grant.wrap : Grant → Addr
  | opening _ w _ | direct w _ | served w _ _ => w

/-- A thread in a call that has gone on to the server-mode client. -/
inductive CompatCall
  | idle
  | opening (wrap vdsp : Addr)
  | closing (wrap : Addr)
  | inUse (wrap : Addr)
  deriving DecidableEq, Repr

/-- The threads over the heap and the two back ends.  `busy` are the threads inside a call by the service, and
`grants` what the clients have. -/
structure Compat where
  server : ServerClient
  heap : CompatHeap
  thread : Nat → CompatCall
  devices : Finset Addr
  fault : Bool
  busy : Finset Nat
  grants : Finset Grant

inductive CompatEvent
  /-- `sprd_cavdsp_open_device_compat`: the type, and the answers of `malloc`, of the driver and of `getService`. -/
  | callOpen (t : Nat) (intType : SprdVdspInterfaceType) (workType : SprdVdspWorktype) (wrap vdsp device : Option Addr)
      (service : Option Service)
  | callClose (t : Nat) (handle : Option Addr)
  /-- One of the four other calls. -/
  | callUse (t : Nat) (use : Use) (handle : Option Addr)
  /-- A step of a thread inside the server-mode client, or the death of the service. -/
  | inside (e : Event)
  deriving DecidableEq, Repr

/-- The thread of a step inside a call. -/
def Event.insideOf : Event → Option Nat
  | .openLocked t _ | .openError t | .closeLocked t _ | .useLocked t _ | .rpcDone t _ => some t
  | .callOpen .. | .callClose .. | .callUse .. | .serviceDied => none

/-- The step begins a call. -/
def Event.begins : Event → Bool
  | .callOpen .. | .callClose .. | .callUse .. => true
  | .openLocked .. | .openError _ | .closeLocked .. | .useLocked .. | .rpcDone .. | .serviceDied => false

/-- The handle that the step fills. -/
def ServerClient.filled (s : ServerClient) : Event → Option Handle
  | .openLocked t ret =>
    match s.thread t with
    | .opening type _ =>
      match (openDeviceLocked s.g type ret).2.1 with
      | .openok hnd => some ⟨s.nextId, hnd.fd, hnd.generation, type, s.epoch⟩
      | .openerror _ => none
    | _ => none
  | _ => none

/-- `sprd_vdsp_open_device_direc`: no device is opened for an unknown type. -/
def openDeviceDirec (workType : SprdVdspWorktype) (device : Option Addr) : Option Addr :=
  match workType with
  | .normal | .faceid => device
  | .maxtype => none

namespace Compat

def goto (s : Compat) (t : Nat) (c : CompatCall) : Compat :=
  { s with thread := Function.update s.thread t c, busy := if c = .idle then s.busy.erase t else insert t s.busy }

/-- The step goes on with the heap, unless it is undefined. -/
def after (s : Compat) (heap : Option CompatHeap) (k : CompatHeap → Compat) : Compat :=
  heap.elim { s with fault := true } k

/-- `sprd_cavdsp_open_device_compat` up to the call of the client, or to its end. -/
def callOpen (s : Compat) (t : Nat) (intType : SprdVdspInterfaceType) (workType : SprdVdspWorktype)
    (wrap vdsp device : Option Addr) (service : Option Service) : Option Compat :=
  match wrap with
  | none => some s
  | some w =>
    (malloc s.heap w (.wrapHandle none)).bind fun heap =>
      match intType with
      | .directly =>
        match openDeviceDirec workType device with
        | some d =>
          -- the driver gives a device that is not open
          if d ∈ s.devices then none
          else some (s.after (openedDirectly heap w (some d)) fun heap =>
            { s with heap := heap, devices := insert d s.devices, grants := insert (.direct w d) s.grants })
        | none => some (s.after (openedDirectly heap w none) fun heap => { s with heap := heap })
      | .byserver =>
        match vdsp with
        | none => some (s.after (free heap w) fun heap => { s with heap := heap })
        | some v =>
          (malloc heap v (.vdspHandle none)).bind fun heap =>
            (s.server.step (.callOpen t workType false service)).map fun p =>
              match p.2.result with
              | none =>
                goto { s with server := p.1, heap := heap, grants := insert (.opening t w v) s.grants } t (.opening w v)
              | some ret =>
                s.after (openedByServer heap w v ret none) fun heap => { s with server := p.1, heap := heap }
      | .max => some (s.after (free heap w) fun heap => { s with heap := heap })

/-- `sprd_cavdsp_close_device_compat` up to the call of the client, or to its end. -/
def callClose (s : Compat) (t : Nat) (handle : Option Addr) : Option Compat :=
  match handle with
  | none => some s
  | some w =>
    match wrapFields s.heap w with
    | none => some { s with fault := true }
    | some (.directly, d) =>
      -- `xrp_release_device`
      if d ∈ s.devices then
        some (s.after (free s.heap w) fun heap =>
          { s with heap := heap, devices := s.devices.erase d, grants := s.grants.erase (.direct w d) })
      else some { s with fault := true }
    | some (.byserver, v) =>
      match vdspFields s.heap v with
      | none => some { s with fault := true }
      | some h =>
        (s.server.step (.callClose t (some h))).map fun p =>
          match p.2.result with
          | none => goto { s with server := p.1 } t (.closing w)
          | some ret => s.after (closedByServer s.heap w ret) fun heap => { s with server := p.1, heap := heap }
    | some (.max, _) => some s

/-- The four other calls up to the call of the client, or to their end.  A direct call reads the device of its
handle, which has to be open, and changes neither the structures nor the set of open devices. -/
def callUse (s : Compat) (t : Nat) (use : Use) (handle : Option Addr) : Option Compat :=
  match handle with
  | none => some s
  | some w =>
    match wrapFields s.heap w with
    | none => some { s with fault := true }
    | some (.directly, d) => some (if d ∈ s.devices then s else { s with fault := true })
    | some (.byserver, v) =>
      match vdspFields s.heap v with
      | none => some { s with fault := true }
      | some h =>
        (s.server.step (.callUse t use (some h))).map fun p =>
          match p.2.result with
          | none => goto { s with server := p.1 } t (.inUse w)
          | some _ => { s with server := p.1 }
    | some (.max, _) => some s

/-- The rest of a call when the client has returned. -/
def finish (s : Compat) (t : Nat) (server : ServerClient) (ret : SprdVdspResult) (filled : Option Handle) : Compat :=
  match s.thread t with
  | .opening w v =>
    s.after (openedByServer s.heap w v ret filled) fun heap =>
      let grants := s.grants.erase (.opening t w v)
      let grants := filled.elim grants fun h => insert (.served w v h) grants
      goto { s with server := server, heap := heap, grants := grants } t .idle
  | .closing w =>
    s.after (closedByServer s.heap w ret) fun heap =>
      let grants :=
        if ret = .success ∨ ret = .oldGeneration then s.grants.filter fun g => g.wrap ≠ w else s.grants
      goto { s with server := server, heap := heap, grants := grants } t .idle
  | .inUse _ | .idle => goto { s with server := server } t .idle

def inside (s : Compat) (e : Event) : Option Compat :=
  if e.begins then none
  else (s.server.step e).map fun p =>
    match e.insideOf, p.2.result with
    | some t, some ret => s.finish t p.1 ret (s.server.filled e)
    | _, _ => { s with server := p.1 }

def step (s : Compat) : CompatEvent → Option Compat
  | .callOpen t intType workType wrap vdsp device service =>
    if s.thread t = .idle then s.callOpen t intType workType wrap vdsp device service else none
  | .callClose t handle => if s.thread t = .idle then s.callClose t handle else none
  | .callUse t use handle => if s.thread t = .idle then s.callUse t use handle else none
  | .inside e => s.inside e

def start : Compat where
  server := .start
  heap := fun _ => none
  thread := fun _ => .idle
  devices := ∅
  fault := false
  busy := ∅
  grants := ∅

end Compat

def compat : System Compat CompatEvent where
  init s := s = .start
  step := Compat.step

/-! ### What clients do with their handles -/

/-- The open has returned. -/
def Grant.granted : Grant → Bool
  | opening .. => false
  | direct .. | served .. => true

namespace Compat

/-- A client has the handle, and no thread is closing it. -/
def usable (s : Compat) (w : Addr) : Prop :=
  (∃ g ∈ s.grants, g.wrap = w ∧ g.granted = true) ∧ ∀ u ∈ s.busy, s.thread u ≠ .closing w

instance (s : Compat) (w : Addr) : Decidable (s.usable w) := inferInstanceAs (Decidable (_ ∧ _))

/-- No call uses the handle, either. -/
def closable (s : Compat) (w : Addr) : Prop := s.usable w ∧ ∀ u ∈ s.busy, s.thread u ≠ .inUse w

instance (s : Compat) (w : Addr) : Decidable (s.closable w) := inferInstanceAs (Decidable (_ ∧ _))

end Compat

/-- Clients pass handles that they have, and do not close one that is in use. -/
def keepsHandles (s : Compat) : CompatEvent → Prop
  | .callClose _ (some w) => s.closable w
  | .callUse _ _ (some w) => s.usable w
  | _ => True

instance (s : Compat) : (e : CompatEvent) → Decidable (keepsHandles s e)
  | .callClose _ (some w) => inferInstanceAs (Decidable (s.closable w))
  | .callUse _ _ (some w) => inferInstanceAs (Decidable (s.usable w))
  | .callOpen .. | .callClose _ none | .callUse _ _ none | .inside _ => inferInstanceAs (Decidable True)

/-! ### What the clients have -/

/-- The structures of a handle. -/
def Grant.cells : Grant → CompatHeap
  | opening _ w v => fun a =>
    if a = w then some (.wrapHandle none) else if a = v then some (.vdspHandle none) else none
  | direct w d => fun a => if a = w then some (.wrapHandle (some (.directly, d))) else none
  | served w v h => fun a =>
    if a = w then some (.wrapHandle (some (.byserver, v))) else if a = v then some (.vdspHandle (some h)) else none

/-- No structure was touched that was not allocated, and no device called that was not open; what is allocated are
the structures of the handles, and those of the opens that have not returned; the devices that are open are those
of the handles, and so are the live handles of the server-mode client, those that no close has ended, one for
each. -/
structure CompatOwned (s : Compat) : Prop where
  fault : s.fault = false
  owned : Owned Grant.cells s.grants s.heap
  devices : ∀ d, d ∈ s.devices ↔ ∃ w, .direct w d ∈ s.grants
  device_unique : ∀ w w' d, .direct w d ∈ s.grants → .direct w' d ∈ s.grants → w = w'
  live : ∀ h, h ∈ s.server.live ↔ ∃ w v, .served w v h ∈ s.grants
  live_unique : ∀ w v w' v' h, .served w v h ∈ s.grants → .served w' v' h ∈ s.grants → w = w'

/-- The open that a thread is in is the one that has its structures. -/
def Grant.Apart : Grant → Prop
  | opening _ w v | served w v _ => w ≠ v
  | direct .. => True

/-- What the thread does in the server-mode client. -/
def CompatCall.Matches (grants : Finset Grant) : CompatCall → Call → Prop
  | idle, c => c = .idle
  | opening .., c => (∃ type cs, c = .opening type cs) ∨ ∃ fd, c = .openError fd
  | closing w, c => ∃ v h cs, c = .closing h cs ∧ .served w v h ∈ grants
  | inUse _, c => (∃ use h cs, c = .calling use h cs) ∨ ∃ use h cs, c = .inFlight use h cs

structure CompatCalls (grants : Finset Grant) (thread : Nat → CompatCall) (server : Nat → Call)
    (busy : Finset Nat) : Prop where
  opening : ∀ t w v, .opening t w v ∈ grants ↔ thread t = .opening w v
  calls : ∀ t, (thread t).Matches grants (server t)
  exclusive : ∀ t u w, thread t = .closing w → thread u = .closing w → t = u
  busy : ∀ t, thread t ≠ .idle → t ∈ busy

structure CompatInv (s : Compat) : Prop where
  owns : CompatOwned s
  apart : ∀ g ∈ s.grants, g.Apart
  fresh : ∀ h ∈ s.server.live, h.id < s.server.nextId
  calls : CompatCalls s.grants s.thread s.server.thread s.busy

private theorem CompatCall.Matches.mono {grants grants' : Finset Grant} {c : CompatCall} {call : Call}
    (hm : c.Matches grants call)
    (hserved : ∀ w v h, c = .closing w → .served w v h ∈ grants → .served w v h ∈ grants') :
    c.Matches grants' call := by
  cases c with
  | idle | opening | inUse => exact hm
  | closing w =>
    obtain ⟨v, h, cs, he, hg⟩ := hm
    exact ⟨v, h, cs, he, hserved w v h rfl hg⟩

section Calls

variable {grants grants' : Finset Grant} {thread : Nat → CompatCall} {server server' : Nat → Call}
  {busy : Finset Nat} {t : Nat}

theorem CompatCalls.not_opening (hc : CompatCalls grants thread server busy) {w v : Addr}
    (ht : thread t ≠ .opening w v) : .opening t w v ∉ grants := fun hg => ht ((hc.opening t w v).1 hg)

/-- A thread is in one open. -/
theorem CompatCalls.not_opening_erase (hc : CompatCalls grants thread server busy) {w v w' v' : Addr}
    (ht : thread t = .opening w v) : .opening t w' v' ∉ grants.erase (.opening t w v) := by
  intro hmem
  obtain ⟨hne, hmem⟩ := Finset.mem_erase.1 hmem
  have h := (hc.opening t w' v').1 hmem
  rw [ht] at h
  cases h
  exact hne rfl

/-- One thread goes on, and the others keep what they rely on. -/
theorem CompatCalls.update (hc : CompatCalls grants thread server busy) (t : Nat) (c : CompatCall)
    (hserver : ∀ u, u ≠ t → server' u = server u)
    (hothers : ∀ u w v, u ≠ t → (.opening u w v ∈ grants' ↔ .opening u w v ∈ grants))
    (hself : ∀ w v, .opening t w v ∈ grants' ↔ c = .opening w v)
    (hserved : ∀ u w v h, u ≠ t → thread u = .closing w → .served w v h ∈ grants → .served w v h ∈ grants')
    (hmatch : c.Matches grants' (server' t)) (hexcl : ∀ u w, u ≠ t → c = .closing w → thread u ≠ .closing w) :
    CompatCalls grants' (Function.update thread t c) server'
      (if c = .idle then busy.erase t else insert t busy) := by
  refine ⟨fun u w v => ?_, fun u => ?_, fun u u' w hu hu' => ?_, fun u hu => ?_⟩
  · by_cases hut : u = t
    · rw [hut, Function.update_self]
      exact hself w v
    · rw [Function.update_of_ne hut, hothers u w v hut]
      exact hc.opening u w v
  · by_cases hut : u = t
    · rw [hut, Function.update_self]
      exact hmatch
    · rw [Function.update_of_ne hut, hserver u hut]
      exact (hc.calls u).mono fun w v h hp hg => hserved u w v h hut hp hg
  · by_cases hut : u = t <;> by_cases hut' : u' = t
    · rw [hut, hut']
    · rw [hut, Function.update_self] at hu
      rw [Function.update_of_ne hut'] at hu'
      exact absurd hu' (hexcl u' w hut' hu)
    · rw [hut', Function.update_self] at hu'
      rw [Function.update_of_ne hut] at hu
      exact absurd hu (hexcl u w hut hu')
    · rw [Function.update_of_ne hut] at hu
      rw [Function.update_of_ne hut'] at hu'
      exact hc.exclusive u u' w hu hu'
  · by_cases hut : u = t
    · rw [hut, Function.update_self] at hu
      rw [if_neg hu, hut]
      exact Finset.mem_insert_self t busy
    · rw [Function.update_of_ne hut] at hu
      split
      · exact Finset.mem_erase.2 ⟨hut, hc.busy u hu⟩
      · exact Finset.mem_insert_of_mem (hc.busy u hu)

/-- No open begins or ends, and no handle goes that is being closed. -/
theorem CompatCalls.regrant (hc : CompatCalls grants thread server busy)
    (hopening : ∀ u w v, .opening u w v ∈ grants' ↔ .opening u w v ∈ grants)
    (hserved : ∀ w v h, .served w v h ∈ grants → .served w v h ∈ grants') :
    CompatCalls grants' thread server busy := by
  refine ⟨fun u w v => ?_, fun u => ?_, hc.exclusive, hc.busy⟩
  · rw [hopening]
    exact hc.opening u w v
  · exact (hc.calls u).mono fun w v h _ hg => hserved w v h hg

/-- One thread goes on in the server-mode client. -/
theorem CompatCalls.inside (hc : CompatCalls grants thread server busy)
    (hserver : ∀ u, u ≠ t → server' u = server u) (hmatch : (thread t).Matches grants (server' t)) :
    CompatCalls grants thread server' busy := by
  refine ⟨hc.opening, fun u => ?_, hc.exclusive, hc.busy⟩
  by_cases hut : u = t
  · rw [hut]
    exact hmatch
  · rw [hserver u hut]
    exact hc.calls u

end Calls

/-! ### Steps of the server-mode client -/

/-- What a step inside a call of the thread `t` does: the result if the call ends, and the handle it fills. -/
inductive InsideStep (s s' : ServerClient) (t : Nat) : Option SprdVdspResult → Option Handle → Prop
  | openFails {type : SprdVdspWorktype} {cs : Service} {fd : Int} (h : s.thread t = .opening type cs)
      (h' : s'.thread t = .openError fd) (hlive : s'.live = s.live) (hnext : s'.nextId = s.nextId) :
      InsideStep s s' t none none
  | issues {use : Use} {h : Handle} {cs : Service} (ht : s.thread t = .calling use h cs)
      (ht' : s'.thread t = .inFlight use h cs) (hlive : s'.live = s.live) (hnext : s'.nextId = s.nextId) :
      InsideStep s s' t none none
  | opened {type : SprdVdspWorktype} {cs : Service} {h : Handle} (ht : s.thread t = .opening type cs)
      (ht' : s'.thread t = .idle) (hid : h.id = s.nextId) (hlive : s'.live = insert h s.live)
      (hnext : s'.nextId = s.nextId + 1) : InsideStep s s' t (some .success) (some h)
  | notOpened {fd : Int} (h : s.thread t = .openError fd) (h' : s'.thread t = .idle) (hlive : s'.live = s.live)
      (hnext : s'.nextId = s.nextId) : InsideStep s s' t (some .fail) none
  | notClosed {h : Handle} {cs : Service} (ht : s.thread t = .closing h cs) (ht' : s'.thread t = .idle)
      (hlive : s'.live = s.live) (hnext : s'.nextId = s.nextId) : InsideStep s s' t (some .fail) none
  | closed {h : Handle} {cs : Service} {ret : SprdVdspResult} (ht : s.thread t = .closing h cs)
      (ht' : s'.thread t = .idle) (hret : ret = .success ∨ ret = .oldGeneration)
      (hlive : s'.live = s.live.erase h) (hnext : s'.nextId = s.nextId) : InsideStep s s' t (some ret) none
  | used {use : Use} {h : Handle} {cs : Service} {ret : SprdVdspResult}
      (ht : s.thread t = .calling use h cs ∨ s.thread t = .inFlight use h cs) (ht' : s'.thread t = .idle)
      (hlive : s'.live = s.live) (hnext : s'.nextId = s.nextId) : InsideStep s s' t (some ret) none

private theorem goto_thread (s : ServerClient) (t : Nat) (c : Call) :
    (s.goto t c).thread t = c ∧ ∀ u, u ≠ t → (s.goto t c).thread u = s.thread u :=
  ⟨Function.update_self .., fun _ hu => Function.update_of_ne hu ..⟩

private theorem inside_step {s s' : ServerClient} {e : Event} {r : Reply} {t : Nat} (ht : e.insideOf = some t)
    (hs : s.step e = some (s', r)) :
    InsideStep s s' t r.result (s.filled e) ∧ ∀ u, u ≠ t → s'.thread u = s.thread u := by
  cases e with
  | callOpen | callClose | callUse | serviceDied => cases ht
  | openLocked t' ret =>
    cases ht
    simp only [ServerClient.step] at hs
    split at hs
    · rename_i type cs hth
      have hs := (Option.some.inj hs).symm
      have hfilled : s.filled (.openLocked t ret) = match (openDeviceLocked s.g type ret).2.1 with
          | .openok hnd => some ⟨s.nextId, hnd.fd, hnd.generation, type, s.epoch⟩
          | .openerror _ => none := by simp only [ServerClient.filled, hth]
      rw [hfilled]
      unfold ServerClient.openLocked at hs
      rcases hopen : openDeviceLocked s.g type ret with ⟨g, exit, rpcs⟩
      rw [hopen] at hs
      cases exit with
      | openok hnd =>
        cases hs
        exact ⟨.opened hth (goto_thread s t .idle).1 rfl rfl rfl, (goto_thread s t .idle).2⟩
      | openerror fd =>
        cases hs
        exact ⟨.openFails hth (goto_thread s t (.openError fd)).1 rfl rfl, (goto_thread s t (.openError fd)).2⟩
    · cases hs
  | openError t' =>
    cases ht
    simp only [ServerClient.step] at hs
    split at hs
    · rename_i fd hth
      cases hs
      exact ⟨.notOpened hth (goto_thread s t .idle).1 rfl rfl, (goto_thread s t .idle).2⟩
    · cases hs
  | closeLocked t' ret =>
    cases ht
    simp only [ServerClient.step] at hs
    split at hs
    · rename_i h cs hth
      have hs := (Option.some.inj hs).symm
      have hthread := goto_thread s t .idle
      rcases s.closeLocked_cases t h ret with
        ⟨-, he⟩ | ⟨-, -, he⟩ | ⟨-, -, rpcs, he, -⟩ | ⟨-, -, -, he⟩ | ⟨-, -, -, he⟩
      · rw [he] at hs
        cases hs
        exact ⟨.closed hth hthread.1 (.inr rfl) rfl rfl, hthread.2⟩
      · rw [he] at hs
        cases hs
        exact ⟨.notClosed hth hthread.1 rfl rfl, hthread.2⟩
      · rw [he] at hs
        cases hs
        exact ⟨.notClosed hth hthread.1 rfl rfl, hthread.2⟩
      · rw [he] at hs
        cases hs
        exact ⟨.closed hth hthread.1 (.inl rfl) rfl rfl, hthread.2⟩
      · rw [he] at hs
        cases hs
        exact ⟨.closed hth hthread.1 (.inl rfl) rfl rfl, hthread.2⟩
    · cases hs
  | useLocked t' params =>
    cases ht
    simp only [ServerClient.step] at hs
    split at hs
    · rename_i use h cs hth
      split at hs
      · cases hs
        exact ⟨.used (.inl hth) (goto_thread s t .idle).1 rfl rfl, (goto_thread s t .idle).2⟩
      · cases hs
        have hthread := goto_thread s t (.inFlight use h cs)
        exact ⟨.issues hth hthread.1 rfl rfl, hthread.2⟩
    · cases hs
  | rpcDone t' ret =>
    cases ht
    simp only [ServerClient.step] at hs
    split at hs
    · rename_i use h cs hth
      cases hs
      exact ⟨.used (.inr hth) (goto_thread s t .idle).1 rfl rfl, (goto_thread s t .idle).2⟩
    · cases hs

/-- What a step does that begins a call of the thread `t`, which goes on as `call`. -/
structure BeginStep (s s' : ServerClient) (t : Nat) (call : Service → Call) (result : Option SprdVdspResult) :
    Prop where
  live : s'.live = s.live
  nextId : s'.nextId = s.nextId
  others : ∀ u, u ≠ t → s'.thread u = s.thread u
  self : (result = none ∧ ∃ cs, s'.thread t = call cs) ∨ (result = some .fail ∧ s'.thread t = .idle)

private theorem callOpen_step {s s' : ServerClient} {t : Nat} {type : SprdVdspWorktype} {service : Option Service}
    {r : Reply} (hs : s.step (.callOpen t type false service) = some (s', r)) :
    BeginStep s s' t (.opening type) r.result := by
  simp only [ServerClient.step] at hs
  split at hs
  · rename_i hidle
    split at hs
    · rename_i cs _ _
      cases hs
      have hthread := goto_thread (s.connect service) t (.opening type cs)
      exact ⟨rfl, rfl, hthread.2, .inl ⟨rfl, cs, hthread.1⟩⟩
    · cases hs
      exact ⟨rfl, rfl, fun _ _ => rfl, .inr ⟨rfl, hidle⟩⟩
  · cases hs

private theorem callClose_step {s s' : ServerClient} {t : Nat} {h : Handle} {r : Reply}
    (hs : s.step (.callClose t (some h)) = some (s', r)) : BeginStep s s' t (.closing h) r.result := by
  simp only [ServerClient.step] at hs
  split at hs
  · rename_i hidle
    split at hs
    · rename_i x cs hx _
      cases hx
      cases hs
      have hthread := goto_thread s t (.closing h cs)
      exact ⟨rfl, rfl, hthread.2, .inl ⟨rfl, cs, hthread.1⟩⟩
    · cases hs
      exact ⟨rfl, rfl, fun _ _ => rfl, .inr ⟨rfl, hidle⟩⟩
  · cases hs

private theorem callUse_step {s s' : ServerClient} {t : Nat} {use : Use} {h : Handle} {r : Reply}
    (hs : s.step (.callUse t use (some h)) = some (s', r)) : BeginStep s s' t (.calling use h) r.result := by
  simp only [ServerClient.step] at hs
  split at hs
  · rename_i hidle
    split at hs
    · rename_i x cs hx _
      cases hx
      cases hs
      have hthread := goto_thread s t (.calling use h cs)
      exact ⟨rfl, rfl, hthread.2, .inl ⟨rfl, cs, hthread.1⟩⟩
    · cases hs
      exact ⟨rfl, rfl, fun _ _ => rfl, .inr ⟨rfl, hidle⟩⟩
  · cases hs

/-! ### The steps keep what the clients have -/

variable {s s' : Compat} {t : Nat} {w v d : Addr} {h : Handle}

theorem CompatInv.start : CompatInv .start := by
  refine ⟨⟨rfl, owned_empty _, ?_, ?_, ?_, ?_⟩, ?_, ?_, ⟨?_, ?_, ?_, ?_⟩⟩ <;>
    simp [Compat.start, ServerClient.start, CompatCall.Matches]

/-- The fields of the structures of a direct handle. -/
private theorem CompatOwned.direct (ho : CompatOwned s) (hg : .direct w d ∈ s.grants) :
    s.heap w = some (.wrapHandle (some (.directly, d))) :=
  ho.owned.load hg (by simp [Grant.cells])

private theorem CompatInv.served (hi : CompatInv s) (hg : .served w v h ∈ s.grants) :
    s.heap w = some (.wrapHandle (some (.byserver, v))) ∧ s.heap v = some (.vdspHandle (some h)) ∧ w ≠ v := by
  have hne : w ≠ v := hi.apart _ hg
  refine ⟨hi.owns.owned.load hg (by simp [Grant.cells]), hi.owns.owned.load hg ?_, hne⟩
  simp [Grant.cells, hne.symm]

/-- A handle of the service has two structures. -/
private theorem isSome_pair (a w v : Addr) (b b' : CompatBlock) :
    (if a = w then some b else if a = v then some b' else none).isSome = true ↔ a = w ∨ a = v := by
  split
  · rename_i hw
    simp [hw]
  · rename_i hw
    split <;> rename_i hv <;> simp [hw, hv]

/-- A wrapper belongs to one handle. -/
private theorem CompatOwned.unique (ho : CompatOwned s) {g g' : Grant} (hg : g ∈ s.grants) (hg' : g' ∈ s.grants)
    (hw : g.wrap = g'.wrap) : g = g' := by
  have hcell : ∀ g : Grant, ∃ b, g.cells g.wrap = some b := by
    intro g
    cases g <;> exact ⟨_, if_pos rfl⟩
  obtain ⟨b, hb⟩ := hcell g
  obtain ⟨b', hb'⟩ := hcell g'
  rw [← hw] at hb'
  exact ho.owned.apart g hg g' hg' g.wrap b b' hb hb'

/-- The clients have what they had. -/
private theorem CompatInv.same (hi : CompatInv s) {server : ServerClient} {thread : Nat → CompatCall}
    {busy : Finset Nat} (hlive : server.live = s.server.live) (hnext : server.nextId = s.server.nextId)
    (hcalls : CompatCalls s.grants thread server.thread busy) :
    CompatInv { s with server := server, thread := thread, busy := busy } := by
  refine ⟨⟨hi.owns.fault, hi.owns.owned, hi.owns.devices, hi.owns.device_unique, ?_, hi.owns.live_unique⟩, hi.apart,
    ?_, hcalls⟩
  · show ∀ h, h ∈ server.live ↔ _
    rw [hlive]
    exact hi.owns.live
  · show ∀ h ∈ server.live, h.id < server.nextId
    rw [hlive, hnext]
    exact hi.fresh

/-- A thread goes on to another call than an open, and the clients have what they had. -/
private theorem CompatInv.goes (hi : CompatInv s) {server : ServerClient} {c : CompatCall}
    (ht : ∀ w v, s.thread t ≠ .opening w v) (hc : ∀ w v, c ≠ .opening w v) (hlive : server.live = s.server.live)
    (hnext : server.nextId = s.server.nextId) (hothers : ∀ u, u ≠ t → server.thread u = s.server.thread u)
    (hmatch : c.Matches s.grants (server.thread t))
    (hexcl : ∀ u w, u ≠ t → c = .closing w → s.thread u ≠ .closing w) :
    CompatInv (Compat.goto { s with server := server } t c) := by
  refine hi.same hlive hnext (hi.calls.update t c hothers (fun _ _ _ _ => Iff.rfl) (fun w v => ?_)
    (fun _ _ _ _ _ _ hg => hg) hmatch hexcl)
  exact iff_of_false (hi.calls.not_opening (ht w v)) (hc w v)

/-- A call that is refused before it reaches its locked block. -/
private theorem CompatInv.refused (hi : CompatInv s) (ht : s.thread t = .idle) {server : ServerClient}
    {call : Service → Call} {result : Option SprdVdspResult} (hb : BeginStep s.server server t call result)
    (hself : server.thread t = .idle) : CompatInv { s with server := server } := by
  refine hi.same hb.live hb.nextId (hi.calls.inside hb.others ?_)
  rw [ht]
  exact hself

/-- A call through a handle that reaches its locked block. -/
private theorem CompatInv.enters (hi : CompatInv s) {server : ServerClient} {c : CompatCall}
    {call : Service → Call} {result : Option SprdVdspResult} (hb : BeginStep s.server server t call result)
    (ht : s.thread t = .idle) (hc : ∀ w v, c ≠ .opening w v) (hmatch : c.Matches s.grants (server.thread t))
    (hexcl : ∀ u w, u ≠ t → c = .closing w → s.thread u ≠ .closing w) :
    CompatInv (Compat.goto { s with server := server } t c) :=
  hi.goes (by simp [ht]) hc hb.live hb.nextId hb.others hmatch hexcl

/-- The structures of an open that fails are freed. -/
private theorem openedByServer_of_malloc {heap heap₁ heap₂ : CompatHeap} {b b' : CompatBlock}
    {ret : SprdVdspResult} {filled : Option Handle} (h₁ : malloc heap w b = some heap₁)
    (h₂ : malloc heap₁ v b' = some heap₂) (hret : ret ≠ .success) :
    openedByServer heap₂ w v ret filled = some heap := by
  obtain ⟨hw, rfl⟩ := malloc_eq_some.1 h₁
  obtain ⟨hv, rfl⟩ := malloc_eq_some.1 h₂
  have hne : w ≠ v := by
    rintro rfl
    rw [Function.update_self] at hv
    cases hv
  rw [Function.update_of_ne hne.symm] at hv
  rw [openedByServer, if_neg hret, free_eq (b := b) (by rw [Function.update_of_ne hne, Function.update_self]),
    Option.bind_some, free_eq (b := b') (by rw [Function.update_of_ne hne.symm, Function.update_self])]
  refine congrArg some (funext fun a => ?_)
  by_cases hav : a = v
  · rw [hav, Function.update_self, hv]
  · by_cases haw : a = w
    · rw [haw, Function.update_of_ne hne, Function.update_self, hw]
    · rw [Function.update_of_ne hav, Function.update_of_ne haw, Function.update_of_ne hav,
        Function.update_of_ne haw]

/-- A direct device is opened. -/
private theorem CompatInv.openDirect (hi : CompatInv s) (hd : d ∉ s.devices) {heap : CompatHeap}
    (hm : malloc s.heap w (.wrapHandle none) = some heap) : ∃ heap',
      openedDirectly heap w (some d) = some heap' ∧ CompatInv
        { s with heap := heap', devices := insert d s.devices, grants := insert (.direct w d) s.grants } := by
  obtain ⟨hw, rfl⟩ := malloc_eq_some.1 hm
  have hnew : ∀ w', .direct w' d ∉ s.grants := fun w' hg => hd ((hi.owns.devices d).2 ⟨w', hg⟩)
  refine ⟨_, store_eq (Function.update_self w (some (.wrapHandle none)) s.heap), ?_⟩
  rw [Function.update_idem]
  refine ⟨⟨hi.owns.fault, ?_, fun d' => ?_, fun w₁ w₂ d' h₁ h₂ => ?_, fun h => ?_, fun w₁ v₁ w₂ v₂ h h₁ h₂ => ?_⟩,
    fun g hg => ?_, hi.fresh, ?_⟩
  · refine hi.owns.owned.add (fun a b hab => ?_) fun a => ?_
    · by_cases haw : a = w
      · rw [haw, hw]
      · simp [Grant.cells, haw] at hab
    · by_cases haw : a = w
      · simp [Grant.cells, haw]
      · simp [Grant.cells, haw]
  · simp only [Finset.mem_insert, hi.owns.devices, Grant.direct.injEq]
    constructor
    · rintro (rfl | ⟨w', hg⟩)
      · exact ⟨w, .inl ⟨rfl, rfl⟩⟩
      · exact ⟨w', .inr hg⟩
    · rintro ⟨w', ⟨-, rfl⟩ | hg⟩
      · exact .inl rfl
      · exact .inr ⟨w', hg⟩
  · simp only [Finset.mem_insert, Grant.direct.injEq] at h₁ h₂
    rcases h₁ with ⟨rfl, rfl⟩ | h₁ <;> rcases h₂ with ⟨rfl, h⟩ | h₂
    · rfl
    · exact absurd h₂ (hnew w₂)
    · subst h
      exact absurd h₁ (hnew w₁)
    · exact hi.owns.device_unique w₁ w₂ d' h₁ h₂
  · simpa using hi.owns.live h
  · exact hi.owns.live_unique w₁ v₁ w₂ v₂ h (by simpa using h₁) (by simpa using h₂)
  · rcases Finset.mem_insert.1 hg with rfl | hg
    · trivial
    · exact hi.apart g hg
  · exact hi.calls.regrant (by simp) (by simp)

/-- A direct device is released. -/
private theorem CompatInv.closeDirect (hi : CompatInv s) (hg : .direct w d ∈ s.grants) : ∃ heap,
    free s.heap w = some heap ∧ CompatInv
      { s with heap := heap, devices := s.devices.erase d, grants := s.grants.erase (.direct w d) } := by
  refine ⟨_, free_eq (hi.owns.direct hg), ?_⟩
  refine ⟨⟨hi.owns.fault, ?_, fun d' => ?_, fun w₁ w₂ d' h₁ h₂ => ?_, fun h => ?_, fun w₁ v₁ w₂ v₂ h h₁ h₂ => ?_⟩,
    fun g hg => ?_, hi.fresh, ?_⟩
  · refine hi.owns.owned.drop hg fun a => ?_
    by_cases haw : a = w <;> simp [Grant.cells, haw]
  · simp only [Finset.mem_erase, hi.owns.devices]
    constructor
    · rintro ⟨hne, w', hg'⟩
      exact ⟨w', by simp [hne], hg'⟩
    · rintro ⟨w', hne, hg'⟩
      refine ⟨fun h => hne ?_, w', hg'⟩
      rw [h] at hg' ⊢
      rw [hi.owns.device_unique w' w d hg' hg]
  · exact hi.owns.device_unique w₁ w₂ d' (Finset.mem_of_mem_erase h₁) (Finset.mem_of_mem_erase h₂)
  · simpa using hi.owns.live h
  · exact hi.owns.live_unique w₁ v₁ w₂ v₂ h (Finset.mem_of_mem_erase h₁) (Finset.mem_of_mem_erase h₂)
  · exact hi.apart g (Finset.mem_of_mem_erase hg)
  · exact hi.calls.regrant (by simp) (by simp)

/-- The structures of an open by the service, which has gone on to the client. -/
private theorem CompatInv.beginOpen (hi : CompatInv s) (ht : s.thread t = .idle) {heap₁ heap₂ : CompatHeap}
    {server : ServerClient} {type : SprdVdspWorktype} {result : Option SprdVdspResult}
    (h₁ : malloc s.heap w (.wrapHandle none) = some heap₁) (h₂ : malloc heap₁ v (.vdspHandle none) = some heap₂)
    (hb : BeginStep s.server server t (.opening type) result) (hself : ∃ cs, server.thread t = .opening type cs) :
    CompatInv (Compat.goto
      { s with server := server, heap := heap₂, grants := insert (.opening t w v) s.grants } t (.opening w v)) := by
  obtain ⟨hw, rfl⟩ := malloc_eq_some.1 h₁
  obtain ⟨hv, rfl⟩ := malloc_eq_some.1 h₂
  have hne : w ≠ v := by
    rintro rfl
    rw [Function.update_self] at hv
    cases hv
  rw [Function.update_of_ne hne.symm] at hv
  have hnot : ∀ w v, .opening t w v ∉ s.grants := fun w v => hi.calls.not_opening (by simp [ht])
  refine ⟨⟨hi.owns.fault, ?_, fun d' => ?_, fun w₁ w₂ d' h₁ h₂ => ?_, fun h => ?_, fun w₁ v₁ w₂ v₂ h h₁ h₂ => ?_⟩,
    fun g hg => ?_, ?_, ?_⟩
  · refine hi.owns.owned.add (fun a b hab => ?_) fun a => ?_
    · by_cases haw : a = w
      · rw [haw, hw]
      · by_cases hav : a = v
        · rw [hav, hv]
        · simp [Grant.cells, haw, hav] at hab
    · by_cases haw : a = w
      · simp [Compat.goto, Grant.cells, haw, hne]
      · by_cases hav : a = v <;> simp [Compat.goto, Grant.cells, haw, hav, hne.symm]
  · simpa [Compat.goto] using hi.owns.devices d'
  · exact hi.owns.device_unique w₁ w₂ d' (by simpa [Compat.goto] using h₁) (by simpa [Compat.goto] using h₂)
  · show h ∈ server.live ↔ _
    rw [hb.live]
    simpa [Compat.goto] using hi.owns.live h
  · exact hi.owns.live_unique w₁ v₁ w₂ v₂ h (by simpa [Compat.goto] using h₁) (by simpa [Compat.goto] using h₂)
  · rcases Finset.mem_insert.1 hg with rfl | hg
    · exact hne
    · exact hi.apart g hg
  · show ∀ h ∈ server.live, h.id < server.nextId
    rw [hb.live, hb.nextId]
    exact hi.fresh
  · refine hi.calls.update t (.opening w v) hb.others (fun u w' v' hut => ?_) (fun w' v' => ?_)
      (fun u w v h _ _ hg => Finset.mem_insert_of_mem hg) (.inl ⟨type, hself⟩) (fun u w' _ hc => by cases hc)
    · simp [Compat.goto, hut]
    · simp [Compat.goto, hnot, eq_comm]

/-- The structures of an open that fails are given back. -/
private theorem CompatInv.dropOpening (hi : CompatInv s) (ht : s.thread t = .opening w v) {server : ServerClient}
    (filled : Option Handle) {ret : SprdVdspResult} (hret : ret ≠ .success) (hidle : server.thread t = .idle)
    (hothers : ∀ u, u ≠ t → server.thread u = s.server.thread u) (hlive : server.live = s.server.live)
    (hnext : server.nextId = s.server.nextId) : ∃ heap, openedByServer s.heap w v ret filled = some heap ∧
      CompatInv (Compat.goto
        { s with server := server, heap := heap, grants := s.grants.erase (.opening t w v) } t .idle) := by
  have hg := (hi.calls.opening t w v).2 ht
  have hne : w ≠ v := hi.apart _ hg
  have hw : s.heap w = some (.wrapHandle none) := hi.owns.owned.load hg (by simp [Grant.cells])
  have hv : s.heap v = some (.vdspHandle none) := hi.owns.owned.load hg (by simp [Grant.cells, hne.symm])
  refine ⟨Function.update (Function.update s.heap w none) v none, ?_, ?_⟩
  · rw [openedByServer, if_neg hret, free_eq hw, Option.bind_some, free_eq (b := .vdspHandle none)]
    rw [Function.update_of_ne hne.symm, hv]
  refine ⟨⟨hi.owns.fault, ?_, fun d' => ?_, fun w₁ w₂ d' h₁ h₂ => ?_, fun h => ?_, fun w₁ v₁ w₂ v₂ h h₁ h₂ => ?_⟩,
    fun g hg => hi.apart g (Finset.mem_of_mem_erase hg), ?_, ?_⟩
  · exact hi.owns.owned.drop_pair hg fun a => isSome_pair a w v _ _
  · simpa [Compat.goto] using hi.owns.devices d'
  · exact hi.owns.device_unique w₁ w₂ d' (Finset.mem_of_mem_erase h₁) (Finset.mem_of_mem_erase h₂)
  · show h ∈ server.live ↔ _
    rw [hlive]
    simpa [Compat.goto] using hi.owns.live h
  · exact hi.owns.live_unique w₁ v₁ w₂ v₂ h (Finset.mem_of_mem_erase h₁) (Finset.mem_of_mem_erase h₂)
  · show ∀ h ∈ server.live, h.id < server.nextId
    rw [hlive, hnext]
    exact hi.fresh
  · refine hi.calls.update t .idle hothers (fun u w' v' hut => ?_) (fun w' v' => ?_)
      (fun u w v h _ _ hg => by simpa [Compat.goto] using hg) hidle nofun
    · simp [Compat.goto, hut]
    · refine iff_of_false (fun hmem => ?_) nofun
      exact hi.calls.not_opening_erase ht hmem

/-- The structures of an open become those of a handle of the service. -/
private theorem CompatInv.serve (hi : CompatInv s) (ht : s.thread t = .opening w v) {server : ServerClient}
    (hid : h.id = s.server.nextId) (hidle : server.thread t = .idle)
    (hothers : ∀ u, u ≠ t → server.thread u = s.server.thread u) (hlive : server.live = insert h s.server.live)
    (hnext : server.nextId = s.server.nextId + 1) : ∃ heap,
      openedByServer s.heap w v .success (some h) = some heap ∧ CompatInv (Compat.goto
        { s with
          server := server
          heap := heap
          grants := insert (.served w v h) (s.grants.erase (.opening t w v)) } t .idle) := by
  have hg := (hi.calls.opening t w v).2 ht
  have hne : w ≠ v := hi.apart _ hg
  have hw : s.heap w = some (.wrapHandle none) := hi.owns.owned.load hg (by simp [Grant.cells])
  have hv : s.heap v = some (.vdspHandle none) := hi.owns.owned.load hg (by simp [Grant.cells, hne.symm])
  have hnew : h ∉ s.server.live := by
    intro hmem
    have := hi.fresh h hmem
    omega
  have hnot : ∀ w' v', .served w' v' h ∉ s.grants := fun w' v' hmem => hnew ((hi.owns.live h).2 ⟨w', v', hmem⟩)
  refine ⟨Function.update (Function.update s.heap v (some (.vdspHandle (some h)))) w
    (some (.wrapHandle (some (.byserver, v)))), ?_, ?_⟩
  · rw [openedByServer, if_pos rfl, store_eq hv, Option.bind_some, store_eq]
    rw [Function.update_of_ne hne, hw]
  refine ⟨⟨hi.owns.fault, ?_, fun d' => ?_, fun w₁ w₂ d' h₁ h₂ => ?_, fun h' => ?_,
    fun w₁ v₁ w₂ v₂ h' h₁ h₂ => ?_⟩, fun g hg => ?_, ?_, ?_⟩
  · have hdrop : Owned Grant.cells (s.grants.erase (.opening t w v))
        (Function.update (Function.update s.heap w none) v none) :=
      hi.owns.owned.drop_pair hg fun a => isSome_pair a w v _ _
    refine hdrop.add (fun a b hab => ?_) fun a => ?_
    · by_cases haw : a = w
      · simp [haw, hne]
      · by_cases hav : a = v
        · simp [hav]
        · simp [Grant.cells, haw, hav] at hab
    · by_cases haw : a = w
      · simp [Compat.goto, Grant.cells, haw]
      · by_cases hav : a = v <;> simp [Compat.goto, Grant.cells, haw, hav, hne.symm]
  · simpa [Compat.goto] using hi.owns.devices d'
  · exact hi.owns.device_unique w₁ w₂ d' (by simpa [Compat.goto] using h₁) (by simpa [Compat.goto] using h₂)
  · show h' ∈ server.live ↔ _
    rw [hlive, Finset.mem_insert, hi.owns.live]
    simp only [Compat.goto, Finset.mem_insert, Finset.mem_erase, Grant.served.injEq, ne_eq, reduceCtorEq,
      not_false_eq_true, true_and]
    constructor
    · rintro (rfl | ⟨w', v', hmem⟩)
      · exact ⟨w, v, .inl ⟨rfl, rfl, rfl⟩⟩
      · exact ⟨w', v', .inr hmem⟩
    · rintro ⟨w', v', ⟨-, -, rfl⟩ | hmem⟩
      · exact .inl rfl
      · exact .inr ⟨w', v', hmem⟩
  · simp only [Compat.goto, Finset.mem_insert, Finset.mem_erase, Grant.served.injEq, ne_eq, reduceCtorEq,
      not_false_eq_true, true_and] at h₁ h₂
    rcases h₁ with ⟨rfl, rfl, rfl⟩ | h₁ <;> rcases h₂ with ⟨hw₂, -, hh⟩ | h₂
    · exact hw₂.symm
    · exact absurd h₂ (hnot w₂ v₂)
    · rw [hh] at h₁
      exact absurd h₁ (hnot w₁ v₁)
    · exact hi.owns.live_unique w₁ v₁ w₂ v₂ h' h₁ h₂
  · rcases Finset.mem_insert.1 hg with rfl | hg
    · exact hne
    · exact hi.apart g (Finset.mem_of_mem_erase hg)
  · show ∀ h' ∈ server.live, h'.id < server.nextId
    rw [hlive, hnext]
    intro h' hmem
    rcases Finset.mem_insert.1 hmem with rfl | hmem
    · omega
    · exact Nat.lt_succ_of_lt (hi.fresh h' hmem)
  · refine hi.calls.update t .idle hothers (fun u w' v' hut => ?_) (fun w' v' => ?_)
      (fun u w v h _ _ hg => by simp [Compat.goto, hg]) hidle nofun
    · simp [Compat.goto, hut]
    · refine iff_of_false (fun hmem => ?_) nofun
      exact hi.calls.not_opening_erase ht (Finset.mem_of_mem_insert_of_ne hmem nofun)

/-- The structures of a handle that is closed are given back. -/
private theorem CompatInv.dropServed (hi : CompatInv s) (ht : s.thread t = .closing w)
    (hg : .served w v h ∈ s.grants) {server : ServerClient} {ret : SprdVdspResult}
    (hret : ret = .success ∨ ret = .oldGeneration) (hidle : server.thread t = .idle)
    (hothers : ∀ u, u ≠ t → server.thread u = s.server.thread u) (hlive : server.live = s.server.live.erase h)
    (hnext : server.nextId = s.server.nextId) : ∃ heap, closedByServer s.heap w ret = some heap ∧
      CompatInv (Compat.goto
        { s with server := server, heap := heap, grants := s.grants.filter fun g => g.wrap ≠ w } t .idle) := by
  obtain ⟨hw, hv, hne⟩ := hi.served hg
  have hfilter : (s.grants.filter fun g => g.wrap ≠ w) = s.grants.erase (.served w v h) := by
    ext g
    rw [Finset.mem_filter, Finset.mem_erase, and_comm]
    exact and_congr_left fun hmem =>
      not_congr ⟨fun hgw => hi.owns.unique hmem hg hgw, fun he => by rw [he, Grant.wrap]⟩
  rw [hfilter]
  refine ⟨Function.update (Function.update s.heap v none) w none, ?_, ?_⟩
  · rw [closedByServer, if_pos hret, wrapFields, hw, Option.bind_some, free_eq hv, Option.bind_some,
      free_eq (b := .wrapHandle (some (.byserver, v)))]
    rw [Function.update_of_ne hne, hw]
  refine ⟨⟨hi.owns.fault, ?_, fun d' => ?_, fun w₁ w₂ d' h₁ h₂ => ?_, fun h' => ?_,
    fun w₁ v₁ w₂ v₂ h' h₁ h₂ => ?_⟩, fun g hg => hi.apart g (Finset.mem_of_mem_erase hg), ?_, ?_⟩
  · exact hi.owns.owned.drop_pair hg fun a => (isSome_pair a w v _ _).trans or_comm
  · simpa [Compat.goto] using hi.owns.devices d'
  · exact hi.owns.device_unique w₁ w₂ d' (Finset.mem_of_mem_erase h₁) (Finset.mem_of_mem_erase h₂)
  · show h' ∈ server.live ↔ _
    rw [hlive, Finset.mem_erase, hi.owns.live]
    constructor
    · rintro ⟨hh, w', v', hmem⟩
      exact ⟨w', v', Finset.mem_erase.2 ⟨fun he => hh (by cases he; rfl), hmem⟩⟩
    · rintro ⟨w', v', hmem⟩
      obtain ⟨hne', hmem'⟩ := Finset.mem_erase.1 hmem
      refine ⟨fun hh => hne' ?_, w', v', hmem'⟩
      subst hh
      exact hi.owns.unique hmem' hg (hi.owns.live_unique w' v' w v h' hmem' hg)
  · exact hi.owns.live_unique w₁ v₁ w₂ v₂ h' (Finset.mem_of_mem_erase h₁) (Finset.mem_of_mem_erase h₂)
  · show ∀ h' ∈ server.live, h'.id < server.nextId
    rw [hlive, hnext]
    exact fun h' hmem => hi.fresh h' (Finset.mem_of_mem_erase hmem)
  · refine hi.calls.update t .idle hothers (fun u w' v' hut => ?_) (fun w' v' => ?_)
      (fun u w' v' h' hut hu hmem => ?_) hidle nofun
    · simp [Compat.goto]
    · refine iff_of_false (fun hmem => ?_) nofun
      exact hi.calls.not_opening (by simp [ht]) (Finset.mem_of_mem_erase hmem)
    · refine Finset.mem_erase.2 ⟨fun he => ?_, hmem⟩
      cases he
      exact hut (hi.calls.exclusive u t w hu ht)

/-- Where a thread is that has an open in the client. -/
private theorem CompatInv.opening_of (hi : CompatInv s)
    (h : (∃ type cs, s.server.thread t = .opening type cs) ∨ ∃ fd, s.server.thread t = .openError fd) :
    ∃ w v, s.thread t = .opening w v := by
  have hm := hi.calls.calls t
  cases hp : s.thread t with
  | opening w v => exact ⟨w, v, rfl⟩
  | idle | closing | inUse =>
    rw [hp] at hm
    rcases h with ⟨type, cs, he⟩ | ⟨fd, he⟩ <;> simp [CompatCall.Matches, he] at hm

private theorem CompatInv.closing_of (hi : CompatInv s) {cs : Service} (hth : s.server.thread t = .closing h cs) :
    ∃ w v, s.thread t = .closing w ∧ .served w v h ∈ s.grants := by
  have hm := hi.calls.calls t
  cases hp : s.thread t with
  | closing w =>
    rw [hp] at hm
    obtain ⟨v, h', cs', he, hg⟩ := hm
    rw [hth] at he
    cases he
    exact ⟨w, v, rfl, hg⟩
  | idle | opening | inUse =>
    rw [hp] at hm
    simp [CompatCall.Matches, hth] at hm

private theorem CompatInv.inUse_of (hi : CompatInv s) {use : Use} {cs : Service}
    (h : s.server.thread t = .calling use h cs ∨ s.server.thread t = .inFlight use h cs) :
    ∃ w, s.thread t = .inUse w := by
  have hm := hi.calls.calls t
  cases hp : s.thread t with
  | inUse w => exact ⟨w, rfl⟩
  | idle | opening | closing =>
    rw [hp] at hm
    rcases h with he | he <;> simp [CompatCall.Matches, he] at hm

/-- A call that ends in the client returns to the interface. -/
private theorem CompatInv.finish (hi : CompatInv s) {server : ServerClient} {ret : SprdVdspResult}
    {filled : Option Handle} (hstep : InsideStep s.server server t (some ret) filled)
    (hothers : ∀ u, u ≠ t → server.thread u = s.server.thread u) : CompatInv (s.finish t server ret filled) := by
  cases hstep with
  | opened ht hidle hid hlive hnext =>
    obtain ⟨w, v, hp⟩ := hi.opening_of (.inl ⟨_, _, ht⟩)
    obtain ⟨heap, hopen, hinv⟩ := hi.serve hp hid hidle hothers hlive hnext
    simp only [Compat.finish, hp, hopen, Compat.after, Option.elim_some]
    exact hinv
  | notOpened ht hidle hlive hnext =>
    obtain ⟨w, v, hp⟩ := hi.opening_of (.inr ⟨_, ht⟩)
    have hret : SprdVdspResult.fail ≠ .success := by decide
    obtain ⟨heap, hopen, hinv⟩ := hi.dropOpening hp none hret hidle hothers hlive hnext
    simp only [Compat.finish, hp, hopen, Compat.after, Option.elim_some, Option.elim_none]
    exact hinv
  | notClosed ht hidle hlive hnext =>
    obtain ⟨w, v, hp, hg⟩ := hi.closing_of ht
    simp only [Compat.finish, hp, closedByServer, Compat.after, reduceCtorEq, or_self, if_false, Option.elim_some]
    exact hi.goes (by simp [hp]) nofun hlive hnext hothers hidle nofun
  | closed ht hidle hret hlive hnext =>
    obtain ⟨w, v, hp, hg⟩ := hi.closing_of ht
    obtain ⟨heap, hclose, hinv⟩ := hi.dropServed hp hg hret hidle hothers hlive hnext
    simp only [Compat.finish, hp, hclose, Compat.after, Option.elim_some, if_pos hret]
    exact hinv
  | used ht hidle hlive hnext =>
    obtain ⟨w, hp⟩ := hi.inUse_of ht
    simp only [Compat.finish, hp]
    exact hi.goes (by simp [hp]) nofun hlive hnext hothers hidle nofun

private theorem CompatInv.inside {e : Event} (hi : CompatInv s) (hs : s.inside e = some s') : CompatInv s' := by
  unfold Compat.inside at hs
  split at hs
  · cases hs
  · rename_i hbegins
    obtain ⟨⟨server, r⟩, hr, rfl⟩ := Option.map_eq_some_iff.1 hs
    cases hin : e.insideOf with
    | none =>
      -- the death of the service
      cases e with
      | serviceDied =>
        cases hr
        exact hi.same rfl rfl (hi.calls.inside (fun _ _ => rfl) (hi.calls.calls 0))
      | callOpen | callClose | callUse => exact absurd rfl hbegins
      | openLocked | openError | closeLocked | useLocked | rpcDone => cases hin
    | some t =>
      obtain ⟨hstep, hothers⟩ := inside_step hin hr
      cases hres : r.result with
      | some ret =>
        rw [hres] at hstep
        exact hi.finish hstep hothers
      | none =>
        rw [hres] at hstep
        generalize s.server.filled e = filled at hstep
        cases hstep with
        | openFails ht ht' hlive hnext =>
          obtain ⟨w, v, hp⟩ := hi.opening_of (.inl ⟨_, _, ht⟩)
          refine hi.same hlive hnext (hi.calls.inside hothers ?_)
          rw [hp]
          exact .inr ⟨_, ht'⟩
        | issues ht ht' hlive hnext =>
          obtain ⟨w, hp⟩ := hi.inUse_of (.inl ht)
          refine hi.same hlive hnext (hi.calls.inside hothers ?_)
          rw [hp]
          exact .inr ⟨_, _, _, ht'⟩

private theorem CompatInv.callOpen (hi : CompatInv s) (ht : s.thread t = .idle) {intType : SprdVdspInterfaceType}
    {workType : SprdVdspWorktype} {wrap vdsp device : Option Addr} {service : Option Service}
    (hs : s.callOpen t intType workType wrap vdsp device service = some s') : CompatInv s' := by
  cases wrap with
  | none =>
    cases hs
    exact hi
  | some w =>
    simp only [Compat.callOpen] at hs
    obtain ⟨heap, hm, hs⟩ := Option.bind_eq_some_iff.1 hs
    have hfree := free_of_malloc hm
    cases intType with
    | directly =>
      cases hd : openDeviceDirec workType device with
      | none =>
        simp only [hd, openedDirectly, hfree, Compat.after, Option.elim_some] at hs
        cases hs
        exact hi
      | some d =>
        simp only [hd] at hs
        split at hs
        · cases hs
        · rename_i hnew
          obtain ⟨heap', hopen, hinv⟩ := hi.openDirect hnew hm
          simp only [hopen, Compat.after, Option.elim_some] at hs
          cases hs
          exact hinv
    | max =>
      simp only [hfree, Compat.after, Option.elim_some] at hs
      cases hs
      exact hi
    | byserver =>
      cases vdsp with
      | none =>
        simp only [hfree, Compat.after, Option.elim_some] at hs
        cases hs
        exact hi
      | some v =>
        obtain ⟨heap₂, hm₂, hs⟩ := Option.bind_eq_some_iff.1 hs
        obtain ⟨⟨server, r⟩, hr, rfl⟩ := Option.map_eq_some_iff.1 hs
        have hb := callOpen_step hr
        rcases hb.self with ⟨hres, hself⟩ | ⟨hres, hself⟩
        · simp only [hres]
          exact hi.beginOpen ht hm hm₂ hb hself
        · simp only [hres, openedByServer_of_malloc hm hm₂ (show SprdVdspResult.fail ≠ .success by decide),
            Compat.after, Option.elim_some]
          exact hi.refused ht hb hself

/-- A handle that the client has: a direct one, or one of the service. -/
private theorem usable_cases (hu : s.usable w) :
    (∃ d, .direct w d ∈ s.grants) ∨ ∃ v h, .served w v h ∈ s.grants := by
  obtain ⟨⟨g, hg, hw, hgranted⟩, -⟩ := hu
  cases g with
  | opening => cases hgranted
  | direct w' d =>
    cases hw
    exact .inl ⟨d, hg⟩
  | served w' v h =>
    cases hw
    exact .inr ⟨v, h, hg⟩

private theorem CompatInv.callClose (hi : CompatInv s) (ht : s.thread t = .idle) {handle : Option Addr}
    (hok : ∀ w, handle = some w → s.closable w) (hs : s.callClose t handle = some s') : CompatInv s' := by
  cases handle with
  | none =>
    cases hs
    exact hi
  | some w =>
    have hclosable := hok w rfl
    rcases usable_cases hclosable.1 with ⟨d, hg⟩ | ⟨v, h, hg⟩
    · obtain ⟨heap, hfree, hinv⟩ := hi.closeDirect hg
      have hd := (hi.owns.devices d).2 ⟨w, hg⟩
      simp only [Compat.callClose, wrapFields, hi.owns.direct hg, if_pos hd, hfree, Compat.after,
        Option.elim_some] at hs
      cases hs
      exact hinv
    · obtain ⟨hw, hv, -⟩ := hi.served hg
      simp only [Compat.callClose, wrapFields, hw, vdspFields, hv] at hs
      obtain ⟨⟨server, r⟩, hr, rfl⟩ := Option.map_eq_some_iff.1 hs
      have hb := callClose_step hr
      rcases hb.self with ⟨hres, cs, hself⟩ | ⟨hres, hself⟩
      · simp only [hres]
        refine hi.enters hb ht (by simp) ⟨v, h, cs, hself, hg⟩ fun u w' _ hc hu => ?_
        cases hc
        exact hclosable.1.2 u (hi.calls.busy u (by simp [hu])) hu
      · simp only [hres, closedByServer, Compat.after, reduceCtorEq, or_self, if_false, Option.elim_some]
        exact hi.refused ht hb hself

private theorem CompatInv.callUse (hi : CompatInv s) (ht : s.thread t = .idle) {use : Use} {handle : Option Addr}
    (hok : ∀ w, handle = some w → s.usable w) (hs : s.callUse t use handle = some s') : CompatInv s' := by
  cases handle with
  | none =>
    cases hs
    exact hi
  | some w =>
    rcases usable_cases (hok w rfl) with ⟨d, hg⟩ | ⟨v, h, hg⟩
    · have hd := (hi.owns.devices d).2 ⟨w, hg⟩
      simp only [Compat.callUse, wrapFields, hi.owns.direct hg, if_pos hd] at hs
      cases hs
      exact hi
    · obtain ⟨hw, hv, -⟩ := hi.served hg
      simp only [Compat.callUse, wrapFields, hw, vdspFields, hv] at hs
      obtain ⟨⟨server, r⟩, hr, rfl⟩ := Option.map_eq_some_iff.1 hs
      have hb := callUse_step hr
      rcases hb.self with ⟨hres, cs, hself⟩ | ⟨hres, hself⟩
      · simp only [hres]
        exact hi.enters hb ht (by simp) (.inl ⟨use, h, cs, hself⟩) nofun
      · simp only [hres]
        exact hi.refused ht hb hself

theorem CompatInv.step {e : CompatEvent} (hi : CompatInv s) (hok : keepsHandles s e)
    (hs : compat.step s e = some s') : CompatInv s' := by
  simp only [compat, Compat.step] at hs
  cases e with
  | callOpen t intType workType wrap vdsp device service =>
    simp only [Option.ite_none_right_eq_some] at hs
    exact hi.callOpen hs.1 hs.2
  | callClose t handle =>
    simp only [Option.ite_none_right_eq_some] at hs
    refine hi.callClose hs.1 (fun w hw => ?_) hs.2
    subst hw
    exact hok
  | callUse t use handle =>
    simp only [Option.ite_none_right_eq_some] at hs
    refine hi.callUse hs.1 (fun w hw => ?_) hs.2
    subst hw
    exact hok
  | inside e => exact hi.inside hs

/-- In every run whose clients keep to their handles, the structures that are allocated, the devices that are open
and the live handles of the server-mode client are those of the handles that the clients have. -/
theorem compat_owned (hr : Reach compat keepsHandles s) : CompatOwned s := by
  have hi : CompatInv s := by
    induction hr with
    | @start s h0 =>
      rw [show s = .start from h0]
      exact CompatInv.start
    | step _ hok hs ih => exact ih.step hok hs
  exact hi.owns

/-- One handle of each kind and an open of another work type that is refused; the service dies under a call, and
both handles are closed. -/
def opensBoth : List CompatEvent :=
  [.callOpen 0 .byserver .normal (some 16) (some 32) none (some 7),
   .callOpen 1 .directly .faceid (some 48) none (some 99) none, .inside (.openLocked 0 0),
   .callOpen 1 .byserver .faceid (some 64) (some 80) none none, .inside (.openLocked 1 0), .inside (.openError 1),
   .callUse 1 .powerHint (some 16), .inside (.useLocked 1 true), .inside .serviceDied, .inside (.rpcDone 1 0),
   .callClose 1 (some 48), .callClose 0 (some 16)]

theorem compat_owned_opensBoth :
    ∃ s, compat.exec keepsHandles .start opensBoth = some s ∧
      s.grants = {.served 16 32 ⟨0, 0, 0, .normal, 0⟩} ∧ CompatOwned s := by
  obtain ⟨s, hs, hr, hgrants⟩ := Reach.exists_exec compat keepsHandles .start opensBoth
    (fun s => s.grants = {.served 16 32 ⟨0, 0, 0, .normal, 0⟩}) rfl (by decide)
  exact ⟨s, hs, of_decide_eq_true hgrants, compat_owned hr⟩

/-- When the clients have closed what they opened, nothing is allocated, open or live. -/
theorem CompatOwned.drained (ho : CompatOwned s) (hnone : s.grants = ∅) :
    (∀ a, s.heap a = none) ∧ s.devices = ∅ ∧ s.server.live = ∅ := by
  have howned := ho.owned
  rw [hnone] at howned
  refine ⟨howned.empty, ?_, ?_⟩
  · refine Finset.eq_empty_of_forall_notMem fun d hd => ?_
    obtain ⟨w, hg⟩ := (ho.devices d).1 hd
    rw [hnone] at hg
    cases hg
  · refine Finset.eq_empty_of_forall_notMem fun h hh => ?_
    obtain ⟨w, v, hg⟩ := (ho.live h).1 hh
    rw [hnone] at hg
    cases hg

end Vdsp
