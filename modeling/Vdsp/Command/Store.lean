import Mathlib.Logic.Function.Basic
import Vdsp.Command.Path
import Vdsp.Lib.Counted

/-!
# The objects of a command

The reference-counted objects that a command is made of, for one thread at a time: buffers, groups, queues and
events on heaps of their own, and the counts of the devices, where a count of 0 is a freed device.  `ionmem` is
the number of ION blocks in use.  A function is `none` where the code stores through a `NULL` pointer, uses a
freed object, or never returns.

`xrp_create_buffer` does what it should unless it is asked for a device buffer and has no device or gets no ION
memory.
-/

namespace Vdsp

open Counted

/-- A `struct xrp_buffer` with its device. -/
structure BufferCell where
  buffer : XrpBuffer
  device : Option Addr
  deriving DecidableEq, Repr

/-- A `struct xrp_queue`; `thread` tells whether `pthread_create` gave it a worker. -/
structure QueueCell where
  device : Addr
  nsid : Nsid
  thread : Bool
  deriving DecidableEq

structure Store where
  device : Addr → Nat
  ionmem : Nat
  buffers : Heap BufferCell
  groups : Heap (XrpBufferGroup Nat)
  queues : Heap QueueCell
  /-- An event refers to its queue. -/
  events : Heap Nat

/-- `xrp_retain_device`. -/
def Store.retainDevice (s : Store) : Option Addr → Option Store
  | none => none
  | some p => some { s with device := Function.update s.device p (s.device p + 1) }

/-- `xrp_release_device`. -/
def Store.releaseDevice (s : Store) : Option Addr → Option Store
  | none => none
  | some p => some { s with device := Function.update s.device p (s.device p - 1) }

/-- `xrp_impl_create_device_buffer`, where `vdsp_alloc_ionmem` gives `ionmem`. -/
def Store.implCreateDeviceBuffer (s : Store) (device : Option Addr) (buffer size : Nat)
    (ionmem : Option (Int × Option Addr)) : Option (Store × XrpStatus) :=
  (s.retainDevice device).bind fun s =>
    match ionmem with
    | none => (s.releaseDevice device).map fun s => (s, .failure)
    | some (fd, viraddr) =>
      some ({ s with
        ionmem := s.ionmem + 1
        buffers := Counted.set s.buffers buffer ⟨⟨.device, viraddr, size, fd⟩, device⟩ }, .success)

/-- `xrp_create_buffer`; `alloc` tells whether `alloc_refcounted` succeeds. -/
def Store.createBuffer (s : Store) (alloc : Bool) (ionmem : Option (Int × Option Addr)) (device : Option Addr)
    (size : Nat) (hostPtr : Option Addr) (fd : Int) : Option (Store × Option Nat × XrpStatus) :=
  if hostPtr = none ∧ device = none then some (s, none, .failure)
  else if alloc = false then some (s, none, .failure)
  else
    let buf := s.buffers.length
    let s := { s with buffers := Counted.alloc s.buffers ⟨⟨.host, none, 0, 0⟩, none⟩ }
    if fd ≠ -1 then
      some ({ s with buffers := Counted.set s.buffers buf ⟨⟨.host, hostPtr, size, fd⟩, none⟩ },
        some buf, .success)
    else
      (s.implCreateDeviceBuffer device buf size ionmem).bind fun (s, status) =>
        -- on a failure `buf` is freed and set to `NULL`, and then the code stores to `buf->apptr`
        if status ≠ .success then none else some (s, some buf, status)

/-- `xrp_release_buffer`. -/
def Store.releaseBuffer (s : Store) (buffer : Nat) : Option Store :=
  match Counted.release s.buffers buffer with
  | none => none
  | some (h, none) => some { s with buffers := h }
  | some (h, some b) =>
    match b.buffer.type with
    | .host => some { s with buffers := h }
    | .device => Store.releaseDevice { s with buffers := h, ionmem := s.ionmem - 1 } b.device

/-- `release_xrp_buffers`. -/
def Store.releaseBuffers (s : Store) : List Nat → Option Store
  | [] => some s
  | b :: bs => (s.releaseBuffer b).bind fun s => s.releaseBuffers bs

/-- `xrp_create_buffer_group`. -/
def Store.createBufferGroup (s : Store) (alloc : Bool) : Store × Option Nat :=
  if alloc then ({ s with groups := Counted.alloc s.groups .empty }, some s.groups.length) else (s, none)

/-- `xrp_release_buffer_group`. -/
def Store.releaseBufferGroup (s : Store) (group : Nat) : Option Store :=
  match Counted.release s.groups group with
  | none => none
  | some (h, none) => some { s with groups := h }
  | some (h, some table) =>
    Store.releaseBuffers { s with groups := h } (table.buffer.map XrpBufferGroupRecord.buffer)

/-- `xrp_add_buffer_to_group`. -/
def Store.addBufferToGroup (s : Store) (group buffer : Nat) (flags : XrpAccessFlags) (realloc : Bool) :
    Option (Store × XrpStatus) :=
  (Counted.get s.groups group).bind fun table =>
    match xrpAddBufferToGroup table buffer flags realloc with
    | none => some (s, .failure)
    | some (table, _) =>
      (Counted.retain s.buffers buffer).map fun h =>
        ({ s with buffers := h, groups := Counted.set s.groups group table }, .success)

/-- `xrp_release_queue`; without a worker `xrp_queue_destroy` stores through `sync_exit`, which is `NULL`. -/
def Store.releaseQueue (s : Store) (queue : Nat) : Option Store :=
  match Counted.release s.queues queue with
  | none => none
  | some (h, none) => some { s with queues := h }
  | some (h, some q) => if q.thread then Store.releaseDevice { s with queues := h } (some q.device) else none

/-- `xrp_release_event`. -/
def Store.releaseEvent (s : Store) (event : Nat) : Option Store :=
  match Counted.release s.events event with
  | none => none
  | some (h, none) => some { s with events := h }
  | some (h, some q) => Store.releaseQueue { s with events := h } q

/-! ### The creation of a buffer -/

/-- A buffer was created: it has one reference, and is of the device type and has one to the device, or of the
host type and has none. -/
def Store.Creates (s : Store) (device : Option Addr) (s' : Store) : Prop :=
  ∃ b : BufferCell, s'.buffers = s.buffers ++ [some (1, b)] ∧
    ((b.buffer.type = .device ∧ ∃ p, device = some p ∧ b.device = some p ∧
        s'.device = Function.update s.device p (s.device p + 1) ∧ s'.ionmem = s.ionmem + 1) ∨
      (b.buffer.type = .host ∧ b.device = none ∧ s'.device = s.device ∧ s'.ionmem = s.ionmem)) ∧
    s'.groups = s.groups ∧ s'.queues = s.queues ∧ s'.events = s.events

/-- The call does not go through `NULL`, and returns a new buffer or has changed nothing. -/
def Store.CreatesOrFails (s : Store) (device : Option Addr) (r : Option (Store × Option Nat × XrpStatus)) :
    Prop :=
  (∃ s', r = some (s', some s.buffers.length, .success) ∧ s.Creates device s') ∨ r = some (s, none, .failure)

/-- What `xrp_create_buffer` does, by its arguments. -/
theorem Store.createBuffer_cases (s : Store) (alloc : Bool) (ionmem : Option (Int × Option Addr))
    (device : Option Addr) (size : Nat) (hostPtr : Option Addr) (fd : Int) :
    (((hostPtr = none ∧ device = none) ∨ alloc = false) ∧
      s.createBuffer alloc ionmem device size hostPtr fd = some (s, none, .failure)) ∨
    (¬ (hostPtr = none ∧ device = none) ∧ alloc = true ∧ fd ≠ -1 ∧
      s.createBuffer alloc ionmem device size hostPtr fd =
        some ({ s with buffers := s.buffers ++ [some (1, ⟨⟨.host, hostPtr, size, fd⟩, none⟩)] },
          some s.buffers.length, .success)) ∨
    (∃ p ionFd viraddr, alloc = true ∧ fd = -1 ∧ device = some p ∧ ionmem = some (ionFd, viraddr) ∧
      s.createBuffer alloc ionmem device size hostPtr fd =
        some ({ s with
          device := Function.update s.device p (s.device p + 1)
          ionmem := s.ionmem + 1
          buffers := s.buffers ++ [some (1, ⟨⟨.device, viraddr, size, ionFd⟩, some p⟩)] }, some s.buffers.length,
          .success)) ∨
    (¬ (hostPtr = none ∧ device = none) ∧ alloc = true ∧ fd = -1 ∧ (device = none ∨ ionmem = none) ∧
      s.createBuffer alloc ionmem device size hostPtr fd = none) := by
  have hset : ∀ b c : BufferCell, Counted.set (Counted.alloc s.buffers b) s.buffers.length c =
      s.buffers ++ [some (1, c)] := fun b c => Counted.set_mid rfl
  by_cases hnull : hostPtr = none ∧ device = none
  · left
    exact ⟨.inl hnull, by rw [Store.createBuffer, if_pos hnull]⟩
  · cases alloc with
    | false =>
      left
      exact ⟨.inr rfl, by rw [Store.createBuffer, if_neg hnull, if_pos rfl]⟩
    | true =>
      right
      by_cases hfd : fd = -1
      · right
        cases device with
        | none =>
          right
          have hhost : hostPtr ≠ none := fun h => hnull ⟨h, rfl⟩
          exact ⟨hnull, rfl, hfd, .inl rfl, by simp [Store.createBuffer, hhost, hfd, Store.implCreateDeviceBuffer,
            Store.retainDevice]⟩
        | some p =>
          cases ionmem with
          | none =>
            right
            exact ⟨hnull, rfl, hfd, .inr rfl, by simp [Store.createBuffer, hfd, Store.implCreateDeviceBuffer,
              Store.retainDevice, Store.releaseDevice]⟩
          | some m =>
            left
            exact ⟨p, m.1, m.2, rfl, hfd, rfl, rfl, by
              simp [Store.createBuffer, hfd, Store.implCreateDeviceBuffer,
              Store.retainDevice, hset]⟩
      · left
        refine ⟨hnull, rfl, hfd, ?_⟩
        rw [Store.createBuffer, if_neg hnull, if_neg (by simp), if_pos hfd]
        simp only [hset]

/-- `xrp_create_buffer` returns a new buffer, or fails and changes nothing, unless it is asked for a device
buffer and has no device or gets no ION memory. -/
theorem xrpCreateBuffer_createsOrFails_iff (s : Store) (alloc : Bool) (ionmem : Option (Int × Option Addr))
    (device : Option Addr) (size : Nat) (hostPtr : Option Addr) (fd : Int) :
    s.CreatesOrFails device (s.createBuffer alloc ionmem device size hostPtr fd) ↔
      (hostPtr = none ∧ device = none) ∨ alloc = false ∨ fd ≠ -1 ∨ (device ≠ none ∧ ionmem ≠ none) := by
  rcases s.createBuffer_cases alloc ionmem device size hostPtr fd with ⟨h, he⟩ | ⟨-, -, hfd, he⟩ |
    ⟨p, ionFd, viraddr, -, -, rfl, rfl, he⟩ | ⟨hnull, halloc, hfd, hnone, he⟩
  · exact iff_of_true (.inr he) (h.elim .inl fun h => .inr (.inl h))
  · exact iff_of_true (.inl ⟨_, he, _, rfl, .inr ⟨rfl, rfl, rfl, rfl⟩, rfl, rfl, rfl⟩) (.inr (.inr (.inl hfd)))
  · exact iff_of_true (.inl ⟨_, he, _, rfl, .inl ⟨rfl, p, rfl, rfl, rfl, rfl⟩, rfl, rfl, rfl⟩)
      (.inr (.inr (.inr ⟨by simp, by simp⟩)))
  · refine iff_of_false ?_ ?_
    · rw [he]
      rintro (⟨s', h, -⟩ | h) <;> cases h
    · rintro (h | h | h | ⟨h₁, h₂⟩)
      · exact hnull h
      · rw [halloc] at h
        cases h
      · exact h hfd
      · exact hnone.elim h₁ h₂

/-- A store with one device, which has one reference. -/
def Store.openDevice : Store where
  device := Function.update (fun _ => 0) 0x1000 1
  ionmem := 0
  buffers := []
  groups := []
  queues := []
  events := []

/-- Without ION memory the code stores through `NULL`. -/
theorem createBuffer_without_ionmem :
    ¬ ∀ (s : Store) alloc ionmem device size hostPtr fd,
      s.CreatesOrFails device (s.createBuffer alloc ionmem device size hostPtr fd) := by
  intro hall
  have hnone : Store.openDevice.createBuffer true none (some 0x1000) 64 none (-1) = none := by
    simp [Store.createBuffer, Store.implCreateDeviceBuffer, Store.retainDevice, Store.releaseDevice]
  have := hall .openDevice true none (some 0x1000) 64 none (-1)
  rw [hnone] at this
  rcases this with ⟨s', h, -⟩ | h <;> cases h

/-- As far as commands read it, the buffer is the one that `xrpCreateBuffer` gives. -/
theorem Store.createBuffer_eq (s : Store) (env : Answers) (i : Nat) (device : Option Addr) (d : XrpDevice)
    (size : Nat) (hostPtr : Option Addr) (fd : Int) :
    (s.createBuffer (env.buffer i) (env.ionmem i) device size hostPtr fd).map (fun r =>
        ((r.2.1.bind (Counted.get r.1.buffers)).map BufferCell.buffer, r.2.2)) =
      xrpCreateBuffer env i (device.map fun _ => d) size hostPtr fd := by
  have hget : ∀ b : BufferCell, Counted.get (s.buffers ++ [some (1, b)]) s.buffers.length = some b :=
    fun b => Counted.get_mid rfl
  rcases s.createBuffer_cases (env.buffer i) (env.ionmem i) device size hostPtr fd with ⟨h, he⟩ |
    ⟨hnull, ha, hfd, he⟩ | ⟨p, ionFd, viraddr, ha, hfd, rfl, hion, he⟩ | ⟨hnull, ha, hfd, hnone, he⟩
  · rw [he]
    rcases h with h | h
    · simp [xrpCreateBuffer, h.1, h.2]
    · by_cases hnull : hostPtr = none ∧ device = none
      · simp [xrpCreateBuffer, hnull.1, hnull.2]
      · simp [xrpCreateBuffer, h]
  · rw [he]
    simp [xrpCreateBuffer, hnull, ha, hfd, hget]
  · rw [he]
    simp [xrpCreateBuffer, ha, hfd, hion, hget]
  · rw [he]
    rcases hnone with rfl | hion
    · have hhost : hostPtr ≠ none := fun h => hnull ⟨h, rfl⟩
      simp [xrpCreateBuffer, hhost, ha, hfd]
    · cases device with
      | none =>
        have hhost : hostPtr ≠ none := fun h => hnull ⟨h, rfl⟩
        simp [xrpCreateBuffer, hhost, ha, hfd]
      | some p => simp [xrpCreateBuffer, ha, hfd, hion]

end Vdsp
