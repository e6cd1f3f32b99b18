import Vdsp.Host.Completion

/-!
# The kinds of objects

The host library is written in C, where the type of a pointer says what it points to.  An id in the model does
not say it, so the callers promise it (`typedCall`), and it is an invariant that every instruction, request and
object then has ids of the right kind.  No instruction is stuck for want of its operands, whatever the
allocations give.
-/

namespace Vdsp

open Ledger Lts

variable {s s' : Host} {t : Nat} {f f' : Thread} {rest : List Instr}

/-- The types of the host library that a pointer may have. -/
inductive Kind
  | device
  | buffer
  | group
  | queue
  | event
  deriving DecidableEq

@[simp] def Body.type : Body → Kind
  | .device _ => .device
  | .buffer .. => .buffer
  | .group _ => .group
  | .queue _ => .queue
  | .event _ => .event

def Host.type (s : Host) (x : Id) : Option Kind := (s.body x).map Body.type

/-- Pointers with their types. -/
def typed (k : Kind) (xs : List Id) : List (Id × Kind) := xs.map fun x => (x, k)

def Request.operands (rq : Request) : List (Id × Kind) :=
  (rq.queue, .queue) :: (typed .group rq.group.toList ++ typed .event rq.event.toList)

def Body.operands : Body → List (Id × Kind)
  | .device wrapped => typed .device wrapped.toList
  | .buffer d _ => typed .device d.toList
  | .group table => typed .buffer table.slots
  | .queue b => [(b.device, .device)]
  | .event b => typed .queue b.queue.toList

/-- The pointers of an instruction that it reads or writes an object of their type through. -/
def Instr.operands : Instr → List (Id × Kind)
  | .openWrapper n => [(n, .device)]
  | .newBuffer d => typed .device d.toList
  | .attachDevice b d => [(b, .buffer), (d, .device)]
  | .newQueue d => [(d, .device)]
  | .createThread q => [(q, .queue)]
  | .mapCheck b | .mapInc b | .mapDec b => [(b, .buffer)]
  | .add g b _ | .swap g _ b _ => [(g, .group), (b, .buffer)]
  | .get g _ => [(g, .group)]
  | .newRequest q g _ _ | .newEvent q g _ => (q, .queue) :: typed .group g.toList
  | .attachQueue e q => [(e, .event), (q, .queue)]
  | .push q g e => (q, .queue) :: (typed .group g.toList ++ typed .event e.toList)
  | .wait e | .asleep e _ | .eventStatus e | .complete e _ | .condDestroy e => [(e, .event)]
  | .enter q | .process q | .asleepQueue q _ | .loop q => [(q, .queue)]
  | .snapshot rq | .ioctl rq => rq.operands
  | .setExit q _ | .join q _ | .closeQueue q _ => [(q, .queue)]
  | .ret | .retain _ | .release _ | .free _ | .openNewmode | .openInner | .ionmem | .newGroup => []

/-- The pointers that a caller passes. -/
def ApiCall.operands : ApiCall → List (Id × Kind)
  | .openDevice | .openDeviceNewmode | .createBufferGroup | .retain _ | .release _ => []
  | .createBuffer d => typed .device d.toList
  | .mapBuffer b | .unmapBuffer b => [(b, .buffer)]
  | .addBufferToGroup g b _ | .setBufferInGroup g _ b _ => [(g, .group), (b, .buffer)]
  | .getBufferFromGroup g _ => [(g, .group)]
  | .createQueue d => [(d, .device)]
  | .enqueueCommand q g _ | .runCommandSync q g => (q, .queue) :: typed .group g.toList
  | .wait e | .eventStatus e => [(e, .event)]

/-- The pointers are of their types. -/
def Host.Typed (s : Host) (ps : List (Id × Kind)) : Prop := ∀ p ∈ ps, s.type p.1 = some p.2

instance (ps : List (Id × Kind)) : Decidable (s.Typed ps) := inferInstanceAs (Decidable (∀ p ∈ ps, _))

/-- The callers pass pointers of the right types. -/
def typedCall (s : Host) : HostLabel → Prop
  | .call _ c => s.Typed c.operands
  | _ => True

instance (s : Host) (l : HostLabel) : Decidable (typedCall s l) := by
  unfold typedCall
  split <;> infer_instance

structure KindInv (s : Host) : Prop where
  code : ∀ f ∈ s.threads, ∀ j ∈ f.code, s.Typed j.operands
  requests : ∀ r ∈ s.requests, s.Typed r.operands
  bodies : ∀ x b, s.body x = some b → s.Typed b.operands

/-! ### Typed pointers -/

@[simp] theorem typed_nil (k : Kind) : typed k [] = [] := rfl

@[simp] theorem typed_singleton (k : Kind) (x : Id) : typed k [x] = [(x, k)] := rfl

@[simp] theorem typed_empty (s : Host) : s.Typed [] := by
  intro p hp
  cases hp

@[simp] theorem typed_cons {p : Id × Kind} {ps : List (Id × Kind)} :
    s.Typed (p :: ps) ↔ s.type p.1 = some p.2 ∧ s.Typed ps := by
  simp [Host.Typed]

@[simp] theorem typed_append {ps ps' : List (Id × Kind)} : s.Typed (ps ++ ps') ↔ s.Typed ps ∧ s.Typed ps' := by
  unfold Host.Typed
  constructor
  · intro h
    exact ⟨fun p hp => h p (List.mem_append_left _ hp), fun p hp => h p (List.mem_append_right _ hp)⟩
  · rintro ⟨h, h'⟩ p hp
    rcases List.mem_append.1 hp with hp | hp
    · exact h p hp
    · exact h' p hp

theorem Host.Typed.mono {ps : List (Id × Kind)} (h : s.Typed ps)
    (hs : ∀ x k, s.type x = some k → s'.type x = some k) : s'.Typed ps :=
  fun p hp => hs p.1 p.2 (h p hp)

theorem type_of_kind {b b' : Body} (h : b.kind = b'.kind) : b.type = b'.type := by
  cases b <;> cases b' <;> first | rfl | cases h

/-- An object keeps its type. -/
theorem exec_type {i : Instr} {ok : Bool} (he : s.exec t f rest ok i = some s') {x : Id} {k : Kind}
    (h : s.type x = some k) : s'.type x = some k := by
  obtain ⟨b, hb, rfl⟩ := Option.map_eq_some_iff.1 h
  have hbody := exec_body he x
  unfold Host.type
  rw [hbody]
  unfold Host.bodyAfter
  split
  · rename_i y b' hst
    split
    · rename_i hx
      subst hx
      exact congrArg some (type_of_kind (stores_kind hst hb))
    · rw [hb]
      rfl
  · rw [hb]
    rfl

theorem queueBody_of_type {q : Id} (h : s.type q = some .queue) : ∃ b, s.queueBody q = some b := by
  obtain ⟨b, hb, ht⟩ := Option.map_eq_some_iff.1 h
  cases b with
  | queue b => exact ⟨b, queueBody_of_body hb⟩
  | _ => cases ht

theorem eventBody_of_type {e : Id} (h : s.type e = some .event) : ∃ b, s.eventBody e = some b := by
  obtain ⟨b, hb, ht⟩ := Option.map_eq_some_iff.1 h
  cases b with
  | event b => exact ⟨b, eventBody_of_body hb⟩
  | _ => cases ht

theorem table_of_type {g : Id} (h : s.type g = some .group) : ∃ table, s.table g = some table := by
  obtain ⟨b, hb, ht⟩ := Option.map_eq_some_iff.1 h
  cases b with
  | group table => exact ⟨table, table_of_body hb⟩
  | _ => cases ht

theorem buffer_of_type {x : Id} (h : s.type x = some .buffer) : ∃ d n, s.body x = some (.buffer d n) := by
  obtain ⟨b, hb, ht⟩ := Option.map_eq_some_iff.1 h
  cases b with
  | buffer d n => exact ⟨d, n, hb⟩
  | _ => cases ht

/-- An object that is stored to has the type of the store. -/
theorem type_of_stores {i : Instr} {ok : Bool} (he : s.exec t f rest ok i = some s') {x : Id} {b : Body}
    (h : i.stores s t ok = some (x, b)) : s'.type x = some b.type := by
  have hbody := exec_body he x
  rw [h] at hbody
  rw [Host.type, hbody, Host.bodyAfter, if_pos rfl]
  rfl

/-! ### One step -/

theorem typed_enqueueCode {q : Id} {g e : Option Id} {sync : Bool} (hq : s.type q = some .queue)
    (hg : s.Typed (typed .group g.toList)) (he : s.Typed (typed .event e.toList)) :
    ∀ j ∈ enqueueCode q g e sync, s.Typed j.operands := by
  unfold enqueueCode
  simp only [List.forall_mem_append]
  refine ⟨⟨⟨?_, ?_⟩, ?_⟩, ?_⟩
  · cases e with
    | none => simp
    | some e => simpa [Instr.operands, hq] using he
  · simp [Instr.operands]
  · simp [Instr.operands, hq, hg, he]
  · cases sync with
    | false => simp
    | true =>
      cases e with
      | none => simp
      | some e => simpa [Instr.operands] using he

theorem typed_destroyCode {x : Id} {b : Body} (hx : s.body x = some b) :
    ∀ j ∈ destroyCode x b, s.Typed j.operands := by
  intro j hj
  have htype : s.type x = some b.type := by
    rw [Host.type, hx]
    rfl
  unfold destroyCode at hj
  rcases List.mem_append.1 hj with hj | hj
  · cases b with
    | queue b | event b =>
      rw [List.mem_singleton.1 hj]
      simpa [Instr.operands] using htype
    | _ => cases hj
  · rcases List.mem_append.1 hj with hj | hj
    · obtain ⟨y, -, rfl⟩ := List.mem_map.1 hj
      exact typed_empty s
    · rw [List.mem_singleton.1 hj]
      exact typed_empty s

theorem typed_finishCode {rq : Request} {status : XrpStatus} (h : s.Typed rq.operands) :
    ∀ j ∈ finishCode rq status, s.Typed j.operands := by
  intro j hj
  simp only [Request.operands, typed_cons, typed_append] at h
  unfold finishCode at hj
  rcases List.mem_append.1 hj with hj | hj
  · obtain ⟨y, -, rfl⟩ := List.mem_map.1 hj
    exact typed_empty s
  · cases he : rq.event with
    | none =>
      rw [he] at hj
      cases hj
    | some e =>
      rw [he] at hj h
      simp only [Option.toList_some, List.flatMap_cons, List.flatMap_nil, List.append_nil, List.mem_cons,
        List.not_mem_nil, or_false] at hj
      rcases hj with rfl | rfl
      · simpa [Instr.operands] using h.2.2
      · exact typed_empty s

section

variable {i : Instr} {ok : Bool}

/-- What an instruction puts into the code has pointers of the right types. -/
theorem KindInv.new (hi : KindInv s) (hops : s.Typed i.operands) (he : s.exec t f rest ok i = some s') :
    ∀ j ∈ i.new s f ok, s'.Typed j.operands := by
  have hkeep : ∀ x k, s.type x = some k → s'.type x = some k := fun x k h => exec_type he h
  have hold : ∀ {c : List Instr}, (∀ j ∈ c, s.Typed j.operands) → ∀ j ∈ c, s'.Typed j.operands :=
    fun h j hj => (h j hj).mono hkeep
  cases i with
  | release x =>
    simp only [Instr.new]
    cases hx : s.heap[x]? with
    | none => simp
    | some c =>
      simp only
      split
      · exact hold (typed_destroyCode (by simp [Host.body, hx]))
      · simp
  | openInner =>
    simp only [Instr.new]
    split
    · rename_i hok
      have hnew := type_of_stores he (x := s.heap.length) (b := .device none) (by simp [Instr.stores, hok])
      simpa [Instr.operands] using hnew
    · simp
  | newBuffer d =>
    simp only [Instr.new]
    split
    · rename_i hok
      have hnew := type_of_stores he (x := s.heap.length) (b := .buffer none 0) (by simp [Instr.stores, hok])
      have hd := hops.mono hkeep
      cases d with
      | none => simp
      | some d =>
        intro j hj
        simp only [Option.toList_some, List.flatMap_cons, List.flatMap_nil, List.append_nil, List.mem_cons,
          List.not_mem_nil, or_false] at hj
        rcases hj with rfl | rfl
        · simp only [Instr.operands, Option.toList_some, typed_singleton, typed_cons] at hd ⊢
          exact ⟨hnew, hd⟩
        · exact typed_empty _
    · simp
  | newQueue d =>
    simp only [Instr.new]
    split
    · rename_i hok
      have hnew := type_of_stores he (x := s.heap.length) (b := .queue ⟨d, false, none, 0, none, false⟩)
        (by simp [Instr.stores, hok])
      simpa [Instr.operands] using hnew
    · simp [Instr.operands]
  | mapCheck b =>
    simp only [Instr.new]
    split
    · have hb := hops.mono hkeep
      simpa [Instr.operands] using hb
    · simp
  | swap g n b flags =>
    simp only [Instr.new]
    split <;> simp [Instr.operands]
  | newRequest q g evt sync =>
    simp only [Instr.operands, typed_cons] at hops
    simp only [Instr.new]
    repeat' split
    · refine hold fun j hj => ?_
      rw [List.mem_singleton.1 hj]
      simpa [Instr.operands] using hops
    · exact hold (typed_enqueueCode hops.1 hops.2 (typed_empty s))
    · simp
  | newEvent q g sync =>
    simp only [Instr.operands, typed_cons] at hops
    simp only [Instr.new]
    split
    · rename_i hok
      have hnew := type_of_stores he (x := s.heap.length) (b := .event ⟨none, .pending, 0⟩)
        (by simp [Instr.stores, hok])
      exact typed_enqueueCode (hkeep q _ hops.1) (hops.2.mono hkeep) (by simpa using hnew)
    · simp
  | wait e =>
    simp only [Instr.new]
    repeat' split
    · refine hold fun j hj => ?_
      rw [List.mem_singleton.1 hj]
      exact hops
    all_goals simp
  | process q =>
    simp only [Instr.new]
    repeat' split
    · rename_i rq hfind
      refine hold fun j hj => ?_
      rcases List.mem_cons.1 hj with rfl | hj
      · exact hi.requests rq (List.mem_of_find?_eq_some hfind)
      · rw [List.mem_singleton.1 hj]
        exact hops
    · simp
    · refine hold fun j hj => ?_
      rw [List.mem_singleton.1 hj]
      exact hops
    · simp
  | loop q =>
    simp only [Instr.new]
    split
    · simp
    · refine hold fun j hj => ?_
      rw [List.mem_singleton.1 hj]
      exact hops
  | ioctl rq => exact hold (typed_finishCode hops)
  | asleep | enter | asleepQueue | snapshot | setExit | join =>
    refine hold fun j hj => ?_
    rw [List.mem_singleton.1 hj]
    exact hops
  | _ => simp [Instr.new]

/-- What an instruction stores has pointers of the right types. -/
theorem KindInv.stored (hi : KindInv s) (hops : s.Typed i.operands) {x : Id} {b : Body}
    (h : i.stores s t ok = some (x, b)) : s.Typed b.operands := by
  have hqueue : ∀ {q : Id} {b₀ : QueueBody}, s.queueBody q = some b₀ → s.type b₀.device = some .device := by
    intro q b₀ hb
    simpa [Body.operands] using hi.bodies q _ (body_of_queueBody hb)
  cases i with
  | openNewmode | openInner | openWrapper | newBuffer | newGroup | newEvent =>
    simp only [Instr.stores] at h
    split at h <;> cases h
    simp_all [Body.operands, Instr.operands, XrpBufferGroup.slots, XrpBufferGroup.empty]
  | newQueue d =>
    simp only [Instr.stores] at h
    split at h <;> cases h
    exact hops
  | attachDevice b d =>
    simp only [Instr.stores] at h
    split at h <;> cases h
    simp only [Instr.operands, typed_cons] at hops
    simpa [Body.operands] using hops.2
  | mapInc b | mapDec b =>
    simp only [Instr.stores] at h
    split at h <;> cases h
    rename_i hb
    have hold := hi.bodies _ _ hb
    exact hold
  | add g b flags =>
    obtain ⟨⟨table', n⟩, hadd, hr⟩ := Option.map_eq_some_iff.1 h
    cases hr
    obtain ⟨table, htable, hadd⟩ := Option.bind_eq_some_iff.1 hadd
    have hold := hi.bodies _ _ (body_of_table htable)
    simp only [Instr.operands, typed_cons] at hops
    simp only [Body.operands] at hold ⊢
    rw [slots_add hadd, typed, List.map_append, typed_append]
    exact ⟨hold, by simpa using hops.2⟩
  | swap g n b flags =>
    obtain ⟨⟨table', old⟩, hset, hr⟩ := Option.map_eq_some_iff.1 h
    cases hr
    obtain ⟨table, htable, hset⟩ := Option.bind_eq_some_iff.1 hset
    have hold := hi.bodies _ _ (body_of_table htable)
    simp only [Instr.operands, typed_cons] at hops
    simp only [Body.operands] at hold ⊢
    rw [(slots_set hset).2]
    intro p hp
    obtain ⟨y, hy, rfl⟩ := List.mem_map.1 hp
    rcases List.mem_or_eq_of_mem_set hy with hy | rfl
    · exact hold (y, .buffer) (List.mem_map.2 ⟨y, hy, rfl⟩)
    · exact hops.2.1
  | createThread q =>
    simp only [Instr.stores] at h
    split at h
    · obtain ⟨b₀, hb, hr⟩ := Option.map_eq_some_iff.1 h
      cases hr
      simpa [Body.operands] using hqueue hb
    · cases h
  | push | enter | setExit | closeQueue =>
    obtain ⟨b₀, hb, hr⟩ := Option.map_eq_some_iff.1 h
    cases hr
    simpa [Body.operands] using hqueue hb
  | attachQueue e q =>
    obtain ⟨b₀, hb, hr⟩ := Option.map_eq_some_iff.1 h
    cases hr
    simp only [Instr.operands, typed_cons] at hops
    simpa [Body.operands] using hops.2
  | complete e status =>
    obtain ⟨b₀, hb, hr⟩ := Option.map_eq_some_iff.1 h
    cases hr
    have hold := hi.bodies _ _ (body_of_eventBody hb)
    exact hold
  | _ => cases h

theorem KindInv.exec (hi : KindInv s) (hr : RefInv s) (hw : WorkerInv s) (ht : s.threads[t]? = some f)
    (hcode : f.code = i :: rest) (he : s.exec t f rest ok i = some s') : KindInv s' := by
  have hops : s.Typed i.operands := hi.code f (List.mem_of_getElem? ht) i (by simp [hcode])
  have hkeep : ∀ x k, s.type x = some k → s'.type x = some k := fun x k h => exec_type he h
  constructor
  · intro u hu j hj
    rcases exec_code hw he with ⟨rfl, -, -⟩ | ⟨f', spawned, hg⟩
    · exact hi.code u hu j hj
    rw [hg.threads] at hu
    rcases List.mem_append.1 hu with hu | hu
    · rcases mem_threads_set hu with rfl | hu
      · rw [hg.code] at hj
        rcases List.mem_append.1 hj with hj | hj
        · exact hi.new hops he j hj
        · exact (hi.code f (List.mem_of_getElem? ht) j (by simp [hcode, hj])).mono hkeep
      · exact (hi.code u hu j hj).mono hkeep
    · -- the worker starts on the queue that it is created for
      rcases hg.spawned with rfl | ⟨q, rfl, rfl⟩
      · cases hu
      · rw [List.mem_singleton.1 hu] at hj
        rw [List.mem_singleton.1 hj]
        exact hops.mono hkeep
  · intro r hmem
    rcases (exec_posted hr hw ht hcode he).requests r hmem with h | h
    · exact (hi.requests r h).mono hkeep
    · cases i with
      | push q g e =>
        cases h
        exact hops.mono hkeep
      | _ => cases h
  · intro x b hb
    rw [exec_body he x] at hb
    unfold Host.bodyAfter at hb
    split at hb
    · rename_i y b' hst
      split at hb
      · cases hb
        exact (hi.stored hops hst).mono hkeep
      · exact (hi.bodies x b hb).mono hkeep
    · exact (hi.bodies x b hb).mono hkeep

end

theorem KindInv.start : KindInv .start := by
  constructor <;> simp [Host.start, Host.body]

theorem operands_code (c : ApiCall) (h : s.Typed c.operands) : ∀ j ∈ c.code, s.Typed j.operands := by
  cases c <;> simp_all [ApiCall.code, ApiCall.operands, Instr.operands]

theorem KindInv.step (hi : KindInv s) (hr : RefInv s) (hw : WorkerInv s) {l : HostLabel} (hok : typedCall s l)
    (hs : s.step l = some s') : KindInv s' := by
  rcases step_cases hs with ⟨rfl, rfl⟩ | ⟨t, c, f, rfl, -, -, -, -, -, rfl⟩ |
    ⟨t, ok, f, i, rest, rfl, ht, hcode, ⟨-, rfl⟩ | he⟩
  · refine ⟨fun f hf j hj => ?_, hi.requests, hi.bodies⟩
    rcases List.mem_append.1 hf with hf | hf
    · exact hi.code f hf j hj
    · rw [List.mem_singleton.1 hf] at hj
      cases hj
  · refine ⟨fun g hg j hj => ?_, hi.requests, hi.bodies⟩
    rcases mem_threads_set hg with rfl | hg
    · exact operands_code c hok j hj
    · exact hi.code g hg j hj
  · exact ⟨hi.code, hi.requests, hi.bodies⟩
  · exact hi.exec hr hw ht hcode he

/-! ### Attachments -/

/-- The instruction attaches the object `x` to its device or queue. -/
def Instr.attaches (x : Id) : Instr → Nat
  | .attachDevice b _ => if b = x then 1 else 0
  | .attachQueue e _ => if e = x then 1 else 0
  | _ => 0

def Body.attached : Body → Nat
  | .buffer d _ => d.toList.length
  | .event b => b.queue.toList.length
  | _ => 0

def Host.attached (s : Host) (x : Id) : Nat := ((s.body x).map Body.attached).getD 0

/-- An object is attached once, or is going to be. -/
def AttachInv (s : Host) : Prop := ∀ x, s.weigh (Instr.attaches x) + s.attached x ≤ 1

section

variable {i : Instr} {ok : Bool}

theorem attaches_of_cleanup {j : Instr} (h : j.cleanup = true) (x : Id) : Instr.attaches x j = 0 := by
  cases j <;> first | rfl | nomatch h

/-- Only a new object is going to be attached. -/
theorem attaches_new (x : Id) :
    total (Instr.attaches x) (i.new s f ok) ≤ if x = s.heap.length then 1 else 0 := by
  have hzero : ∀ c : List Instr, (∀ j ∈ c, Instr.attaches x j = 0) →
      total (Instr.attaches x) c ≤ if x = s.heap.length then 1 else 0 := fun c hc => by
    rw [total_eq_zero.2 hc]
    exact Nat.zero_le _
  cases i with
  | release y => exact hzero _ fun j hj => attaches_of_cleanup (cleanup_new rfl j hj) x
  | newBuffer d =>
    simp only [Instr.new]
    cases d <;> cases ok <;> simp [Instr.attaches, eq_comm]
  | newEvent q g sync =>
    simp only [Instr.new]
    cases ok
    · simp
    · cases g <;> cases sync <;> simp [total_enqueueCode, Instr.attaches, eq_comm]
  | newRequest q g evt sync =>
    simp only [Instr.new]
    cases ok <;> cases evt <;> cases g <;> simp [total_enqueueCode, Instr.attaches]
  | ioctl rq => exact hzero _ fun j hj => attaches_of_cleanup (cleanup_finishCode _ _ j hj) x
  | _ =>
    simp only [Instr.new]
    repeat' split
    all_goals simp [Instr.attaches]

/-- The object of a store, and what it was attached to before. -/
private theorem stores_attached (he : s.exec t f rest ok i = some s') {x : Id} {b : Body}
    (h : i.stores s t ok = some (x, b)) : b.attached = s.attached x + Instr.attaches x i := by
  have hnew : s.attached s.heap.length = 0 := by rw [Host.attached, body_length]; rfl
  have hold : ∀ {y : Id} {b₀ : Body}, s.body y = some b₀ → s.attached y = b₀.attached := by
    intro y b₀ hb
    rw [Host.attached, hb]
    rfl
  cases i with
  | openNewmode | openInner | openWrapper | newBuffer | newGroup | newQueue | newEvent =>
    simp only [Instr.stores] at h
    split at h <;> cases h
    rw [hnew]
    rfl
  | attachDevice b d | mapInc b | mapDec b =>
    simp only [Instr.stores] at h
    split at h <;> cases h
    rename_i hb
    rw [hold hb]
    simp [Body.attached, Instr.attaches]
  | add g b flags | swap g n b flags =>
    obtain ⟨r, hr, hr'⟩ := Option.map_eq_some_iff.1 h
    obtain ⟨table, htable, -⟩ := Option.bind_eq_some_iff.1 hr
    cases hr'
    rw [hold (body_of_table htable)]
    rfl
  | createThread q =>
    simp only [Instr.stores] at h
    split at h
    · obtain ⟨b₀, hb, hr⟩ := Option.map_eq_some_iff.1 h
      cases hr
      rw [hold (body_of_queueBody hb)]
      rfl
    · cases h
  | push | enter | setExit | closeQueue =>
    obtain ⟨b₀, hb, hr⟩ := Option.map_eq_some_iff.1 h
    cases hr
    rw [hold (body_of_queueBody hb)]
    rfl
  | attachQueue e q =>
    obtain ⟨b₀, hb, hr⟩ := Option.map_eq_some_iff.1 h
    cases hr
    -- the event was not attached, or the instruction could not be executed
    simp only [Host.exec, hb] at he
    split at he
    · rename_i hq
      rw [hold (body_of_eventBody hb)]
      simp [Body.attached, Instr.attaches, hq]
    · cases he
  | complete e status =>
    obtain ⟨b₀, hb, hr⟩ := Option.map_eq_some_iff.1 h
    cases hr
    rw [hold (body_of_eventBody hb)]
    rfl
  | _ => cases h

/-- An attachment is executed once, by an instruction that was there for it. -/
theorem exec_attached (he : s.exec t f rest ok i = some s') (x : Id) :
    s'.attached x = s.attached x + Instr.attaches x i := by
  have hbody := exec_body he x
  cases hst : i.stores s t ok with
  | none =>
    have hzero : Instr.attaches x i = 0 := by
      cases i with
      | attachDevice b d =>
        simp only [Host.exec] at he
        split at he
        · rename_i hb
          simp [Instr.stores, hb] at hst
        · cases he
      | attachQueue e q =>
        simp only [Host.exec] at he
        split at he
        · rename_i hb
          simp [Instr.stores, hb] at hst
        · cases he
      | _ => rfl
    rw [Host.attached, hbody, hst, hzero]
    rfl
  | some r =>
    obtain ⟨y, b⟩ := r
    have hy := stores_attached he hst
    by_cases hxy : x = y
    · subst hxy
      rw [← hy, Host.attached, hbody, hst, Host.bodyAfter, if_pos rfl]
      rfl
    · have hzero : Instr.attaches x i = 0 := by
        cases i with
        | attachDevice b' d =>
          simp only [Instr.stores] at hst
          split at hst <;> cases hst
          exact if_neg (Ne.symm hxy)
        | attachQueue e q =>
          obtain ⟨b₀, -, hr⟩ := Option.map_eq_some_iff.1 hst
          cases hr
          exact if_neg (Ne.symm hxy)
        | _ => rfl
      rw [Host.attached, hbody, hst, Host.bodyAfter, if_neg hxy, hzero]
      rfl

/-- No instruction is going to attach an object that is not there. -/
theorem KindInv.attaches_absent (hi : KindInv s) {x : Id} (hx : s.body x = none) :
    s.weigh (Instr.attaches x) = 0 := by
  refine total_eq_zero.2 fun f hf => total_eq_zero.2 fun j hj => ?_
  have hops := hi.code f hf j hj
  have hno : ∀ k, s.type x ≠ some k := by simp [Host.type, hx]
  cases j with
  | attachDevice b d | attachQueue b d =>
    simp only [Instr.operands, typed_cons] at hops
    refine if_neg fun h => ?_
    subst h
    exact hno _ hops.1
  | _ => rfl

theorem AttachInv.exec (hi : AttachInv s) (hk : KindInv s) (hw : WorkerInv s) (ht : s.threads[t]? = some f)
    (hcode : f.code = i :: rest) (he : s.exec t f rest ok i = some s') : AttachInv s' := by
  intro x
  have h1 := hi x
  rcases exec_code hw he with ⟨rfl, -, -⟩ | ⟨f', spawned, hg⟩
  · exact h1
  have h2 := hg.weigh ht hcode (p := Instr.attaches x) fun _ => rfl
  have h3 := exec_attached he x
  have h4 : total (Instr.attaches x) (i.new s f ok) ≤ _ := attaches_new x
  by_cases hx : x = s.heap.length
  · have h5 := hk.attaches_absent (x := x) (by rw [hx, body_length])
    have h6 : s.attached x = 0 := by
      rw [Host.attached, hx, body_length]
      rfl
    rw [if_pos hx] at h4
    omega
  · rw [if_neg hx] at h4
    omega

end

theorem AttachInv.start : AttachInv .start := by
  intro x
  simp [Host.start, Host.weigh, Host.attached, Host.body]

theorem attaches_code (c : ApiCall) (x : Id) : total (Instr.attaches x) c.code = 0 := by
  cases c <;> simp [ApiCall.code, Instr.attaches]

theorem AttachInv.step (hi : AttachInv s) (hk : KindInv s) (hw : WorkerInv s) {l : HostLabel}
    (hs : s.step l = some s') : AttachInv s' := by
  rcases step_cases hs with ⟨rfl, rfl⟩ | ⟨t, c, f, rfl, ht, -, hcode, -, -, rfl⟩ |
    ⟨t, ok, f, i, rest, rfl, ht, hcode, ⟨-, rfl⟩ | he⟩
  · intro x
    have h := weigh_attach (s := s) (Instr.attaches x)
    have hx := hi x
    rw [← h] at hx
    exact hx
  · intro x
    have h := weigh_call ht hcode c (c.uses + c.unmaps) (Instr.attaches x)
    rw [attaches_code, Nat.add_zero] at h
    have hx := hi x
    rw [← h] at hx
    exact hx
  · exact hi
  · exact hi.exec hk hw ht hcode he

/-! ### Enabled instructions -/

/-- The attachments in the code find their objects not attached. -/
theorem AttachInv.attached_eq_zero (hi : AttachInv s) (hf : f ∈ s.threads) {j : Instr} (hj : j ∈ f.code) {x : Id}
    (h : Instr.attaches x j = 1) : s.attached x = 0 := by
  have h1 := hi x
  have h2 := le_total (Instr.attaches x) hj
  have h3 := le_total (fun f : Thread => total (Instr.attaches x) f.code) hf
  unfold Host.weigh at h1
  omega

/-- Every instruction but a join can be executed, whatever the allocations give. -/
theorem exec_isSome (hk : KindInv s) (ha : AttachInv s) (hr : RefInv s) (ht : s.threads[t]? = some f) {i : Instr}
    (hcode : f.code = i :: rest) (hi : ∀ q d, i ≠ .join q d) (ok : Bool) :
    (s.exec t f rest ok i).isSome = true := by
  have hmem := List.mem_of_getElem? ht
  have hops : s.Typed i.operands := hk.code f hmem i (by simp [hcode])
  cases i with
  | release x =>
    obtain ⟨c, hc, -, -⟩ := hr.of_needs ht hcode (x := x) (by simp [Instr.needs])
    simp only [Host.exec, hc]
    split <;> rfl
  | attachDevice b d =>
    simp only [Instr.operands, typed_cons] at hops
    obtain ⟨d', n, hb⟩ := buffer_of_type hops.1
    have h0 := ha.attached_eq_zero hmem (j := .attachDevice b d) (x := b) (by simp [hcode]) (if_pos rfl)
    have hd' : d' = none := by
      rw [Host.attached, hb] at h0
      cases d' with
      | none => rfl
      | some y => cases h0
    subst hd'
    simp [Host.exec, hb]
  | mapInc b | mapDec b =>
    simp only [Instr.operands, typed_cons] at hops
    obtain ⟨d, n, hb⟩ := buffer_of_type hops.1
    simp [Host.exec, hb]
  | add g b flags | swap g n b flags | get g n =>
    simp only [Instr.operands, typed_cons] at hops
    obtain ⟨table, htable⟩ := table_of_type hops.1
    simp only [Host.exec, htable]
    split <;> rfl
  | attachQueue e q =>
    simp only [Instr.operands, typed_cons] at hops
    obtain ⟨b, hb⟩ := eventBody_of_type hops.1
    have h0 := ha.attached_eq_zero hmem (j := .attachQueue e q) (x := e) (by simp [hcode]) (if_pos rfl)
    have hq : b.queue = none := by
      rw [Host.attached, body_of_eventBody hb] at h0
      cases hq : b.queue with
      | none => rfl
      | some y =>
        simp only [Option.map_some, Option.getD_some, Body.attached, hq] at h0
        cases h0
    simp [Host.exec, hb, hq]
  | createThread q | push q g e | enter q | closeQueue q d | setExit q d =>
    simp only [Instr.operands, typed_cons] at hops
    obtain ⟨b, hb⟩ := queueBody_of_type hops.1
    simp only [Host.exec, hb]
    try split
    all_goals rfl
  | process q =>
    simp only [Instr.operands, typed_cons] at hops
    obtain ⟨b, hb⟩ := queueBody_of_type hops.1
    simp only [Host.exec, hb]
    split <;> rfl
  | wait e | eventStatus e | complete e status =>
    simp only [Instr.operands, typed_cons] at hops
    obtain ⟨b, hb⟩ := eventBody_of_type hops.1
    simp [Host.exec, hb]
  | snapshot rq =>
    simp only [Instr.operands, Request.operands, typed_cons, typed_append] at hops
    cases hg : rq.group with
    | none => simp [Host.exec, hg]
    | some g =>
      rw [hg] at hops
      obtain ⟨table, htable⟩ := table_of_type (by simpa using hops.2.1)
      simp [Host.exec, hg, htable]
  | join q d => exact absurd rfl (hi q d)
  | _ =>
    simp only [Host.exec]
    repeat' split
    all_goals rfl

end Vdsp
