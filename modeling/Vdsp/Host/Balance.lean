import Vdsp.Host.Safety

/-!
# The balance of the reference counts

`Balanced` says that every count is the number of references that clients own and that live objects, mappings,
requests and workers hold, that an object dies once, and that nothing accesses it afterwards.  It holds along
every run in which the second allocation of `xrp_open_device` succeeds; when that fails, the device that was
opened before is lost.
-/

namespace Vdsp

open Ledger Lts

variable {s s' : Host} {t : Nat} {f : Thread} {rest : List Instr}

/-! ### Deaths -/

theorem dying_of_heap (h : s'.heap = s.heap) (x : Id) : s'.dying x ↔ s.dying x := by
  rw [Host.dying, h, Host.dying]

theorem dying_append {c : Cell} (hc : 0 < c.count) (x : Id) :
    ({ s with heap := s.heap ++ [c] } : Host).dying x ↔ s.dying x := by
  show ((s.heap ++ [c])[x]?).map Cell.count = some 0 ↔ (s.heap[x]?).map Cell.count = some 0
  rcases Nat.lt_trichotomy x s.heap.length with h | h | h
  · rw [List.getElem?_append_left h]
  · subst h
    rw [List.getElem?_concat_length]
    simp
    omega
  · rw [List.getElem?_eq_none (by simp; omega), List.getElem?_eq_none (Nat.le_of_lt h)]

/-- An object dies by its last release, and stays dead. -/
theorem RefInv.exec_dying (hi : RefInv s) (ht : s.threads[t]? = some f) {i : Instr} {ok : Bool}
    (hcode : f.code = i :: rest) (he : s.exec t f rest ok i = some s') (x : Id) :
    s'.dying x ↔ s.dying x ∨ (i = .release x ∧ s.count x = 1) := by
  have hor : (∀ y, i ≠ .release y) → (s'.dying x ↔ s.dying x) →
      (s'.dying x ↔ s.dying x ∨ (i = .release x ∧ s.count x = 1)) := fun hne h =>
    h.trans ⟨.inl, fun h => h.resolve_right fun h' => hne x h'.1⟩
  cases i with
  | release y =>
    obtain ⟨c, hc, hpos, -⟩ := hi.of_needs ht hcode (x := y) (by simp [Instr.needs])
    have hdec : ∀ f', ((s.modify y Cell.dec).frame t f').dying x ↔ s.dying x ∨ (x = y ∧ c.count = 1) := by
      intro f'
      show ((s.heap.modify y Cell.dec)[x]?).map Cell.count = some 0 ↔ _
      rw [List.getElem?_modify]
      by_cases h : y = x
      · subst h
        simp only [hc, dying_iff hc, if_true, Option.map_eq_map, Option.map_some, Cell.dec,
          Option.some.injEq, true_and]
        omega
      · simp [h, Host.dying, Ne.symm h]
    have hcount : (x = y ∧ c.count = 1) ↔ (Instr.release y = .release x ∧ s.count x = 1) := by
      constructor
      · rintro ⟨rfl, h⟩
        exact ⟨rfl, (Host.count_eq hc).trans h⟩
      · rintro ⟨h, h'⟩
        cases h
        exact ⟨rfl, (Host.count_eq hc).symm.trans h'⟩
    simp only [Host.exec, hc] at he
    split at he <;> cases he <;> rw [hdec, hcount]
  | newQueue d =>
    refine hor (by simp) ?_
    simp only [Host.exec] at he
    split at he <;> cases he
    · exact dying_append (by simp) x
    · exact dying_of_heap rfl x
  | createThread q | push q g e | setExit q d | closeQueue q d | enter q =>
    refine hor (by simp) ?_
    simp only [Host.exec] at he
    repeat' split at he
    all_goals cases he
    all_goals first | exact dying_setBody x | exact dying_of_heap rfl x
  | process q | asleepQueue q n | snapshot rq | ioctl rq | loop q | join q d =>
    refine hor (by simp) ?_
    simp only [Host.exec] at he
    repeat' split at he
    all_goals cases he
    all_goals exact dying_of_heap rfl x
  | _ =>
    refine hor (by simp) ?_
    rcases hi.exec_quiet ht hcode rfl he with rfl | ⟨f', new, hs, -⟩
    · exact dying_of_heap rfl x
    · exact hs.dying x

/-! ### The balance -/

/-- The references of clients, those that their running calls use included. -/
def Host.clientRefs (s : Host) (x : Id) : Nat :=
  s.pool.count x + total (fun f : Thread => if f.role = none then f.held.count x else 0) s.threads

/-- The references of live objects, outstanding mappings and unprocessed requests, and of the commands and the
dying objects that workers are about. -/
def Host.objectRefs (s : Host) (x : Id) : Nat :=
  total (fun c : Cell => c.liveRefs.count x) s.heap + s.maps.count x +
    total (fun r : Request => (r.refs : Multiset Id).count x) s.requests +
    total (fun f : Thread => if f.role = none then 0 else (owed f.code).count x) s.threads

structure Balanced (s : Host) : Prop where
  count : ∀ (x : Id) c, s.heap[x]? = some c → c.count = s.clientRefs x + s.objectRefs x
  /-- Nothing has freed, or is going to free, a live object. -/
  live : ∀ (x : Id) c, s.heap[x]? = some c → 0 < c.count → c.freed = false ∧ s.frees x = 0
  /-- A dead object is freed, or one thread is going to free it, once. -/
  dead : ∀ (x : Id) c, s.heap[x]? = some c → c.count = 0 →
    (c.freed = true ∧ s.frees x = 0) ∨ (c.freed = false ∧ s.frees x = 1)
  /-- Nothing was accessed after its storage was freed. -/
  access : s.fault = false
  /-- Outside of a call a thread has no references. -/
  settled : ∀ f ∈ s.threads, f.code = [] → f.held = 0

theorem total_ite {α : Type*} (g h : α → Nat) (p : α → Prop) [DecidablePred p] (l : List α)
    (hgh : ∀ a ∈ l, ¬ p a → g a = h a) :
    total g l = total (fun a => if p a then g a else 0) l + total (fun a => if p a then 0 else h a) l := by
  induction l with
  | nil => rfl
  | cons a l ih =>
    have ih := ih fun b hb => hgh b (List.mem_cons_of_mem _ hb)
    rw [total_cons, total_cons, total_cons, ih]
    by_cases hp : p a
    · simp only [hp, if_true]
      omega
    · simp only [hp, if_false, hgh a (by simp) hp]
      omega

/-- All references are those of clients, those of objects, and the lost ones. -/
theorem HostInv.refs_eq (hi : HostInv s) (x : Id) :
    s.refs x = s.clientRefs x + s.objectRefs x + s.leaked.count x := by
  have h := total_ite (fun f : Thread => f.held.count x) (fun f => (owed f.code).count x) (fun f => f.role = none)
    s.threads fun f hf hr => by
      obtain ⟨q, hq⟩ := Option.ne_none_iff_exists'.1 hr
      rw [(hi.worker.serving f hf q hq).2]
  simp only [Host.refs, Host.clientRefs, Host.objectRefs, h]
  omega

/-- A run is balanced as long as no reference is lost. -/
theorem HostInv.balanced_iff (hi : HostInv s) : Balanced s ↔ s.leaked = 0 := by
  constructor
  · intro h
    refine Multiset.eq_zero_of_forall_notMem fun x hx => ?_
    have hpos := Multiset.count_pos.2 hx
    have hrefs := hi.refs_eq x
    obtain ⟨c, hc, -⟩ := hi.refs.of_refs (x := x) (by omega)
    have h1 := h.count x c hc
    have h2 := hi.refs.count x
    rw [Host.count_eq hc] at h2
    omega
  · intro h
    refine ⟨fun x c hc => ?_, fun x c hc hpos => (hi.refs.live x c hc hpos).symm, fun x c hc h0 => ?_, hi.fault,
      hi.worker.settled⟩
    · have h1 := hi.refs.count x
      rw [Host.count_eq hc, hi.refs_eq, h, Multiset.count_zero] at h1
      omega
    · have h1 := hi.refs.dead x c hc h0
      cases hf : c.freed with
      | true =>
        rw [Cell.freedOnce, hf, if_pos rfl] at h1
        exact .inl ⟨rfl, by omega⟩
      | false =>
        rw [Cell.freedOnce, hf, if_neg (by simp)] at h1
        exact .inr ⟨rfl, by omega⟩

/-- The step `l` is the release of the only reference to `x`, and its thread goes on with the destruction. -/
def LastRelease (s : Host) (l : HostLabel) (s' : Host) (x : Id) : Prop :=
  ∃ t ok f rest c, l = .run t ok ∧ s.threads[t]? = some f ∧ f.code = .release x :: rest ∧ s.heap[x]? = some c ∧
    c.count = 1 ∧ (s'.threads[t]?).map Thread.code = some (destroyCode x c.body ++ rest)

/-- An object that dies in a step dies by the release of its only reference. -/
theorem HostInv.lastRelease (hi : HostInv s) {l : HostLabel} (hs : host.step s l = some s') {x : Id}
    (hx : ¬ s.dying x) (hx' : s'.dying x) : LastRelease s l s' x := by
  rcases step_cases (host_step hs) with ⟨-, rfl⟩ | ⟨t, c, f, -, -, -, -, -, -, rfl⟩ |
    ⟨t, ok, f, i, rest, hl, ht, hcode, ⟨-, rfl⟩ | he⟩
  · exact absurd hx' hx
  · exact absurd hx' hx
  · exact absurd hx' hx
  · obtain ⟨rfl, hcount⟩ := ((hi.refs.exec_dying ht hcode he x).1 hx').resolve_left hx
    obtain ⟨c, hc, -, -⟩ := hi.refs.of_needs ht hcode (x := x) (by simp [Instr.needs])
    rw [Host.count_eq hc] at hcount
    refine ⟨t, ok, f, rest, c, hl, ht, hcode, hc, hcount, ?_⟩
    simp only [Host.exec, hc, hcount, if_true] at he
    cases he
    simp [Host.frame, Host.modify, (List.getElem?_eq_some_iff.1 ht).1]

/-- What a step loses. -/
theorem HostInv.leaked_step (hi : HostInv s) {l : HostLabel} (hs : host.step s l = some s') (h0 : s.leaked = 0) :
    s'.leaked = 0 ↔ succeeds Instr.wraps s l := by
  rcases step_cases (host_step hs) with ⟨rfl, rfl⟩ | ⟨t, c, f, rfl, -, -, -, -, -, rfl⟩ |
    ⟨t, ok, f, i, rest, rfl, ht, hcode, ⟨⟨x, hx, hgone⟩, -⟩ | he⟩
  · exact ⟨fun _ => trivial, fun _ => h0⟩
  · exact ⟨fun _ => trivial, fun _ => h0⟩
  · rw [hi.worker.safe hi.refs ht hcode x hx] at hgone
    cases hgone
  · have hw : succeeds Instr.wraps s (.run t ok) ↔ ∀ n, i = .openWrapper n → ok = true := by
      simp only [succeeds, ht, Option.bind_some, hcode, List.head?_cons, Option.any_some]
      cases i <;> simp [Instr.wraps]
    rw [hw]
    rcases (exec_leaked he).2 with ⟨h, hok⟩ | ⟨n, rfl, hok, h⟩
    · exact ⟨fun _ => hok, fun _ => h.trans h0⟩
    · rw [h]
      simp [hok]

theorem leaked_of_reach (h : Reach host (succeeds Instr.wraps) s) : s.leaked = 0 := by
  induction h with
  | start h0 =>
    cases h0
    rfl
  | step h hok hs ih => exact ((hostInv_of_reach h).leaked_step hs ih).2 hok

/-- In a run in which the second allocation of `xrp_open_device` never fails the counts are balanced in every
state, and the first such failure is where the balance ends; an object dies by the release of its only
reference. -/
theorem balanced_of_reach (h : Reach host (succeeds Instr.wraps) s) :
    Balanced s ∧ ∀ l s', host.step s l = some s' →
      (Balanced s' ↔ succeeds Instr.wraps s l) ∧ ∀ x, ¬ s.dying x → s'.dying x → LastRelease s l s' x := by
  have hi := hostInv_of_reach h
  have h0 := leaked_of_reach h
  refine ⟨hi.balanced_iff.2 h0, fun l s' hs => ⟨?_, fun x => hi.lastRelease hs⟩⟩
  rw [(hi.step hs).balanced_iff]
  exact hi.leaked_step hs h0

/-- A client opens a device and a queue, and releases them; the thread of the queue ends. -/
def openAndClose : List HostLabel :=
  [.attach, .call 0 .openDevice] ++ List.replicate 3 (.run 0 true) ++ [.call 0 (.createQueue 1)] ++
    List.replicate 4 (.run 0 true) ++ [.run 1 true, .run 1 true, .call 0 (.release 2)] ++
    List.replicate 2 (.run 0 true) ++
    [.run 1 true, .run 1 true] ++ List.replicate 5 (.run 0 true)

theorem balanced_openAndClose :
    ∃ s, host.exec (succeeds Instr.wraps) .start openAndClose = some s ∧
      s.heap.map (fun c => (c.count, c.freed)) = [(1, false), (1, false), (0, true)] ∧ Balanced s := by
  obtain ⟨s, hs, hr, hp⟩ := Reach.exists_exec host (succeeds Instr.wraps) .start openAndClose
    (fun s => s.heap.map (fun c => (c.count, c.freed)) = [(1, false), (1, false), (0, true)]) rfl
    (by decide +kernel)
  exact ⟨s, hs, of_decide_eq_true hp, (balanced_of_reach hr).1⟩

/-- A client opens a device, and the second allocation fails. -/
def openFails : List HostLabel :=
  [.attach, .call 0 .openDevice, .run 0 true, .run 0 false, .run 0 true]

/-- Also with all threads created, the counts are not always balanced: the device that `xrp_open_device` has
opened first keeps its reference, which nothing has. -/
theorem failed_wrapper_loses_device : ¬ ∀ s, Reach host (succeeds Instr.spawns) s → Balanced s := by
  intro hall
  obtain ⟨s, -, hr, hp⟩ := Reach.exists_exec host (succeeds Instr.spawns) .start openFails
    (fun s => 0 ∈ s.leaked) rfl (by decide +kernel)
  rw [(hostInv_of_reach hr).balanced_iff.1 (hall s hr)] at hp
  cases hp

end Vdsp
