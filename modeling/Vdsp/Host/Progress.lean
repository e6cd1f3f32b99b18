import Vdsp.Host.Kinds
import Vdsp.Host.Order
import Vdsp.Host.Destroy

/-!
# No deadlock

A thread is blocked when it sleeps and no broadcast has reached it, when it joins a worker that has not returned,
or when it has nothing to do.  Whoever sleeps for an event waits for a command that a thread is about to push,
that waits in the list of a queue with a worker, or that the worker has; a worker sleeps only while its list is
empty and its queue is not torn down; and a worker joins no other worker.  So as long as a call has not returned,
some thread can go on.
-/

namespace Vdsp

open Ledger Lts

variable {s s' : Host} {t : Nat} {f f' : Thread} {rest : List Instr}

/-! ### The order of the instructions -/

/-- The instructions that others wait for, before the thread waits itself. -/
def Instr.opens : Instr → Bool
  | .attachQueue .. | .push .. | .createThread _ => true
  | _ => false

/-- Nothing stands before such an instruction but what prepares it. -/
def Opens (code : List Instr) : Prop := code.Pairwise fun i j => j.opens = true → i.prepares = true

theorem opens_of_closed {code : List Instr} (h : ∀ j ∈ code, j.opens = false) : Opens code := by
  refine List.Pairwise.imp_of_mem (R := fun _ _ => True) ?_ (List.pairwise_of_forall fun _ _ => trivial)
  intro a b _ hb _ hopen
  rw [h b hb] at hopen
  cases hopen

theorem opens_enqueueCode (q : Id) (g e : Option Id) (sync : Bool) : Opens (enqueueCode q g e sync) := by
  unfold Opens enqueueCode
  cases g <;> cases e <;> cases sync <;> simp [Instr.opens, Instr.prepares]

theorem opens_of_cleanup {j : Instr} (h : j.cleanup = true) : j.opens = false := by
  cases j <;> first | rfl | nomatch h

theorem opens_new (i : Instr) (ok : Bool) : Opens (i.new s f ok) := by
  cases i with
  | release x => exact opens_of_closed fun j hj => opens_of_cleanup (cleanup_new rfl j hj)
  | ioctl rq => exact opens_of_closed fun j hj => opens_of_cleanup (cleanup_finishCode _ _ j hj)
  | newEvent q g sync =>
    simp only [Instr.new]
    split
    · exact opens_enqueueCode _ _ _ _
    · exact .nil
  | newRequest q g evt sync =>
    simp only [Instr.new]
    repeat' split
    · simp [Opens]
    · exact opens_enqueueCode _ _ _ _
    · exact .nil
  | newBuffer d =>
    refine opens_of_closed ?_
    simp only [Instr.new]
    cases d <;> split <;> simp [Instr.opens]
  | newQueue d =>
    simp only [Instr.new]
    split <;> simp [Opens]
  | _ =>
    refine opens_of_closed ?_
    simp only [Instr.new]
    repeat' split
    all_goals simp [Instr.opens]

/-- What prepares an instruction brings nothing new into the code. -/
theorem new_of_prepares {i : Instr} {ok : Bool} (h : i.prepares = true) : i.new s f ok = [] := by
  cases i <;> first | rfl | nomatch h

theorem Opens.goes {i : Instr} (h : Opens (i :: rest)) (ok : Bool) : Opens (i.new s f ok ++ rest) := by
  obtain ⟨hhead, hrest⟩ := List.pairwise_cons.1 h
  refine List.pairwise_append.2 ⟨opens_new i ok, hrest, ?_⟩
  intro a ha b hb hopen
  rw [new_of_prepares (hhead b hb hopen)] at ha
  cases ha

theorem opens_code (c : ApiCall) : Opens c.code := by
  apply opens_of_closed
  cases c <;> simp [ApiCall.code, Instr.opens]

/-! ### The queue of an event -/

/-- The event `e` is attached to the queue `q`. -/
def Host.linked (s : Host) (e q : Id) : Prop := ∃ b, s.eventBody e = some b ∧ b.queue = some q

/-- An event stays with its queue. -/
theorem exec_linked {i : Instr} {ok : Bool} (he : s.exec t f rest ok i = some s') {e q : Id}
    (h : s.linked e q) : s'.linked e q := by
  obtain ⟨b, hb, hq⟩ := h
  refine ⟨i.marks e b, eventBody_stays he hb, ?_⟩
  cases i with
  | attachQueue x y =>
    by_cases hx : x = e
    · subst hx
      simp [Host.exec, hb, hq] at he
    · simp only [Instr.marks, if_neg hx]
      exact hq
  | complete x status =>
    simp only [Instr.marks]
    split <;> exact hq
  | _ => exact hq

theorem exec_attachQueue {e q : Id} {ok : Bool} (he : s.exec t f rest ok (.attachQueue e q) = some s') :
    s'.linked e q := by
  have hb : ∃ b, s.eventBody e = some b := by
    simp only [Host.exec] at he
    split at he
    · exact ⟨_, ‹_›⟩
    · cases he
  obtain ⟨b, hb⟩ := hb
  exact ⟨_, eventBody_stays he hb, by simp [Instr.marks]⟩

/-- The objects whose release by the worker of `q` leads to no queue but `q`. -/
def Host.mine (s : Host) (q x : Id) : Prop :=
  s.type x = some .device ∨ s.type x = some .buffer ∨ s.type x = some .group ∨
    (x = q ∧ s.type x = some .queue) ∨ s.linked x q

/-- What the worker of `q` releases and tears down. -/
def Host.keepsTo (s : Host) (q : Id) : Instr → Prop
  | .release x => s.mine q x
  | .setExit x _ | .join x _ => x = q
  | _ => True

/-- The requests have events of their queues, and the workers do not leave their queues. -/
structure LinkInv (s : Host) : Prop where
  opens : ∀ f ∈ s.threads, Opens f.code
  push : ∀ f ∈ s.threads, ∀ q g e, .push q g (some e) ∈ f.code → .attachQueue e q ∈ f.code ∨ s.linked e q
  requests : ∀ r ∈ s.requests, ∀ e, r.event = some e → s.linked e r.queue
  taken : ∀ f ∈ s.threads, ∀ j ∈ f.code, ∀ rq, j.request = some rq → ∀ e, rq.event = some e → s.linked e rq.queue
  worker : ∀ f ∈ s.threads, ∀ q, f.role = some q → ∀ j ∈ f.code, s.keepsTo q j

section

variable {i : Instr} {ok : Bool}

theorem exec_mine (he : s.exec t f rest ok i = some s') {q x : Id} (h : s.mine q x) : s'.mine q x := by
  rcases h with h | h | h | ⟨hx, h⟩ | h
  · exact .inl (exec_type he h)
  · exact .inr (.inl (exec_type he h))
  · exact .inr (.inr (.inl (exec_type he h)))
  · exact .inr (.inr (.inr (.inl ⟨hx, exec_type he h⟩)))
  · exact .inr (.inr (.inr (.inr (exec_linked he h))))

theorem exec_keepsTo (he : s.exec t f rest ok i = some s') {q : Id} {j : Instr} (h : s.keepsTo q j) :
    s'.keepsTo q j := by
  cases j with
  | release x => exact exec_mine he h
  | _ => exact h

/-- The destruction of an object of the worker of `q` releases objects of the worker of `q`. -/
theorem keepsTo_destroyCode (hk : KindInv s) {q x : Id} {b : Body} (hb : s.body x = some b) (h : s.mine q x) :
    ∀ j ∈ destroyCode x b, s.keepsTo q j := by
  have hrefs := hk.bodies x b hb
  have htype : s.type x = some b.type := by rw [Host.type, hb]; rfl
  have hlinked : s.linked x q → ∃ e : EventBody, b = .event e ∧ e.queue = some q := by
    rintro ⟨e, he, hq⟩
    have := body_of_eventBody he
    rw [hb] at this
    exact ⟨e, Option.some.inj this, hq⟩
  -- only a queue's and an event's destruction is about a queue
  have hbody : ∀ y ∈ b.refs, s.mine q y := by
    intro y hy
    cases b with
    | device w => exact .inl (hrefs (y, .device) (List.mem_map.2 ⟨y, hy, rfl⟩))
    | buffer d n => exact .inl (hrefs (y, .device) (List.mem_map.2 ⟨y, hy, rfl⟩))
    | group table => exact .inr (.inl (hrefs (y, .buffer) (List.mem_map.2 ⟨y, hy, rfl⟩)))
    | queue c =>
      rw [List.mem_singleton.1 hy]
      exact .inl (hrefs (c.device, .device) (by simp [Body.operands]))
    | event c =>
      rcases h with h | h | h | ⟨-, h⟩ | h
      · rw [htype] at h
        cases h
      · rw [htype] at h
        cases h
      · rw [htype] at h
        cases h
      · rw [htype] at h
        cases h
      · obtain ⟨c', hc, hq⟩ := hlinked h
        cases hc
        have hyq : y = q := by simpa [Body.refs, hq] using hy
        subst hyq
        exact .inr (.inr (.inr (.inl ⟨rfl, hrefs (y, .queue) (by simp [Body.operands, hq])⟩)))
  intro j hj
  unfold destroyCode at hj
  rcases List.mem_append.1 hj with hj | hj
  · cases b with
    | queue c =>
      rw [List.mem_singleton.1 hj]
      rcases h with h | h | h | ⟨h, -⟩ | h
      · rw [htype] at h
        cases h
      · rw [htype] at h
        cases h
      · rw [htype] at h
        cases h
      · exact h
      · obtain ⟨c', hc, -⟩ := hlinked h
        cases hc
    | event c =>
      rw [List.mem_singleton.1 hj]
      trivial
    | _ => cases hj
  · rcases List.mem_append.1 hj with hj | hj
    · obtain ⟨y, hy, rfl⟩ := List.mem_map.1 hj
      exact hbody y hy
    · rw [List.mem_singleton.1 hj]
      trivial

theorem keepsTo_finishCode {rq : Request} {status : XrpStatus} (hops : s.Typed rq.operands)
    (hev : ∀ e, rq.event = some e → s.linked e rq.queue) :
    ∀ j ∈ finishCode rq status, s.keepsTo rq.queue j := by
  simp only [Request.operands, typed_cons, typed_append] at hops
  intro j hj
  unfold finishCode at hj
  rcases List.mem_append.1 hj with hj | hj
  · obtain ⟨g, hg, rfl⟩ := List.mem_map.1 hj
    exact .inr (.inr (.inl (hops.2.1 (g, .group) (List.mem_map.2 ⟨g, hg, rfl⟩))))
  · obtain ⟨e, he, hj⟩ := List.mem_flatMap.1 hj
    rcases List.mem_cons.1 hj with rfl | hj
    · trivial
    · rw [List.mem_singleton.1 hj]
      exact .inr (.inr (.inr (.inr (hev e (Option.mem_toList.1 he)))))

/-- An event is attached to its queue before its request is pushed. -/
theorem push_new {q e : Id} {g : Option Id} (h : .push q g (some e) ∈ i.new s f ok) :
    .attachQueue e q ∈ i.new s f ok := by
  cases i with
  | newEvent x y sync =>
    simp only [Instr.new] at h ⊢
    split at h
    · rename_i hok
      rw [if_pos hok]
      cases y <;> cases sync <;> simp [enqueueCode] at h <;> obtain ⟨rfl, rfl, rfl⟩ := h <;> simp [enqueueCode]
    · cases h
  | newRequest x y evt sync =>
    simp only [Instr.new] at h
    repeat' split at h
    · simp at h
    · cases y <;> simp [enqueueCode] at h
    · cases h
  | release x => cases cleanup_new rfl _ h
  | ioctl rq => cases cleanup_finishCode _ _ _ h
  | newBuffer d =>
    simp only [Instr.new] at h
    cases d <;> split at h <;> simp at h
  | _ =>
    simp only [Instr.new] at h
    repeat' split at h
    all_goals simp at h

/-- What a worker's instruction puts into the code is about the worker's queue. -/
theorem LinkInv.new (hi : LinkInv s) (hk : KindInv s) (hw : WorkerInv s) (ht : s.threads[t]? = some f)
    (hcode : f.code = i :: rest) {q : Id} (hr : f.role = some q) : ∀ j ∈ i.new s f ok, s.keepsTo q j := by
  have hmem := List.mem_of_getElem? ht
  have hown := hi.worker f hmem q hr i (by simp [hcode])
  have hserving := (hw.serving f hmem q hr).1
  rw [hcode] at hserving
  cases i with
  | release x =>
    simp only [Instr.new]
    cases hx : s.heap[x]? with
    | none => simp
    | some c =>
      simp only
      split
      · exact keepsTo_destroyCode hk (by simp [Host.body, hx]) hown
      · simp
  | ioctl rq =>
    obtain ⟨hrole, -⟩ := hw.at_service hmem hcode rfl
    rw [hr] at hrole
    cases hrole
    exact keepsTo_finishCode (hk.code f hmem (.ioctl rq) (by simp [hcode]))
      (hi.taken f hmem (.ioctl rq) (by simp [hcode]) rq rfl)
  | setExit x d =>
    intro j hj
    rw [List.mem_singleton.1 hj]
    exact hown
  | enter | process | asleepQueue | snapshot | loop | join =>
    intro j hj
    simp only [Instr.new] at hj
    repeat' split at hj
    all_goals simp at hj
    all_goals first | (subst hj; trivial) | (rcases hj with rfl | rfl <;> trivial)
  | free | complete | condDestroy | closeQueue => simp [Instr.new]
  | _ =>
    rcases hserving.head with ⟨h, -⟩ | ⟨h, -⟩
    · cases h
    · cases h

theorem LinkInv.exec (hi : LinkInv s) (hk : KindInv s) (hr : RefInv s) (hw : WorkerInv s)
    (ht : s.threads[t]? = some f) (hcode : f.code = i :: rest) (he : s.exec t f rest ok i = some s') :
    LinkInv s' := by
  have hmem := List.mem_of_getElem? ht
  rcases exec_code hw he with ⟨rfl, -, -⟩ | ⟨f', spawned, hg⟩
  · exact ⟨hi.opens, hi.push, hi.requests, hi.taken, hi.worker⟩
  -- a thread is the one that runs, another one, or new
  have hcases : ∀ u ∈ s'.threads, u = f' ∨ u ∈ s.threads ∨ ∃ q, u = ⟨some q, [.enter q], 0, false, none, none⟩ := by
    intro u hu
    rw [hg.threads] at hu
    rcases List.mem_append.1 hu with hu | hu
    · rcases mem_threads_set hu with h | h
      · exact .inl h
      · exact .inr (.inl h)
    · rcases hg.spawned with rfl | ⟨q, -, rfl⟩
      · cases hu
      · exact .inr (.inr ⟨q, List.mem_singleton.1 hu⟩)
  constructor
  · intro u hu
    rcases hcases u hu with rfl | hu | ⟨q, rfl⟩
    · rw [hg.code]
      have := hi.opens f hmem
      rw [hcode] at this
      exact this.goes ok
    · exact hi.opens u hu
    · simp [Opens]
  · intro u hu q g e hpush
    rcases hcases u hu with rfl | hu | ⟨x, rfl⟩
    · rw [hg.code] at hpush ⊢
      rcases List.mem_append.1 hpush with hpush | hpush
      · exact .inl (List.mem_append_left _ (push_new hpush))
      · rcases hi.push f hmem q g e (by simp [hcode, hpush]) with h | h
        · rw [hcode] at h
          rcases List.mem_cons.1 h with rfl | h
          · exact .inr (exec_attachQueue he)
          · exact .inl (List.mem_append_right _ h)
        · exact .inr (exec_linked he h)
    · exact (hi.push u hu q g e hpush).imp_right (exec_linked he)
    · simp at hpush
  · intro r hr' e hev
    rcases (exec_posted hr hw ht hcode he).requests r hr' with h | h
    · exact exec_linked he (hi.requests r h e hev)
    · cases i with
      | push q g e' =>
        cases h
        cases hev
        rcases hi.push f hmem q g e (by simp [hcode]) with h | h
        · -- an attachment does not stand behind the push
          rw [hcode] at h
          rcases List.mem_cons.1 h with h | h
          · cases h
          · have hopens := hi.opens f hmem
            rw [hcode] at hopens
            cases (List.pairwise_cons.1 hopens).1 _ h rfl
        · exact exec_linked he h
      | _ => cases h
  · intro u hu j hj rq hrq e hev
    rcases hg.mem ht hcode hu hj with ⟨v, hv, hj⟩ | hj | ⟨q, rfl⟩
    · exact exec_linked he (hi.taken v hv j hj rq hrq e hev)
    · rcases request_new hj hrq with rfl | ⟨q, rfl, hfind⟩
      · exact exec_linked he (hi.taken f hmem (.snapshot rq) (by simp [hcode]) rq rfl e hev)
      · exact exec_linked he (hi.requests rq (List.mem_of_find?_eq_some hfind) e hev)
    · cases hrq
  · intro u hu q hrole j hj
    rcases hcases u hu with rfl | hu | ⟨x, rfl⟩
    · rw [hg.role] at hrole
      rw [hg.code] at hj
      rcases List.mem_append.1 hj with hj | hj
      · exact exec_keepsTo he (hi.new hk hw ht hcode hrole j hj)
      · exact exec_keepsTo he (hi.worker f hmem q hrole j (by simp [hcode, hj]))
    · exact exec_keepsTo he (hi.worker u hu q hrole j hj)
    · rw [List.mem_singleton.1 hj]
      trivial

end

theorem LinkInv.start : LinkInv .start := by
  constructor <;> simp [Host.start]

theorem LinkInv.step (hi : LinkInv s) (hk : KindInv s) (hr : RefInv s) (hw : WorkerInv s) {l : HostLabel}
    (hs : s.step l = some s') : LinkInv s' := by
  rcases step_cases hs with ⟨rfl, rfl⟩ | ⟨t, c, f, rfl, ht, hrole, -, -, -, rfl⟩ |
    ⟨t, ok, f, i, rest, rfl, ht, hcode, ⟨-, rfl⟩ | he⟩
  · have hcode : ∀ u ∈ s.threads ++ [Thread.idle], u ∈ s.threads ∨ (u.code = [] ∧ u.role = none) := by
      intro u hu
      rcases List.mem_append.1 hu with hu | hu
      · exact .inl hu
      · rw [List.mem_singleton.1 hu]
        exact .inr ⟨rfl, rfl⟩
    constructor
    · intro u hu
      rcases hcode u hu with hu | ⟨hu, -⟩
      · exact hi.opens u hu
      · rw [hu]
        exact .nil
    · intro u hu q g e hpush
      rcases hcode u hu with hu | ⟨hu, -⟩
      · exact hi.push u hu q g e hpush
      · rw [hu] at hpush
        cases hpush
    · exact hi.requests
    · intro u hu j hj
      rcases hcode u hu with hu | ⟨hu, -⟩
      · exact hi.taken u hu j hj
      · rw [hu] at hj
        cases hj
    · intro u hu q hr'
      rcases hcode u hu with hu | ⟨-, hu⟩
      · exact hi.worker u hu q hr'
      · rw [hu] at hr'
        cases hr'
  · have hcall : ∀ j ∈ c.code, j.opens = false ∧ j.request = none := by
      cases c <;> simp [ApiCall.code, Instr.opens, Instr.request]
    constructor
    · intro u hu
      rcases mem_threads_set hu with rfl | hu
      · exact opens_code c
      · exact hi.opens u hu
    · intro u hu q g e hpush
      rcases mem_threads_set hu with rfl | hu
      · cases (hcall _ hpush).1
      · exact hi.push u hu q g e hpush
    · exact hi.requests
    · intro u hu j hj rq hrq
      rcases mem_threads_set hu with rfl | hu
      · rw [(hcall j hj).2] at hrq
        cases hrq
      · exact hi.taken u hu j hj rq hrq
    · intro u hu q hr'
      rcases mem_threads_set hu with rfl | hu
      · rw [hrole] at hr'
        cases hr'
      · exact hi.worker u hu q hr'
  · exact ⟨hi.opens, hi.push, hi.requests, hi.taken, hi.worker⟩
  · exact hi.exec hk hr hw ht hcode he

/-! ### Sleeping workers, joins, and workers that have left -/

/-- A worker sleeps while no request waits, a join comes behind `exit`, and a worker leaves a queue that is torn
down. -/
structure SleepInv (s : Host) : Prop where
  asleep : ∀ f ∈ s.threads, ∀ q n, .asleepQueue q n ∈ f.code → ∃ b, s.queueBody q = some b ∧ n ≤ b.wakes ∧
    (n = b.wakes → s.waiting q = false ∧ b.exit = false)
  joins : ∀ f ∈ s.threads, ∀ q d, .join q d ∈ f.code → ∃ b, s.queueBody q = some b ∧ b.exit = true
  leaves : ∀ f ∈ s.threads, ∀ q, f.role = some q → f.code = [] ∨ f.exit = true → s.dying q

section

variable {i : Instr} {ok : Bool}

/-- The queue whose worker an instruction may broadcast to. -/
def Instr.broadcasts : Instr → Option Id
  | .push q _ _ | .setExit q _ => some q
  | _ => none

/-- What a store to a queue may change of what its worker sees. -/
private theorem stores_wakes {q : Id} {b' b : QueueBody} (h : i.stores s t ok = some (q, .queue b'))
    (hb : s.queueBody q = some b) : (b.exit = true → b'.exit = true) ∧ b.wakes ≤ b'.wakes ∧
      (b'.wakes = b.wakes → b'.exit = b.exit ∧ ∀ g e, i = .push q g e → s.waiting q = true) ∧
      (i.broadcasts ≠ some q → b'.wakes = b.wakes) := by
  cases i with
  | newQueue d =>
    simp only [Instr.stores] at h
    split at h <;> cases h
    have hnone := body_length (s := s)
    rw [body_of_queueBody hb] at hnone
    cases hnone
  | createThread x =>
    simp only [Instr.stores] at h
    split at h
    · obtain ⟨b₀, hb₀, hr⟩ := Option.map_eq_some_iff.1 h
      cases hr
      rw [hb] at hb₀
      cases hb₀
      simp
    · cases h
  | push x g e =>
    obtain ⟨b₀, hb₀, hr⟩ := Option.map_eq_some_iff.1 h
    cases hr
    rw [hb] at hb₀
    cases hb₀
    cases hwait : s.waiting q <;> simp [Instr.broadcasts]
  | setExit x d | enter x | closeQueue x d =>
    obtain ⟨b₀, hb₀, hr⟩ := Option.map_eq_some_iff.1 h
    cases hr
    rw [hb] at hb₀
    cases hb₀
    simp [Instr.broadcasts]
  | add | swap =>
    obtain ⟨r, -, hr⟩ := Option.map_eq_some_iff.1 h
    cases hr
  | _ =>
    simp only [Instr.stores] at h
    repeat' split at h
    all_goals simp at h

/-- A request is pushed to an empty list, or `exit` is set, only with a broadcast. -/
theorem exec_wakes (hr : RefInv s) (hw : WorkerInv s) (ht : s.threads[t]? = some f) (hcode : f.code = i :: rest)
    (he : s.exec t f rest ok i = some s') {q : Id} {b : QueueBody} (hb : s.queueBody q = some b) :
    ∃ b', s'.queueBody q = some b' ∧ (b.exit = true → b'.exit = true) ∧ b.wakes ≤ b'.wakes ∧
      (b'.wakes = b.wakes → b'.exit = b.exit ∧ (s'.waiting q = true → s.waiting q = true)) ∧
      (i.broadcasts ≠ some q → b'.wakes = b.wakes) := by
  have hwaiting : s'.waiting q = true → s.waiting q = true ∨ ∃ g e, i = .push q g e := by
    intro h
    obtain ⟨r, hr', hq⟩ := List.any_eq_true.1 h
    rcases (exec_posted hr hw ht hcode he).requests r hr' with h | h
    · exact .inl (List.any_eq_true.2 ⟨r, h, hq⟩)
    · cases i with
      | push x g e =>
        cases h
        have hx : x = q := by simpa using hq
        subst hx
        exact .inr ⟨g, e, rfl⟩
      | _ => cases h
  have hbody := exec_body he q
  obtain ⟨b', hb'⟩ := Option.isSome_iff_exists.1 (exec_queue_isSome he hb)
  have hkeep : s'.queueBody q = s.queueBody q → (∀ g e, i ≠ .push q g e) → _ := fun h hno =>
    (⟨b, h.trans hb, id, le_refl _, fun _ => ⟨rfl, fun hwait => (hwaiting hwait).resolve_right
      fun ⟨g, e, h⟩ => hno g e h⟩, fun _ => rfl⟩ :
      ∃ b', s'.queueBody q = some b' ∧ (b.exit = true → b'.exit = true) ∧ b.wakes ≤ b'.wakes ∧
        (b'.wakes = b.wakes → b'.exit = b.exit ∧ (s'.waiting q = true → s.waiting q = true)) ∧
        (i.broadcasts ≠ some q → b'.wakes = b.wakes))
  cases hst : i.stores s t ok with
  | none =>
    rw [hst] at hbody
    refine hkeep (by rw [Host.queueBody, hbody]; rfl) fun g e h => ?_
    subst h
    simp [Instr.stores, hb] at hst
  | some r =>
    obtain ⟨x, c⟩ := r
    rw [hst, Host.bodyAfter] at hbody
    split at hbody
    · rename_i hx
      subst hx
      rw [body_of_queueBody hb'] at hbody
      cases hbody
      obtain ⟨h1, h2, h3, h4⟩ := stores_wakes hst hb
      refine ⟨b', hb', h1, h2, fun h => ⟨(h3 h).1, fun hwait => ?_⟩, h4⟩
      rcases hwaiting hwait with h' | ⟨g, e, h'⟩
      · exact h'
      · exact (h3 h).2 g e h'
    · rename_i hx
      refine hkeep (by rw [Host.queueBody, hbody]; rfl) fun g e h => ?_
      subst h
      simp only [Instr.stores, hb, Option.map_some, Option.some.injEq, Prod.mk.injEq] at hst
      exact hx hst.1

/-- Only a failed join sets the `exit` of a thread. -/
theorem exec_exit (ht : s.threads[t]? = some f) (he : s.exec t f rest ok i = some s') (hi : ∀ q d, i ≠ .join q d)
    (hf : s'.threads[t]? = some f') (h : f'.exit = true) : f.exit = true := by
  have hlt := (List.getElem?_eq_some_iff.1 ht).1
  have hset : ∀ g : Thread, (s.threads.set t g)[t]? = some f' → g = f' := fun g hg => by
    rw [List.getElem?_set_self hlt] at hg
    exact Option.some.inj hg
  cases i with
  | join q d => exact absurd rfl (hi q d)
  | createThread q =>
    simp only [Host.exec] at he
    split at he
    · split at he <;> cases he
      · have hf : (s.threads.set t { f with code := rest } ++ [⟨some q, [.enter q], 0, false, none, none⟩])[t]? =
          some f' := hf
        rw [List.getElem?_append_left (by simpa using hlt)] at hf
        rw [← hset _ hf] at h
        exact h
      · rw [← hset _ hf] at h
        exact h
    · cases he
  | ionmem =>
    simp only [Host.exec] at he
    split at he <;> cases he
    · rw [← hset _ hf] at h
      exact h
    · rw [ht] at hf
      cases hf
      exact h
  | enter q =>
    simp only [Host.exec] at he
    split at he <;> cases he
    rw [← hset _ hf] at h
    cases h
  | _ =>
    simp only [Host.exec] at he
    repeat' split at he
    all_goals try cases he
    all_goals
      rw [← hset _ hf] at h
      exact h

/-- A worker goes to sleep with the count of broadcasts that it has seen, while nothing waits. -/
private theorem asleepQueue_new {q : Id} {n : Nat} (h : .asleepQueue q n ∈ i.new s f ok) :
    ∃ b, s.queueBody q = some b ∧ n = b.wakes ∧ s.waiting q = false ∧ b.exit = false := by
  cases i with
  | process x =>
    simp only [Instr.new] at h
    split at h
    · simp at h
    · rename_i hfind
      split at h
      · rename_i b hb
        split at h
        · cases h
        · rename_i hexit
          simp only [List.mem_cons, Instr.asleepQueue.injEq, List.not_mem_nil, or_false] at h
          obtain ⟨rfl, rfl⟩ := h
          refine ⟨b, hb, rfl, ?_, by simpa using hexit⟩
          rw [waiting_eq_false]
          simpa [List.find?_eq_none] using hfind
      · cases h
  | release x => cases cleanup_new rfl _ h
  | ioctl rq => cases cleanup_finishCode _ _ _ h
  | newQueue | createThread | push | setExit | join | closeQueue | enter | asleepQueue | snapshot | loop =>
    simp only [Instr.new] at h
    repeat' split at h
    all_goals simp at h
  | _ => cases inner_new rfl _ h

/-- Only `xrp_queue_destroy` goes on to a join. -/
private theorem join_new {q d : Id} (h : .join q d ∈ i.new s f ok) : i = .setExit q d := by
  cases i with
  | setExit x y =>
    cases List.mem_singleton.1 h
    rfl
  | release x =>
    simp only [Instr.new] at h
    repeat' split at h
    · unfold destroyCode at h
      rcases List.mem_append.1 h with h | h
      · split at h <;> simp at h
      · simp at h
    all_goals cases h
  | ioctl rq =>
    simp only [Instr.new, finishCode] at h
    cases hg : rq.group <;> cases he : rq.event <;> simp [hg, he] at h
  | newQueue | createThread | push | join | closeQueue | enter | asleepQueue | snapshot | loop | process =>
    simp only [Instr.new] at h
    repeat' split at h
    all_goals simp at h
  | _ => cases inner_new rfl _ h

/-- A worker that has nothing left has seen `exit`, or has joined itself. -/
private theorem SleepInv.left (hi : SleepInv s) (hw : WorkerInv s) (htear : TearInv s)
    (ht : s.threads[t]? = some f) (hcode : f.code = i :: rest) {q : Id} (hr : f.role = some q)
    (hnil : i.new s f ok ++ rest = []) : s.dying q := by
  obtain ⟨hnew, hrest⟩ := List.append_eq_nil_iff.1 hnil
  have hserving := (hw.serving f (List.mem_of_getElem? ht) q hr).1
  rw [hcode] at hserving
  rcases hserving.head with ⟨hs, -⟩ | ⟨-, hne, -⟩
  · have hplace := (hserving.place hs).1
    cases i with
    | process x =>
      cases hplace
      simp only [Instr.new] at hnew
      split at hnew
      · cases hnew
      · split at hnew
        · rename_i b hb
          split at hnew
          · exact htear.exit q b hb ‹_›
          · cases hnew
        · rename_i hb
          obtain ⟨b, hb', -⟩ := hw.worker t f q ht hr
          rw [hb'] at hb
          cases hb
    | loop x =>
      cases hplace
      simp only [Instr.new] at hnew
      split at hnew
      · exact hi.leaves f (List.mem_of_getElem? ht) q hr (.inr ‹_›)
      · cases hnew
    | snapshot rq | ioctl rq =>
      rw [hrest] at hplace
      cases hplace
    | enter | asleepQueue => cases hnew
    | _ => cases hs
  · exact absurd hrest hne

theorem SleepInv.exec (hi : SleepInv s) (hr : RefInv s) (hw : WorkerInv s) (htear : TearInv s)
    (ht : s.threads[t]? = some f) (hcode : f.code = i :: rest) (he : s.exec t f rest ok i = some s') :
    SleepInv s' := by
  have hmem := List.mem_of_getElem? ht
  rcases exec_code hw he with ⟨rfl, -, -⟩ | ⟨f', spawned, hg⟩
  · exact ⟨hi.asleep, hi.joins, hi.leaves⟩
  have hdying : ∀ q, s.dying q → s'.dying q := fun q h => (hr.exec_dying ht hcode he q).2 (.inl h)
  constructor
  · intro u hu q n hj
    have hold : ∃ b, s.queueBody q = some b ∧ n ≤ b.wakes ∧
        (n = b.wakes → s.waiting q = false ∧ b.exit = false) := by
      rcases hg.mem ht hcode hu hj with ⟨v, hv, hj⟩ | hj | ⟨x, hx⟩
      · exact hi.asleep v hv q n hj
      · obtain ⟨b, hb, hn, hwait, hexit⟩ := asleepQueue_new hj
        exact ⟨b, hb, le_of_eq hn, fun _ => ⟨hwait, hexit⟩⟩
      · cases hx
    obtain ⟨b, hb, hle, hsame⟩ := hold
    obtain ⟨b', hb', -, hwakes, hkeep, -⟩ := exec_wakes hr hw ht hcode he hb
    refine ⟨b', hb', le_trans hle hwakes, fun hn => ?_⟩
    have heq : n = b.wakes := by omega
    obtain ⟨hexit, hwait⟩ := hkeep (by omega)
    obtain ⟨h1, h2⟩ := hsame heq
    refine ⟨?_, hexit.trans h2⟩
    by_contra h
    rw [hwait (by simpa using h)] at h1
    cases h1
  · intro u hu q d hj
    have hold : ∃ b, s'.queueBody q = some b ∧ b.exit = true := by
      rcases hg.mem ht hcode hu hj with ⟨v, hv, hj⟩ | hj | ⟨x, hx⟩
      · obtain ⟨b, hb, hexit⟩ := hi.joins v hv q d hj
        obtain ⟨b', hb', hmono, -⟩ := exec_wakes hr hw ht hcode he hb
        exact ⟨b', hb', hmono hexit⟩
      · obtain rfl := join_new hj
        simp only [Host.exec] at he
        split at he
        · rename_i b hb
          cases he
          exact ⟨_, (queueBody_setBody hb q).trans (if_pos rfl), rfl⟩
        · cases he
      · cases hx
    exact hold
  · intro u hu q hrole hleft
    rw [hg.threads] at hu
    rcases List.mem_append.1 hu with hu | hu
    · obtain ⟨w, hw'⟩ := List.mem_iff_getElem?.1 hu
      rcases getElem?_set_cases hw' with ⟨rfl, rfl⟩ | ⟨-, hw'⟩
      · rw [hg.role] at hrole
        apply hdying
        rcases hleft with hnil | hexit
        · rw [hg.code] at hnil
          exact hi.left hw htear ht hcode hrole hnil
        · by_cases hjoin : ∃ x d, i = .join x d
          · -- the worker tears down the queue that it serves
            obtain ⟨x, d, rfl⟩ := hjoin
            have htears := tears_pos hmem (j := .join x d) (by simp [hcode]) (q := x) (by simp [Instr.tears])
            rcases hw.join_cases he with rfl | ⟨f'', hj⟩
            · have hself := hg.self ht
              rw [ht] at hself
              cases hself
              exact hi.leaves f hmem q hrole (.inr hexit)
            · obtain ⟨b, v, hb, hv, hv'⟩ := hj.joined
              have hself := hg.self ht
              rw [hj.threads, List.getElem?_set_self (List.getElem?_eq_some_iff.1 ht).1] at hself
              cases hself
              rcases hv' with ⟨rfl, -⟩ | ⟨-, hsame, -⟩
              · obtain ⟨g, hg', hrole'⟩ := hw.thread x b v hb hv
                rw [ht] at hg'
                cases hg'
                rw [hrole] at hrole'
                cases hrole'
                have hbal := htear.balance q b hb
                by_contra hno
                rw [if_neg hno] at hbal
                omega
              · exact hi.leaves f hmem q hrole (.inr (hsame.symm.trans hexit))
          · have hexit' := exec_exit ht he (fun x d h => hjoin ⟨x, d, h⟩) (hg.self ht) hexit
            exact hi.leaves f hmem q hrole (.inr hexit')
      · exact hdying q (hi.leaves u (List.mem_of_getElem? hw') q hrole hleft)
    · rcases hg.spawned with rfl | ⟨x, -, rfl⟩
      · cases hu
      · rw [List.mem_singleton.1 hu] at hleft
        rcases hleft with h | h <;> cases h

end

theorem SleepInv.start : SleepInv .start := by
  constructor <;> simp [Host.start]

theorem SleepInv.step (hi : SleepInv s) (hr : RefInv s) (hw : WorkerInv s) (htear : TearInv s) {l : HostLabel}
    (hs : s.step l = some s') : SleepInv s' := by
  rcases step_cases hs with ⟨rfl, rfl⟩ | ⟨t, c, f, rfl, ht, hrole, -, -, -, rfl⟩ |
    ⟨t, ok, f, i, rest, rfl, ht, hcode, ⟨-, rfl⟩ | he⟩
  · have hmem : ∀ u ∈ s.threads ++ [Thread.idle], u ∈ s.threads ∨ u = .idle := fun u hu => by simpa using hu
    constructor
    · intro u hu q n hj
      rcases hmem u hu with hu | rfl
      · exact hi.asleep u hu q n hj
      · cases hj
    · intro u hu q d hj
      rcases hmem u hu with hu | rfl
      · exact hi.joins u hu q d hj
      · cases hj
    · intro u hu q hr'
      rcases hmem u hu with hu | rfl
      · exact hi.leaves u hu q hr'
      · cases hr'
  · constructor
    · intro u hu q n hj
      rcases mem_threads_set hu with rfl | hu
      · cases c <;> simp [ApiCall.code] at hj
      · exact hi.asleep u hu q n hj
    · intro u hu q d hj
      rcases mem_threads_set hu with rfl | hu
      · cases c <;> simp [ApiCall.code] at hj
      · exact hi.joins u hu q d hj
    · intro u hu q hr'
      rcases mem_threads_set hu with rfl | hu
      · rw [hrole] at hr'
        cases hr'
      · exact hi.leaves u hu q hr'
  · exact ⟨hi.asleep, hi.joins, hi.leaves⟩
  · exact hi.exec hr hw htear ht hcode he

/-! ### Runs -/

/-- The callers pass pointers of their types, and threads can be created. -/
def runsWell (s : Host) (l : HostLabel) : Prop := typedCall s l ∧ succeeds Instr.spawns s l

instance (s : Host) (l : HostLabel) : Decidable (runsWell s l) := inferInstanceAs (Decidable (_ ∧ _))

structure ProgressInv (s : Host) : Prop where
  kinds : KindInv s
  attach : AttachInv s
  link : LinkInv s
  sleep : SleepInv s

theorem progressInv_of_reach (h : Reach host runsWell s) : ProgressInv s := by
  induction h with
  | start h0 =>
    cases h0
    exact ⟨.start, .start, .start, .start⟩
  | step h hok hs ih =>
    have hi := hostInv_of_reach h
    have hs := host_step hs
    exact ⟨ih.kinds.step hi.refs hi.worker hok.1 hs, ih.attach.step ih.kinds hi.worker hs,
      ih.link.step ih.kinds hi.refs hi.worker hs, ih.sleep.step hi.refs hi.worker (tearInv_of_reach h) hs⟩

/-- The thread `t` cannot go on before another one does something. -/
def Host.blocked (s : Host) (t : Nat) (f : Thread) : Prop :=
  match f.code with
  | [] => True
  | .asleep e n :: _ => (s.eventBody e).map EventBody.wakes = some n
  | .asleepQueue q n :: _ => (s.queueBody q).map QueueBody.wakes = some n
  | .join q _ :: _ =>
    match (s.queueBody q).bind QueueBody.worker with
    | some w => w ≠ t ∧ (s.threads[w]?).map Thread.code ≠ some []
    | none => False
  | _ :: _ => False

instance (t : Nat) (f : Thread) : Decidable (s.blocked t f) := by
  unfold Host.blocked
  repeat' split
  all_goals infer_instance

/-- A thread that is not blocked can go on. -/
theorem ProgressInv.enabled (hi : ProgressInv s) (hr : RefInv s) (hfault : s.fault = false)
    (hcrash : s.crashed = false) (ht : s.threads[t]? = some f) (hb : ¬ s.blocked t f) (ok : Bool) :
    (host.step s (.run t ok)).isSome = true := by
  have hgo : host.step s (.run t ok) = s.step (.run t ok) := if_neg (by simp [hfault, hcrash])
  rw [hgo]
  cases hcode : f.code with
  | nil => exact absurd (by simp [Host.blocked, hcode]) hb
  | cons i rest =>
    simp only [Host.step, ht, hcode]
    split
    · rfl
    by_cases hjoin : ∃ q d, i = .join q d
    · obtain ⟨q, d, rfl⟩ := hjoin
      obtain ⟨b, hbody⟩ := queueBody_of_type ((hi.kinds.code f (List.mem_of_getElem? ht) (.join q d)
        (by simp [hcode])) (q, .queue) (by simp [Instr.operands]))
      simp only [Host.blocked, hcode, hbody, Option.bind_some] at hb
      simp only [Host.exec, hbody]
      cases hwb : b.worker with
      | none =>
        simp only
        split <;> rfl
      | some w =>
        simp only [hwb, not_and_or, not_not] at hb
        simp only
        split
        · split <;> rfl
        · rename_i hne
          rw [if_pos (hb.resolve_left hne)]
          rfl
    · exact exec_isSome hi.kinds hi.attach hr ht hcode (fun q d h => hjoin ⟨q, d, h⟩) ok

/-- A worker that is blocked and has not returned sleeps, with nothing to do. -/
theorem ProgressInv.worker_sleeps (hi : ProgressInv s) (hw : WorkerInv s) (ht : s.threads[t]? = some f) {q : Id}
    (hr : f.role = some q) (hb : s.blocked t f) (hcode : f.code ≠ []) :
    (∃ n, f.code = [.asleepQueue q n]) ∧ ∃ b, s.queueBody q = some b ∧ s.waiting q = false ∧ b.exit = false := by
  have hmem := List.mem_of_getElem? ht
  cases hc : f.code with
  | nil => exact absurd hc hcode
  | cons i rest =>
    have hserving := (hw.serving f hmem q hr).1
    rw [hc] at hserving
    simp only [Host.blocked, hc] at hb
    cases i with
    | asleepQueue x n =>
      have hsleep : (s.queueBody x).map QueueBody.wakes = some n := hb
      have hx : some (x, []) = some (q, rest) := (hserving.place rfl).1
      obtain ⟨rfl, rfl⟩ : x = q ∧ rest = [] := by simpa [eq_comm] using hx
      obtain ⟨b, hbody, -, hsame⟩ := hi.sleep.asleep f hmem x n (by simp [hc])
      rw [hbody] at hsleep
      have hn : b.wakes = n := by simpa using hsleep
      obtain ⟨hwait, hexit⟩ := hsame hn.symm
      exact ⟨⟨n, rfl⟩, b, hbody, hwait, hexit⟩
    | join x d =>
      -- it would join itself
      have hx : x = q := hi.link.worker f hmem q hr (.join x d) (by simp [hc])
      subst hx
      obtain ⟨b, hbody, hworker, -⟩ := hw.worker t f x ht hr
      simp only [hbody, Option.bind_some, hworker, ne_eq, not_true, false_and] at hb
    | asleep e n =>
      rcases hserving.head with ⟨h, -⟩ | ⟨h, -⟩
      · cases h
      · cases h
    | _ => cases hb

/-- The command of an event without a status is going to be pushed, waits, is with a worker, or has run and is
going to be completed. -/
theorem EventInv.outstanding {j : Journal} (hi : EventInv s j) {e : Id} {b : EventBody}
    (hb : s.eventBody e = some b) (hp : b.status = .pending) :
    s.weigh (Instr.pushes e) + s.pending (Request.isFor e) + s.weigh (Instr.completes e) = 1 := by
  have h1 := hi.conserved (Request.isFor e)
  have h2 := hi.command e
  have h3 := hi.statuses e
  simp only [hb, Option.isSome_some, if_true, Option.map_some, Option.getD_some, EventBody.resolved,
    if_pos hp] at h2 h3
  omega

/-! ### When every thread is blocked -/

def Host.allBlocked (s : Host) : Prop := ∀ t f, s.threads[t]? = some f → s.blocked t f

section

variable (hall : s.allBlocked)

include hall

theorem Host.allBlocked.of_mem (hf : f ∈ s.threads) : ∃ t : Nat, s.threads[t]? = some f ∧ s.blocked t f := by
  obtain ⟨t, ht⟩ := List.mem_iff_getElem?.1 hf
  exact ⟨t, ht, hall t f ht⟩

/-- Nothing is left to be attached, pushed or created. -/
theorem Host.allBlocked.opens (hi : LinkInv s) (hf : f ∈ s.threads) {j : Instr} (hj : j ∈ f.code) :
    j.opens = false := by
  obtain ⟨t, -, hb⟩ := hall.of_mem hf
  have hopens := hi.opens f hf
  cases hcode : f.code with
  | nil =>
    rw [hcode] at hj
    cases hj
  | cons i rest =>
    rw [hcode] at hopens hj
    simp only [Host.blocked, hcode] at hb
    by_contra hopen
    have hopen : j.opens = true := by simpa using hopen
    rcases List.mem_cons.1 hj with rfl | hj
    · cases j <;> first | exact hb | cases hopen
    · have hprep := (List.pairwise_cons.1 hopens).1 j hj hopen
      cases i <;> first | exact hb | cases hprep

/-- The workers that have not returned sleep. -/
theorem Host.allBlocked.worker (hi : ProgressInv s) (hw : WorkerInv s) (hf : f ∈ s.threads) {q : Id}
    (hr : f.role = some q) (hcode : f.code ≠ []) :
    (∃ n, f.code = [.asleepQueue q n]) ∧ ∃ b, s.queueBody q = some b ∧ s.waiting q = false ∧ b.exit = false := by
  obtain ⟨t, ht, hb⟩ := hall.of_mem hf
  exact hi.worker_sleeps hw ht hr hb hcode

/-- No worker has a request. -/
theorem Host.allBlocked.request (hi : ProgressInv s) (hw : WorkerInv s) (hf : f ∈ s.threads) {j : Instr}
    (hj : j ∈ f.code) : j.request = none := by
  cases hreq : j.request with
  | none => rfl
  | some rq =>
    obtain ⟨hr, -, hcode⟩ := hw.of_request hf hj hreq
    obtain ⟨⟨n, hcode'⟩, -⟩ := hall.worker hi hw hf hr (by simp [hcode])
    rw [hcode] at hcode'
    simp at hcode'

/-- No request of a live queue waits. -/
theorem Host.allBlocked.waiting (hi : ProgressInv s) (hw : WorkerInv s) {notes : List Note}
    (hd : DestroyInv s notes) {r : Request} (hr : r ∈ s.requests) : s.dying r.queue := by
  obtain ⟨b, hb⟩ := queueBody_of_type ((hi.kinds.requests r hr) (r.queue, .queue) (by simp [Request.operands]))
  cases hwb : b.worker with
  | none =>
    obtain ⟨u, hu, rest, hcode⟩ := hd.created r.queue b hb hwb
    have hopen := hall.opens hi.link hu (j := .createThread r.queue) (by simp [hcode])
    cases hopen
  | some w =>
    obtain ⟨g, hg, hgr⟩ := hw.thread r.queue b w hb hwb
    have hmem := List.mem_of_getElem? hg
    by_cases hcode : g.code = []
    · exact hi.sleep.leaves g hmem r.queue hgr (.inl hcode)
    · obtain ⟨-, -, -, hwait, -⟩ := hall.worker hi hw hmem hgr hcode
      exact absurd rfl (waiting_eq_false.1 hwait r hr)

/-- No event that is alive is without its status. -/
theorem Host.allBlocked.resolved (hi : ProgressInv s) (hr : RefInv s) (hw : WorkerInv s) {notes : List Note}
    (hd : DestroyInv s notes) {j : Journal} (hev : EventInv s j) (ho : OrderInv s j) {e : Id} {c : Cell}
    {b : EventBody} (hc : s.heap[e]? = some c) (hpos : 0 < c.count) (hb : s.eventBody e = some b) :
    b.status ≠ .pending := by
  intro hp
  have hout := hev.outstanding hb hp
  have hpush : s.weigh (Instr.pushes e) = 0 := by
    refine total_eq_zero.2 fun u hu => total_eq_zero.2 fun k hk => ?_
    have hopen := hall.opens hi.link hu hk
    cases k <;> first | rfl | cases hopen
  have hcomplete : s.weigh (Instr.completes e) = 0 := by
    refine total_eq_zero.2 fun u hu => total_eq_zero.2 fun k hk => ?_
    rcases completes_or e k with ⟨status, rfl⟩ | ⟨h0, -⟩
    · obtain ⟨rq, -, -, hrole⟩ := ho.completes u hu e status hk
      obtain ⟨⟨n, hcode⟩, -⟩ := hall.worker hi hw hu hrole (List.ne_nil_of_mem hk)
      rw [hcode] at hk
      cases List.mem_singleton.1 hk
    · exact h0
  have hlist : total (Request.isFor e) s.requests = 0 := by
    refine total_eq_zero.2 fun r hr' => if_neg fun hev' => ?_
    -- the queue of the request is the queue of the event, which holds it
    obtain ⟨b', hb', hq⟩ := hi.link.requests r hr' e hev'
    rw [hb] at hb'
    cases hb'
    have hcb : c.body = .event b := by
      have h := body_of_eventBody hb
      rw [Host.body, hc] at h
      exact Option.some.inj h
    obtain ⟨cq, hcq, hqpos, -⟩ := hr.of_body hc hpos (x := r.queue) (by simp [hcb, Body.refs, hq])
    have hdying := (dying_iff hcq).1 (hall.waiting hi hw hd hr')
    omega
  have hcodes : total (fun f : Thread => load (Request.isFor e) f.code) s.threads = 0 :=
    total_eq_zero.2 fun u hu => load_eq_zero fun k hk => hall.request hi hw hu hk
  unfold Host.pending at hout
  omega

end

/-- If every thread is blocked then no call is left that has not returned. -/
theorem idle_of_blocked (h : Reach host runsWell s) (hall : s.allBlocked) :
    ∀ f ∈ s.threads, f.role = none → f.code = [] := by
  have hi := progressInv_of_reach h
  obtain ⟨hr, hw, -⟩ := hostInv_of_reach h
  obtain ⟨j, hj⟩ := (h.mono fun _ _ _ => trivial : Reach host anyStep s).to_record .start Host.journal
  obtain ⟨notes, hnotes⟩ := (h.mono fun _ _ hok => hok.2 : Reach host (succeeds Instr.spawns) s).to_record []
    Host.note
  have hev : EventInv s j := (completionInv_of_reach hj).event
  intro f hf hrole
  obtain ⟨t, ht, hb⟩ := hall.of_mem hf
  cases hcode : f.code with
  | nil => rfl
  | cons i rest =>
    obtain ⟨hcalling, -⟩ := hw.calling f hf hrole
    rw [hcode] at hcalling
    simp only [Host.blocked, hcode] at hb
    cases i with
    | join q d =>
      -- the worker that is joined has been told to exit, and does not sleep
      simp only at hb
      obtain ⟨b, hbody, hexit⟩ := hi.sleep.joins f hf q d (by simp [hcode])
      rw [hbody, Option.bind_some] at hb
      split at hb
      · rename_i w hwb
        obtain ⟨g, hg, hgr⟩ := hw.thread q b w hbody hwb
        have hne : g.code ≠ [] := by
          intro h
          apply hb.2
          rw [hg, Option.map_some, h]
        obtain ⟨-, b', hbody', -, hexit'⟩ := hall.worker hi hw (List.mem_of_getElem? hg) hgr hne
        rw [hbody] at hbody'
        cases hbody'
        rw [hexit] at hexit'
        cases hexit'
      · exact hb.elim
    | asleepQueue q n =>
      rcases hcalling.head with ⟨h, -⟩ | ⟨h, -⟩
      · cases h
      · cases h
    | asleep e n =>
      have hb : (s.eventBody e).map EventBody.wakes = some n := hb
      obtain ⟨b, hbody, -, hpend⟩ := hev.asleep f hf e n (by simp [hcode])
      rw [hbody] at hb
      have hn : b.wakes = n := by simpa using hb
      obtain ⟨c, hcell, hpos, -⟩ := hr.of_needs ht hcode (x := e) (by simp [Instr.needs])
      exact absurd (hpend hn.symm) (hall.resolved hi hr hw (destroyInv_of_reach hnotes) hev (orderInv_of_reach hj)
        hcell hpos hbody)
    | _ => exact hb.elim

/-- In every run in which the callers pass pointers of their types and threads can be created there is no
deadlock: while a call has not returned, some thread is not blocked, and its step can be taken whatever its
allocation or its command gives. -/
theorem no_deadlock (h : Reach host runsWell s) (hcrash : s.crashed = false)
    (hcall : ∃ f ∈ s.threads, f.role = none ∧ f.code ≠ []) :
    ∃ t f, s.threads[t]? = some f ∧ ¬ s.blocked t f ∧ ∀ ok, (host.step s (.run t ok)).isSome = true := by
  obtain ⟨f, hf, hrole, hcode⟩ := hcall
  have hh := hostInv_of_reach h
  have hne : ¬ ∀ t f, s.threads[t]? = some f → s.blocked t f := fun hall =>
    hcode (idle_of_blocked h hall f hf hrole)
  simp only [not_forall] at hne
  obtain ⟨t, g, hg, hb⟩ := hne
  exact ⟨t, g, hg, hb, (progressInv_of_reach h).enabled hh.refs hh.fault hcrash hg hb⟩

/-- A client sleeps in `xrp_run_command_sync`, and the worker sleeps with a broadcast that it has not seen. -/
def syncSleeps : List HostLabel :=
  [.attach, .call 0 .openDeviceNewmode] ++ steps 0 2 ++ [.call 0 (.createQueue 0)] ++ steps 0 4 ++ steps 1 2 ++
    [.call 0 (.runCommandSync 1 none)] ++ steps 0 6

theorem no_deadlock_syncSleeps :
    ∃ s, host.exec runsWell .start syncSleeps = some s ∧
      s.threads.map Thread.code =
        [[.asleep 2 0, .eventStatus 2, .release 2, .ret], [.asleepQueue 1 0]] ∧
      ∃ t f, s.threads[t]? = some f ∧ ¬ s.blocked t f ∧ ∀ ok, (host.step s (.run t ok)).isSome = true := by
  obtain ⟨s, hs, hr, hp⟩ := Reach.exists_exec host runsWell .start syncSleeps
    (fun s => s.threads.map Thread.code =
      [[.asleep 2 0, .eventStatus 2, .release 2, .ret], [.asleepQueue 1 0]] ∧ s.crashed = false ∧
      ∃ f ∈ s.threads, f.role = none ∧ f.code ≠ []) rfl (by decide +kernel)
  obtain ⟨hcode, hcrash, hcall⟩ := of_decide_eq_true hp
  exact ⟨s, hs, hcode, no_deadlock hr hcrash hcall⟩

/-- When `pthread_create` has failed for a queue, a synchronous command on it sleeps for good. -/
def threadFails : List HostLabel :=
  [.attach, .call 0 .openDeviceNewmode] ++ steps 0 2 ++ [.call 0 (.createQueue 0)] ++ steps 0 2 ++ [.run 0 false] ++
    steps 0 1 ++ [.call 0 (.runCommandSync 1 none)] ++ steps 0 6

theorem queue_without_worker_hangs : ¬ ∀ s, Reach host typedCall s → s.crashed = false →
    (∃ f ∈ s.threads, f.role = none ∧ f.code ≠ []) → ∃ f ∈ s.threads, ∀ t : Nat, ¬ s.blocked t f := by
  intro hall
  obtain ⟨s, -, hr, hp⟩ := Reach.exists_exec host typedCall .start threadFails
    (fun s => s.crashed = false ∧ (∃ f ∈ s.threads, f.role = none ∧ f.code ≠ []) ∧
      ∀ f ∈ s.threads, s.blocked 0 f) rfl (by decide +kernel)
  obtain ⟨hcrash, hcall, hb⟩ := of_decide_eq_true hp
  obtain ⟨f, hf, hno⟩ := hall s hr hcrash hcall
  exact hno 0 (hb f hf)

end Vdsp
