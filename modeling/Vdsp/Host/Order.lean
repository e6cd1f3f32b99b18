import Vdsp.Host.Completion
import Vdsp.Host.Drain

/-!
# The order of the commands of a queue

The worker of a queue takes the first request of the list and runs it before it takes the next one.  What the
queue has accepted is at any time what it has executed, then the request in the hands of its worker, then the
waiting requests, in this order; and a command starts only when the events of all commands before it have got
their status.
-/

namespace Vdsp

open Ledger Lts

variable {s s' : Host} {t : Nat} {f f' : Thread} {rest : List Instr}

/-- The requests of `q` in the code of a thread. -/
def Thread.carries (f : Thread) (q : Id) : List Request :=
  (f.code.filterMap Instr.request).filter fun r => r.queue = q

/-- The requests of `q` that wait. -/
def Host.queued (s : Host) (q : Id) : List Request := s.requests.filter fun r => r.queue = q

/-- The requests of `q` in the order of their execution: first what the worker has taken. -/
def Host.line (s : Host) (q : Id) : List Request :=
  s.threads.flatMap (fun f => f.carries q) ++ s.queued q

/-! ### The code of a thread -/

private theorem flatMap_set_same {α β : Type} {g : α → List β} {l : List α} {n : Nat} {a b : α}
    (h : l[n]? = some a) (hg : g b = g a) : (l.set n b).flatMap g = l.flatMap g := by
  induction l generalizing n with
  | nil => rfl
  | cons x l ih =>
    cases n with
    | zero =>
      cases h
      simp [hg]
    | succ n =>
      have h' : l[n]? = some a := by simpa using h
      simp [ih h']

/-- Only one of the lists is not empty. -/
private theorem flatMap_eq_single {α β : Type} {g : α → List β} {l : List α} {n : Nat} {a : α}
    (h : l[n]? = some a) (hg : ∀ m b, m ≠ n → l[m]? = some b → g b = []) : l.flatMap g = g a := by
  induction l generalizing n with
  | nil => cases h
  | cons x l ih =>
    cases n with
    | zero =>
      cases h
      have hrest : l.flatMap g = [] := by
        rw [List.flatMap_eq_nil_iff]
        intro b hb
        obtain ⟨m, hm⟩ := List.mem_iff_getElem?.1 hb
        exact hg (m + 1) b (Nat.succ_ne_zero m) (by simpa using hm)
      rw [List.flatMap_cons, hrest, List.append_nil]
    | succ n =>
      have hx : g x = [] := hg 0 x (Nat.succ_ne_zero n).symm rfl
      rw [List.flatMap_cons, hx, List.nil_append]
      apply ih (by simpa using h)
      intro m b hm hb
      exact hg (m + 1) b (by omega) (by simpa using hb)

theorem carries_eq_nil {q : Id} (h : ∀ j ∈ f.code, ∀ rq, j.request = some rq → rq.queue ≠ q) :
    f.carries q = [] := by
  unfold Thread.carries
  rw [List.filter_eq_nil_iff]
  intro rq hrq
  obtain ⟨j, hj, hreq⟩ := List.mem_filterMap.1 hrq
  simpa using h j hj rq hreq

/-- Only the worker of a queue has a request of the queue in its code. -/
theorem WorkerInv.carries_other (hi : WorkerInv s) {q : Id} (ht : s.threads[t]? = some f)
    (hr : f.role = some q) {w : Nat} {g : Thread} (hg : s.threads[w]? = some g) (hne : w ≠ t) :
    g.carries q = [] := by
  apply carries_eq_nil
  rintro j hj rq hrq rfl
  obtain ⟨hrole, -, -⟩ := hi.of_request (List.mem_of_getElem? hg) hj hrq
  obtain ⟨b, hb, hw, -⟩ := hi.worker t f rq.queue ht hr
  exact hne (hi.unique hb hw hg hrole)

/-- What a worker has taken is what its code says. -/
theorem WorkerInv.line_eq (hi : WorkerInv s) {q : Id} (ht : s.threads[t]? = some f) (hr : f.role = some q) :
    s.line q = f.carries q ++ s.queued q := by
  unfold Host.line
  rw [flatMap_eq_single ht fun w g hne hg => hi.carries_other ht hr hg hne]

/-- A worker that has a request has no other one. -/
theorem WorkerInv.carries_eq (hi : WorkerInv s) (hf : f ∈ s.threads) {j : Instr} (hj : j ∈ f.code) {rq : Request}
    (hrq : j.request = some rq) : f.role = some rq.queue ∧ f.carries rq.queue = [rq] := by
  obtain ⟨hrole, -, hcode⟩ := hi.of_request hf hj hrq
  refine ⟨hrole, ?_⟩
  unfold Thread.carries
  rw [hcode, List.filterMap_cons_some hrq]
  simp [Instr.request]

/-- What an instruction that no queue sees puts into the code is not for a worker, and destroys nothing. -/
theorem inner_new {i : Instr} {ok : Bool} (hi : i.quiet = true) : ∀ j ∈ i.new s f ok, j.inner = true := by
  cases i with
  | newEvent q g sync =>
    simp only [Instr.new]
    split
    · exact inner_enqueueCode _ _ _ _
    · simp
  | newRequest q g evt sync =>
    simp only [Instr.new]
    repeat' split
    · simp [Instr.inner, Instr.quiet]
    · exact inner_enqueueCode _ _ _ _
    · simp
  | newBuffer d =>
    simp only [Instr.new]
    cases d <;> split <;> simp [Instr.inner, Instr.quiet]
  | release | newQueue | createThread | push | setExit | join | closeQueue => cases hi
  | enter | process | asleepQueue | snapshot | ioctl | loop => cases hi
  | _ =>
    simp only [Instr.new]
    repeat' split
    all_goals simp [Instr.inner, Instr.quiet]

/-- The instructions that bring a request into the code. -/
theorem request_new {i : Instr} {ok : Bool} {j : Instr} (hj : j ∈ i.new s f ok) {rq : Request}
    (hrq : j.request = some rq) :
    i = .snapshot rq ∨ ∃ q, i = .process q ∧ s.requests.find? (fun r => r.queue = q) = some rq := by
  cases i with
  | snapshot rq' =>
    rw [List.mem_singleton.1 hj] at hrq
    exact .inl (by rw [Option.some.inj hrq])
  | process q =>
    simp only [Instr.new] at hj
    split at hj
    · rename_i rq' hfind
      rcases List.mem_cons.1 hj with rfl | hj
      · cases hrq
        exact .inr ⟨q, rfl, hfind⟩
      · rw [List.mem_singleton.1 hj] at hrq
        cases hrq
    · repeat' split at hj
      all_goals first | (rw [List.mem_singleton.1 hj] at hrq; cases hrq) | cases hj
  | release x =>
    rw [request_of_cleanup (cleanup_new rfl j hj)] at hrq
    cases hrq
  | ioctl rq' =>
    rw [request_of_cleanup (cleanup_finishCode _ _ j hj)] at hrq
    cases hrq
  | newQueue | createThread | push | setExit | join | closeQueue | enter | asleepQueue | loop =>
    simp only [Instr.new] at hj
    repeat' split at hj
    all_goals simp at hj
    all_goals
      subst hj
      cases hrq
  | _ =>
    rw [request_of_inner (inner_new rfl j hj)] at hrq
    cases hrq

/-! ### One step -/

section

variable {i : Instr} {ok : Bool} {spawned : List Thread}

/-- The requests that an instruction leaves in the list. -/
def Instr.spares (s : Host) : Instr → List Request
  | .process q => s.requests.eraseP fun r => r.queue = q
  | _ => s.requests

/-- What an instruction does to the list of requests. -/
theorem exec_requests (hw : WorkerInv s) (he : s.exec t f rest ok i = some s') :
    s'.requests = i.spares s ++ (i.posts s).toList := by
  cases i with
  | process q =>
    simp only [Host.exec] at he
    split at he
    · split at he <;> cases he
      · simp [Instr.posts, Instr.spares]
      · rename_i hfind
        rw [List.find?_eq_none] at hfind
        simp [Instr.posts, Instr.spares, Host.goOn, Host.frame, List.eraseP_of_forall_not hfind]
    · cases he
  | join q d =>
    rcases hw.join_cases he with rfl | ⟨f', hj⟩
    · simp [Instr.posts, Instr.spares]
    · simp [Instr.posts, Instr.spares, hj.requests]
  | _ =>
    simp only [Host.exec] at he
    repeat' split at he
    all_goals try cases he
    all_goals simp [Instr.posts, Instr.spares, Host.alloc, Host.goOn, Host.frame, Host.modify]

/-- The code of a thread that takes no request, and runs none, has the same requests after a step. -/
theorem Goes.carries (hg : Goes s s' t f f' i rest ok spawned) (hcode : f.code = i :: rest)
    (hi : i.request = none) (hnew : ∀ j ∈ i.new s f ok, j.request = none) (q : Id) :
    f'.carries q = f.carries q := by
  have h : (i.new s f ok).filterMap Instr.request = [] := by
    rw [List.filterMap_eq_nil_iff]
    exact hnew
  unfold Thread.carries
  rw [hg.code, hcode, List.filterMap_append, h, List.nil_append, List.filterMap_cons, hi]

/-- The requests in the code of the threads, when the thread `t` keeps those that it has. -/
theorem Goes.taken (hg : Goes s s' t f f' i rest ok spawned) (ht : s.threads[t]? = some f) {q : Id}
    (h : f'.carries q = f.carries q) :
    s'.threads.flatMap (fun f => f.carries q) = s.threads.flatMap fun f => f.carries q := by
  have hspawned : spawned.flatMap (fun f => f.carries q) = [] := by
    rcases hg.spawned with rfl | ⟨x, -, rfl⟩
    · rfl
    · simp [Thread.carries, Instr.request]
  rw [hg.threads, List.flatMap_append, hspawned, List.append_nil]
  exact flatMap_set_same ht h

/-- The first request that meets `p` is taken out. -/
private theorem filter_eraseP {α : Type} {p : α → Bool} {l : List α} {a : α} (h : l.find? p = some a) :
    l.filter p = a :: (l.eraseP p).filter p := by
  induction l with
  | nil => cases h
  | cons x l ih =>
    by_cases hx : p x = true
    · rw [List.find?_cons_of_pos hx] at h
      cases h
      rw [List.eraseP_cons_of_pos hx, List.filter_cons_of_pos hx]
    · rw [List.find?_cons_of_neg hx] at h
      rw [List.eraseP_cons_of_neg hx, List.filter_cons_of_neg hx, List.filter_cons_of_neg hx]
      exact ih h

private theorem filter_eraseP_of_disjoint {α : Type} {p p' : α → Bool} (l : List α)
    (h : ∀ a, p a = true → p' a = false) : (l.eraseP p).filter p' = l.filter p' := by
  induction l with
  | nil => rfl
  | cons x l ih =>
    by_cases hx : p x = true
    · rw [List.eraseP_cons_of_pos hx, List.filter_cons_of_neg (by simp [h x hx])]
    · rw [List.eraseP_cons_of_neg hx, List.filter_cons, List.filter_cons, ih]

/-- The worker takes the first request that waits. -/
private theorem exec_line_process (hr : RefInv s) (hw : WorkerInv s) (ht : s.threads[t]? = some f) {x : Id}
    (hcode : f.code = .process x :: rest) (he : s.exec t f rest ok (.process x) = some s')
    (hg : Goes s s' t f f' (.process x) rest ok spawned) (q : Id) : s'.line q = s.line q := by
  obtain ⟨hrole, rfl, -, -⟩ := hw.at_service (List.mem_of_getElem? ht) hcode rfl
  have hreq : s'.requests = s.requests.eraseP fun r => r.queue = x := by
    simpa [Instr.posts, Instr.spares] using exec_requests hw he
  have hf : f.carries q = [] := carries_eq_nil (by simp [hcode, Instr.request])
  cases hfind : s.requests.find? fun r => r.queue = x with
  | none =>
    have hnew : ∀ j ∈ (Instr.process x).new s f ok, j.request = none := by
      intro j hj
      cases hj' : j.request with
      | none => rfl
      | some rq =>
        rcases request_new hj hj' with h | ⟨y, h, h'⟩
        · cases h
        · cases h
          rw [hfind] at h'
          cases h'
    have hsame : s'.requests = s.requests := by
      rw [hreq]
      apply List.eraseP_of_forall_not
      simpa [List.find?_eq_none] using hfind
    rw [Host.line, Host.line, hg.taken ht (hg.carries hcode rfl hnew q), Host.queued, Host.queued, hsame]
  | some rq =>
    have hq : rq.queue = x := by simpa using List.find?_some hfind
    have hcode' : f'.code = [.snapshot rq, .loop x] := by
      rw [hg.code]
      simp [Instr.new, hfind]
    by_cases hx : x = q
    · subst hx
      have hf' : f'.carries x = [rq] := by simp [Thread.carries, hcode', Instr.request, hq]
      have hw' := hw.exec hr ht hcode he
      rw [hw'.line_eq (hg.self ht) (hg.role.trans hrole), hw.line_eq ht hrole, hf, hf']
      unfold Host.queued
      rw [hreq, filter_eraseP hfind]
      rfl
    · have hf' : f'.carries q = f.carries q := by
        rw [hf]
        apply carries_eq_nil
        simp [hcode', Instr.request, hq, hx]
      unfold Host.line Host.queued
      rw [hg.taken ht hf', hreq, filter_eraseP_of_disjoint]
      intro r hr
      have h : r.queue = x := by simpa using hr
      simp [h, hx]

/-- One step: what is executed was first in the line, and what is accepted comes behind it. -/
theorem exec_line (hr : RefInv s) (hw : WorkerInv s) (ht : s.threads[t]? = some f)
    (hcode : f.code = i :: rest) (he : s.exec t f rest ok i = some s') (q : Id) :
    (i.ends.toList.filter fun r => r.queue = q) ++ s'.line q =
      s.line q ++ (i.posts s).toList.filter fun r => r.queue = q := by
  have hreq := exec_requests hw he
  rcases exec_code hw he with ⟨rfl, -, hcrash⟩ | ⟨f', spawned, hg⟩
  · rcases hcrash with rfl | ⟨x, d, rfl⟩ <;> simp [Instr.ends, Instr.posts, Host.line, Host.queued]
  -- the steps in which the requests stay where they are
  have hstay : i.request = none → (∀ j ∈ i.new s f ok, j.request = none) → i.ends = none →
      s'.requests = s.requests ++ (i.posts s).toList →
      (i.ends.toList.filter fun r => r.queue = q) ++ s'.line q =
        s.line q ++ (i.posts s).toList.filter fun r => r.queue = q := by
    intro hi hnew hends hreq
    rw [hends, Host.line, Host.line, hg.taken ht (hg.carries hcode hi hnew q), Host.queued, Host.queued, hreq]
    simp
  have hnew : (∀ rq, i ≠ .snapshot rq) → (∀ x, i ≠ .process x) → ∀ j ∈ i.new s f ok, j.request = none := by
    intro h1 h2 j hj
    cases hj' : j.request with
    | none => rfl
    | some rq =>
      rcases request_new hj hj' with h | ⟨x, h, -⟩
      · exact absurd h (h1 rq)
      · exact absurd h (h2 x)
  cases i with
  | process x => simpa [Instr.ends, Instr.posts] using exec_line_process hr hw ht hcode he hg q
  | snapshot rq =>
    have hf' : f'.carries q = f.carries q := by simp [Thread.carries, hg.code, hcode, Instr.new, Instr.request]
    have hsame : s'.requests = s.requests := by simpa [Instr.posts, Instr.spares] using hreq
    simp [Instr.ends, Instr.posts, Host.line, Host.queued, hg.taken ht hf', hsame]
  | ioctl rq =>
    obtain ⟨hrole, rfl, -, -⟩ := hw.at_service (List.mem_of_getElem? ht) hcode rfl
    have hsame : s'.requests = s.requests := by simpa [Instr.posts, Instr.spares] using hreq
    have hf' : f'.carries q = [] := by
      apply carries_eq_nil
      rw [hg.code]
      intro j hj rq' hrq'
      rcases List.mem_append.1 hj with hj | hj
      · rw [hnew (by simp) (by simp) j hj] at hrq'
        cases hrq'
      · rw [List.mem_singleton.1 hj] at hrq'
        cases hrq'
    by_cases hq : rq.queue = q
    · subst hq
      have hf : f.carries rq.queue = [rq] := by simp [Thread.carries, hcode, Instr.request]
      have hw' := hw.exec hr ht hcode he
      rw [hw'.line_eq (hg.self ht) (hg.role.trans hrole), hw.line_eq ht hrole, hf, hf']
      simp [Instr.ends, Instr.posts, Host.queued, hsame]
    · have hf : f.carries q = [] := carries_eq_nil (by simp [hcode, Instr.request, hq])
      simp [Instr.ends, Instr.posts, Host.line, Host.queued, hg.taken ht (hf'.trans hf.symm), hsame, hq]
  | push x g e => exact hstay rfl (hnew (by simp) (by simp)) rfl hreq
  | _ => exact hstay rfl (hnew (by simp) (by simp)) rfl hreq

end

/-! ### Runs -/

/-- The journal with the order of the commands, and the workers that complete them. -/
structure OrderInv (s : Host) (j : Journal) : Prop where
  order : ∀ q, j.posted.filter (fun r => r.queue = q) =
    (j.ran.map Prod.fst).filter (fun r => r.queue = q) ++ s.line q
  accepted : s.accepted = j.posted.map Request.key
  completes : ∀ f ∈ s.threads, ∀ e status, .complete e status ∈ f.code →
    ∃ rq, (rq, status) ∈ j.ran ∧ rq.event = some e ∧ f.role = some rq.queue

theorem OrderInv.exec {j : Journal} {i : Instr} {ok : Bool} (hi : OrderInv s j) (hr : RefInv s)
    (hw : WorkerInv s) (ht : s.threads[t]? = some f) (hcode : f.code = i :: rest)
    (he : s.exec t f rest ok i = some s') : OrderInv s' (i.journal s t ok j) := by
  have hran : (i.journal s t ok j).ran.map Prod.fst = j.ran.map Prod.fst ++ i.ends.toList := by
    simp [Instr.journal, Function.comp_def]
  have hposted : (i.journal s t ok j).posted = j.posted ++ (i.posts s).toList := rfl
  constructor
  · intro q
    rw [hran, hposted, List.filter_append, List.filter_append, hi.order q, List.append_assoc, List.append_assoc,
      exec_line hr hw ht hcode he q]
  · rw [(exec_posted hr hw ht hcode he).accepted, hposted, List.map_append, hi.accepted]
  · have hmono : ∀ {e status} {r : Option Id}, (∃ rq, (rq, status) ∈ j.ran ∧ rq.event = some e ∧
        r = some rq.queue) → ∃ rq, (rq, status) ∈ (i.journal s t ok j).ran ∧ rq.event = some e ∧
        r = some rq.queue := by
      rintro e status r ⟨rq, h, h'⟩
      exact ⟨rq, List.mem_append_left _ h, h'⟩
    rcases exec_code hw he with ⟨rfl, -, -⟩ | ⟨f', spawned, hg⟩
    · exact fun g hg e status hc => hmono (hi.completes g hg e status hc)
    intro g hmem e status hc
    rw [hg.threads] at hmem
    rcases List.mem_append.1 hmem with hmem | hmem
    · rcases mem_threads_set hmem with rfl | hmem
      · rw [hg.code] at hc
        rw [hg.role]
        rcases List.mem_append.1 hc with hc | hc
        · obtain ⟨rq, rfl, hev, rfl⟩ := complete_new hc
          obtain ⟨hrole, -⟩ := hw.at_service (List.mem_of_getElem? ht) hcode rfl
          exact ⟨rq, List.mem_append_right _ (by simp [Instr.ends]), hev, hrole⟩
        · apply hmono
          exact hi.completes f (List.mem_of_getElem? ht) e status (by simp [hcode, hc])
      · exact hmono (hi.completes g hmem e status hc)
    · rcases hg.spawned with rfl | ⟨q, -, rfl⟩
      · cases hmem
      · rw [List.mem_singleton.1 hmem] at hc
        cases List.mem_singleton.1 hc

theorem OrderInv.start : OrderInv .start .start := by
  constructor <;> simp [Host.start, Journal.start, Host.line, Host.queued]

theorem line_call (ht : s.threads[t]? = some f) (hcode : f.code = []) (c : ApiCall) {h : Multiset Id} (q : Id) :
    (s.frame t { f with code := c.code, held := h }).line q = s.line q := by
  have hempty : Thread.carries { f with code := c.code, held := h } q = f.carries q := by
    rw [carries_eq_nil (f := f) (by simp [hcode])]
    apply carries_eq_nil
    intro j hj rq hrq
    rw [request_code c j hj] at hrq
    cases hrq
  unfold Host.line
  rw [Host.frame, flatMap_set_same ht hempty]
  rfl

theorem OrderInv.step {j : Journal} (hi : OrderInv s j) (hr : RefInv s) (hw : WorkerInv s) {l : HostLabel}
    (hs : s.step l = some s') : OrderInv s' (s.journal l j) := by
  rcases step_cases hs with ⟨rfl, rfl⟩ | ⟨t, c, f, rfl, ht, -, hcode, -, -, rfl⟩ |
    ⟨t, ok, f, i, rest, rfl, ht, hcode, ⟨hfault, rfl⟩ | he⟩
  · refine ⟨fun q => ?_, hi.accepted, fun g hg e status hc => ?_⟩
    · rw [show s.journal .attach j = j from rfl, hi.order q]
      simp [Host.line, Host.queued, Thread.idle, Thread.carries]
    · rcases List.mem_append.1 hg with hg | hg
      · exact hi.completes g hg e status hc
      · rw [List.mem_singleton.1 hg] at hc
        cases hc
  · refine ⟨fun q => ?_, hi.accepted, fun g hg e status hc => ?_⟩
    · have h := line_call ht hcode c (h := c.uses + c.unmaps) q
      exact (hi.order q).trans (by rw [← h]; rfl)
    · rcases mem_threads_set hg with rfl | hg
      · exact absurd hc ((events_code c e).2.2.1 status)
      · exact hi.completes g hg e status hc
  · obtain ⟨x, hx, hgone⟩ := hfault
    rw [hw.safe hr ht hcode x hx] at hgone
    cases hgone
  · rw [journal_of_instr ht hcode]
    exact hi.exec hr hw ht hcode he

theorem orderInv_of_reach {p : Host × Journal} (h : Reach journaled anyStep p) : OrderInv p.1 p.2 := by
  induction h with
  | start h0 =>
    obtain ⟨h1, h2⟩ := h0
    rw [h1, h2]
    exact .start
  | step h _ hs ih =>
    obtain ⟨hs, hj⟩ := System.record_step hs
    have hi := hostInv_of_reach (reach_of_journaled h)
    rw [hj]
    exact ih.step hi.refs hi.worker (host_step hs)

/-- A worker has one request at a time. -/
theorem WorkerInv.taken_le_one (hi : WorkerInv s) (q : Id) :
    (s.threads.flatMap fun f => f.carries q).length ≤ 1 := by
  by_cases h : ∃ f ∈ s.threads, ∃ j ∈ f.code, ∃ rq, j.request = some rq ∧ rq.queue = q
  · obtain ⟨f, hf, j, hj, rq, hrq, rfl⟩ := h
    obtain ⟨hrole, hcarries⟩ := hi.carries_eq hf hj hrq
    obtain ⟨t, ht⟩ := List.mem_iff_getElem?.1 hf
    rw [flatMap_eq_single ht fun w g hne hg => hi.carries_other ht hrole hg hne, hcarries]
    exact le_refl 1
  · have hnil : (s.threads.flatMap fun f => f.carries q) = [] := by
      rw [List.flatMap_eq_nil_iff]
      intro f hf
      apply carries_eq_nil
      intro j hj rq hrq hq
      exact h ⟨f, hf, j, hj, rq, hrq, hq⟩
    simp [hnil]

/-- In every run a queue executes what it has accepted in the order of acceptance and one command at a time:
the accepted commands are the executed ones, the one that the worker has, and those that wait. -/
theorem executed_in_order {p : Host × Journal} (h : Reach journaled anyStep p) (q : Id) :
    p.2.posted.filter (fun r => r.queue = q) =
        (p.2.ran.map Prod.fst).filter (fun r => r.queue = q) ++
          (p.1.threads.flatMap (fun f => f.carries q) ++ p.1.requests.filter fun r => r.queue = q) ∧
      (p.1.threads.flatMap fun f => f.carries q).length ≤ 1 :=
  ⟨(orderInv_of_reach h).order q, (hostInv_of_reach (reach_of_journaled h)).worker.taken_le_one q⟩

/-- Two commands wait, and the worker has run the first. -/
def runFirst : List HostLabel :=
  [.attach, .call 0 .openDeviceNewmode] ++ steps 0 2 ++ [.call 0 (.createQueue 0)] ++ steps 0 4 ++
    [.call 0 (.enqueueCommand 1 none true)] ++ steps 0 6 ++ [.call 0 (.enqueueCommand 1 none false)] ++
    steps 0 3 ++ steps 1 8

theorem executed_in_order_runFirst :
    ∃ p, journaled.exec anyStep (.start, .start) runFirst = some p ∧
      p.2.ran = [(⟨0, 1, none, some 2⟩, .success)] ∧
      p.2.posted.filter (fun r => r.queue = 1) =
        (p.2.ran.map Prod.fst).filter (fun r => r.queue = 1) ++
          (p.1.threads.flatMap (fun f => f.carries 1) ++ p.1.requests.filter fun r => r.queue = 1) ∧
      (p.1.threads.flatMap fun f => f.carries 1).length ≤ 1 := by
  obtain ⟨p, hs, hr, hp⟩ := Reach.exists_exec journaled anyStep (.start, .start) runFirst
    (fun p => p.2.ran = [(⟨0, 1, none, some 2⟩, .success)]) ⟨rfl, rfl⟩ (by decide +kernel)
  exact ⟨p, hs, of_decide_eq_true hp, executed_in_order hr 1⟩

/-! ### Commands that come later -/

/-- A command that has run, and that no thread is about to complete, has its status in its event. -/
theorem EventInv.recorded_of_ran {j : Journal} (hi : EventInv s j) {r : Request} {status : XrpStatus}
    (hran : (r, status) ∈ j.ran) {e : Id} (he : r.event = some e)
    (hno : ∀ f ∈ s.threads, ∀ status, .complete e status ∉ f.code) :
    ∃ b, s.eventBody e = some b ∧ b.status = status ∧ status ≠ .pending := by
  have hstatuses := hi.statuses e
  have hone := le_total (fun r : Request × XrpStatus => r.1.isFor e) hran
  have hpos := isFor_pos he
  have hzero : s.weigh (Instr.completes e) = 0 := by
    refine total_eq_zero.2 fun f hf => total_eq_zero.2 fun i hi => ?_
    by_contra h
    rcases completes_or e i with ⟨status, rfl⟩ | ⟨h', -⟩
    · exact hno f hf status hi
    · exact h h'
  cases hb : s.eventBody e with
  | none =>
    rw [hb] at hstatuses
    simp only [Option.map_none, Option.getD_none] at hstatuses hone
    omega
  | some b =>
    rw [hb] at hstatuses
    simp only [Option.map_some, Option.getD_some] at hstatuses hone
    have hfinal : b.status ≠ .pending := by
      intro h
      rw [EventBody.resolved, if_pos h] at hstatuses
      omega
    obtain ⟨rq, hmem, hev⟩ := hi.recorded e b hb hfinal
    have hsame := (hi.result hran he).once _ hmem hev
    have hstatus : b.status = status := congrArg Prod.snd hsame
    exact ⟨b, rfl, hstatus, hi.final _ hran⟩

/-- When the worker has a request, all commands that its queue has accepted before have run, and their events
have got the statuses: who waits for one of them finds it before a later command goes to the driver. -/
theorem earlier_completed {p : Host × Journal} (h : Reach journaled anyStep p) {f : Thread}
    (hf : f ∈ p.1.threads) {i : Instr} (hi : i ∈ f.code) {rq : Request} (hrq : i.request = some rq)
    {before after : List Request} (hposted : p.2.posted = before ++ rq :: after) :
    ∀ r ∈ before, r.queue = rq.queue → ∃ status, (r, status) ∈ p.2.ran ∧
      ∀ e, r.event = some e → ∃ b, p.1.eventBody e = some b ∧ b.status = status ∧ status ≠ .pending := by
  have hh := hostInv_of_reach (reach_of_journaled h)
  have horder := orderInv_of_reach h
  have hevent := (completionInv_of_reach h).event
  obtain ⟨hrole, -, hcode⟩ := hh.worker.of_request hf hi hrq
  obtain ⟨t, ht⟩ := List.mem_iff_getElem?.1 hf
  have hline : p.1.line rq.queue = rq :: p.1.queued rq.queue := by
    rw [hh.worker.line_eq ht hrole, (hh.worker.carries_eq hf hi hrq).2]
    rfl
  have hnodup : p.2.posted.Nodup := by
    have hn := (ledgerInv_of_reach (reach_of_journaled h)).nodup
    rw [horder.accepted] at hn
    exact hn.of_map
  -- the request is in one place of the list, so what is before it has run
  have hran : before.filter (fun r => r.queue = rq.queue) =
      (p.2.ran.map Prod.fst).filter fun r => r.queue = rq.queue := by
    have ho := horder.order rq.queue
    rw [hline, hposted, List.filter_append, List.filter_cons_of_pos (by simp)] at ho
    rw [hposted] at hnodup
    have hbefore : rq ∉ before := fun hmem => (List.nodup_append.1 hnodup).2.2 rq hmem rq (by simp) rfl
    have hafter : rq ∉ after := (List.nodup_cons.1 (List.nodup_append.1 hnodup).2.1).1
    exact ((List.append_cons_inj_of_notMem (fun hm => hbefore (List.mem_of_mem_filter hm))
      fun hm => hafter (List.mem_of_mem_filter hm)).1 ho).1
  intro r hr hq
  have hmem : r ∈ (p.2.ran.map Prod.fst).filter fun r => r.queue = rq.queue := by
    rw [← hran]
    simp [hr, hq]
  obtain ⟨⟨r', status⟩, hr', rfl⟩ := List.mem_map.1 (List.mem_of_mem_filter hmem)
  refine ⟨status, hr', fun e he => hevent.recorded_of_ran hr' he fun g hg status' hc => ?_⟩
  -- the thread that completes a command of this queue is its worker, which has the request instead
  obtain ⟨rq', hrq', hev, hrole'⟩ := horder.completes g hg e status' hc
  obtain rfl : rq' = r' := congrArg Prod.fst ((hevent.result hr' he).once _ hrq' hev)
  obtain ⟨w, hw⟩ := List.mem_iff_getElem?.1 hg
  obtain ⟨b, hb, hwb, -⟩ := hh.worker.worker t f rq.queue ht hrole
  obtain rfl := hh.worker.unique hb hwb hw (hrole'.trans (congrArg some hq))
  rw [ht] at hw
  cases hw
  rw [hcode] at hc
  simp only [List.mem_cons, List.not_mem_nil, or_false] at hc
  rcases hc with rfl | hc
  · cases hrq
  · cases hc

theorem earlier_completed_runFirst :
    ∃ p, journaled.exec anyStep (.start, .start) (runFirst ++ steps 1 1) = some p ∧
      p.2.posted = [⟨0, 1, none, some 2⟩, ⟨1, 1, none, none⟩] ∧ (p.1.threads.map Thread.code)[1]? =
        some [.snapshot ⟨1, 1, none, none⟩, .loop 1] ∧
      ∀ r ∈ [(⟨0, 1, none, some 2⟩ : Request)], r.queue = 1 → ∃ status, (r, status) ∈ p.2.ran ∧
        ∀ e, r.event = some e → ∃ b, p.1.eventBody e = some b ∧ b.status = status ∧ status ≠ .pending := by
  obtain ⟨p, hs, hr, hp⟩ := Reach.exists_exec journaled anyStep (.start, .start) (runFirst ++ steps 1 1)
    (fun p => p.2.posted = [⟨0, 1, none, some 2⟩, ⟨1, 1, none, none⟩] ∧
      (p.1.threads.map Thread.code)[1]? = some [.snapshot ⟨1, 1, none, none⟩, .loop 1]) ⟨rfl, rfl⟩
    (by decide +kernel)
  obtain ⟨hposted, hcode⟩ := of_decide_eq_true hp
  refine ⟨p, hs, hposted, hcode, ?_⟩
  rw [List.getElem?_map] at hcode
  obtain ⟨f, hf, hfc⟩ := Option.map_eq_some_iff.1 hcode
  have hsplit : p.2.posted = [⟨0, 1, none, some 2⟩] ++ ⟨1, 1, none, none⟩ :: [] := hposted
  exact earlier_completed hr (List.mem_of_getElem? hf) (i := .snapshot ⟨1, 1, none, none⟩) (by simp [hfc]) rfl
    hsplit

end Vdsp
