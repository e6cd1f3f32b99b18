import Vdsp.Host.Teardown

/-!
# Requests on their way

A request is pushed, waits in the list, is in a worker's code until its driver call, and is executed.
`exec_posted` says for an arbitrary weight of requests what one instruction does to the pending ones; the
ledger of the commands follows.
-/

namespace Vdsp

open Ledger Lts

variable {s s' : Host} {t : Nat} {f f' : Thread} {rest : List Instr}

/-- The request that a worker has taken for an instruction. -/
def Instr.request : Instr → Option Request
  | .snapshot rq | .ioctl rq => some rq
  | _ => none

/-- The request that an instruction pushes. -/
def Instr.posts (s : Host) : Instr → Option Request
  | .push q g e => some ⟨s.nextRequest, q, g, e⟩
  | _ => none

/-- The request whose driver call returns. -/
def Instr.ends : Instr → Option Request
  | .ioctl rq => some rq
  | _ => none

/-- The request with its queue, as it is accepted and executed. -/
def Request.key (r : Request) : Nat × Id := (r.id, r.queue)

/-- The weight of the requests in code. -/
def load (w : Request → Nat) (code : List Instr) : Nat := total (fun i => total w i.request.toList) code

/-- The weight of the requests that wait or are in a worker's code. -/
def Host.pending (s : Host) (w : Request → Nat) : Nat :=
  total w s.requests + total (fun f : Thread => load w f.code) s.threads

theorem load_append (w : Request → Nat) (c c' : List Instr) : load w (c ++ c') = load w c + load w c' :=
  total_append _ c c'

theorem load_cons (w : Request → Nat) (i : Instr) (c : List Instr) :
    load w (i :: c) = total w i.request.toList + load w c :=
  total_cons _ i c

theorem load_eq_zero {w : Request → Nat} {c : List Instr} (h : ∀ j ∈ c, j.request = none) : load w c = 0 :=
  total_eq_zero.2 fun j hj => by rw [h j hj]; rfl

theorem request_of_inner {j : Instr} (h : j.inner = true) : j.request = none := by
  cases j <;> first | rfl | simp [Instr.inner, Instr.quiet] at h

theorem request_of_cleanup {j : Instr} (h : j.cleanup = true) : j.request = none := by
  cases j <;> first | rfl | nomatch h

/-- What one instruction does to the requests. -/
structure Posted (s s' : Host) (i : Instr) : Prop where
  pending : ∀ w, s'.pending w + total w i.ends.toList = s.pending w + total w (i.posts s).toList
  accepted : s'.accepted = s.accepted ++ (i.posts s).toList.map Request.key
  executed : s'.executed = s.executed ++ i.ends.toList.map Request.key
  nextRequest : s'.nextRequest = s.nextRequest + (i.posts s).toList.length
  /-- No other request gets into the list. -/
  requests : ∀ r ∈ s'.requests, r ∈ s.requests ∨ r ∈ i.posts s

/-- A step of a thread that is about no request. -/
private theorem Posted.aside (new : List Instr) (ht : s.threads[t]? = some f) {i : Instr}
    {spawned : List Thread}
    (hcode : f.code = i :: rest) (hcode' : f'.code = new ++ rest)
    (hthreads : s'.threads = s.threads.set t f' ++ spawned)
    (hspawned : ∀ g ∈ spawned, ∀ j ∈ g.code, j.request = none)
    (hi : i.request = none ∧ i.posts s = none ∧ i.ends = none) (hnew : ∀ j ∈ new, j.request = none)
    (hs : (s'.requests, s'.accepted, s'.executed, s'.nextRequest) =
      (s.requests, s.accepted, s.executed, s.nextRequest)) : Posted s s' i := by
  simp only [Prod.mk.injEq] at hs
  obtain ⟨h1, h2, h3, h4⟩ := hs
  obtain ⟨hreq, hposts, hends⟩ := hi
  refine ⟨fun w => ?_, by simp [hposts, h2], by simp [hends, h3], by simp [hposts, h4], fun r hr =>
    .inl (h1 ▸ hr)⟩
  have h5 := total_set (fun f : Thread => load w f.code) f' ht
  have h6 : total (fun f : Thread => load w f.code) spawned = 0 :=
    total_eq_zero.2 fun g hg => load_eq_zero (hspawned g hg)
  have h7 : load w f'.code = load w f.code := by
    rw [hcode, hcode', load_append, load_eq_zero hnew, load_cons, hreq]
    rfl
  rw [hends, hposts]
  simp only [Host.pending, h1, hthreads, total_append, h6, Option.toList_none, total_nil]
  omega

/-- The thread goes on with other code that is about no request. -/
private theorem Posted.onward (new : List Instr) (ht : s.threads[t]? = some f) {i : Instr}
    (hcode : f.code = i :: rest) (hcode' : f'.code = new ++ rest) (hthreads : s'.threads = s.threads.set t f')
    (hi : i.request = none ∧ i.posts s = none ∧ i.ends = none) (hnew : ∀ j ∈ new, j.request = none)
    (hs : (s'.requests, s'.accepted, s'.executed, s'.nextRequest) =
      (s.requests, s.accepted, s.executed, s.nextRequest)) : Posted s s' i :=
  .aside new ht hcode hcode' (hthreads.trans (List.append_nil _).symm) (by simp) hi hnew hs

section

variable {ok : Bool}

/-- The new request is in the list. -/
private theorem exec_posted_push (ht : s.threads[t]? = some f) {q : Id} {g e : Option Id}
    (hcode : f.code = .push q g e :: rest)
    (he : s.exec t f rest ok (.push q g e) = some s') : Posted s s' (.push q g e) := by
  simp only [Host.exec] at he
  split at he <;> cases he
  refine ⟨fun w => ?_, rfl, (List.append_nil _).symm, rfl, fun r hr => ?_⟩
  · have h := total_set (fun f : Thread => load w f.code)
      { f with code := rest, held := f.held - (g.toList ++ e.toList : List Id) } ht
    simp only [hcode, load_cons] at h
    simp only [Host.pending, Host.frame, Host.modify, Instr.ends, Instr.posts, total_append, Option.toList_none,
      Option.toList_some, total_nil, Instr.request] at h ⊢
    omega
  · rcases List.mem_append.1 hr with hr | hr
    · exact .inl hr
    · rw [List.mem_singleton.1 hr]
      exact .inr rfl

/-- The request goes from the list to the worker. -/
private theorem exec_posted_process (ht : s.threads[t]? = some f) {q : Id} (hcode : f.code = .process q :: rest)
    (he : s.exec t f rest ok (.process q) = some s') : Posted s s' (.process q) := by
  simp only [Host.exec] at he
  split at he
  · split at he
    · rename_i rq hrq
      cases he
      refine ⟨fun w => ?_, (List.append_nil _).symm, (List.append_nil _).symm, rfl, fun r hr => ?_⟩
      · have h := total_set (fun f : Thread => load w f.code)
          { f with code := .snapshot rq :: .loop q :: rest, held := rq.refs + f.held } ht
        have h' := total_eraseP w hrq
        simp only [hcode, load_cons] at h
        simp only [Host.pending, Host.frame, Instr.ends, Instr.posts, Option.toList_none, Option.toList_some,
          total_nil, total_cons, Instr.request] at h ⊢
        omega
      · exact .inl (List.mem_of_mem_eraseP hr)
    · cases he
      split
      · exact .onward [] ht hcode rfl rfl ⟨rfl, rfl, rfl⟩ (by simp) rfl
      · exact .onward [.asleepQueue q _] ht hcode rfl rfl ⟨rfl, rfl, rfl⟩ (by simp [Instr.request]) rfl
  · cases he

/-- The request stays with the worker. -/
private theorem exec_posted_snapshot (ht : s.threads[t]? = some f) {rq : Request}
    (hcode : f.code = .snapshot rq :: rest)
    (he : s.exec t f rest ok (.snapshot rq) = some s') : Posted s s' (.snapshot rq) := by
  have hgo : ∀ snap, Posted s (s.frame t { f with code := .ioctl rq :: rest, snap := snap })
    (.snapshot rq) := by
    refine fun snap => ⟨fun w => ?_, (List.append_nil _).symm, (List.append_nil _).symm, rfl,
      fun r hr => .inl hr⟩
    have h := total_set (fun f : Thread => load w f.code) { f with code := .ioctl rq :: rest, snap := snap } ht
    simp only [hcode, load_cons] at h
    simp only [Host.pending, Host.frame, Instr.ends, Instr.posts, Option.toList_none, Option.toList_some,
      total_nil, total_cons, Instr.request] at h ⊢
    omega
  simp only [Host.exec] at he
  split at he
  · split at he <;> cases he
    exact hgo _
  · cases he
    exact hgo _

/-- The request is executed. -/
private theorem exec_posted_ioctl (ht : s.threads[t]? = some f) {rq : Request}
    (hcode : f.code = .ioctl rq :: rest)
    (he : s.exec t f rest ok (.ioctl rq) = some s') : Posted s s' (.ioctl rq) := by
  cases he
  refine ⟨fun w => ?_, (List.append_nil _).symm, rfl, rfl, fun r hr => .inl hr⟩
  have h := total_set (fun f : Thread => load w f.code)
    { f with code := finishCode rq (if ok then .success else .failure) ++ rest, snap := none } ht
  have h0 := load_eq_zero (w := w) fun j hj => request_of_cleanup (cleanup_finishCode rq
    (if ok then .success else .failure) j hj)
  simp only [hcode, load_cons, load_append, h0] at h
  simp only [Host.pending, Host.frame, Instr.ends, Instr.posts, Option.toList_none, Option.toList_some,
    total_nil, total_cons, Instr.request] at h ⊢
  omega

theorem exec_posted (hr : RefInv s) (hw : WorkerInv s) (ht : s.threads[t]? = some f) {i : Instr}
    (hcode : f.code = i :: rest) (he : s.exec t f rest ok i = some s') : Posted s s' i := by
  have hcrash : i.posts s = none ∧ i.ends = none → Posted s { s with crashed := true } i := fun ⟨h, h'⟩ =>
    ⟨fun w => by rw [h, h']; rfl, by simp [h], by simp [h'], by simp [h], fun r hr => .inl hr⟩
  cases i with
  | release x =>
    simp only [Host.exec] at he
    split at he
    · split at he <;> cases he
      · exact .onward _ ht hcode rfl rfl ⟨rfl, rfl, rfl⟩
          (fun j hj => request_of_cleanup (cleanup_destroyCode _ _ j hj)) rfl
      · exact .onward [] ht hcode rfl rfl ⟨rfl, rfl, rfl⟩ (by simp) rfl
    · cases he
  | newQueue d =>
    simp only [Host.exec] at he
    split at he <;> cases he
    · exact .onward [.createThread _] ht hcode rfl rfl ⟨rfl, rfl, rfl⟩ (by simp [Instr.request]) rfl
    · exact .onward [.release d] ht hcode rfl rfl ⟨rfl, rfl, rfl⟩ (by simp [Instr.request]) rfl
  | createThread q =>
    simp only [Host.exec] at he
    split at he
    · split at he <;> cases he
      · exact .aside [] ht hcode rfl rfl (by simp [Instr.request]) ⟨rfl, rfl, rfl⟩ (by simp) rfl
      · exact .onward [] ht hcode rfl rfl ⟨rfl, rfl, rfl⟩ (by simp) rfl
    · cases he
  | setExit q d =>
    simp only [Host.exec] at he
    split at he <;> cases he
    exact .onward [.join q d] ht hcode rfl rfl ⟨rfl, rfl, rfl⟩ (by simp [Instr.request]) rfl
  | join q d =>
    rcases hw.join_cases he with rfl | ⟨f', hj⟩
    · exact hcrash ⟨rfl, rfl⟩
    · exact .onward _ ht hcode hj.code hj.threads ⟨rfl, rfl, rfl⟩
        (by simp [Instr.request]) (by rw [hj.requests, hj.accepted, hj.executed, hj.nextRequest])
  | closeQueue q d =>
    simp only [Host.exec] at he
    split at he <;> cases he
    exact .onward [] ht hcode rfl rfl ⟨rfl, rfl, rfl⟩ (by simp) rfl
  | enter q =>
    simp only [Host.exec] at he
    split at he <;> cases he
    exact .onward [.process q] ht hcode rfl rfl ⟨rfl, rfl, rfl⟩ (by simp [Instr.request]) rfl
  | asleepQueue q n =>
    cases he
    exact .onward [.process q] ht hcode rfl rfl ⟨rfl, rfl, rfl⟩ (by simp [Instr.request]) rfl
  | loop q =>
    cases he
    split
    · exact .onward [] ht hcode rfl rfl ⟨rfl, rfl, rfl⟩ (by simp) rfl
    · exact .onward [.enter q] ht hcode rfl rfl ⟨rfl, rfl, rfl⟩ (by simp [Instr.request]) rfl
  | push q g e => exact exec_posted_push ht hcode he
  | process q => exact exec_posted_process ht hcode he
  | snapshot rq => exact exec_posted_snapshot ht hcode he
  | ioctl rq => exact exec_posted_ioctl ht hcode he
  | _ =>
    rcases hr.exec_quiet ht hcode rfl he with rfl | ⟨f', new, hs, -⟩
    · exact hcrash ⟨rfl, rfl⟩
    · exact .onward _ ht hcode hs.code hs.threads ⟨rfl, rfl, rfl⟩
        (fun j hj => request_of_inner (hs.new j hj))
        (by rw [hs.requests, hs.accepted, hs.executed, hs.nextRequest])

end

/-! ### The ledger of the commands -/

/-- An accepted command is executed, or is pending, once. -/
structure LedgerInv (s : Host) : Prop where
  balance : ∀ k, s.accepted.count k = s.executed.count k + s.pending fun r => if r.key = k then 1 else 0
  fresh : ∀ k ∈ s.accepted, k.1 < s.nextRequest
  nodup : s.accepted.Nodup

private theorem count_map_key (o : Option Request) (k : Nat × Id) :
    (o.toList.map Request.key).count k = total (fun r : Request => if r.key = k then 1 else 0) o.toList := by
  cases o with
  | none => rfl
  | some r => by_cases h : r.key = k <;> simp [h]

theorem LedgerInv.exec (hi : LedgerInv s) {i : Instr} (hp : Posted s s' i) : LedgerInv s' := by
  have hnew : ∀ k ∈ (i.posts s).toList.map Request.key, k.1 = s.nextRequest := by
    intro k hk
    cases i with
    | push q g e =>
      rw [List.mem_singleton.1 hk]
      rfl
    | _ => cases hk
  refine ⟨fun k => ?_, fun k hk => ?_, ?_⟩
  · have h1 := hi.balance k
    have h2 := hp.pending fun r => if r.key = k then 1 else 0
    rw [hp.accepted, hp.executed, List.count_append, List.count_append, count_map_key, count_map_key]
    omega
  · rw [hp.nextRequest]
    rw [hp.accepted] at hk
    rcases List.mem_append.1 hk with hk | hk
    · exact Nat.lt_add_right _ (hi.fresh k hk)
    · rw [hnew k hk]
      obtain ⟨r, hr, -⟩ := List.mem_map.1 hk
      exact Nat.lt_add_of_pos_right (List.length_pos_of_mem hr)
  · rw [hp.accepted]
    refine hi.nodup.append ?_ fun k hk hk' => ?_
    · cases i.posts s <;> simp
    · have := hi.fresh k hk
      rw [hnew k hk'] at this
      exact lt_irrefl _ this

theorem LedgerInv.start : LedgerInv .start :=
  ⟨fun _ => rfl, by simp [Host.start], by simp [Host.start]⟩

theorem request_code (c : ApiCall) : ∀ j ∈ c.code, j.request = none := by
  cases c <;> simp [ApiCall.code, Instr.request]

/-- A call, and a new thread, leave the requests that wait or are in code. -/
theorem pending_call {w : Request → Nat} (ht : s.threads[t]? = some f) (hcode : f.code = []) (c : ApiCall)
    {h : Multiset Id} :
    (s.frame t { f with code := c.code, held := h }).pending w = s.pending w := by
  have h1 := total_set (fun f : Thread => load w f.code) { f with code := c.code, held := h } ht
  have h2 := load_eq_zero (w := w) (request_code c)
  have h3 : load w f.code = 0 := by rw [hcode]; rfl
  simp only [Host.pending, Host.frame] at h1 h2 h3 ⊢
  omega

theorem pending_attach {w : Request → Nat} : ({ s with threads := s.threads ++ [.idle] } : Host).pending
      w = s.pending w := by
  simp [Host.pending, Thread.idle, load]

theorem LedgerInv.step (hi : LedgerInv s) (hr : RefInv s) (hw : WorkerInv s) {l : HostLabel}
    (hs : s.step l = some s') :
    LedgerInv s' := by
  rcases step_cases hs with ⟨-, rfl⟩ | ⟨t, c, f, -, ht, -, hcode, -, -, rfl⟩ |
    ⟨t, ok, f, i, rest, -, ht, hcode, ⟨-, rfl⟩ | he⟩
  · exact ⟨fun k => (hi.balance k).trans (congrArg _ pending_attach.symm), hi.fresh, hi.nodup⟩
  · exact ⟨fun k => (hi.balance k).trans (congrArg _ (pending_call ht hcode c).symm), hi.fresh, hi.nodup⟩
  · exact ⟨hi.balance, hi.fresh, hi.nodup⟩
  · exact hi.exec (exec_posted hr hw ht hcode he)

theorem ledgerInv_of_reach {ok : Host → HostLabel → Prop} (h : Reach host ok s) : LedgerInv s := by
  induction h with
  | start h0 =>
    cases h0
    exact .start
  | step h _ hs ih =>
    have hi := hostInv_of_reach h
    exact ih.step hi.refs hi.worker (host_step hs)

end Vdsp
