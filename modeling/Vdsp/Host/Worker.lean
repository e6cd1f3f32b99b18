import Vdsp.Host.Quiet

/-!
# The workers and the queues

`WorkerInv` ties the two together: which thread serves which queue and where it is, where `sync_exit` points,
and that a queue whose last reference is gone is not taken up again by its worker: someone still has to join the
worker, or it has left its loop, or its `exit` is set.
-/

namespace Vdsp

open Ledger

variable {s s' : Host} {t : Nat} {f f' : Thread} {rest : List Instr}

/-- The instructions of a call before it returns. -/
def Instr.called : Instr → Bool
  | .ret => false
  | i => !i.service

/-- The code of a client thread. -/
def Calling (code : List Instr) : Prop := code = [] ∨ ∃ c, code = c ++ [.ret] ∧ ∀ j ∈ c, j.called = true

/-- The code of the worker of `q`, with its `exit`. -/
inductive Serving (q : Id) : List Instr → Bool → Prop
  | done {ex : Bool} : Serving q [] ex
  | enter : Serving q [.enter q] false
  | process : Serving q [.process q] false
  | asleep (n : Nat) : Serving q [.asleepQueue q n] false
  | snapshot {rq : Request} (h : rq.queue = q) : Serving q [.snapshot rq, .loop q] false
  | ioctl {rq : Request} (h : rq.queue = q) : Serving q [.ioctl rq, .loop q] false
  | finish {c : List Instr} {ex : Bool} (h : ∀ j ∈ c, j.cleanup = true) : Serving q (c ++ [.loop q]) ex

/-- The references that a worker has for its code. -/
def owed : List Instr → Multiset Id
  | [] => 0
  | .release x :: c => x ::ₘ owed c
  | .snapshot rq :: c | .ioctl rq :: c => rq.refs + owed c
  | _ :: c => owed c

/-- What of a queue the teardown depends on. -/
def QueueBody.view (b : QueueBody) : Id × Option Nat × Option Nat := (b.device, b.syncExit, b.worker)

/-- The instruction waits for the worker of `q`, or is going to. -/
def Instr.awaits (q : Id) : Instr → Bool
  | .setExit x _ | .join x _ => x = q
  | _ => false

/-- The device that a teardown instruction has for its queue. -/
def Instr.device : Instr → Option (Id × Id)
  | .setExit q d | .join q d | .closeQueue q d => some (q, d)
  | _ => none

/-- The number of times that the worker of `q` is about to be created. -/
def Host.creates (s : Host) (q : Id) : Nat := total (fun f : Thread => f.code.count (.createThread q)) s.threads

structure WorkerInv (s : Host) : Prop where
  calling : ∀ f ∈ s.threads, f.role = none → Calling f.code ∧ (f.code = [] → f.held = 0)
  serving : ∀ f ∈ s.threads, ∀ q, f.role = some q → Serving q f.code f.exit ∧ f.held = owed f.code
  worker : ∀ (w : Nat) f q, s.threads[w]? = some f → f.role = some q →
    ∃ b, s.queueBody q = some b ∧ b.worker = some w ∧ (f.code = [.enter q] ∨ b.syncExit = some w)
  thread : ∀ q b w, s.queueBody q = some b → b.worker = some w → ∃ f, s.threads[w]? = some f ∧ f.role = some q
  syncExit : ∀ q b w, s.queueBody q = some b → b.syncExit = some w → b.worker = some w
  creates : ∀ q, 0 < s.creates q → s.creates q = 1 ∧ ∃ b, s.queueBody q = some b ∧ b.worker = none
  device : ∀ f ∈ s.threads, ∀ j ∈ f.code, ∀ q d, j.device = some (q, d) → ∃ b, s.queueBody q = some b ∧
    b.device = d
  past : ∀ f ∈ s.threads, ∀ q, f.role = some q → s.dying q →
    (∃ g ∈ s.threads, ∃ j ∈ g.code, j.awaits q = true) ∨ f.code = [] ∨ f.exit = true

/-! ### Code -/

theorem owed_cons (i : Instr) (c : List Instr) : owed (i :: c) = owed [i] + owed c := by
  cases i <;> simp [owed]

theorem owed_append (c c' : List Instr) : owed (c ++ c') = owed c + owed c' := by
  induction c with
  | nil => simp [owed]
  | cons i c ih => rw [List.cons_append, owed_cons, ih, owed_cons i c, add_assoc]

theorem owed_releases (xs : List Id) : owed (xs.map .release) = xs := by
  induction xs with
  | nil => rfl
  | cons x xs ih => simp [owed, ih]

theorem owed_destroyCode (x : Id) (body : Body) : owed (destroyCode x body) = body.refs := by
  unfold destroyCode
  rw [owed_append, owed_append, owed_releases]
  cases body <;> simp [owed]

theorem owed_finishCode (rq : Request) (status : XrpStatus) : owed (finishCode rq status) = rq.refs := by
  unfold finishCode
  rw [owed_append, owed_releases, Request.refs, ← Multiset.coe_add]
  cases rq.event <;> simp [owed]

theorem cleanup_destroyCode (x : Id) (body : Body) : ∀ j ∈ destroyCode x body, j.cleanup = true := by
  intro j hj
  unfold destroyCode at hj
  rcases List.mem_append.1 hj with hj | hj
  · cases body <;> simp_all [Instr.cleanup]
  · rcases List.mem_append.1 hj with hj | hj
    · obtain ⟨y, -, rfl⟩ := List.mem_map.1 hj
      rfl
    · rw [List.mem_singleton.1 hj]
      rfl

theorem cleanup_finishCode (rq : Request) (status : XrpStatus) : ∀ j ∈ finishCode rq status,
      j.cleanup = true := by
  unfold finishCode
  cases rq.group <;> cases rq.event <;> simp [Instr.cleanup]

theorem called_of_cleanup {i : Instr} (h : i.cleanup = true) : i.called = true := by
  cases i <;> first | rfl | nomatch h

theorem called_of_inner {i : Instr} (h : i.inner = true) : i.called = true := by
  cases i <;> first | rfl | nomatch h

/-- The first instruction of a call, and what may stand in its place. -/
theorem Calling.head {i : Instr} (h : Calling (i :: rest)) :
    (i = .ret ∧ rest = []) ∨ (i.called = true ∧ rest ≠ [] ∧
      ∀ new : List Instr, (∀ j ∈ new, j.called = true) → Calling (new ++ rest)) := by
  rcases h with h | ⟨c, hc, hcalled⟩
  · cases h
  · cases c with
    | nil =>
      cases hc
      exact .inl ⟨rfl, rfl⟩
    | cons k c =>
      cases hc
      refine .inr ⟨hcalled i (by simp), by simp, fun new hnew => .inr ⟨new ++ c, by simp, ?_⟩⟩
      intro j hj
      rcases List.mem_append.1 hj with hj | hj
      · exact hnew j hj
      · exact hcalled j (by simp [hj])

/-- A worker is around the driver call with `exit` unset, or at the return to its loop, or finishes a command. -/
theorem Serving.head {q : Id} {i : Instr} {ex : Bool} (h : Serving q (i :: rest) ex) :
    (i.service = true ∧ ((i = .loop q ∧ rest = []) ∨ ex = false)) ∨
      (i.cleanup = true ∧ rest ≠ [] ∧
        ∀ new : List Instr, (∀ j ∈ new, j.cleanup = true) → ∀ ex', Serving q (new ++ rest) ex') := by
  generalize hcode : i :: rest = code at h
  cases h with
  | done => cases hcode
  | enter | process | asleep | snapshot | ioctl =>
    cases hcode
    exact .inl ⟨rfl, .inr rfl⟩
  | @finish c _ hc =>
    cases c with
    | nil =>
      cases hcode
      exact .inl ⟨rfl, .inl ⟨rfl, rfl⟩⟩
    | cons k c =>
      cases hcode
      refine .inr ⟨hc i (by simp), by simp, fun new hnew ex' => ?_⟩
      show Serving q (new ++ (c ++ [.loop q])) ex'
      rw [← List.append_assoc]
      refine .finish fun j hj => ?_
      rcases List.mem_append.1 hj with hj | hj
      · exact hnew j hj
      · exact hc j (by simp [hj])

/-! ### A step of one thread -/

theorem view_eq_some {q : Id} {b : QueueBody} (hview : ∀ q, (s'.queueBody q).map QueueBody.view =
    (s.queueBody q).map QueueBody.view) (hb : s.queueBody q = some b) :
    ∃ b', s'.queueBody q = some b' ∧ b'.device = b.device ∧ b'.syncExit = b.syncExit ∧ b'.worker = b.worker := by
  have h := hview q
  rw [hb] at h
  obtain ⟨b', hb', he⟩ := Option.map_eq_some_iff.1 h
  simp only [QueueBody.view, Prod.mk.injEq] at he
  exact ⟨b', hb', he.1, he.2.1, he.2.2⟩

/-- A thread other than `t`, or the new frame of `t`. -/
theorem getElem?_set_cases {ts : List Thread} {w : Nat} {g : Thread} (h : (ts.set t f')[w]? = some g) :
    (w = t ∧ g = f') ∨ (w ≠ t ∧ ts[w]? = some g) := by
  rw [List.getElem?_set] at h
  by_cases hw : t = w
  · subst hw
    simp only [if_true] at h
    split at h
    · cases h
      exact .inl ⟨rfl, rfl⟩
    · cases h
  · rw [if_neg hw] at h
    exact .inr ⟨fun h => hw h.symm, h⟩

/-- A step of the thread `t` that leaves what the teardown of a queue depends on. -/
theorem WorkerInv.frame (hi : WorkerInv s) (f' : Thread) (ht : s.threads[t]? = some f)
    (hcode : ∀ q, f.role = some q → f.code ≠ [])
    (hthreads : s'.threads = s.threads.set t f')
    (hview : ∀ q, (s'.queueBody q).map QueueBody.view = (s.queueBody q).map QueueBody.view)
    (hrole : f'.role = f.role) (hexit : f.exit = true → f'.exit = true)
    (hcalling : f.role = none → Calling f'.code ∧ (f'.code = [] → f'.held = 0))
    (hserving : ∀ q, f.role = some q → Serving q f'.code f'.exit ∧ f'.held = owed f'.code ∧
      ∀ b, s.queueBody q = some b → (f.code = [.enter q] ∨ b.syncExit = some t) → b.syncExit = some t)
    (hcreates : ∀ q, 0 < s'.creates q → s'.creates q = 1 ∧ ∃ b, s'.queueBody q = some b ∧ b.worker = none)
    (hdevice : ∀ j ∈ f'.code, ∀ q d, j.device = some (q, d) → ∃ b, s'.queueBody q = some b ∧ b.device = d)
    (hdying : ∀ q b, s'.queueBody q = some b → s'.dying q → s.dying q ∨ ∃ j ∈ f'.code, j.awaits q = true)
    (hawaits : ∀ q, (∃ j ∈ f.code, j.awaits q = true) → (∃ j ∈ f'.code, j.awaits q = true) ∨
      ∀ (w : Nat) g, s'.threads[w]? = some g → g.role = some q → g.code = [] ∨ g.exit = true) : WorkerInv s' := by
  have hview' : ∀ q b', s'.queueBody q = some b' →
      ∃ b, s.queueBody q = some b ∧ b'.device = b.device ∧ b'.syncExit = b.syncExit ∧ b'.worker = b.worker := by
    intro q b' hb'
    obtain ⟨b, hb, h1, h2, h3⟩ := view_eq_some (fun q => (hview q).symm) hb'
    exact ⟨b, hb, h1.symm, h2.symm, h3.symm⟩
  have hmem : ∀ g ∈ s'.threads, ∃ w : Nat, s'.threads[w]? = some g := fun g hg => List.mem_iff_getElem?.1 hg
  have ht' : s'.threads[t]? = some f' := by
    rw [hthreads]
    exact List.getElem?_set_self (List.getElem?_eq_some_iff.1 ht).1
  refine ⟨?_, ?_, ?_, ?_, ?_, hcreates, ?_, ?_⟩
  · rw [hthreads]
    intro g hg hr
    rcases mem_threads_set hg with rfl | hg
    · exact hcalling (hrole ▸ hr)
    · exact hi.calling g hg hr
  · rw [hthreads]
    intro g hg q hr
    rcases mem_threads_set hg with rfl | hg
    · obtain ⟨h1, h2, -⟩ := hserving q (hrole ▸ hr)
      exact ⟨h1, h2⟩
    · exact hi.serving g hg q hr
  · intro w g q hg hr
    rw [hthreads] at hg
    rcases getElem?_set_cases hg with ⟨rfl, rfl⟩ | ⟨hne, hg⟩
    · obtain ⟨b, hb, hw, hs⟩ := hi.worker w f q ht (hrole ▸ hr)
      obtain ⟨b', hb', -, h2, h3⟩ := view_eq_some hview hb
      exact ⟨b', hb', h3.trans hw, .inr (h2.trans ((hserving q (hrole ▸ hr)).2.2 b hb hs))⟩
    · obtain ⟨b, hb, hw, hs⟩ := hi.worker w g q hg hr
      obtain ⟨b', hb', -, h2, h3⟩ := view_eq_some hview hb
      exact ⟨b', hb', h3.trans hw, hs.imp_right h2.trans⟩
  · intro q b' w hb' hw
    obtain ⟨b, hb, -, -, h3⟩ := hview' q b' hb'
    obtain ⟨g, hg, hr⟩ := hi.thread q b w hb (h3 ▸ hw)
    by_cases h : w = t
    · subst h
      rw [ht] at hg
      cases hg
      exact ⟨f', ht', hrole.trans hr⟩
    · rw [hthreads]
      exact ⟨g, by rw [List.getElem?_set_ne (fun h' => h h'.symm)]; exact hg, hr⟩
  · intro q b' w hb' hs
    obtain ⟨b, hb, -, h2, h3⟩ := hview' q b' hb'
    exact h3.trans (hi.syncExit q b w hb (h2 ▸ hs))
  · intro g hg j hj q d hd
    rw [hthreads] at hg
    rcases mem_threads_set hg with rfl | hg
    · exact hdevice j hj q d hd
    · obtain ⟨b, hb, hbd⟩ := hi.device g hg j hj q d hd
      obtain ⟨b', hb', h1, -, -⟩ := view_eq_some hview hb
      exact ⟨b', hb', h1.trans hbd⟩
  · intro g hg q hr hd
    obtain ⟨w, hw⟩ := hmem g hg
    -- the queue is known to be dying before, unless this step lets go of it
    have hbody : ∃ b, s'.queueBody q = some b := by
      have hw' := hw
      rw [hthreads] at hw'
      rcases getElem?_set_cases hw' with ⟨rfl, rfl⟩ | ⟨-, hw'⟩
      · obtain ⟨b, hb, -⟩ := hi.worker w f q ht (hrole ▸ hr)
        obtain ⟨b', hb', -⟩ := view_eq_some hview hb
        exact ⟨b', hb'⟩
      · obtain ⟨b, hb, -⟩ := hi.worker w g q hw' hr
        obtain ⟨b', hb', -⟩ := view_eq_some hview hb
        exact ⟨b', hb'⟩
    obtain ⟨b, hb⟩ := hbody
    rcases hdying q b hb hd with hd | hj
    · have hpast : (∃ g ∈ s.threads, ∃ j ∈ g.code, j.awaits q = true) ∨ g.code = [] ∨ g.exit = true := by
        have hw' := hw
        rw [hthreads] at hw'
        rcases getElem?_set_cases hw' with ⟨rfl, rfl⟩ | ⟨-, hw'⟩
        · rcases hi.past f (List.mem_of_getElem? ht) q (hrole ▸ hr) hd with h | h | h
          · exact .inl h
          · exact absurd h (hcode q (hrole ▸ hr))
          · exact .inr (.inr (hexit h))
        · exact hi.past g (List.mem_of_getElem? hw') q hr hd
      rcases hpast with ⟨k, hk, hj⟩ | h
      · obtain ⟨u, hu⟩ := List.mem_iff_getElem?.1 hk
        by_cases h : u = t
        · subst h
          rw [ht] at hu
          cases hu
          rcases hawaits q hj with hj | h
          · exact .inl ⟨f', List.mem_of_getElem? ht', hj⟩
          · exact .inr (h w g hw hr)
        · refine .inl ⟨k, ?_, hj⟩
          rw [hthreads]
          exact List.mem_of_getElem? (by rw [List.getElem?_set_ne (fun h' => h h'.symm)]; exact hu)
      · exact .inr h
    · exact .inl ⟨f', List.mem_of_getElem? ht', hj⟩

/-- The creations in a thread's list of instructions are counted in the state. -/
theorem creates_frame (s' : Host) (f' : Thread) (ht : s.threads[t]? = some f)
    (hthreads : s'.threads = s.threads.set t f') (q : Id) :
    s'.creates q + f.code.count (.createThread q) = s.creates q + f'.code.count (.createThread q) := by
  unfold Host.creates
  rw [hthreads]
  exact total_set (fun f : Thread => f.code.count (Instr.createThread q)) f' ht

/-- A step in which the thread's first instruction gives way to `new`. -/
theorem WorkerInv.goes (hi : WorkerInv s) (new : List Instr) (ht : s.threads[t]? = some f) {i : Instr}
    (hcode : f.code = i :: rest) (hthreads : s'.threads = s.threads.set t f')
    (hview : ∀ q, (s'.queueBody q).map QueueBody.view = (s.queueBody q).map QueueBody.view)
    (hrole : f'.role = f.role) (hexit : f.exit = true → f'.exit = true) (hcode' : f'.code = new ++ rest)
    (hservice : i.service = false) (hnew : ∀ j ∈ new, j.called = true) (hret : i = .ret → new = [] ∧ f'.held = 0)
    (hcleanup : i.cleanup = true → (∀ j ∈ new, j.cleanup = true) ∧ owed [i] + f'.held = owed new + f.held)
    (hcreate : ∀ q, .createThread q ∉ new)
    (hdevice : ∀ j ∈ new, ∀ q d, j.device = some (q, d) → ∃ b, s'.queueBody q = some b ∧ b.device = d)
    (hdying : ∀ q b, s'.queueBody q = some b → s'.dying q → s.dying q ∨ ∃ j ∈ new, j.awaits q = true)
    (hawaits : ∀ q, i.awaits q = true → (∃ j ∈ new, j.awaits q = true) ∨
      ∀ (w : Nat) g, s'.threads[w]? = some g → g.role = some q → g.code = [] ∨ g.exit = true) : WorkerInv s' := by
  have hmem := List.mem_of_getElem? ht
  refine hi.frame _ ht (fun _ _ => by simp [hcode]) hthreads hview hrole hexit ?_ ?_ ?_ ?_ ?_ ?_
  · intro hr
    obtain ⟨hc, -⟩ := hi.calling f hmem hr
    rw [hcode] at hc
    rcases hc.head with ⟨rfl, rfl⟩ | ⟨-, hrest, hc⟩
    · obtain ⟨rfl, hheld⟩ := hret rfl
      rw [hcode']
      exact ⟨.inl rfl, fun _ => hheld⟩
    · rw [hcode']
      exact ⟨hc new hnew, fun h => absurd (List.append_eq_nil_iff.1 h).2 hrest⟩
  · intro q hr
    obtain ⟨hs, ho⟩ := hi.serving f hmem q hr
    rw [hcode] at hs ho
    rcases hs.head with ⟨h, -⟩ | ⟨h, -, hs⟩
    · rw [hservice] at h
      cases h
    · obtain ⟨hc, hbal⟩ := hcleanup h
      rw [hcode', hcode]
      refine ⟨hs new hc _, ?_, fun b _ h => h.resolve_left fun h' => ?_⟩
      · rw [ho, owed_cons i rest] at hbal
        apply add_left_cancel (a := owed [i])
        rw [hbal, owed_append, add_left_comm]
      · cases h'
        cases hservice
  · intro q hpos
    have hc := creates_frame _ _ ht hthreads q
    have h0 : new.count (.createThread q) = 0 := List.count_eq_zero.2 (hcreate q)
    have hle : rest.count (.createThread q) ≤ (i :: rest).count (.createThread q) := List.count_le_count_cons
    rw [hcode, hcode', List.count_append, h0] at hc
    obtain ⟨h1, b, hb, hw⟩ := hi.creates q (by omega)
    obtain ⟨b', hb', -, -, h3⟩ := view_eq_some hview hb
    exact ⟨by omega, b', hb', h3.trans hw⟩
  · intro j hj q d hd
    rw [hcode'] at hj
    rcases List.mem_append.1 hj with hj | hj
    · exact hdevice j hj q d hd
    · obtain ⟨b, hb, hbd⟩ := hi.device f hmem j (by simp [hcode, hj]) q d hd
      obtain ⟨b', hb', h1, -, -⟩ := view_eq_some hview hb
      exact ⟨b', hb', h1.trans hbd⟩
  · intro q b hb hd
    rw [hcode']
    exact (hdying q b hb hd).imp_right fun ⟨j, hj, h⟩ => ⟨j, List.mem_append_left _ hj, h⟩
  · intro q ⟨j, hj, h⟩
    rw [hcode] at hj
    rw [hcode']
    rcases List.mem_cons.1 hj with rfl | hj
    · exact (hawaits q h).imp_left fun ⟨k, hk, h⟩ => ⟨k, List.mem_append_left _ hk, h⟩
    · exact .inl ⟨j, List.mem_append_right _ hj, h⟩

/-! ### The instructions of a call and of a cleanup -/

private theorem view_of_keeps (hk : Keeps s s') (q : Id) :
    (s'.queueBody q).map QueueBody.view = (s.queueBody q).map QueueBody.view := by
  rw [hk.queueBody]

private theorem owed_of_quiet {i : Instr} (h : i.quiet = true) : owed [i] = 0 := by
  cases i <;> first | rfl | nomatch h

/-- The instruction names no queue to tear down, and creates no thread. -/
theorem plain_of_inner {i : Instr} (h : i.inner = true) :
    i.device = none ∧ (∀ q, i.awaits q = false) ∧ ∀ q, i ≠ .createThread q := by
  cases i <;> first | (simp [Instr.inner, Instr.quiet] at h; done) | simp [Instr.device, Instr.awaits]

theorem WorkerInv.quiet (hi : WorkerInv s) (hr : RefInv s) (ht : s.threads[t]? = some f) {i : Instr} {ok : Bool}
    (hcode : f.code = i :: rest) (hq : i.quiet = true) (he : s.exec t f rest ok i = some s') : WorkerInv s' := by
  rcases hr.exec_quiet ht hcode hq he with rfl | ⟨f', new, hs, hcleanup, hret⟩
  · exact ⟨hi.calling, hi.serving, hi.worker, hi.thread, hi.syncExit, hi.creates, hi.device, hi.past⟩
  · have hplain : ∀ j ∈ new, _ := fun j hj => plain_of_inner (hs.new j hj)
    refine hi.goes _ ht hcode hs.threads (view_of_keeps hs.toKeeps) hs.role (fun h => hs.exit.trans h) hs.code ?_
      (fun j hj => called_of_inner (hs.new j hj)) hret ?_ (fun q hq => (hplain _ hq).2.2 q rfl) ?_
      (fun q b _ hd => .inl ((hs.dying q).1 hd)) ?_
    · cases i <;> first | rfl | nomatch hq
    · intro hc
      obtain ⟨rfl, hheld⟩ := hcleanup hc
      simp [owed_of_quiet hq, hheld, owed]
    · intro j hj q d hd
      rw [(hplain j hj).1] at hd
      cases hd
    · intro q ha
      cases i <;> first | (simp [Instr.quiet] at hq; done) | simp [Instr.awaits] at ha

/-- A release leaves the bodies of the queues. -/
theorem queueBody_dec {x : Id} (q : Id) : (s.modify x Cell.dec).queueBody q = s.queueBody q := by
  unfold Host.queueBody Host.body Host.modify
  rw [List.getElem?_modify]
  by_cases h : x = q
  · subst h
    cases hx : s.heap[x]? <;> simp [Cell.dec]
  · simp [h]

theorem WorkerInv.release (hi : WorkerInv s) (hr : RefInv s) (ht : s.threads[t]? = some f) {x : Id} {ok : Bool}
    (hcode : f.code = .release x :: rest) (he : s.exec t f rest ok (.release x) = some s') : WorkerInv s' := by
  obtain ⟨c, hx, hpos, -⟩ := hr.of_needs ht hcode (x := x) (by simp [Instr.needs])
  obtain ⟨hneeds, -⟩ := hcode ▸ hr.runs f (List.mem_of_getElem? ht)
  have hheld : x ∈ f.held := Multiset.mem_of_le hneeds (by simp [Instr.needs])
  have hbal : owed [.release x] + (f.held - {x}) = f.held := by
    simp [owed, Multiset.sub_singleton, Multiset.cons_erase hheld]
  simp only [Host.exec, hx] at he
  split at he <;> cases he
  · rename_i hc
    -- the last reference: the thread goes on with the destruction
    refine hi.goes _ ht hcode rfl (fun q => ?_) rfl id rfl rfl
      (fun j hj => called_of_cleanup (cleanup_destroyCode _ _ j hj))
      (by simp) (fun _ => ⟨cleanup_destroyCode _ _, ?_⟩) ?_ ?_ ?_ (by simp [Instr.awaits])
    · show ((s.modify x Cell.dec).queueBody q).map _ = _
      rw [queueBody_dec]
    · rw [owed_destroyCode]
      show owed [.release x] + ((c.body.refs : Multiset Id) + (f.held - {x})) = _
      rw [add_left_comm, hbal]
    · intro q
      unfold destroyCode
      cases c.body <;> simp
    · intro j hj q d hd
      show ∃ b, (s.modify x Cell.dec).queueBody q = some b ∧ b.device = d
      rw [queueBody_dec]
      unfold destroyCode at hj
      rcases List.mem_append.1 hj with hj | hj
      · cases hcb : c.body with
        | queue b =>
          rw [hcb] at hj
          rw [List.mem_singleton.1 hj] at hd
          simp only [Instr.device, Option.some.injEq, Prod.mk.injEq] at hd
          obtain ⟨rfl, rfl⟩ := hd
          exact ⟨b, queueBody_eq_some.2 ⟨c, hx, hcb⟩, rfl⟩
        | event b =>
          rw [hcb] at hj
          rw [List.mem_singleton.1 hj] at hd
          cases hd
        | _ =>
          rw [hcb] at hj
          cases hj
      · rcases List.mem_append.1 hj with hj | hj
        · obtain ⟨y, -, rfl⟩ := List.mem_map.1 hj
          cases hd
        · rw [List.mem_singleton.1 hj] at hd
          cases hd
    · intro q b hb hd
      have hq : s.queueBody q = some b := (queueBody_dec q).symm.trans hb
      by_cases h : q = x
      · subst h
        obtain ⟨c', hc', hcb⟩ := queueBody_eq_some.1 hq
        rw [hx] at hc'
        cases hc'
        exact .inr ⟨.setExit q b.device, by simp [destroyCode, hcb], by simp [Instr.awaits]⟩
      · refine .inl ?_
        have hd : ((s.heap.modify x Cell.dec)[q]?).map Cell.count = some 0 := hd
        rw [List.getElem?_modify] at hd
        simpa [Host.dying, Ne.symm h] using hd
  · rename_i hc
    have hk : Keeps s (s.modify x Cell.dec) :=
      .modify hx (.inl rfl) (show c.count - 1 = 0 ↔ c.count = 0 by omega)
    exact hi.goes [] ht hcode rfl (view_of_keeps (hk.trans (.of_heap rfl))) rfl id rfl rfl (by simp) (by simp)
      (fun _ => ⟨by simp, by simpa [owed] using hbal⟩) (by simp) (by simp)
      (fun q b _ hd => .inl ((hk.dying q).1 hd)) (by simp [Instr.awaits])

/-! ### Stores to a queue -/

theorem queueBody_setBody {x : Id} {b b₀ : QueueBody} (hx : s.queueBody x = some b₀) (q : Id) :
    (s.modify x (Cell.setBody (.queue b))).queueBody q = if q = x then some b else s.queueBody q := by
  obtain ⟨c, hc, -⟩ := queueBody_eq_some.1 hx
  unfold Host.queueBody Host.body Host.modify
  rw [List.getElem?_modify]
  by_cases h : x = q
  · subst h
    simp [hc, Cell.setBody]
  · simp [h, Ne.symm h]

theorem dying_setBody {x : Id} {b : Body} (y : Id) : (s.modify x (Cell.setBody b)).dying y ↔ s.dying y := by
  unfold Host.dying Host.modify
  rw [List.getElem?_modify]
  by_cases h : x = y
  · subst h
    cases s.heap[x]? <;> simp [Cell.setBody]
  · simp [h]

/-- A store to a field of a queue that the teardown does not depend on. -/
private theorem view_setBody {x : Id} {b b₀ : QueueBody} (hx : s.queueBody x = some b₀)
    (hb : b.view = b₀.view) (q : Id) :
    ((s.modify x (Cell.setBody (.queue b))).queueBody q).map QueueBody.view = (s.queueBody q).map
      QueueBody.view := by
  rw [queueBody_setBody hx]
  split
  · rename_i h
    rw [h, hx]
    exact congrArg some hb
  · rfl

theorem WorkerInv.push (hi : WorkerInv s) (ht : s.threads[t]? = some f) {q : Id} {g e : Option Id} {ok : Bool}
    (hcode : f.code = .push q g e :: rest) (he : s.exec t f rest ok (.push q g e) = some s') : WorkerInv s' := by
  simp only [Host.exec] at he
  split at he <;> cases he
  rename_i b hb
  exact hi.goes [] ht hcode rfl (view_setBody hb rfl) rfl id rfl rfl (by simp) (by simp) (by simp [Instr.cleanup])
    (by simp) (by simp) (fun x _ _ hd => .inl ((dying_setBody x).1 hd)) (by simp [Instr.awaits])

theorem WorkerInv.setExit (hi : WorkerInv s) (ht : s.threads[t]? = some f) {q d : Id} {ok : Bool}
    (hcode : f.code = .setExit q d :: rest) (he : s.exec t f rest ok (.setExit q d) = some s') :
    WorkerInv s' := by
  simp only [Host.exec] at he
  split at he <;> cases he
  rename_i b hb
  have hview := view_setBody (b := { b with exit := true, wakes := b.wakes + 1 }) hb rfl
  refine hi.goes [.join q d] ht hcode rfl hview rfl id rfl rfl (by simp [Instr.called, Instr.service]) (by simp)
    (fun _ => ⟨by simp [Instr.cleanup], rfl⟩) (by simp) ?_ (fun x _ _ hd => .inl ((dying_setBody x).1 hd)) ?_
  · intro j hj q' d' hd
    rw [List.mem_singleton.1 hj] at hd
    simp only [Instr.device, Option.some.injEq, Prod.mk.injEq] at hd
    obtain ⟨rfl, rfl⟩ := hd
    obtain ⟨b₀, hb₀, hd₀⟩ := hi.device f (List.mem_of_getElem? ht) (.setExit q d) (by simp [hcode]) q d rfl
    obtain ⟨b', hb', h1, -, -⟩ := view_eq_some hview hb₀
    exact ⟨b', hb', h1.trans hd₀⟩
  · intro x ha
    exact .inl ⟨.join q d, by simp, ha⟩

theorem WorkerInv.closeQueue (hi : WorkerInv s) (ht : s.threads[t]? = some f) {q d : Id} {ok : Bool}
    (hcode : f.code = .closeQueue q d :: rest) (he : s.exec t f rest ok (.closeQueue q d) = some s') :
    WorkerInv s' :=
      by
  simp only [Host.exec] at he
  split at he <;> cases he
  rename_i b hb
  exact hi.goes [] ht hcode rfl (view_setBody hb rfl) rfl id rfl rfl (by simp) (by simp)
    (fun _ => ⟨by simp, rfl⟩) (by simp) (by simp) (fun x _ _ hd => .inl ((dying_setBody x).1 hd))
      (by simp [Instr.awaits])

theorem modify_set_self {ts : List Thread} {w : Nat} {g : Thread → Thread} :
    (ts.set w f').modify w g = ts.set w (g f') := by
  refine List.ext_getElem? fun n => ?_
  rw [List.getElem?_modify, List.getElem?_set, List.getElem?_set]
  by_cases h : w = n
  · subst h
    by_cases hl : w < ts.length <;> simp [hl]
  · simp [h]

/-- Two threads do not serve one queue. -/
theorem WorkerInv.unique (hi : WorkerInv s) {q : Id} {b : QueueBody} {w : Nat} (hb : s.queueBody q = some b)
    (hw : b.worker = some w) {u : Nat} {g : Thread} (hg : s.threads[u]? = some g) (hr : g.role = some q) :
    u = w := by
  obtain ⟨b', hb', hu, -⟩ := hi.worker u g q hg hr
  rw [hb] at hb'
  cases hb'
  rw [hw] at hu
  cases hu
  rfl

/-- What a join leaves: the other thread is out of its loop, or the thread itself leaves it next. -/
structure JoinStep (s s' : Host) (t : Nat) (f f' : Thread) (q d : Id) (rest : List Instr) : Prop where
  heap : s'.heap = s.heap
  threads : s'.threads = s.threads.set t f'
  role : f'.role = f.role
  held : f'.held = f.held
  snap : f'.snap = f.snap
  result : f'.result = f.result
  code : f'.code = [.closeQueue q d] ++ rest
  requests : s'.requests = s.requests
  accepted : s'.accepted = s.accepted
  executed : s'.executed = s.executed
  nextRequest : s'.nextRequest = s.nextRequest
  joined : ∃ b w, s.queueBody q = some b ∧ b.worker = some w ∧
    ((w = t ∧ f'.exit = true) ∨ (w ≠ t ∧ f'.exit = f.exit ∧ (s.threads[w]?).map Thread.code = some []))

theorem WorkerInv.join_cases (hi : WorkerInv s) {q d : Id} {ok : Bool}
    (he : s.exec t f rest ok (.join q d) = some s') :
    s' = { s with crashed := true } ∨ ∃ f', JoinStep s s' t f f' q d rest := by
  simp only [Host.exec] at he
  split at he
  · rename_i b hb
    split at he
    · rename_i w hw
      split at he
      · rename_i hwt
        subst hwt
        split at he <;> cases he
        · -- the thread joins itself: `sync_exit` is its own
          rename_i u hu
          have huw : u = w := by
            have := hi.syncExit q b u hb hu
            rw [hw] at this
            exact (Option.some.inj this).symm
          subst huw
          exact .inr ⟨{ f with code := .closeQueue q d :: rest, exit := true }, rfl, modify_set_self,
            rfl, rfl, rfl, rfl, rfl, rfl, rfl, rfl, rfl, b, u, hb, hw, .inl ⟨rfl, rfl⟩⟩
        · exact .inl rfl
      · rename_i hwt
        split at he <;> cases he
        rename_i hdone
        exact .inr ⟨{ f with code := .closeQueue q d :: rest }, rfl, rfl, rfl, rfl, rfl, rfl, rfl, rfl, rfl,
          rfl, rfl, b, w, hb, hw, .inr ⟨hwt, rfl, hdone⟩⟩
    · rename_i hw
      split at he <;> cases he
      · rename_i u hu
        have := hi.syncExit q b u hb hu
        rw [hw] at this
        cases this
      · exact .inl rfl
  · cases he

/-- After the join the worker of the queue is out of its loop, or is this thread and leaves it next. -/
theorem WorkerInv.join (hi : WorkerInv s) (ht : s.threads[t]? = some f) {q d : Id} {ok : Bool}
    (hcode : f.code = .join q d :: rest) (he : s.exec t f rest ok (.join q d) = some s') : WorkerInv s' := by
  rcases hi.join_cases he with rfl | ⟨f', hj⟩
  · exact ⟨hi.calling, hi.serving, hi.worker, hi.thread, hi.syncExit, hi.creates, hi.device, hi.past⟩
  obtain ⟨b, w, hb, hw, hdone⟩ := hj.joined
  have hk : Keeps s s' := .of_heap hj.heap
  refine hi.goes _ ht hcode hj.threads (view_of_keeps hk) hj.role ?_ hj.code rfl
    (by simp [Instr.called, Instr.service])
    (by simp) (fun _ => ⟨by simp [Instr.cleanup], by rw [hj.held]; rfl⟩) (by simp) ?_
    (fun x _ _ hd => .inl ((hk.dying x).1 hd)) ?_
  · intro h
    rcases hdone with ⟨-, h'⟩ | ⟨-, h', -⟩
    · exact h'
    · exact h'.trans h
  · intro j hj q' d' hd
    rw [List.mem_singleton.1 hj] at hd
    simp only [Instr.device, Option.some.injEq, Prod.mk.injEq] at hd
    obtain ⟨rfl, rfl⟩ := hd
    obtain ⟨b, hb, hbd⟩ := hi.device f (List.mem_of_getElem? ht) (.join q d) (by simp [hcode]) q d rfl
    exact ⟨b, (hk.queueBody q).trans hb, hbd⟩
  · intro x ha
    have hx : q = x := by simpa [Instr.awaits] using ha
    subst hx
    refine .inr fun u g hg hr => ?_
    rw [hj.threads] at hg
    rcases getElem?_set_cases hg with ⟨rfl, rfl⟩ | ⟨hne, hg⟩
    · have := hi.unique hb hw ht (hj.role.symm.trans hr)
      rcases hdone with ⟨-, h⟩ | ⟨h, -⟩
      · exact .inr h
      · exact absurd this.symm h
    · have := hi.unique hb hw hg hr
      subst this
      rcases hdone with ⟨h, -⟩ | ⟨-, -, h⟩
      · exact absurd h hne
      · rw [hg] at h
        exact .inl (Option.some.inj h)

end Vdsp
