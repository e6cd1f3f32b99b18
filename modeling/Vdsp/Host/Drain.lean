import Vdsp.Host.Requests

/-!
# What is left in a queue that is destroyed

A client that lets go of a queue joins its worker, which leaves its loop only when the list is empty.  A worker
that lets go of its own queue does not: it is told through `sync_exit` to stop, and stops after the command it
is about.  So a queue is drained before it is destroyed exactly when its worker, where it drops the last
reference, has left nothing in the list.
-/

namespace Vdsp

open Ledger Lts

variable {s s' : Host} {t : Nat} {f f' : Thread} {rest : List Instr}

/-- Where the worker of a queue drops its last reference, no request of the queue waits. -/
def drainsFirst (s : Host) : HostLabel → Prop
  | .run t _ =>
    match s.threads[t]? with
    | some f =>
      match f.code.head? with
      | some (.release q) => f.role = some q → s.count q = 1 → s.waiting q = false
      | _ => True
    | none => True
  | _ => True

instance (s : Host) : ∀ l, Decidable (drainsFirst s l)
  | .run t ok => by
    dsimp only [drainsFirst]
    split
    · split <;> infer_instance
    · infer_instance
  | .attach | .call .. => inferInstanceAs (Decidable True)

/-- The worker does not take another request of its queue. -/
def Leaving (f : Thread) (q : Id) : Prop := f.code = [] ∨ f.exit = true ∨ ∃ j ∈ f.code, j.awaits q = true

def DrainInv (s : Host) : Prop :=
  ∀ f ∈ s.threads, ∀ q, f.role = some q → Leaving f q → s.dying q ∧ s.waiting q = false

theorem waiting_eq_false {q : Id} : s.waiting q = false ↔ ∀ r ∈ s.requests, r.queue ≠ q := by
  simp [Host.waiting]

private theorem DrainInv.frame (hi : DrainInv s) (f' : Thread) (spawned : List Thread)
    (ht : s.threads[t]? = some f)
    (hthreads : s'.threads = s.threads.set t f' ++ spawned) (hspawned : ∀ g ∈ spawned, ∀ q, ¬ Leaving g q)
    (hkeep : ∀ q, s.dying q → s.waiting q = false → s'.dying q ∧ s'.waiting q = false)
    (hf : ∀ q, f'.role = some q → Leaving f' q →
      (f.role = some q ∧ Leaving f q) ∨ (s'.dying q ∧ s'.waiting q = false)) : DrainInv s' := by
  intro g hg q hr hl
  rw [hthreads] at hg
  rcases List.mem_append.1 hg with hg | hg
  · rcases mem_threads_set hg with rfl | hg
    · rcases hf q hr hl with ⟨hr, hl⟩ | h
      · obtain ⟨h1, h2⟩ := hi f (List.mem_of_getElem? ht) q hr hl
        exact hkeep q h1 h2
      · exact h
    · obtain ⟨h1, h2⟩ := hi g hg q hr hl
      exact hkeep q h1 h2
  · exact absurd hl (hspawned g hg q)

/-- A worker goes on with a cleanup, and its rest. -/
private theorem Leaving.of_rest {i : Instr} {q : Id} (hl : Leaving f' q) (new : List Instr)
    (hcode : f.code = i :: rest) (hcode' : f'.code = new ++ rest) (hrest : rest ≠ []) (hexit : f'.exit = f.exit)
    (hnew : ∀ j ∈ new, j.awaits q = true → i.awaits q = true) : Leaving f q := by
  rcases hl with h | h | ⟨j, hj, h⟩
  · rw [hcode'] at h
    exact absurd (List.append_eq_nil_iff.1 h).2 hrest
  · exact .inr (.inl (hexit ▸ h))
  · rw [hcode'] at hj
    refine .inr (.inr ?_)
    rw [hcode]
    rcases List.mem_append.1 hj with hj | hj
    · exact ⟨i, by simp, hnew j hj h⟩
    · exact ⟨j, by simp [hj], h⟩

/-- The first instruction of a worker that finishes a command has others behind it. -/
private theorem WorkerInv.rest_ne_nil (hi : WorkerInv s) (ht : s.threads[t]? = some f) {i : Instr}
    (hcode : f.code = i :: rest)
    (hservice : i.service = false) {q : Id} (hr : f.role = some q) : rest ≠ [] ∧ i.cleanup = true := by
  obtain ⟨hs, -⟩ := hi.serving f (List.mem_of_getElem? ht) q hr
  rw [hcode] at hs
  rcases hs.head with ⟨h, -⟩ | ⟨h, h', -⟩
  · rw [hservice] at h
    cases h
  · exact ⟨h', h⟩

/-- A worker on its way to a command, with `exit` unset. -/
private theorem not_leaving {q : Id} (hc : f.code ≠ []) (he : f.exit = false)
    (ha : ∀ j ∈ f.code, j.awaits q = false) : ¬ Leaving f q := by
  rintro (h | h | ⟨j, hj, h⟩)
  · exact hc h
  · rw [he] at h
    cases h
  · rw [ha j hj] at h
    cases h

/-- A worker stays on its way to a command. -/
private theorem DrainInv.onward (hi : DrainInv s) (f' : Thread) (ht : s.threads[t]? = some f)
    (hthreads : s'.threads = s.threads.set t f')
    (hkeep : ∀ q, s.dying q → s.waiting q = false → s'.dying q ∧ s'.waiting q = false)
    (hc : f'.code ≠ []) (he : f'.exit = false) (ha : ∀ j ∈ f'.code, ∀ q, j.awaits q = false) : DrainInv s' := by
  refine hi.frame f' [] ht (hthreads.trans (List.append_nil _).symm) (by simp) hkeep fun q _ hl => ?_
  exact absurd hl (not_leaving hc he fun j hj => ha j hj q)

/-- Nobody pushes to a dying queue. -/
private theorem RefInv.stays_drained (hr : RefInv s) (hw : WorkerInv s) (ht : s.threads[t]? = some f)
    {i : Instr}
    {ok : Bool} (hcode : f.code = i :: rest) (he : s.exec t f rest ok i = some s') {q : Id} (hd : s.dying q)
    (hno : s.waiting q = false) : s'.dying q ∧ s'.waiting q = false := by
  have hposted := exec_posted hr hw ht hcode he
  refine ⟨(hr.exec_dying ht hcode he q).2 (.inl hd), waiting_eq_false.2 fun r hr' => ?_⟩
  rcases hposted.requests r hr' with h | h
  · exact waiting_eq_false.1 hno r h
  · rintro rfl
    cases i with
    | push q g e =>
      cases h
      obtain ⟨c, hc, hpos, -⟩ := hr.of_needs ht hcode (x := q) (by simp [Instr.needs])
      rw [dying_iff hc] at hd
      omega
    | _ => cases h

section

variable {ok : Bool} (hi : DrainInv s) (hw : WorkerInv s) (ht : s.threads[t]? = some f)
  (hkeep : ∀ q, s.dying q → s.waiting q = false → s'.dying q ∧ s'.waiting q = false)
include hi hw ht hkeep

private theorem DrainInv.exec_release (hr : RefInv s) {x : Id} (hcode : f.code = .release x :: rest)
    (hok : drainsFirst s (.run t ok)) (he : s.exec t f rest ok (.release x) = some s') : DrainInv s' := by
  have hdying := hr.exec_dying ht hcode he
  obtain ⟨c, hx, -, -⟩ := hr.of_needs ht hcode (x := x) (by simp [Instr.needs])
  simp only [Host.exec, hx] at he
  split at he <;> cases he
  · rename_i hc
    refine hi.frame _ [] ht (List.append_nil _).symm (by simp) hkeep fun q hrole hl => ?_
    have hrole : f.role = some q := hrole
    obtain ⟨hrest, -⟩ := hw.rest_ne_nil ht hcode rfl hrole
    by_cases hq : x = q
    · -- the worker lets go of its own queue
      subst hq
      have hno : s.waiting x = false := by
        have hok : f.role = some x → s.count x = 1 → s.waiting x = false := by
          simpa only [drainsFirst, ht, hcode, List.head?_cons] using hok
        exact hok hrole ((Host.count_eq hx).trans hc)
      exact .inr ⟨(hdying x).2 (.inr ⟨rfl, (Host.count_eq hx).trans hc⟩), hno⟩
    · refine .inl ⟨hrole, hl.of_rest _ hcode rfl hrest rfl fun j hj ha => ?_⟩
      have := List.countP_pos_iff.2 ⟨j, hj, tears_of_awaits ha⟩
      rw [countP_tears_destroyCode, if_neg (Ne.symm hq)] at this
      exact absurd this (lt_irrefl _)
  · refine hi.frame _ [] ht (List.append_nil _).symm (by simp) hkeep fun q hrole hl => ?_
    obtain ⟨hrest, -⟩ := hw.rest_ne_nil ht hcode rfl hrole
    exact .inl ⟨hrole, hl.of_rest [] hcode rfl hrest rfl (by simp)⟩

private theorem DrainInv.exec_join {x d : Id} (hcode : f.code = .join x d :: rest)
    (he : s.exec t f rest ok (.join x d) = some s') : DrainInv s' := by
  rcases hw.join_cases he with rfl | ⟨f', hj⟩
  · exact hi
  refine hi.frame _ [] ht (hj.threads.trans (List.append_nil _).symm) (by simp) hkeep fun q hrole hl => ?_
  have hrole := hj.role.symm.trans hrole
  obtain ⟨hrest, -⟩ := hw.rest_ne_nil ht hcode rfl hrole
  obtain ⟨b, w, hb, hbw, hdone⟩ := hj.joined
  refine .inl ⟨hrole, ?_⟩
  rcases hdone with ⟨rfl, -⟩ | ⟨-, hexit, -⟩
  · -- the worker joins itself, for its own queue
    obtain ⟨g, hg, hgr⟩ := hw.thread x b w hb hbw
    rw [ht] at hg
    cases hg
    rw [hrole] at hgr
    cases hgr
    exact .inr (.inr ⟨.join x d, by simp [hcode], by simp [Instr.awaits]⟩)
  · exact hl.of_rest _ hcode hj.code hrest hexit (by simp [Instr.awaits])

private theorem DrainInv.exec_process (htear : TearInv s) {x : Id} (hcode : f.code = .process x :: rest)
    (he : s.exec t f rest ok (.process x) = some s') : DrainInv s' := by
  obtain ⟨hrole, rfl, hexit, -⟩ := hw.at_service (List.mem_of_getElem? ht) hcode rfl
  have hexit := hexit (by simp)
  simp only [Host.exec] at he
  split at he
  · rename_i b hb
    split at he
    · cases he
      exact hi.onward _ ht rfl hkeep (by simp) hexit (by simp [Instr.awaits])
    · rename_i hnone
      cases he
      split
      · -- the list is empty and `exit` is requested
        rename_i hbe
        refine hi.frame { f with code := [] } [] ht (List.append_nil _).symm (by simp)
          (fun _ h h' => ⟨h, h'⟩) fun q hr' _ => .inr ?_
        have hr' : f.role = some q := hr'
        rw [hrole] at hr'
        cases hr'
        refine ⟨htear.exit x b hb hbe, waiting_eq_false.2 fun r hr => ?_⟩
        simpa using List.find?_eq_none.1 hnone r hr
      · exact hi.onward { f with code := [.asleepQueue x b.wakes] } ht rfl (fun _ h h' => ⟨h, h'⟩) (by simp)
          hexit (by simp [Instr.awaits])
  · cases he

end

theorem DrainInv.exec (hi : DrainInv s) (hr : RefInv s) (hw : WorkerInv s) (htear : TearInv s)
    (ht : s.threads[t]? = some f) {i : Instr} {ok : Bool} (hcode : f.code = i :: rest)
    (hok : drainsFirst s (.run t ok)) (he : s.exec t f rest ok i = some s') : DrainInv s' := by
  have hmem := List.mem_of_getElem? ht
  have hkeep : ∀ q, s.dying q → s.waiting q = false → s'.dying q ∧ s'.waiting q = false :=
    fun q hd hno => hr.stays_drained hw ht hcode he hd hno
  -- an instruction that a worker does not have
  have hclient : i.service = false → i.cleanup = false → ∀ q, f.role ≠ some q := by
    intro hs hc q hrole
    rw [(hw.rest_ne_nil ht hcode hs hrole).2] at hc
    cases hc
  cases i with
  | release x => exact hi.exec_release hw ht hkeep hr hcode hok he
  | join x d => exact hi.exec_join hw ht hkeep hcode he
  | process x => exact hi.exec_process hw ht hkeep htear hcode he
  | newQueue d =>
    have hno := hclient rfl rfl
    simp only [Host.exec] at he
    split at he <;> cases he <;>
      exact hi.frame _ [] ht (List.append_nil _).symm (by simp) hkeep fun q hrole _ => absurd hrole (hno q)
  | createThread x =>
    have hno := hclient rfl rfl
    simp only [Host.exec] at he
    split at he
    · split at he <;> cases he
      · refine hi.frame _ _ ht rfl (fun g hg q => ?_) hkeep fun q hrole _ => absurd hrole (hno q)
        rw [List.mem_singleton.1 hg]
        exact not_leaving (by simp) rfl (by simp [Instr.awaits])
      · exact hi.frame _ [] ht (List.append_nil _).symm (by simp) hkeep fun q hrole _ => absurd hrole (hno q)
    · cases he
  | push q g e =>
    have hno := hclient rfl rfl
    simp only [Host.exec] at he
    split at he <;> cases he
    exact hi.frame _ [] ht (List.append_nil _).symm (by simp) hkeep fun q hrole _ => absurd hrole (hno q)
  | setExit x d =>
    simp only [Host.exec] at he
    split at he <;> cases he
    refine hi.frame _ [] ht (List.append_nil _).symm (by simp) hkeep fun q hrole hl => ?_
    obtain ⟨hrest, -⟩ := hw.rest_ne_nil ht hcode rfl hrole
    exact .inl ⟨hrole, hl.of_rest [.join x d] hcode rfl hrest rfl (by simp [Instr.awaits])⟩
  | closeQueue x d =>
    simp only [Host.exec] at he
    split at he <;> cases he
    refine hi.frame _ [] ht (List.append_nil _).symm (by simp) hkeep fun q hrole hl => ?_
    obtain ⟨hrest, -⟩ := hw.rest_ne_nil ht hcode rfl hrole
    exact .inl ⟨hrole, hl.of_rest [] hcode rfl hrest rfl (by simp)⟩
  | enter x =>
    obtain ⟨-, rfl, -⟩ := hw.at_service hmem hcode rfl
    simp only [Host.exec] at he
    split at he <;> cases he
    exact hi.onward _ ht rfl hkeep (by simp) rfl (by simp [Instr.awaits])
  | asleepQueue x n =>
    obtain ⟨-, rfl, hexit, -⟩ := hw.at_service hmem hcode rfl
    have hexit := hexit (by simp)
    cases he
    exact hi.onward _ ht rfl hkeep (by simp) hexit (by simp [Instr.awaits])
  | snapshot rq =>
    obtain ⟨-, rfl, hexit, -⟩ := hw.at_service hmem hcode rfl
    have hexit := hexit (by simp)
    have hgo : ∀ snap, DrainInv (s.frame t { f with code := [.ioctl rq, .loop rq.queue], snap := snap }) := by
      intro snap
      exact hi.onward _ ht rfl (fun _ h h' => ⟨h, h'⟩) (by simp) hexit (by simp [Instr.awaits])
    simp only [Host.exec] at he
    split at he
    · split at he <;> cases he
      exact hgo _
    · cases he
      exact hgo _
  | ioctl rq =>
    obtain ⟨-, rfl, hexit, -⟩ := hw.at_service hmem hcode rfl
    have hexit := hexit (by simp)
    cases he
    refine hi.onward _ ht rfl hkeep (by simp) hexit ?_
    unfold finishCode
    cases rq.group <;> cases rq.event <;> simp [Instr.awaits]
  | loop x =>
    obtain ⟨-, rfl, -⟩ := hw.at_service hmem hcode rfl
    cases he
    split
    · rename_i hexit
      exact hi.frame { f with code := [] } [] ht (List.append_nil _).symm (by simp)
        (fun _ h h' => ⟨h, h'⟩) fun q hr' _ => .inl ⟨hr', .inr (.inl hexit)⟩
    · rename_i hexit
      exact hi.onward { f with code := [.enter x] } ht rfl (fun _ h h' => ⟨h, h'⟩) (by simp)
        (by simpa using hexit)
        (by simp [Instr.awaits])
  | _ =>
    rcases hr.exec_quiet ht hcode rfl he with rfl | ⟨f', new, hs, hcleanup, -⟩
    · exact hi
    · refine hi.frame _ [] ht (hs.threads.trans (List.append_nil _).symm) (by simp) hkeep fun q hrole hl => ?_
      have hrole := hs.role.symm.trans hrole
      obtain ⟨hrest, hc⟩ := hw.rest_ne_nil ht hcode rfl hrole
      refine .inl ⟨hrole, hl.of_rest _ hcode hs.code hrest hs.exit ?_⟩
      rw [(hcleanup hc).1]
      simp

theorem DrainInv.step (hi : DrainInv s) (hr : RefInv s) (hw : WorkerInv s) (htear : TearInv s) {l : HostLabel}
    (hok : drainsFirst s l) (hs : s.step l = some s') : DrainInv s' := by
  rcases step_cases hs with ⟨-, rfl⟩ | ⟨t, c, f, -, ht, hrole, hcode, -, -, rfl⟩ |
    ⟨t, ok, f, i, rest, rfl, ht, hcode, ⟨-, rfl⟩ | he⟩
  · intro g hg q hr' hl
    rcases List.mem_append.1 hg with hg | hg
    · exact hi g hg q hr' hl
    · rw [List.mem_singleton.1 hg] at hr'
      cases hr'
  · refine hi.frame { f with code := c.code, held := c.uses + c.unmaps } [] ht (List.append_nil _).symm
      (by simp) (fun _ h h' => ⟨h, h'⟩) fun q hr' _ => ?_
    have hr' : f.role = some q := hr'
    rw [hrole] at hr'
    cases hr'
  · exact hi
  · exact hi.exec hr hw htear ht hcode hok he

/-! ### Runs -/

/-- A request that was taken from the list is with the worker of its queue, which is not told to stop. -/
theorem WorkerInv.of_request (hi : WorkerInv s) (hf : f ∈ s.threads) {j : Instr} (hj : j ∈ f.code)
    {rq : Request}
    (hrq : j.request = some rq) : f.role = some rq.queue ∧ f.exit = false ∧ f.code = [j, .loop rq.queue] := by
  cases hr : f.role with
  | none =>
    rcases (hi.calling f hf hr).1 with h | ⟨c, h, hcalled⟩
    · rw [h] at hj
      cases hj
    · rw [h] at hj
      rcases List.mem_append.1 hj with hj | hj
      · have hno : j.called = false := by cases j <;> first | rfl | cases hrq
        rw [hcalled j hj] at hno
        cases hno
      · rw [List.mem_singleton.1 hj] at hrq
        cases hrq
  | some q =>
    obtain ⟨hs, -⟩ := hi.serving f hf q hr
    generalize hcode : f.code = code at hs hj
    generalize hex : f.exit = ex at hs
    cases hs with
    | done => cases hj
    | enter | process | asleep =>
      rw [List.mem_singleton.1 hj] at hrq
      cases hrq
    | snapshot hq | ioctl hq =>
      simp only [List.mem_cons, List.not_mem_nil, or_false] at hj
      rcases hj with rfl | rfl
      · cases hrq
        exact ⟨by rw [hq], rfl, by rw [hq]⟩
      · cases hrq
    | finish hc =>
      rcases List.mem_append.1 hj with hj | hj
      · rw [request_of_cleanup (hc j hj)] at hrq
        cases hrq
      · rw [List.mem_singleton.1 hj] at hrq
        cases hrq

/-- Commands are executed once, and all of them before their queue is gone. -/
structure Drained (s : Host) : Prop where
  executed : ∀ k, s.executed.count k ≤ 1 ∧ (k ∈ s.executed → k ∈ s.accepted)
  /-- When `xrp_queue_destroy` has returned, or the queue is freed, nothing is left in the list. -/
  drained : ∀ q b, s.queueBody q = some b → (b.destroyed = true ∨ s.gone q = true) →
    (∀ r ∈ s.requests, r.queue ≠ q) ∧ ∀ id, (id, q) ∈ s.accepted → s.executed.count (id, q) = 1

/-- A queue that is freed was destroyed. -/
theorem TearInv.destroyed_of_gone (hi : TearInv s) (hr : RefInv s) {q : Id} {b : QueueBody}
    (hb : s.queueBody q = some b) (hgone : s.gone q = true) : b.destroyed = true := by
  obtain ⟨c, hc, -⟩ := queueBody_eq_some.1 hb
  have hfreed : c.freed = true := by simpa [Host.gone, hc] using hgone
  have h0 : c.count = 0 := by
    by_contra h
    rw [(hr.live q c hc (by omega)).2] at hfreed
    cases hfreed
  have hfrees : s.frees q = 0 := by
    have := hr.dead q c hc h0
    rw [Cell.freedOnce, hfreed, if_pos rfl] at this
    omega
  have htears : s.tears q = 0 := by
    refine total_eq_zero.2 fun g hg => List.countP_eq_zero.2 fun j hj h => ?_
    have hcloses : j.closes = some q := by
      cases j with
      | setExit x d | join x d | closeQueue x d =>
        have hx : x = q := by simpa [Instr.tears] using h
        rw [hx]
        rfl
      | _ => cases h
    have := frees_pos hg ((hr.runs g hg).free_of_closes hj hcloses)
    omega
  have := hi.balance q b hb
  rw [if_pos ((dying_iff hc).2 h0), htears] at this
  cases hd : b.destroyed with
  | true => rfl
  | false =>
    rw [hd, Bool.toNat_false] at this
    omega

/-- The worker of a destroyed queue has left its loop, or leaves it next. -/
theorem TearInv.leaving (hi : TearInv s) (hw : WorkerInv s) {q : Id} {b : QueueBody}
    (hb : s.queueBody q = some b)
    (hd : b.destroyed = true) :
    ∃ (w : Nat) (f : Thread), b.worker = some w ∧ s.threads[w]? = some f ∧ f.role = some q ∧
      (f.code = [] ∨ f.exit = true) := by
  obtain ⟨w, hbw⟩ := Option.isSome_iff_exists.1 (hi.joined q b hb (.inl hd))
  obtain ⟨f, hf, hrole⟩ := hw.thread q b w hb hbw
  refine ⟨w, f, hbw, hf, hrole, ?_⟩
  have hbal := hi.balance q b hb
  rw [hd, Bool.toNat_true] at hbal
  split at hbal
  · rename_i hdying
    rcases hw.past f (List.mem_of_getElem? hf) q hrole hdying with ⟨g, hg, j, hj, ha⟩ | h
    · have := tears_pos hg hj (tears_of_awaits ha)
      omega
    · exact h
  · omega

theorem DrainInv.drained (hi : DrainInv s) (hr : RefInv s) (hw : WorkerInv s) (htear : TearInv s)
    (hled : LedgerInv s) :
    Drained s := by
  have hle : ∀ k, s.accepted.count k ≤ 1 := fun k => List.nodup_iff_count_le_one.1 hled.nodup k
  refine ⟨fun k => ⟨?_, fun hk => ?_⟩, fun q b hb hor => ?_⟩
  · have := hled.balance k
    have := hle k
    omega
  · have := hled.balance k
    have := List.count_pos_iff.2 hk
    exact List.count_pos_iff.1 (by omega)
  · have hd : b.destroyed = true := hor.elim id (htear.destroyed_of_gone hr hb)
    obtain ⟨w, f, hbw, hf, hrole, hleft⟩ := htear.leaving hw hb hd
    obtain ⟨-, hno⟩ := hi f (List.mem_of_getElem? hf) q hrole (hleft.imp_right .inl)
    have hlist := waiting_eq_false.1 hno
    refine ⟨hlist, fun id hid => ?_⟩
    -- nothing of the queue is pending
    have h1 : total (fun r : Request => if r.key = (id, q) then 1 else 0) s.requests = 0 :=
      total_eq_zero.2 fun r hr => if_neg fun h => hlist r hr (by simpa [Request.key] using congrArg Prod.snd h)
    have h2 : total (fun f : Thread => load (fun r => if r.key = (id, q) then 1 else 0) f.code)
      s.threads = 0 := by
      refine total_eq_zero.2 fun g hg => total_eq_zero.2 fun j hj => total_eq_zero.2 fun rq hrq =>
        if_neg fun h => ?_
      have hq : rq.queue = q := by simpa [Request.key] using congrArg Prod.snd h
      obtain ⟨hgr, hge, hgc⟩ := hw.of_request hg hj (Option.mem_toList.1 hrq)
      obtain ⟨u, hu⟩ := List.mem_iff_getElem?.1 hg
      have huw := hw.unique hb hbw hu (hq ▸ hgr)
      subst huw
      rw [hf] at hu
      cases hu
      rcases hleft with h | h
      · rw [hgc] at h
        cases h
      · rw [hge] at h
        cases h
    have := hled.balance (id, q)
    have h3 : s.pending (fun r => if r.key = (id, q) then 1 else 0) = 0 := by rw [Host.pending, h1, h2]
    have := List.count_pos_iff.2 hid
    have := hle (id, q)
    omega

/-- In a run in which no worker drops the last reference to its queue while requests wait in it, every accepted
command is executed exactly once before its queue is gone. -/
theorem drained_of_reach (h : Reach host drainsFirst s) : Drained s := by
  have hdrain : DrainInv s := by
    induction h with
    | start h0 =>
      cases h0
      simp [DrainInv, Host.start]
    | step h hok hs ih =>
      have hi := hostInv_of_reach h
      exact ih.step hi.refs hi.worker (tearInv_of_reach h) hok (host_step hs)
  have hi := hostInv_of_reach h
  exact hdrain.drained hi.refs hi.worker (tearInv_of_reach h) (ledgerInv_of_reach h)

/-- A client enqueues a command with an event and releases the queue and the event; the worker executes the
command and drops the last reference to its queue. -/
def workerCloses : List HostLabel :=
  [.attach, .call 0 .openDeviceNewmode] ++ steps 0 2 ++ [.call 0 (.createQueue 0)] ++ steps 0 4 ++
    [.call 0 (.enqueueCommand 1 none true)] ++ steps 0 6 ++ [.call 0 (.release 1)] ++ steps 0 2 ++
    [.call 0 (.release 2)] ++ steps 0 2 ++ steps 1 11

theorem drained_workerCloses :
    ∃ s, host.exec drainsFirst .start workerCloses = some s ∧
      s.executed = [(0, 1)] ∧ s.queueBody 1 = some ⟨0, true, some 1, 2, some 1, true⟩ ∧ Drained s := by
  obtain ⟨s, hs, hr, hp⟩ := Reach.exists_exec host drainsFirst .start workerCloses
    (fun s => s.executed = [(0, 1)] ∧ s.queueBody 1 = some ⟨0, true, some 1, 2, some 1, true⟩) rfl
    (by decide +kernel)
  obtain ⟨h1, h2⟩ := of_decide_eq_true hp
  exact ⟨s, hs, h1, h2, drained_of_reach hr⟩

/-- The same with a second command, without an event, behind the first. -/
def workerLeaves : List HostLabel :=
  [.attach, .call 0 .openDeviceNewmode] ++ steps 0 2 ++ [.call 0 (.createQueue 0)] ++ steps 0 4 ++
    [.call 0 (.enqueueCommand 1 none true)] ++ steps 0 6 ++ [.call 0 (.enqueueCommand 1 none false)] ++
    steps 0 3 ++ [.call 0 (.release 1)] ++ steps 0 2 ++ [.call 0 (.release 2)] ++ steps 0 2 ++ steps 1 11

/-- A command without an event does not keep its queue: it is left in the list of a destroyed queue. -/
theorem destroyed_queue_not_drained : ¬ ∀ s, Reach host anyStep s → Drained s := by
  intro hall
  obtain ⟨s, -, hr, hp⟩ := Reach.exists_exec host anyStep .start workerLeaves
    (fun s => s.queueBody 1 = some ⟨0, true, some 1, 2, some 1, true⟩ ∧ s.requests = [⟨1, 1, none, none⟩]) rfl
    (by decide +kernel)
  obtain ⟨hb, hreq⟩ := of_decide_eq_true hp
  obtain ⟨hlist, -⟩ := (hall s hr).drained 1 _ hb (.inl rfl)
  rw [hreq] at hlist
  exact hlist ⟨1, 1, none, none⟩ (by simp) rfl

end Vdsp
