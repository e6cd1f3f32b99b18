import Vdsp.Host.Serve

/-!
# No access after free, and the balance of the reference counts

What an instruction accesses is there: it is held by the thread, or it is an object that the thread is about to
free, or it is the queue that a worker serves.
-/

namespace Vdsp

open Ledger Lts

variable {s s' : Host} {t : Nat} {f : Thread} {rest : List Instr}

/-! ### Pending frees -/

theorem Runs.free_of_closes {code : List Instr} {h : Multiset Id} (hr : Runs code h) {j : Instr}
    (hj : j ∈ code) {x : Id} (hx : j.closes = some x) : .free x ∈ code := by
  induction code generalizing h with
  | nil => cases hj
  | cons i c ih =>
    obtain ⟨-, hc, -, hrest⟩ := hr
    rcases List.mem_cons.1 hj with rfl | hj
    · exact List.mem_cons_of_mem _ (hc x hx)
    · exact List.mem_cons_of_mem _ (ih hrest hj)

/-- Only the first instruction of a thread waits for a worker. -/
theorem Runs.head_of_joins {code : List Instr} {h : Multiset Id} (hr : Runs code h) {j : Instr} (hj : j ∈ code)
    (hjoins : j.joins = true) : ∃ c, code = j :: c := by
  cases code with
  | nil => cases hj
  | cons i c =>
    obtain ⟨-, -, hno, -⟩ := hr
    rcases List.mem_cons.1 hj with rfl | hj
    · exact ⟨c, rfl⟩
    · rw [hno j hj] at hjoins
      cases hjoins

theorem joins_of_awaits {j : Instr} {q : Id} (h : j.awaits q = true) :
    j.joins = true ∧ j.closes = some q ∧ ∃ d, j.device = some (q, d) ∧ d ∈ j.needs := by
  cases j with
  | setExit x d | join x d =>
    have hx : x = q := by simpa [Instr.awaits] using h
    subst hx
    exact ⟨rfl, rfl, d, rfl, by simp [Instr.needs]⟩
  | _ => cases h

theorem frees_pos {x : Id} (hf : f ∈ s.threads) (hx : .free x ∈ f.code) : 0 < s.frees x :=
  lt_of_lt_of_le (List.count_pos_iff.2 hx) (le_total (fun f : Thread => f.code.count (Instr.free x)) hf)

/-- An object that a thread is going to free is there. -/
theorem RefInv.of_free (hi : RefInv s) {x : Id} (hx : 0 < s.frees x) :
    ∃ c, s.heap[x]? = some c ∧ c.count = 0 ∧ c.freed = false := by
  cases hc : s.heap[x]? with
  | none => exact absurd (hi.absent x hc) (by omega)
  | some c =>
    have h0 : c.count = 0 := by
      by_contra h
      have := (hi.live x c hc (by omega)).1
      omega
    have hd := hi.dead x c hc h0
    refine ⟨c, rfl, h0, ?_⟩
    cases hf : c.freed with
    | false => rfl
    | true =>
      rw [Cell.freedOnce, hf] at hd
      simp only [if_true] at hd
      omega

theorem gone_eq_false {x : Id} {c : Cell} (hx : s.heap[x]? = some c) (hf : c.freed = false) :
    s.gone x = false := by
  simp [Host.gone, hx, hf]

/-! ### The worker's queue -/

/-- A queue that is torn down is not freed before its worker is joined. -/
theorem WorkerInv.there (hi : WorkerInv s) (hr : RefInv s) (ht : s.threads[t]? = some f) {q : Id}
    (hrole : f.role = some q) (hcode : f.code ≠ []) (hexit : f.exit = false) :
    s.gone q = false ∧ ∀ b, s.queueBody q = some b → s.gone b.device = false := by
  obtain ⟨b, hb, -⟩ := hi.worker t f q ht hrole
  obtain ⟨c, hc, hcb⟩ := queueBody_eq_some.1 hb
  rcases Nat.eq_zero_or_pos c.count with h0 | hpos
  · -- its last reference is gone: the thread that tears it down has not joined the worker yet
    obtain ⟨g, hg, j, hj, ha⟩ : ∃ g ∈ s.threads, ∃ j ∈ g.code, j.awaits q = true := by
      rcases hi.past f (List.mem_of_getElem? ht) q hrole ((dying_iff hc).2 h0) with h | h | h
      · exact h
      · exact absurd h hcode
      · rw [hexit] at h
        cases h
    obtain ⟨hjoins, hcloses, d, hd, hneeds⟩ := joins_of_awaits ha
    obtain ⟨c', hc', -, hfree⟩ := hr.of_free (frees_pos hg ((hr.runs g hg).free_of_closes hj hcloses))
    refine ⟨gone_eq_false hc' hfree, fun b' hb' => ?_⟩
    obtain ⟨b'', hb'', hbd⟩ := hi.device g hg j hj q d hd
    rw [hb'] at hb''
    cases hb''
    obtain ⟨c'', hcode'⟩ := (hr.runs g hg).head_of_joins hj hjoins
    obtain ⟨u, hu⟩ := List.mem_iff_getElem?.1 hg
    obtain ⟨cd, hcd, -, hfd⟩ := hr.of_needs hu hcode' hneeds
    rw [hbd]
    exact gone_eq_false hcd hfd
  · obtain ⟨-, hf⟩ := hr.live q c hc hpos
    refine ⟨gone_eq_false hc hf, fun b' hb' => ?_⟩
    rw [hb] at hb'
    cases hb'
    obtain ⟨cd, hcd, -, hfd⟩ := hr.of_body hc hpos (x := b.device) (by simp [hcb, Body.refs])
    exact gone_eq_false hcd hfd

/-- The queue of a worker that is at one of its critical sections, or on its way to the driver, is there. -/
private theorem WorkerInv.of_section (hi : WorkerInv s) (hr : RefInv s) (ht : s.threads[t]? = some f) {i : Instr}
    (hcode : f.code = i :: rest) {q : Id} {c : List Instr} (hp : i.place = some (q, c)) (hl : ∀ x, i ≠ .loop x) :
    s.gone q = false ∧ ∀ b, s.queueBody q = some b → s.gone b.device = false := by
  obtain ⟨hrole, -, hex, -⟩ := hi.at_service (List.mem_of_getElem? ht) hcode hp
  exact hi.there hr ht hrole (by simp [hcode]) (hex hl)

/-- Everything that the next instruction of a thread accesses is there. -/
theorem WorkerInv.safe (hi : WorkerInv s) (hr : RefInv s) (ht : s.threads[t]? = some f) {i : Instr}
    (hcode : f.code = i :: rest) : ∀ x ∈ i.accesses s, s.gone x = false := by
  have hmem := List.mem_of_getElem? ht
  have hneeds : ∀ x ∈ i.needs, s.gone x = false := fun x hx => by
    obtain ⟨c, hc, -, hf⟩ := hr.of_needs ht hcode hx
    exact gone_eq_false hc hf
  have hslots : ∀ g ∈ i.needs, ∀ table, s.table g = some table → ∀ x ∈ table.slots, s.gone x = false := by
    intro g hg table htable x hx
    obtain ⟨c, hc, hpos, -⟩ := hr.of_needs ht hcode hg
    obtain ⟨c', hc', hbody⟩ := table_eq_some.1 htable
    rw [hc] at hc'
    cases hc'
    obtain ⟨cx, hcx, -, hf⟩ := hr.of_body hc hpos (x := x) (by rw [hbody]; exact hx)
    exact gone_eq_false hcx hf
  have hfree : ∀ x, .free x ∈ f.code → s.gone x = false := fun x hx => by
    obtain ⟨c, hc, -, hf⟩ := hr.of_free (frees_pos hmem hx)
    exact gone_eq_false hc hf
  have hcloses : ∀ x, i.closes = some x → s.gone x = false := fun x hx =>
    hfree x ((hr.runs f hmem).free_of_closes (j := i) (by simp [hcode]) hx)
  intro x hx
  cases i with
  | free y =>
    simp only [Instr.accesses, List.mem_singleton] at hx
    exact hx ▸ hfree y (by simp [hcode])
  | setExit q d | join q d | closeQueue q d | condDestroy q =>
    simp only [Instr.accesses, List.mem_singleton] at hx
    exact hx ▸ hcloses q rfl
  | enter q | process q | asleepQueue q n =>
    simp only [Instr.accesses, List.mem_singleton] at hx
    subst hx
    exact (hi.of_section hr ht hcode rfl (by simp)).1
  | snapshot rq =>
    rcases List.mem_cons.1 hx with rfl | hx
    · exact (hi.of_section hr ht hcode rfl (by simp)).1
    · obtain ⟨g, hg, hx⟩ := List.mem_flatMap.1 hx
      have hg : g ∈ rq.refs := List.mem_append_left _ hg
      rcases List.mem_cons.1 hx with rfl | hx
      · exact hneeds x hg
      · cases htable : s.table g with
        | none =>
          rw [htable] at hx
          cases hx
        | some table =>
          rw [htable] at hx
          exact hslots g hg table htable x hx
  | ioctl rq =>
    obtain ⟨hgone, hdev⟩ := hi.of_section hr ht hcode rfl (by simp)
    rcases List.mem_cons.1 hx with rfl | hx
    · exact hgone
    · cases hb : s.queueBody rq.queue with
      | none =>
        rw [hb] at hx
        cases hx
      | some b =>
        rw [hb] at hx
        rw [List.mem_singleton.1 hx]
        exact hdev b hb
  | get g i =>
    rcases List.mem_cons.1 hx with rfl | hx
    · exact hneeds x (by simp [Instr.needs])
    · cases htable : s.table g with
      | none =>
        rw [htable] at hx
        cases hx
      | some table =>
        rw [htable] at hx
        exact hslots g (by simp [Instr.needs]) table htable x (slots_get (Option.mem_toList.1 hx))
  | swap | push =>
    rw [List.mem_singleton.1 hx]
    exact hneeds _ (by simp [Instr.needs])
  | ret | openNewmode | openInner | openWrapper | newBuffer | ionmem | newGroup | newQueue | newRequest | newEvent
  | loop => cases hx
  | _ => exact hneeds x hx

/-! ### Runs -/

/-- `n` steps of the thread `t`. -/
def steps (t n : Nat) : List HostLabel := List.replicate n (.run t true)

/-- The instructions of a kind succeed. -/
def succeeds (p : Instr → Bool) (s : Host) : HostLabel → Prop
  | .run t ok => ((s.threads[t]?).bind fun f => f.code.head?).any p = true → ok = true
  | _ => True

instance (p : Instr → Bool) (s : Host) (l : HostLabel) : Decidable (succeeds p s l) := by
  unfold succeeds
  split <;> infer_instance

/-- The second allocation of `xrp_open_device`. -/
def Instr.wraps : Instr → Bool
  | .openWrapper _ => true
  | _ => false

/-- `pthread_create`. -/
def Instr.spawns : Instr → Bool
  | .createThread _ => true
  | _ => false

/-- No instruction faults, and only the failed `xrp_open_device` loses a reference. -/
theorem exec_leaked {i : Instr} {ok : Bool} (he : s.exec t f rest ok i = some s') :
    s'.fault = s.fault ∧ ((s'.leaked = s.leaked ∧ ∀ n, i = .openWrapper n → ok = true) ∨
      ∃ n, i = .openWrapper n ∧ ok = false ∧ s'.leaked = n ::ₘ s.leaked) := by
  cases i with
  | openWrapper n =>
    simp only [Host.exec] at he
    split at he <;> cases he
    · rename_i h
      exact ⟨rfl, .inl ⟨rfl, fun _ _ => h⟩⟩
    · rename_i h
      exact ⟨rfl, .inr ⟨n, rfl, by simpa using h, rfl⟩⟩
  | _ =>
    simp only [Host.exec] at he
    repeat' split at he
    all_goals cases he
    all_goals exact ⟨rfl, .inl ⟨rfl, fun _ h => by cases h⟩⟩

/-- The invariants of every run. -/
structure HostInv (s : Host) : Prop where
  refs : RefInv s
  worker : WorkerInv s
  fault : s.fault = false

theorem HostInv.start : HostInv .start := ⟨.start, .start, rfl⟩

theorem host_step {l : HostLabel} (hs : host.step s l = some s') : s.step l = some s' := by
  simp only [host] at hs
  split at hs
  · cases hs
  · exact hs

theorem HostInv.step (hi : HostInv s) {l : HostLabel} (hs : host.step s l = some s') : HostInv s' := by
  have hs := host_step hs
  refine ⟨hi.refs.step hi.worker.settled hs, hi.worker.step hi.refs hs, ?_⟩
  rcases step_cases hs with ⟨-, rfl⟩ | ⟨t, c, f, -, -, -, -, -, -, rfl⟩ |
    ⟨t, ok, f, i, rest, -, ht, hcode, ⟨⟨x, hx, hgone⟩, -⟩ | he⟩
  · exact hi.fault
  · exact hi.fault
  · rw [hi.worker.safe hi.refs ht hcode x hx] at hgone
    cases hgone
  · exact (exec_leaked he).1.trans hi.fault

theorem hostInv_of_reach {ok : Host → HostLabel → Prop} (h : Reach host ok s) : HostInv s :=
  h.invariant (fun _ h0 => h0 ▸ HostInv.start) fun _ _ _ hi _ hs => hi.step hs

end Vdsp
