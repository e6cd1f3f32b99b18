import Vdsp.Host.Balance

/-!
# The teardown of a queue

A queue without references is being torn down by one thread, or has been: the instructions of
`xrp_queue_destroy` in the code of all threads and the `destroyed` flag of the queue add up to one.  They add up
to zero before.
-/

namespace Vdsp

open Ledger Lts

variable {s s' : Host} {t : Nat} {f f' : Thread} {rest : List Instr}

instance (x : Id) : Decidable (s.dying x) := inferInstanceAs (Decidable (_ = _))

/-- The number of instructions that are going to tear down `q`. -/
def Host.tears (s : Host) (q : Id) : Nat := total (fun f : Thread => f.code.countP (Instr.tears q)) s.threads

structure TearInv (s : Host) : Prop where
  balance : ∀ q b, s.queueBody q = some b → s.tears q + b.destroyed.toNat = if s.dying q then 1 else 0
  exit : ∀ q b, s.queueBody q = some b → b.exit = true → s.dying q
  /-- The join with the worker did not fail. -/
  joined : ∀ q b, s.queueBody q = some b →
    (b.destroyed = true ∨ ∃ g ∈ s.threads, ∃ d, .closeQueue q d ∈ g.code) → b.worker.isSome = true

theorem tears_pos {q : Id} {g : Thread} {j : Instr} (hg : g ∈ s.threads) (hj : j ∈ g.code)
    (h : j.tears q = true) :
    0 < s.tears q :=
  lt_of_lt_of_le (List.countP_pos_iff.2 ⟨j, hj, h⟩)
    (le_total (fun f : Thread => f.code.countP (Instr.tears q)) hg)

theorem tears_of_awaits {q : Id} {j : Instr} (h : j.awaits q = true) : j.tears q = true := by
  cases j <;> first | exact h | nomatch h

theorem tears_of_inner {j : Instr} (h : j.inner = true) (q : Id) : j.tears q = false := by
  cases j <;> first | rfl | simp [Instr.inner, Instr.quiet] at h

/-- A step of the thread `t`, in which the teardown of each queue goes on or ends. -/
theorem TearInv.frame (hi : TearInv s) (new : List Thread) (ht : s.threads[t]? = some f)
    (hthreads : s'.threads = s.threads.set t f' ++ new) (hnew : ∀ g ∈ new, ∀ j ∈ g.code, ∀ q, j.tears q = false)
    (hdying : ∀ q, s.dying q → s'.dying q)
    (hclose : ∀ q d, .closeQueue q d ∈ f'.code →
      .closeQueue q d ∈ f.code ∨ ∀ b', s'.queueBody q = some b' → b'.worker.isSome = true)
    (hbody : ∀ q b', s'.queueBody q = some b' →
      (∃ b, s.queueBody q = some b ∧ (b'.exit = true → b.exit = true ∨ s.dying q) ∧
        (b'.destroyed = true → b.destroyed = true ∨ ∃ d, .closeQueue q d ∈ f.code) ∧
        (b.worker.isSome = true → b'.worker.isSome = true) ∧
        f'.code.countP (Instr.tears q) + b'.destroyed.toNat + (if s.dying q then 1 else 0) =
          f.code.countP (Instr.tears q) + b.destroyed.toNat + if s'.dying q then 1 else 0) ∨
      (s.tears q = 0 ∧ f'.code.countP (Instr.tears q) = 0 ∧ b'.exit = false ∧ b'.destroyed = false ∧
        ¬ s'.dying q)) :
    TearInv s' := by
  have htears : ∀ q, s'.tears q + f.code.countP (Instr.tears q) = s.tears q + f'.code.countP
    (Instr.tears q) := by
    intro q
    have h1 := total_set (fun f : Thread => f.code.countP (Instr.tears q)) f' ht
    have h2 : total (fun f : Thread => f.code.countP (Instr.tears q)) new = 0 := by
      refine total_eq_zero.2 fun g hg => List.countP_eq_zero.2 fun j hj => ?_
      simp [hnew g hg j hj q]
    simp only [Host.tears, hthreads, total_append, h2]
    exact h1
  have hle : ∀ q, f.code.countP (Instr.tears q) ≤ s.tears q := fun q =>
    le_total (fun f : Thread => f.code.countP (Instr.tears q)) (List.mem_of_getElem? ht)
  refine ⟨?_, ?_, ?_⟩
  · intro q b' hb'
    have h1 := htears q
    have h2 := hle q
    rcases hbody q b' hb' with ⟨b, hb, -, -, -, h⟩ | ⟨h0, h0', -, hd, hnd⟩
    · have := hi.balance q b hb
      omega
    · rw [if_neg hnd, hd, Bool.toNat_false]
      omega
  · intro q b' hb' he
    rcases hbody q b' hb' with ⟨b, hb, hexit, -⟩ | ⟨-, -, hexit, -⟩
    · rcases hexit he with h | h
      · exact hdying q (hi.exit q b hb h)
      · exact hdying q h
    · rw [hexit] at he
      cases he
  · intro q b' hb' hor
    rcases hbody q b' hb' with ⟨b, hb, -, hdestroyed, hw, -⟩ | ⟨h0, h0', -, hd, -⟩
    · rcases hor with h | ⟨g, hg, d, hgd⟩
      · rcases hdestroyed h with h | ⟨d, hd⟩
        · exact hw (hi.joined q b hb (.inl h))
        · exact hw (hi.joined q b hb (.inr ⟨f, List.mem_of_getElem? ht, d, hd⟩))
      · rw [hthreads] at hg
        rcases List.mem_append.1 hg with hg | hg
        · rcases mem_threads_set hg with rfl | hg
          · rcases hclose q d hgd with h | h
            · exact hw (hi.joined q b hb (.inr ⟨f, List.mem_of_getElem? ht, d, h⟩))
            · exact h b' hb'
          · exact hw (hi.joined q b hb (.inr ⟨g, hg, d, hgd⟩))
        · have := hnew g hg _ hgd q
          simp [Instr.tears] at this
    · rcases hor with h | ⟨g, hg, d, hgd⟩
      · rw [hd] at h
        cases h
      · have hpos := tears_pos (s := s') hg hgd (q := q) (by simp [Instr.tears])
        have := htears q
        have := hle q
        omega

theorem WorkerInv.tears_absent (hi : WorkerInv s) {q : Id} (hq : s.queueBody q = none) : s.tears q = 0 := by
  refine total_eq_zero.2 fun g hg => List.countP_eq_zero.2 fun j hj h => ?_
  obtain ⟨d, hd⟩ : ∃ d, j.device = some (q, d) := by
    cases j with
    | setExit x d | join x d | closeQueue x d =>
      have hx : x = q := by simpa [Instr.tears] using h
      exact ⟨d, by rw [hx]; rfl⟩
    | _ => cases h
  obtain ⟨b, hb, -⟩ := hi.device g hg j hj q d hd
  rw [hq] at hb
  cases hb

/-- A step of a thread that is about no teardown. -/
private theorem TearInv.aside (hi : TearInv s) (new : List Instr) (spawned : List Thread) (hw : WorkerInv s)
    (ht : s.threads[t]? = some f) {i : Instr} (hcode : f.code = i :: rest) (htears : ∀ q, i.tears q = false)
    (hcode' : f'.code = new ++ rest) (hnew : ∀ j ∈ new, ∀ q, j.tears q = false)
    (hthreads : s'.threads = s.threads.set t f' ++ spawned)
    (hspawned : ∀ g ∈ spawned, ∀ j ∈ g.code, ∀ q, j.tears q = false) (hdying : ∀ q, s'.dying q ↔ s.dying q)
    (hbody : ∀ q b', s'.queueBody q = some b' →
      (∃ b, s.queueBody q = some b ∧ b'.exit = b.exit ∧ b'.destroyed = b.destroyed ∧
        (b.worker.isSome = true → b'.worker.isSome = true)) ∨
      (s.queueBody q = none ∧ b'.exit = false ∧ b'.destroyed = false ∧ ¬ s.dying q)) : TearInv s' := by
  have hcount : ∀ q, f'.code.countP (Instr.tears q) = f.code.countP (Instr.tears q) := by
    intro q
    have h0 : new.countP (Instr.tears q) = 0 := List.countP_eq_zero.2 fun j hj => by simp [hnew j hj q]
    rw [hcode, hcode', List.countP_append, h0, List.countP_cons_of_neg (by simp [htears q]), Nat.zero_add]
  refine hi.frame _ ht hthreads hspawned (fun q h => (hdying q).2 h) ?_ ?_
  · intro q d h
    rw [hcode'] at h
    rcases List.mem_append.1 h with h | h
    · have := hnew _ h q
      simp [Instr.tears] at this
    · exact .inl (by simp [hcode, h])
  · intro q b' hb'
    rcases hbody q b' hb' with ⟨b, hb, he, hd, hworker⟩ | ⟨hb, he, hd, hn⟩
    · refine .inl ⟨b, hb, fun h => .inl (he ▸ h), fun h => .inl (hd ▸ h), hworker, ?_⟩
      simp only [hcount, hd, hdying]
    · have h0 := hw.tears_absent hb
      have hle := le_total (fun f : Thread => f.code.countP (Instr.tears q)) (List.mem_of_getElem? ht)
      refine .inr ⟨h0, ?_, he, hd, fun h => hn ((hdying q).1 h)⟩
      rw [hcount]
      exact Nat.le_zero.1 (h0 ▸ hle)

/-- The bodies of the queues after a store to one of them that leaves its teardown. -/
private theorem body_of_setBody {q : Id} {b : QueueBody} (b₁ : QueueBody) (hb : s.queueBody q = some b)
    (he : b₁.exit = b.exit)
    (hd : b₁.destroyed = b.destroyed) (hw : b.worker.isSome = true → b₁.worker.isSome = true) {x : Id}
    {b' : QueueBody} (hb' : (s.modify q (Cell.setBody (.queue b₁))).queueBody x = some b') :
    ∃ b₀, s.queueBody x = some b₀ ∧ b'.exit = b₀.exit ∧ b'.destroyed = b₀.destroyed ∧
      (b₀.worker.isSome = true → b'.worker.isSome = true) := by
  rw [queueBody_setBody hb] at hb'
  split at hb'
  · rename_i h
    cases hb'
    exact ⟨b, h ▸ hb, he, hd, hw⟩
  · exact ⟨b', hb', rfl, rfl, id⟩

/-- The destruction of an object tears down the queue that it is, if it is one. -/
theorem countP_tears_destroyCode (x q : Id) (body : Body) :
    (destroyCode x body).countP (Instr.tears q) = if q = x then (match body with
      | .queue _ => 1
      | _ => 0) else 0 := by
  have hrel : (body.refs.map Instr.release ++ [Instr.free x]).countP (Instr.tears q) = 0 := by
    refine List.countP_eq_zero.2 fun j hj => ?_
    rcases List.mem_append.1 hj with hj | hj
    · obtain ⟨y, -, rfl⟩ := List.mem_map.1 hj
      simp [Instr.tears]
    · rw [List.mem_singleton.1 hj]
      simp [Instr.tears]
  unfold destroyCode
  rw [List.countP_append, hrel]
  cases body with
  | queue b =>
    by_cases h : q = x
    · simp [Instr.tears, h]
    · simp [Instr.tears, h, Ne.symm h]
  | _ => simp [Instr.tears]

private theorem TearInv.release (hi : TearInv s) (hr : RefInv s) (hw : WorkerInv s)
    (ht : s.threads[t]? = some f)
    {x : Id}
    {ok : Bool} (hcode : f.code = .release x :: rest) (he : s.exec t f rest ok (.release x) = some s') :
    TearInv s' :=
      by
  have hdying := hr.exec_dying ht hcode he
  obtain ⟨c, hx, hpos, -⟩ := hr.of_needs ht hcode (x := x) (by simp [Instr.needs])
  simp only [Host.exec, hx] at he
  split at he <;> cases he
  · rename_i hc
    refine hi.frame [] ht (List.append_nil _).symm (by simp) (fun q h => (hdying q).2 (.inl h)) ?_ ?_
    · intro q d h
      rcases List.mem_append.1 h with h | h
      · unfold destroyCode at h
        cases hcb : c.body <;> simp [hcb] at h
      · exact .inl (by simp [hcode, h])
    · intro q b' hb'
      have hb : s.queueBody q = some b' := (queueBody_dec q).symm.trans hb'
      refine .inl ⟨b', hb, .inl, .inl, id, ?_⟩
      have hcount : f.code.countP (Instr.tears q) = rest.countP (Instr.tears q) := by
        rw [hcode, List.countP_cons_of_neg (by simp [Instr.tears])]
      have hdq := hdying q
      rw [hcount, List.countP_append, countP_tears_destroyCode]
      by_cases h : q = x
      · subst h
        obtain ⟨c', hc', hcb⟩ := queueBody_eq_some.1 hb
        rw [hx] at hc'
        cases hc'
        have hn : ¬ s.dying q := fun hd => by
          rw [dying_iff hx] at hd
          omega
        rw [if_neg hn, if_pos (hdq.2 (.inr ⟨rfl, (Host.count_eq hx).trans hc⟩)), if_pos rfl, hcb]
        simp only
        omega
      · have : _ ↔ s.dying q := hdq.trans ⟨fun h' => h'.resolve_right fun h'' => h (by cases h''.1; rfl), .inl⟩
        simp only [this, if_neg h]
        omega
  · rename_i hc
    refine hi.aside [] [] hw ht hcode (fun _ => rfl) rfl (by simp) (List.append_nil _).symm (by simp)
      (fun q => (hdying q).trans ⟨fun h => h.resolve_right fun h' => ?_, .inl⟩)
      fun q b' hb' => .inl ⟨b', (queueBody_dec q).symm.trans hb', rfl, rfl, id⟩
    cases h'.1
    exact hc ((Host.count_eq hx).symm.trans h'.2)

private theorem TearInv.closing (hi : TearInv s) {q : Id} {b : QueueBody} (hb : s.queueBody q = some b)
    (hpos : 0 < s.tears q) : s.dying q ∧ b.destroyed = false := by
  have h := hi.balance q b hb
  split at h
  · rename_i hd
    refine ⟨hd, ?_⟩
    cases hdes : b.destroyed with
    | false => rfl
    | true =>
      rw [hdes, Bool.toNat_true] at h
      omega
  · omega

section

variable {ok : Bool}

/-- The thread goes on with other code that is about no teardown, and the queues are what they were. -/
private theorem TearInv.onward (hi : TearInv s) (new : List Instr) (hw : WorkerInv s)
    (ht : s.threads[t]? = some f)
    {i : Instr} (hcode : f.code = i :: rest) (htears : ∀ q, i.tears q = false) (hcode' : f'.code = new ++ rest)
    (hnew : ∀ j ∈ new, ∀ q, j.tears q = false) (hthreads : s'.threads = s.threads.set t f')
    (hdying : ∀ q, s'.dying q ↔ s.dying q) (hbody : ∀ q, s'.queueBody q = s.queueBody q) : TearInv s' :=
  hi.aside new [] hw ht hcode htears hcode' hnew (hthreads.trans (List.append_nil _).symm) (by simp) hdying
    fun q b' hb' => .inl ⟨b', (hbody q).symm.trans hb', rfl, rfl, id⟩

private theorem TearInv.exec_newQueue (hi : TearInv s) (hw : WorkerInv s) (ht : s.threads[t]? = some f) {d : Id}
    (hcode : f.code = .newQueue d :: rest) (hsame : ∀ q, s'.dying q ↔ s.dying q)
    (he : s.exec t f rest ok (.newQueue d) = some s') : TearInv s' := by
  simp only [Host.exec] at he
  split at he <;> cases he
  · refine hi.aside [.createThread _] [] hw ht hcode (fun _ => rfl) rfl (by simp [Instr.tears])
      (List.append_nil _).symm (by simp) hsame fun q b' hb' => ?_
    have hb' : ({ s with heap := s.heap ++ [⟨1, .queue ⟨d, false, none, 0, none, false⟩, false⟩] } :
      Host).queueBody q = some b' := hb'
    rw [queueBody_append] at hb'
    split at hb'
    · rename_i hq
      cases hb'
      refine .inr ⟨queueBody_absent (Nat.le_of_eq hq.symm), rfl, rfl, ?_⟩
      simp [Host.dying, hq]
    · exact .inl ⟨b', hb', rfl, rfl, id⟩
  · exact hi.onward [.release d] hw ht hcode (fun _ => rfl) rfl (by simp [Instr.tears]) rfl hsame fun _ => rfl

private theorem TearInv.exec_setExit (hi : TearInv s) (ht : s.threads[t]? = some f) {q d : Id}
    (hcode : f.code = .setExit q d :: rest) (hsame : ∀ x, s'.dying x ↔ s.dying x)
    (he : s.exec t f rest ok (.setExit q d) = some s') : TearInv s' := by
  simp only [Host.exec] at he
  split at he <;> cases he
  rename_i b hb
  -- the thread is in the destruction of the queue
  have hclosing := hi.closing hb (tears_pos (List.mem_of_getElem? ht) (j := .setExit q d) (by simp [hcode])
    (by simp [Instr.tears]))
  refine hi.frame [] ht (List.append_nil _).symm (by simp) (fun x => (hsame x).2) ?_ ?_
  · intro x d' h
    rcases List.mem_cons.1 h with h | h
    · cases h
    · exact .inl (by simp [hcode, h])
  · intro x b' hb'
    have hcount : (Instr.join q d :: rest).countP (Instr.tears x) = f.code.countP (Instr.tears x) := by
      rw [hcode, List.countP_cons, List.countP_cons]
      rfl
    refine .inl ?_
    simp only [hsame, hcount]
    have hb' : (s.modify q (Cell.setBody (.queue { b with exit := true, wakes := b.wakes + 1 }))).queueBody x =
      some b' := hb'
    rw [queueBody_setBody hb] at hb'
    split at hb'
    · rename_i hx
      cases hb'
      exact ⟨b, hx ▸ hb, fun _ => .inr (hx ▸ hclosing.1), .inl, id, rfl⟩
    · exact ⟨b', hb', .inl, .inl, id, rfl⟩

private theorem TearInv.exec_join (hi : TearInv s) (hw : WorkerInv s) (ht : s.threads[t]? = some f) {q d : Id}
    (hcode : f.code = .join q d :: rest) (hsame : ∀ x, s'.dying x ↔ s.dying x)
    (he : s.exec t f rest ok (.join q d) = some s') : TearInv s' := by
  rcases hw.join_cases he with rfl | ⟨f', hj⟩
  · exact ⟨hi.balance, hi.exit, hi.joined⟩
  have hk : Keeps s s' := .of_heap hj.heap
  refine hi.frame [] ht (hj.threads.trans (List.append_nil _).symm) (by simp) (fun x => (hsame x).2) ?_ ?_
  · intro x d' h
    rw [hj.code] at h
    rcases List.mem_cons.1 h with h | h
    · -- the join succeeded, or was of the thread itself
      cases h
      obtain ⟨b, w, hb, hbw, -⟩ := hj.joined
      refine .inr fun b' hb' => ?_
      rw [hk.queueBody, hb] at hb'
      cases hb'
      simp [hbw]
    · exact .inl (by simp [hcode, show _ ∈ rest from h])
  · intro x b' hb'
    have hcount : f'.code.countP (Instr.tears x) = f.code.countP (Instr.tears x) := by
      rw [hj.code, hcode, List.singleton_append, List.countP_cons, List.countP_cons]
      rfl
    refine .inl ⟨b', (hk.queueBody x).symm.trans hb', .inl, .inl, id, ?_⟩
    simp only [hsame, hcount]

private theorem TearInv.exec_closeQueue (hi : TearInv s) (ht : s.threads[t]? = some f) {q d : Id}
    (hcode : f.code = .closeQueue q d :: rest) (hsame : ∀ x, s'.dying x ↔ s.dying x)
    (he : s.exec t f rest ok (.closeQueue q d) = some s') : TearInv s' := by
  simp only [Host.exec] at he
  split at he <;> cases he
  rename_i b hb
  have hdes := (hi.closing hb (tears_pos (List.mem_of_getElem? ht) (j := .closeQueue q d) (by simp [hcode])
    (by simp [Instr.tears]))).2
  refine hi.frame [] ht (List.append_nil _).symm (by simp) (fun x => (hsame x).2)
    (fun x d' h => .inl (by simp [hcode, show _ ∈ rest from h])) fun x b' hb' => .inl ?_
  have hb' : (s.modify q (Cell.setBody (.queue { b with destroyed := true }))).queueBody x = some b' := hb'
  simp only [hsame, hcode]
  rw [queueBody_setBody hb] at hb'
  split at hb'
  · rename_i hx
    cases hb'
    subst hx
    refine ⟨b, hb, .inl, fun _ => .inr ⟨d, by simp⟩, id, ?_⟩
    rw [List.countP_cons_of_pos (by simp [Instr.tears]), hdes, Bool.toNat_true, Bool.toNat_false]
  · rename_i hx
    refine ⟨b', hb', .inl, .inl, id, ?_⟩
    rw [List.countP_cons_of_neg (by simp [Instr.tears, Ne.symm hx])]

theorem TearInv.exec (hi : TearInv s) (hr : RefInv s) (hw : WorkerInv s) (ht : s.threads[t]? = some f)
    {i : Instr}
    (hcode : f.code = i :: rest) (he : s.exec t f rest ok i = some s') : TearInv s' := by
  have hdying := hr.exec_dying ht hcode he
  -- only a release makes an object dying
  have hkeep : (∀ x, i ≠ .release x) → ∀ q, s'.dying q ↔ s.dying q := fun hne q =>
    (hdying q).trans ⟨fun h => h.resolve_right fun h' => hne q h'.1, .inl⟩
  cases i with
  | release x => exact hi.release hr hw ht hcode he
  | newQueue d => exact hi.exec_newQueue hw ht hcode (hkeep (by simp)) he
  | setExit q d => exact hi.exec_setExit ht hcode (hkeep (by simp)) he
  | join q d => exact hi.exec_join hw ht hcode (hkeep (by simp)) he
  | closeQueue q d => exact hi.exec_closeQueue ht hcode (hkeep (by simp)) he
  | createThread q =>
    have hsame := hkeep (by simp)
    simp only [Host.exec] at he
    split at he
    · rename_i b hb
      split at he <;> cases he
      · exact hi.aside [] _ hw ht hcode (fun _ => rfl) rfl (by simp) rfl (by simp [Instr.tears]) hsame
          fun x b' hb' => .inl (body_of_setBody { b with worker := some s.threads.length } hb rfl rfl
          (fun _ => rfl) hb')
      · exact hi.onward [] hw ht hcode (fun _ => rfl) rfl (by simp) rfl hsame fun _ => rfl
    · cases he
  | push q g e =>
    have hsame := hkeep (by simp)
    simp only [Host.exec] at he
    split at he <;> cases he
    rename_i b hb
    exact hi.aside [] [] hw ht hcode (fun _ => rfl) rfl (by simp) (List.append_nil _).symm (by simp)
      hsame fun x b' hb' => .inl (body_of_setBody
        { b with wakes := if s.waiting q then b.wakes else b.wakes + 1 } hb rfl rfl id hb')
  | enter q =>
    have hsame := hkeep (by simp)
    simp only [Host.exec] at he
    split at he <;> cases he
    rename_i b hb
    exact hi.aside [.process q] [] hw ht hcode (fun _ => rfl) rfl (by simp [Instr.tears])
      (List.append_nil _).symm (by simp) hsame fun x b' hb' =>
        .inl (body_of_setBody { b with syncExit := some t } hb rfl rfl id hb')
  | process q =>
    have hsame := hkeep (by simp)
    simp only [Host.exec] at he
    split at he
    · split at he <;> cases he
      · rename_i rq hrq
        exact hi.onward [.snapshot rq, .loop q] hw ht hcode (fun _ => rfl) rfl (by simp [Instr.tears]) rfl hsame
          fun _ => rfl
      · split
        · exact hi.onward [] hw ht hcode (fun _ => rfl) rfl (by simp) rfl hsame fun _ => rfl
        · exact hi.onward [.asleepQueue q _] hw ht hcode (fun _ => rfl) rfl (by simp [Instr.tears]) rfl hsame
            fun _ => rfl
    · cases he
  | asleepQueue q n =>
    cases he
    exact hi.onward [.process q] hw ht hcode (fun _ => rfl) rfl (by simp [Instr.tears]) rfl (hkeep (by simp))
      fun _ => rfl
  | snapshot rq =>
    have hgo : ∀ snap, TearInv (s.frame t { f with code := .ioctl rq :: rest, snap := snap }) := fun snap =>
      hi.onward [.ioctl rq] hw ht hcode (fun _ => rfl) rfl (by simp [Instr.tears]) rfl (fun _ => Iff.rfl)
        fun _ => rfl
    simp only [Host.exec] at he
    split at he
    · split at he <;> cases he
      exact hgo _
    · cases he
      exact hgo _
  | ioctl rq =>
    cases he
    refine hi.onward (finishCode rq _) hw ht hcode (fun _ => rfl) rfl ?_ rfl (hkeep (by simp)) fun _ => rfl
    unfold finishCode
    cases rq.group <;> cases rq.event <;> simp [Instr.tears]
  | loop q =>
    cases he
    split
    · exact hi.onward [] hw ht hcode (fun _ => rfl) rfl (by simp) rfl (fun _ => Iff.rfl) fun _ => rfl
    · exact hi.onward [.enter q] hw ht hcode (fun _ => rfl) rfl (by simp [Instr.tears]) rfl (fun _ => Iff.rfl)
        fun _ => rfl
  | _ =>
    rcases hr.exec_quiet ht hcode rfl he with rfl | ⟨f', new, hs, -⟩
    · exact ⟨hi.balance, hi.exit, hi.joined⟩
    · exact hi.onward _ hw ht hcode (fun _ => rfl) hs.code (fun j hj q => tears_of_inner (hs.new j hj) q)
        hs.threads hs.dying hs.queueBody

end

theorem TearInv.start : TearInv .start := by
  refine ⟨?_, ?_, ?_⟩ <;> intro q b hb <;> simp [Host.start, Host.queueBody, Host.body] at hb

theorem tears_code (c : ApiCall) : ∀ j ∈ c.code, ∀ q, j.tears q = false := by
  cases c <;> simp [ApiCall.code, Instr.tears]

theorem TearInv.step (hi : TearInv s) (hr : RefInv s) (hw : WorkerInv s) {l : HostLabel}
    (hs : s.step l = some s') :
    TearInv s' := by
  rcases step_cases hs with ⟨-, rfl⟩ | ⟨t, c, f, -, ht, -, hcode, -, -, rfl⟩ |
    ⟨t, ok, f, i, rest, -, ht, hcode, ⟨-, rfl⟩ | he⟩
  · have htears : ∀ q, ({ s with threads := s.threads ++ [.idle] } : Host).tears q = s.tears q := by
      simp [Host.tears, Thread.idle]
    refine ⟨fun q b hb => (congrArg (· + _) (htears q)).trans (hi.balance q b hb), hi.exit, fun q b hb h => ?_⟩
    refine hi.joined q b hb (h.imp_right ?_)
    rintro ⟨g, hg, d, hd⟩
    rcases List.mem_append.1 hg with hg | hg
    · exact ⟨g, hg, d, hd⟩
    · rw [List.mem_singleton.1 hg] at hd
      cases hd
  · have hcount : ∀ q, c.code.countP (Instr.tears q) = 0 := fun q =>
      List.countP_eq_zero.2 fun j hj => by simp [tears_code c j hj q]
    refine hi.frame [] ht (List.append_nil _).symm (by simp) (fun _ => id) (fun q d h => ?_) fun q b hb => ?_
    · have := tears_code c _ h q
      simp [Instr.tears] at this
    · refine .inl ⟨b, hb, .inl, .inl, id, ?_⟩
      rw [hcode]
      show c.code.countP (Instr.tears q) + _ + _ = _
      rw [hcount]
      rfl
  · exact ⟨hi.balance, hi.exit, hi.joined⟩
  · exact hi.exec hr hw ht hcode he

theorem tearInv_of_reach {ok : Host → HostLabel → Prop} (h : Reach host ok s) : TearInv s := by
  induction h with
  | start h0 =>
    cases h0
    exact .start
  | step h _ hs ih =>
    have hi := hostInv_of_reach h
    exact ih.step hi.refs hi.worker (host_step hs)

end Vdsp
