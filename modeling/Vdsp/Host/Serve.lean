import Vdsp.Host.Worker

/-!
# The worker invariant along a run

The creation of a queue and of its thread, the instructions of the worker, and the step of the whole library.
-/

namespace Vdsp

open Ledger

variable {s s' : Host} {t : Nat} {f f' : Thread} {rest : List Instr}

/-! ### A new queue and its thread -/

theorem queueBody_absent {x : Id} (h : s.heap.length ≤ x) : s.queueBody x = none := by
  simp [Host.queueBody, Host.body, List.getElem?_eq_none h]

/-- A new queue in the heap, that no thread serves yet. -/
theorem queueBody_append {c : Cell} (q : Id) :
    ({ s with heap := s.heap ++ [c] } : Host).queueBody q = if q = s.heap.length then
      (match c.body with
        | .queue b => some b
        | _ => none) else s.queueBody q := by
  rw [Host.queueBody, Host.body]
  rcases Nat.lt_trichotomy q s.heap.length with h | h | h
  · rw [List.getElem?_append_left h, if_neg (Nat.ne_of_lt h)]
    rfl
  · rw [h, List.getElem?_concat_length, if_pos rfl]
    cases hc : c.body <;> simp [hc]
  · rw [List.getElem?_eq_none (by simp; omega), if_neg (Nat.ne_of_gt h), queueBody_absent (Nat.le_of_lt h)]
    rfl

private theorem WorkerInv.allocQueue (hi : WorkerInv s) (d : Id) :
    WorkerInv { s with heap := s.heap ++ [⟨1, .queue ⟨d, false, none, 0, none, false⟩, false⟩] } := by
  have hold : ∀ {q b}, s.queueBody q = some b →
      ({ s with heap := s.heap ++ [⟨1, .queue ⟨d, false, none, 0, none, false⟩, false⟩] } : Host).queueBody q =
        some b := by
    intro q b hb
    rw [queueBody_append, if_neg, hb]
    intro h
    rw [queueBody_absent (Nat.le_of_eq h.symm)] at hb
    cases hb
  have hnew : ∀ {q b}, ({ s with heap := s.heap ++ [⟨1, .queue ⟨d, false, none, 0, none, false⟩, false⟩] } :
    Host).queueBody
      q = some b → s.queueBody q = some b ∨ (b.syncExit = none ∧ b.worker = none) := by
    intro q b hb
    rw [queueBody_append] at hb
    split at hb
    · cases hb
      exact .inr ⟨rfl, rfl⟩
    · exact .inl hb
  refine ⟨hi.calling, hi.serving, ?_, ?_, ?_, ?_, ?_, ?_⟩
  · intro w g q hg hr
    obtain ⟨b, hb, h⟩ := hi.worker w g q hg hr
    exact ⟨b, hold hb, h⟩
  · intro q b w hb hw
    rcases hnew hb with hb | ⟨-, h⟩
    · exact hi.thread q b w hb hw
    · rw [h] at hw
      cases hw
  · intro q b w hb hs
    rcases hnew hb with hb | ⟨h, -⟩
    · exact hi.syncExit q b w hb hs
    · rw [h] at hs
      cases hs
  · intro q hpos
    obtain ⟨h, b, hb, hw⟩ := hi.creates q hpos
    exact ⟨h, b, hold hb, hw⟩
  · intro g hg j hj q d hd
    obtain ⟨b, hb, h⟩ := hi.device g hg j hj q d hd
    exact ⟨b, hold hb, h⟩
  · intro g hg q hr hd
    refine hi.past g hg q hr ?_
    have hd : ((s.heap ++ [⟨1, .queue ⟨d, false, none, 0, none, false⟩, false⟩])[q]?).map Cell.count =
      some 0 := hd
    rcases Nat.lt_trichotomy q s.heap.length with h | h | h
    · rw [List.getElem?_append_left h] at hd
      exact hd
    · rw [h, List.getElem?_concat_length] at hd
      cases hd
    · rw [List.getElem?_eq_none (by simp; omega)] at hd
      cases hd

private theorem WorkerInv.newQueue (hi : WorkerInv s) (ht : s.threads[t]? = some f) {d : Id} {ok : Bool}
    (hcode : f.code = .newQueue d :: rest) (he : s.exec t f rest ok (.newQueue d) = some s') : WorkerInv s' := by
  have hmem := List.mem_of_getElem? ht
  simp only [Host.exec] at he
  split at he <;> cases he
  · have hi₁ := hi.allocQueue d
    set s₁ : Host := { s with heap := s.heap ++ [⟨1, .queue ⟨d, false, none, 0, none, false⟩, false⟩] } with hs₁
    set f' : Thread := { f with
      code := .createThread s.heap.length :: rest
      held := s.heap.length ::ₘ (f.held - (Body.queue ⟨d, false, none, 0, none, false⟩).refs) } with hf'
    have hbody : s₁.queueBody s.heap.length = some ⟨d, false, none, 0, none, false⟩ := by
      rw [hs₁, queueBody_append, if_pos rfl]
    have hrole : f.role = none := by
      cases hr : f.role with
      | none => rfl
      | some q =>
        obtain ⟨hs, -⟩ := hi.serving f hmem q hr
        rw [hcode] at hs
        rcases hs.head with ⟨h, -⟩ | ⟨h, -⟩ <;> cases h
    refine hi₁.frame f' ht (fun _ _ => by simp [hcode]) rfl (fun _ => rfl) rfl id ?_ ?_ ?_ ?_
      (fun _ _ _ hd => .inl hd) ?_
    · intro _
      obtain ⟨hc, -⟩ := hi.calling f hmem hrole
      rw [hcode] at hc
      rcases hc.head with ⟨h, -⟩ | ⟨-, -, hc⟩
      · cases h
      · exact ⟨hc [.createThread s.heap.length] (by simp [Instr.called, Instr.service]), fun h => by cases h⟩
    · intro q hr
      rw [hrole] at hr
      cases hr
    · intro q hpos
      have hc := creates_frame
        (s.alloc t f (.queue ⟨d, false, none, 0, none, false⟩) fun q => .createThread q :: rest) f' ht rfl q
      have h1 : f.code.count (.createThread q) = rest.count (.createThread q) := by
        rw [hcode]
        simp
      have h2 : f'.code.count (.createThread q) = rest.count (.createThread q) +
          if q = s.heap.length then 1 else 0 := by
        by_cases h : q = s.heap.length
        · simp [hf', h]
        · rw [if_neg h, hf', List.count_cons_of_ne (by simpa using Ne.symm h)]
          rfl
      by_cases hq : q = s.heap.length
      · subst hq
        have h0 : s.creates s.heap.length = 0 := by
          by_contra h
          obtain ⟨-, b, hb, -⟩ := hi.creates s.heap.length (by omega)
          rw [queueBody_absent le_rfl] at hb
          cases hb
        rw [if_pos rfl] at h2
        exact ⟨by omega, _, hbody, rfl⟩
      · rw [if_neg hq] at h2
        exact hi₁.creates q (show 0 < s.creates q by omega) |>.imp_left fun h => by
          have : s.creates q = 1 := h
          omega
    · intro j hj q d' hd
      rcases List.mem_cons.1 hj with rfl | hj
      · cases hd
      · exact hi₁.device f hmem j (by simp [hcode, hj]) q d' hd
    · rintro q ⟨j, hj, ha⟩
      rw [hcode] at hj
      rcases List.mem_cons.1 hj with rfl | hj
      · cases ha
      · exact .inl ⟨j, by simp [hf', hj], ha⟩
  · have hk : Keeps s (s.goOn t f (.release d :: rest)) := .of_heap rfl
    exact hi.goes [.release d] ht hcode rfl (fun _ => rfl) rfl id rfl rfl (by simp [Instr.called, Instr.service])
      (by simp) (by simp [Instr.cleanup]) (by simp) (by simp [Instr.device]) (fun x _ _ hd => .inl hd)
      (by simp [Instr.awaits])

/-- The thread of a queue starts. -/
private theorem WorkerInv.spawn (hi : WorkerInv s) {q : Id} {b : QueueBody} (hb : s.queueBody q = some b)
    (hw : b.worker = none) (hc : s.creates q = 0) (hd : ¬ s.dying q) :
    WorkerInv { s.modify q (Cell.setBody (.queue { b with worker := some s.threads.length })) with
      threads := s.threads ++ [⟨some q, [.enter q], 0, false, none, none⟩] } := by
  have hbody : ∀ x, ({ s.modify q (Cell.setBody (.queue { b with worker := some s.threads.length })) with
      threads := s.threads ++ [⟨some q, [.enter q], 0, false, none, none⟩] } : Host).queueBody x =
      if x = q then some { b with worker := some s.threads.length } else s.queueBody x := queueBody_setBody hb
  have hmem : ∀ {g : Thread}, g ∈ s.threads ++ [⟨some q, [.enter q], 0, false, none, none⟩] →
      g ∈ s.threads ∨ g = ⟨some q, [.enter q], 0, false, none, none⟩ := fun h => by simpa using h
  refine ⟨?_, ?_, ?_, ?_, ?_, ?_, ?_, ?_⟩
  · intro g hg hr
    rcases hmem hg with hg | rfl
    · exact hi.calling g hg hr
    · cases hr
  · intro g hg x hr
    rcases hmem hg with hg | rfl
    · exact hi.serving g hg x hr
    · cases hr
      exact ⟨.enter, rfl⟩
  · intro w g x hg hr
    have hg : (s.threads ++ [⟨some q, [.enter q], 0, false, none, none⟩])[w]? = some g := hg
    rcases Nat.lt_trichotomy w s.threads.length with h | h | h
    · rw [List.getElem?_append_left h] at hg
      obtain ⟨b', hb', hw', hs⟩ := hi.worker w g x hg hr
      have hx : x ≠ q := by
        rintro rfl
        rw [hb] at hb'
        cases hb'
        rw [hw] at hw'
        cases hw'
      exact ⟨b', by rw [hbody, if_neg hx, hb'], hw', hs⟩
    · subst h
      rw [List.getElem?_concat_length] at hg
      cases hg
      cases hr
      exact ⟨_, by rw [hbody, if_pos rfl], rfl, .inl rfl⟩
    · rw [List.getElem?_eq_none (by simp; omega)] at hg
      cases hg
  · intro x b' w hb' hw'
    rw [hbody] at hb'
    split at hb'
    · rename_i hx
      cases hb'
      cases hw'
      exact ⟨_, List.getElem?_concat_length, by rw [hx]⟩
    · obtain ⟨g, hg, hr⟩ := hi.thread x b' w hb' hw'
      exact ⟨g, by rw [List.getElem?_append_left (List.getElem?_eq_some_iff.1 hg).1]; exact hg, hr⟩
  · intro x b' w hb' hs
    rw [hbody] at hb'
    split at hb'
    · cases hb'
      have := hi.syncExit q b w hb hs
      rw [hw] at this
      cases this
    · exact hi.syncExit x b' w hb' hs
  · intro x hpos
    have hsame : total (fun f : Thread => f.code.count (.createThread x))
        (s.threads ++ [⟨some q, [.enter q], 0, false, none, none⟩]) = s.creates x := by
      simp [Host.creates]
    have hpos : 0 < s.creates x := hsame ▸ hpos
    obtain ⟨h, b', hb', hw'⟩ := hi.creates x hpos
    have hx : x ≠ q := by
      rintro rfl
      omega
    exact ⟨hsame.trans h, b', by rw [hbody, if_neg hx, hb'], hw'⟩
  · intro g hg j hj x d hd
    rcases hmem hg with hg | rfl
    · obtain ⟨b', hb', hbd⟩ := hi.device g hg j hj x d hd
      rw [hbody]
      split
      · rename_i hx
        rw [hx, hb] at hb'
        cases hb'
        exact ⟨_, rfl, hbd⟩
      · exact ⟨b', hb', hbd⟩
    · rw [List.mem_singleton.1 hj] at hd
      cases hd
  · intro g hg x hr hdx
    have hdx : s.dying x := (dying_setBody x).1 hdx
    rcases hmem hg with hg | rfl
    · refine (hi.past g hg x hr hdx).imp_left ?_
      rintro ⟨k, hk, h⟩
      exact ⟨k, List.mem_append_left _ hk, h⟩
    · cases hr
      exact absurd hdx hd

private theorem WorkerInv.createThread (hi : WorkerInv s) (hr : RefInv s) (ht : s.threads[t]? = some f) {q : Id}
    {ok : Bool}
    (hcode : f.code = .createThread q :: rest) (he : s.exec t f rest ok (.createThread q) = some s') :
    WorkerInv s' :=
      by
  obtain ⟨c, hx, hpos, -⟩ := hr.of_needs ht hcode (x := q) (by simp [Instr.needs])
  have hgo : WorkerInv (s.goOn t f rest) :=
    hi.goes [] ht hcode rfl (fun _ => rfl) rfl id rfl rfl (by simp) (by simp) (by simp [Instr.cleanup]) (by simp)
      (by simp) (fun x _ _ hd => .inl hd) (by simp [Instr.awaits])
  simp only [Host.exec] at he
  split at he
  · rename_i b hb
    split at he <;> cases he
    · -- this was the only creation for the queue
      have hc := creates_frame (s.goOn t f rest) { f with code := rest } ht rfl q
      have h1 : f.code.count (.createThread q) = rest.count (.createThread q) + 1 := by
        rw [hcode]
        simp
      have h2 : ({ f with code := rest } : Thread).code.count (.createThread q) =
        rest.count (.createThread q) := rfl
      obtain ⟨h3, b', hb', hw⟩ := hi.creates q (by omega)
      rw [hb] at hb'
      cases hb'
      have hlen : (s.threads.set t { f with code := rest }).length = s.threads.length := List.length_set
      have := hgo.spawn (q := q) (b := b) hb hw (by omega) fun hd => by
        rw [Host.dying, show (s.goOn t f rest).heap[q]? = some c from hx] at hd
        simp only [Option.map_some, Option.some.injEq] at hd
        omega
      simpa only [Host.goOn, Host.frame, Host.modify, hlen] using this
    · exact hgo
  · cases he

/-! ### The instructions of the worker -/

private theorem service_of_cleanup {i : Instr} (h : i.cleanup = true) : i.service = false := by
  cases i <;> first | rfl | nomatch h

/-- The queue of a service instruction, and what is behind the instruction in the code of the queue's worker. -/
def Instr.place : Instr → Option (Id × List Instr)
  | .enter q | .process q | .asleepQueue q _ | .loop q => some (q, [])
  | .snapshot rq | .ioctl rq => some (rq.queue, [.loop rq.queue])
  | _ => none

theorem service_of_place {i : Instr} {p : Id × List Instr} (h : i.place = some p) : i.service = true := by
  cases i <;> first | rfl | cases h

theorem Serving.place {q : Id} {i : Instr} {ex : Bool} (h : Serving q (i :: rest) ex) (hi : i.service = true) :
    i.place = some (q, rest) ∧ ((∀ x, i ≠ .loop x) → ex = false) := by
  generalize hcode : i :: rest = code at h
  cases h with
  | done => cases hcode
  | enter | process | asleep =>
    cases hcode
    exact ⟨rfl, fun _ => rfl⟩
  | snapshot h | ioctl h =>
    cases hcode
    subst h
    exact ⟨rfl, fun _ => rfl⟩
  | @finish c _ hc =>
    cases c with
    | nil =>
      cases hcode
      exact ⟨rfl, fun h => absurd rfl (h q)⟩
    | cons k c =>
      cases hcode
      rw [service_of_cleanup (hc i (by simp))] at hi
      cases hi

/-- A service instruction is in the code of the worker of its queue, and the worker goes on unless it is at its
`loop`. -/
theorem WorkerInv.at_service (hi : WorkerInv s) (hf : f ∈ s.threads) {i : Instr} (hcode : f.code = i :: rest)
    {q : Id} {c : List Instr} (hp : i.place = some (q, c)) :
    f.role = some q ∧ rest = c ∧ ((∀ x, i ≠ .loop x) → f.exit = false) ∧ f.held = owed (i :: rest) := by
  have hservice := service_of_place hp
  cases hr : f.role with
  | none =>
    obtain ⟨hc, -⟩ := hi.calling f hf hr
    rw [hcode] at hc
    rcases hc.head with ⟨rfl, -⟩ | ⟨h, -⟩
    · cases hservice
    · have : i.called = !i.service := by cases i <;> first | rfl | nomatch h
      rw [this, hservice] at h
      cases h
  | some q' =>
    obtain ⟨hs, ho⟩ := hi.serving f hf q' hr
    rw [hcode] at hs ho
    obtain ⟨hplace, hexit⟩ := hs.place hservice
    cases hp.symm.trans hplace
    exact ⟨rfl, rfl, hexit, ho⟩

/-- A step of the worker between its critical sections. -/
private theorem WorkerInv.serve (hi : WorkerInv s) (f' : Thread) (ht : s.threads[t]? = some f) {q : Id}
    (hr : f.role = some q) (hcode : f.code ≠ []) (hold : ∀ j ∈ f.code, ∀ x, j.awaits x = false)
    (hthreads : s'.threads = s.threads.set t f')
    (hk : Keeps s s') (hrole : f'.role = f.role) (hexit : f.exit = true → f'.exit = true)
    (hserving : Serving q f'.code f'.exit ∧ f'.held = owed f'.code)
    (hsync : ∀ b, s.queueBody q = some b → (f.code = [.enter q] ∨ b.syncExit = some t) → b.syncExit = some t)
    (hnew : ∀ j ∈ f'.code, j.device = none ∧ ∀ x, j ≠ .createThread x) : WorkerInv s' := by
  refine hi.frame _ ht (fun _ _ => hcode) hthreads (fun q => by rw [hk.queueBody]) hrole hexit ?_ ?_ ?_ ?_
    (fun x _ _ hd => .inl ((hk.dying x).1 hd)) ?_
  · intro h
    rw [hr] at h
    cases h
  · intro q' h
    rw [hr] at h
    cases h
    exact ⟨hserving.1, hserving.2, hsync⟩
  · intro x hpos
    have hc := creates_frame _ _ ht hthreads x
    have h0 : f'.code.count (.createThread x) = 0 := List.count_eq_zero.2 fun h => (hnew _ h).2 x rfl
    obtain ⟨h1, b, hb, hw⟩ := hi.creates x (by omega)
    exact ⟨by omega, b, (hk.queueBody x).trans hb, hw⟩
  · intro j hj x d hd
    rw [(hnew j hj).1] at hd
    cases hd
  · intro x ⟨j, hj, ha⟩
    rw [hold j hj x] at ha
    cases ha

/-- `sync_exit` is set by the worker of the queue. -/
private theorem WorkerInv.setSync (hi : WorkerInv s) (ht : s.threads[t]? = some f) {q : Id} (hr : f.role = some q)
    {b : QueueBody} (hb : s.queueBody q = some b) :
    WorkerInv (s.modify q (Cell.setBody (.queue { b with syncExit := some t }))) := by
  obtain ⟨b₀, hb₀, hw, -⟩ := hi.worker t f q ht hr
  rw [hb] at hb₀
  cases hb₀
  have hbody := queueBody_setBody (b := { b with syncExit := some t }) hb
  have hold : ∀ x b', s.queueBody x = some b' → ∃ b'',
      (s.modify q (Cell.setBody (.queue { b with syncExit := some t }))).queueBody x = some b'' ∧
        b''.device = b'.device ∧ b''.worker = b'.worker := by
    intro x b' hb'
    rw [hbody]
    split
    · rename_i hx
      rw [hx, hb] at hb'
      cases hb'
      exact ⟨_, rfl, rfl, rfl⟩
    · exact ⟨b', hb', rfl, rfl⟩
  refine ⟨hi.calling, hi.serving, ?_, ?_, ?_, ?_, ?_, ?_⟩
  · intro w g x hg hgr
    obtain ⟨b', hb', hw', hs⟩ := hi.worker w g x hg hgr
    rw [hbody]
    split
    · rename_i hx
      rw [hx, hb] at hb'
      cases hb'
      rw [hw] at hw'
      exact ⟨_, rfl, hw.trans hw', .inr hw'⟩
    · exact ⟨b', hb', hw', hs⟩
  · intro x b' w hb' hw'
    rw [hbody] at hb'
    split at hb'
    · rename_i hx
      cases hb'
      rw [hx]
      exact hi.thread q b w hb hw'
    · exact hi.thread x b' w hb' hw'
  · intro x b' w hb' hs
    rw [hbody] at hb'
    split at hb'
    · cases hb'
      exact hw.trans hs
    · exact hi.syncExit x b' w hb' hs
  · intro x hpos
    obtain ⟨h, b', hb', hw'⟩ := hi.creates x hpos
    obtain ⟨b'', hb'', -, h'⟩ := hold x b' hb'
    exact ⟨h, b'', hb'', h'.trans hw'⟩
  · intro g hg j hj x d hd
    obtain ⟨b', hb', hbd⟩ := hi.device g hg j hj x d hd
    obtain ⟨b'', hb'', h', -⟩ := hold x b' hb'
    exact ⟨b'', hb'', h'.trans hbd⟩
  · intro g hg x hgr hd
    exact hi.past g hg x hgr ((dying_setBody x).1 hd)

private theorem WorkerInv.enter (hi : WorkerInv s) (ht : s.threads[t]? = some f) {q : Id} {ok : Bool}
    (hcode : f.code = .enter q :: rest) (he : s.exec t f rest ok (.enter q) = some s') : WorkerInv s' := by
  have hmem := List.mem_of_getElem? ht
  obtain ⟨hr, rfl, hex, ho⟩ := hi.at_service hmem hcode rfl
  have hex := hex (by simp)
  simp only [Host.exec] at he
  split at he <;> cases he
  rename_i b hb
  refine (hi.setSync ht hr hb).serve { f with code := [.process q], exit := false } ht hr (by simp [hcode])
    (by simp [hcode, Instr.awaits]) rfl (.of_heap rfl) rfl (fun h => by rw [hex] at h; cases h) ⟨.process, ho⟩ ?_
    (by simp [Instr.device])
  intro b' hb' _
  rw [queueBody_setBody hb, if_pos rfl] at hb'
  cases hb'
  rfl

private theorem WorkerInv.process (hi : WorkerInv s) (ht : s.threads[t]? = some f) {q : Id} {ok : Bool}
    (hcode : f.code = .process q :: rest) (he : s.exec t f rest ok (.process q) = some s') : WorkerInv s' := by
  have hmem := List.mem_of_getElem? ht
  obtain ⟨hr, rfl, hex, ho⟩ := hi.at_service hmem hcode rfl
  have hex := hex (by simp)
  have hgo : ∀ (s' : Host) (f' : Thread), s'.threads = s.threads.set t f' → s'.heap = s.heap → f'.role = f.role →
      f'.exit = f.exit → Serving q f'.code f'.exit → f'.held = owed f'.code →
      (∀ j ∈ f'.code, j.device = none ∧ ∀ x, j ≠ .createThread x) → WorkerInv s' :=
    fun s' f' hthreads hheap hrole hexit hserving howed hnew =>
      hi.serve _ ht hr (by simp [hcode]) (by simp [hcode, Instr.awaits]) hthreads (.of_heap hheap) hrole
        (fun h => hexit.trans h) ⟨hserving, howed⟩ (fun b _ h => h.resolve_left (by simp [hcode])) hnew
  simp only [Host.exec] at he
  split at he
  · rename_i b hb
    split at he
    · rename_i rq hrq
      cases he
      have hq : rq.queue = q := by simpa using List.find?_some hrq
      refine hgo _ { f with code := [.snapshot rq, .loop q], held := rq.refs + f.held } rfl rfl rfl rfl ?_ ?_
        (by simp [Instr.device])
      · rw [hex]
        exact .snapshot hq
      · rw [ho]
        rfl
    · cases he
      split
      · exact hgo _ { f with code := [] } rfl rfl rfl rfl .done ho (by simp)
      · refine hgo _ { f with code := [.asleepQueue q b.wakes] } rfl rfl rfl rfl ?_ ho (by simp [Instr.device])
        rw [hex]
        exact .asleep _
  · cases he

private theorem WorkerInv.asleepQueue (hi : WorkerInv s) (ht : s.threads[t]? = some f) {q : Id}
    {n : Nat} {ok : Bool}
    (hcode : f.code = .asleepQueue q n :: rest) (he : s.exec t f rest ok (.asleepQueue q n) = some s') :
    WorkerInv s' := by
  have hmem := List.mem_of_getElem? ht
  obtain ⟨hr, rfl, hex, ho⟩ := hi.at_service hmem hcode rfl
  have hex := hex (by simp)
  cases he
  refine hi.serve { f with code := [.process q] } ht hr (by simp [hcode]) (by simp [hcode, Instr.awaits]) rfl
    (.of_heap rfl) rfl id ⟨?_, ho⟩ (fun b _ h => h.resolve_left (by simp [hcode])) (by simp [Instr.device])
  rw [hex]
  exact .process

private theorem WorkerInv.snapshot (hi : WorkerInv s) (ht : s.threads[t]? = some f) {rq : Request} {ok : Bool}
    (hcode : f.code = .snapshot rq :: rest) (he : s.exec t f rest ok (.snapshot rq) = some s') :
    WorkerInv s' := by
  have hmem := List.mem_of_getElem? ht
  obtain ⟨hr, rfl, hex, ho⟩ := hi.at_service hmem hcode rfl
  have hex := hex (by simp)
  have hgo : ∀ snap, WorkerInv (s.frame t { f with code := [.ioctl rq, .loop rq.queue], snap := snap }) := by
    intro snap
    refine hi.serve _ ht hr (by simp [hcode]) (by simp [hcode, Instr.awaits]) rfl (.of_heap rfl) rfl id ⟨?_, ho⟩
      (fun b _ h => h.resolve_left (by simp [hcode])) (by simp [Instr.device])
    show Serving rq.queue [.ioctl rq, .loop rq.queue] f.exit
    rw [hex]
    exact .ioctl rfl
  simp only [Host.exec] at he
  split at he
  · split at he <;> cases he
    exact hgo _
  · cases he
    exact hgo _

private theorem WorkerInv.ioctl (hi : WorkerInv s) (ht : s.threads[t]? = some f) {rq : Request} {ok : Bool}
    (hcode : f.code = .ioctl rq :: rest) (he : s.exec t f rest ok (.ioctl rq) = some s') : WorkerInv s' := by
  have hmem := List.mem_of_getElem? ht
  obtain ⟨hr, rfl, -, ho⟩ := hi.at_service hmem hcode rfl
  cases he
  refine hi.serve
    { f with code := finishCode rq (if ok then .success else .failure) ++ [.loop rq.queue], snap := none } ht hr
    (by simp [hcode]) (by simp [hcode, Instr.awaits]) rfl (.of_heap rfl) rfl id
    ⟨.finish (cleanup_finishCode _ _), ?_⟩ (fun b _ h => h.resolve_left (by simp [hcode])) ?_
  · rw [owed_append, owed_finishCode]
    exact ho
  · unfold finishCode
    cases rq.group <;> cases rq.event <;> simp [Instr.device]

private theorem WorkerInv.loop (hi : WorkerInv s) (ht : s.threads[t]? = some f) {q : Id} {ok : Bool}
    (hcode : f.code = .loop q :: rest) (he : s.exec t f rest ok (.loop q) = some s') : WorkerInv s' := by
  have hmem := List.mem_of_getElem? ht
  obtain ⟨hr, rfl, -, ho⟩ := hi.at_service hmem hcode rfl
  cases he
  split
  · exact hi.serve { f with code := [] } ht hr (by simp [hcode]) (by simp [hcode, Instr.awaits]) rfl
      (.of_heap rfl) rfl id ⟨.done, ho⟩ (fun b _ h => h.resolve_left (by simp [hcode])) (by simp)
  · rename_i hex
    refine hi.serve { f with code := [.enter q] } ht hr (by simp [hcode]) (by simp [hcode, Instr.awaits]) rfl
      (.of_heap rfl) rfl id ⟨?_, ho⟩ (fun b _ h => h.resolve_left (by simp [hcode])) (by simp [Instr.device])
    rw [show ({ f with code := [.enter q] } : Thread).exit = false by simpa using hex]
    exact .enter

/-! ### The step -/

theorem WorkerInv.exec (hi : WorkerInv s) (hr : RefInv s) (ht : s.threads[t]? = some f) {i : Instr} {ok : Bool}
    (hcode : f.code = i :: rest) (he : s.exec t f rest ok i = some s') : WorkerInv s' := by
  cases i with
  | release => exact hi.release hr ht hcode he
  | newQueue => exact hi.newQueue ht hcode he
  | createThread => exact hi.createThread hr ht hcode he
  | push => exact hi.push ht hcode he
  | setExit => exact hi.setExit ht hcode he
  | join => exact hi.join ht hcode he
  | closeQueue => exact hi.closeQueue ht hcode he
  | enter => exact hi.enter ht hcode he
  | process => exact hi.process ht hcode he
  | asleepQueue => exact hi.asleepQueue ht hcode he
  | snapshot => exact hi.snapshot ht hcode he
  | ioctl => exact hi.ioctl ht hcode he
  | loop => exact hi.loop ht hcode he
  | _ => exact hi.quiet hr ht hcode rfl he

theorem WorkerInv.start : WorkerInv .start := by
  refine ⟨?_, ?_, ?_, ?_, ?_, ?_, ?_, ?_⟩ <;>
    simp [Host.start, Host.queueBody, Host.body, Host.creates]

/-- Threads without code hold nothing. -/
theorem WorkerInv.settled (hi : WorkerInv s) : Settled s := by
  intro f hf hcode
  cases hr : f.role with
  | none => exact (hi.calling f hf hr).2 hcode
  | some q => rw [(hi.serving f hf q hr).2, hcode, owed]

/-- A new client thread. -/
private theorem WorkerInv.attach (hi : WorkerInv s) : WorkerInv { s with threads := s.threads ++ [.idle] } := by
  have hmem : ∀ {g : Thread}, g ∈ s.threads ++ [.idle] → g ∈ s.threads ∨ g = .idle := fun h => by simpa using h
  have hget : ∀ {w : Nat} {g : Thread}, (s.threads ++ [.idle])[w]? = some g → s.threads[w]? = some g ∨
    g = .idle := by
    intro w g hg
    rw [List.getElem?_append] at hg
    split at hg
    · exact .inl hg
    · exact .inr (List.mem_singleton.1 (List.mem_of_getElem? hg))
  refine ⟨?_, ?_, ?_, ?_, hi.syncExit, ?_, ?_, ?_⟩
  · intro g hg hr
    rcases hmem hg with hg | rfl
    · exact hi.calling g hg hr
    · exact ⟨.inl rfl, fun _ => rfl⟩
  · intro g hg q hr
    rcases hmem hg with hg | rfl
    · exact hi.serving g hg q hr
    · cases hr
  · intro w g q hg hr
    rcases hget hg with hg | rfl
    · exact hi.worker w g q hg hr
    · cases hr
  · intro q b w hb hw
    obtain ⟨g, hg, hr⟩ := hi.thread q b w hb hw
    exact ⟨g, by rw [List.getElem?_append_left (List.getElem?_eq_some_iff.1 hg).1]; exact hg, hr⟩
  · intro q hpos
    have hsame : ({ s with threads := s.threads ++ [.idle] } : Host).creates q = s.creates q := by
      simp [Host.creates, Thread.idle]
    rw [hsame] at hpos ⊢
    exact hi.creates q hpos
  · intro g hg j hj q d hd
    rcases hmem hg with hg | rfl
    · exact hi.device g hg j hj q d hd
    · cases hj
  · intro g hg q hr hd
    rcases hmem hg with hg | rfl
    · refine (hi.past g hg q hr hd).imp_left ?_
      rintro ⟨k, hk, h⟩
      exact ⟨k, List.mem_append_left _ hk, h⟩
    · cases hr

theorem calling_code (c : ApiCall) : Calling c.code := by
  refine .inr ⟨c.code.dropLast, ?_, ?_⟩ <;> cases c <;> simp [ApiCall.code, Instr.called, Instr.service]

theorem plain_code (c : ApiCall) : ∀ j ∈ c.code, j.device = none ∧ ∀ q, j ≠ .createThread q := by
  cases c <;> simp [ApiCall.code, Instr.device]

private theorem WorkerInv.call (hi : WorkerInv s) (ht : s.threads[t]? = some f) {c : ApiCall} (hr : f.role = none)
    (hcode : f.code = []) : WorkerInv (s.frame t { f with code := c.code, held := c.uses + c.unmaps }) := by
  refine hi.frame _ ht (fun q h => by rw [hr] at h; cases h) rfl (fun _ => rfl) rfl id ?_ ?_ ?_ ?_
    (fun _ _ _ hd => .inl hd) ?_
  · intro _
    refine ⟨calling_code c, fun h => ?_⟩
    cases c <;> cases h
  · intro q h
    rw [hr] at h
    cases h
  · intro q hpos
    have hc := creates_frame (s.frame t { f with code := c.code, held := c.uses + c.unmaps })
      { f with code := c.code, held := c.uses + c.unmaps } ht rfl q
    have h0 : c.code.count (.createThread q) = 0 := List.count_eq_zero.2 fun h => (plain_code c _ h).2 q rfl
    rw [hcode, List.count_nil] at hc
    have hc : (s.frame t { f with code := c.code, held := c.uses + c.unmaps }).creates q + 0 =
      s.creates q + c.code.count (.createThread q) := hc
    obtain ⟨h1, b, hb, hw⟩ := hi.creates q (by omega)
    exact ⟨by omega, b, hb, hw⟩
  · intro j hj q d hd
    rw [(plain_code c j hj).1] at hd
    cases hd
  · rintro q ⟨j, hj, -⟩
    rw [hcode] at hj
    cases hj

theorem WorkerInv.step (hi : WorkerInv s) (hr : RefInv s) {l : HostLabel} (hs : s.step l = some s') :
    WorkerInv s' := by
  rcases step_cases hs with ⟨-, rfl⟩ | ⟨t, c, f, -, ht, hrole, hcode, -, -, rfl⟩ |
    ⟨t, ok, f, i, rest, -, ht, hcode, ⟨-, rfl⟩ | he⟩
  · exact hi.attach
  · have := hi.call (c := c) ht hrole hcode
    exact ⟨this.calling, this.serving, this.worker, this.thread, this.syncExit, this.creates,
      this.device, this.past⟩
  · exact ⟨hi.calling, hi.serving, hi.worker, hi.thread, hi.syncExit, hi.creates, hi.device, hi.past⟩
  · exact hi.exec hr ht hcode he

end Vdsp
