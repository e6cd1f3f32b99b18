import Vdsp.Host.Refs
import Mathlib.Data.Multiset.OrderedMonoid

/-!
# Every step keeps the reference counts

One lemma for the release of a reference and one for the `free` of an object; the other instructions move
references in one of the ways of `Vdsp.Host.Refs`.
-/

namespace Vdsp

open Ledger Lts

variable {s : Host} {t : Nat} {f : Thread} {rest : List Instr}

theorem count_free_destroyCode (x y : Id) (body : Body) :
    (destroyCode x body).count (.free y) = if y = x then 1 else 0 := by
  have hrel : ∀ xs : List Id, (xs.map Instr.release).count (.free y) = 0 := by
    intro xs
    rw [List.count_eq_zero]
    simp
  have hfree : ([Instr.free x]).count (.free y) = if y = x then 1 else 0 := by
    by_cases h : y = x
    · simp [h]
    · rw [if_neg h, List.count_eq_zero]
      simpa using h
  unfold destroyCode
  rw [List.count_append, List.count_append, hrel, hfree]
  cases body <;> simp

/-- The release of a reference that is not the last one. -/
private theorem RefInv.release_not_last (hi : RefInv s) (ht : s.threads[t]? = some f) {x : Id} {c : Cell}
    (hcode : f.code = .release x :: rest) (hx : s.heap[x]? = some c) (hc : 1 < c.count) :
    RefInv ((s.modify x Cell.dec).frame t { f with code := rest, held := f.held - {x} }) := by
  obtain ⟨hneeds, -, -, hrest⟩ := hcode ▸ hi.runs f (List.mem_of_getElem? ht)
  refine hi.update ht hx ?_ rfl (fun y => ?_) hrest fun y => by rw [hcode]; simp
  · simp only [Cell.dec]
    omega
  · have hle := Multiset.count_le_of_le y hneeds
    have h1 : (Cell.dec c).liveRefs = c.liveRefs := by
      rw [liveRefs_of_pos (c := c) (by omega), liveRefs_of_pos (c := Cell.dec c)
        (show 0 < c.count - 1 by omega)]
      rfl
    simp only [Instr.needs, count_coe_cons, count_coe_nil] at hle
    rw [h1]
    simp only [Cell.dec, Multiset.count_sub, Multiset.count_singleton]
    split
    · rename_i h
      rw [if_pos h] at hle
      omega
    · omega

/-- The last release: what the object held is with the thread, which is going to free the object. -/
private theorem RefInv.release_last (hi : RefInv s) (ht : s.threads[t]? = some f) {x : Id} {c : Cell}
    (hcode : f.code = .release x :: rest) (hx : s.heap[x]? = some c) (hc : c.count = 1) :
    RefInv ((s.modify x Cell.dec).frame t
      { f with code := destroyCode x c.body ++ rest, held := c.body.refs + (f.held - {x}) }) := by
  obtain ⟨hneeds, -, hj, hrest⟩ := hcode ▸ hi.runs f (List.mem_of_getElem? ht)
  set f' : Thread := { f with code := destroyCode x c.body ++ rest, held := c.body.refs + (f.held - {x}) } with
    hf'
  have hfrees : ∀ y, ((s.modify x Cell.dec).frame t f').frees y = s.frees y + if y = x then 1 else 0 := by
    intro y
    have h1 := frees_frame f' ht y
    have h2 : ((s.modify x Cell.dec).frame t f').frees y = (s.frame t f').frees y := rfl
    have h3 : f'.code.count (.free y) = (if y = x then 1 else 0) + rest.count (.free y) := by
      rw [hf', List.count_append, count_free_destroyCode]
    have h4 : f.code.count (.free y) = rest.count (.free y) := by
      rw [hcode]
      simp
    omega
  refine ⟨?_, ?_, ?_, ?_, ?_⟩
  · intro y hy
    rcases mem_threads_set hy with rfl | hy
    · exact runs_destroyCode hj hrest
    · exact hi.runs y hy
  · intro y
    have h1 := hi.count y
    have h2 := refs_modify (g := Cell.dec) hx y
    have h3 := refs_frame (s := s.modify x Cell.dec) f' ht y
    have h4 : ((s.modify x Cell.dec).frame t f').count y = (s.modify x Cell.dec).count y := rfl
    have h5 : (Cell.dec c).liveRefs = 0 := by simp [Cell.liveRefs, Cell.dec, hc]
    have h6 := Multiset.count_le_of_le y hneeds
    simp only [Instr.needs, count_coe_cons, count_coe_nil] at h6
    rw [h5, liveRefs_of_pos (by omega)] at h2
    have h7 : f'.held = c.body.refs + (f.held - {x}) := rfl
    rw [h7] at h3
    simp only [Multiset.count_add, Multiset.count_sub, Multiset.count_singleton, Multiset.count_zero] at h2 h3
    rw [h4, count_modify hx]
    split
    · rename_i h
      rw [if_pos h] at h3 h6
      rw [h] at h1
      rw [Host.count_eq hx] at h1
      rw [h] at h2 h3 h6 ⊢
      show c.count - 1 = _
      omega
    · rename_i h
      rw [if_neg h] at h3
      omega
  · intro y c' hc' hpos
    rw [hfrees]
    rcases heap_modify hc' with ⟨hne, hc'⟩ | ⟨rfl, c₀, hc₀, rfl⟩
    · rw [if_neg hne]
      exact hi.live y c' hc' hpos
    · rw [hx] at hc₀
      cases hc₀
      simp only [Cell.dec, hc] at hpos
      exact absurd hpos (lt_irrefl _)
  · intro y c' hc' h0
    rw [hfrees]
    rcases heap_modify hc' with ⟨hne, hc'⟩ | ⟨rfl, c₀, hc₀, rfl⟩
    · rw [if_neg hne]
      exact hi.dead y c' hc' h0
    · rw [hx] at hc₀
      cases hc₀
      obtain ⟨h1, h2⟩ := hi.live y c hx (by omega)
      have h3 : (Cell.dec c).freedOnce = 0 := by simp [Cell.freedOnce, Cell.dec, h2]
      rw [h1, h3, if_pos rfl]
  · intro y hy
    have hy : s.heap[y]? = none := heap_modify_none.1 (show (s.modify x Cell.dec).heap[y]? = none from hy)
    rw [hfrees, hi.absent y hy, if_neg fun h => by rw [h, hx] at hy; cases hy]

theorem RefInv.release (hi : RefInv s) (ht : s.threads[t]? = some f) {x : Id} {ok : Bool} {s' : Host}
    (hcode : f.code = .release x :: rest) (he : s.exec t f rest ok (.release x) = some s') : RefInv s' := by
  obtain ⟨hneeds, -⟩ := hcode ▸ hi.runs f (List.mem_of_getElem? ht)
  obtain ⟨c, hx, hpos, -⟩ := hi.of_held ht (x := x) (Multiset.mem_of_le hneeds (by simp [Instr.needs]))
  simp only [Host.exec, hx] at he
  split at he
  · rename_i hc
    cases he
    exact hi.release_last ht hcode hx hc
  · rename_i hc
    cases he
    exact hi.release_not_last ht hcode hx (by omega)

/-- A dying object is freed. -/
theorem RefInv.free (hi : RefInv s) (ht : s.threads[t]? = some f) {x : Id} (hcode : f.code = .free x :: rest) :
    RefInv ((s.modify x Cell.markFreed).goOn t f rest) := by
  obtain ⟨-, -, -, hrest⟩ := hcode ▸ hi.runs f (List.mem_of_getElem? ht)
  have hfrees : ∀ y, ((s.modify x Cell.markFreed).goOn t f rest).frees y + (if y = x then 1 else 0) =
    s.frees y := by
    intro y
    have h1 := frees_frame { f with code := rest } ht y
    have h2 : ((s.modify x Cell.markFreed).goOn t f rest).frees y =
      (s.frame t { f with code := rest }).frees y := rfl
    have h3 : f.code.count (.free y) = rest.count (.free y) + if y = x then 1 else 0 := by
      rw [hcode]
      by_cases h : y = x
      · simp [h]
      · rw [if_neg h, List.count_cons_of_ne (by simpa using fun h' => h h'.symm)]
        rfl
    have h4 : ({ f with code := rest } : Thread).code = rest := rfl
    rw [h4] at h1
    omega
  -- it is dead, and this is the only instruction that frees it
  have hx1 : 0 < s.frees x := by
    have := hfrees x
    rw [if_pos rfl] at this
    omega
  obtain ⟨c, hx, h0⟩ : ∃ c, s.heap[x]? = some c ∧ c.count = 0 := by
    cases hx : s.heap[x]? with
    | none =>
      have := hi.absent x hx
      omega
    | some c =>
      refine ⟨c, rfl, ?_⟩
      by_contra h
      have := (hi.live x c hx (by omega)).1
      omega
  have hdead := hi.dead x c hx h0
  refine ⟨?_, ?_, ?_, ?_, ?_⟩
  · intro y hy
    rcases mem_threads_set hy with rfl | hy
    · exact hrest
    · exact hi.runs y hy
  · intro y
    have h1 := hi.count y
    have h2 := refs_modify (g := Cell.markFreed) hx y
    have h3 := refs_frame (s := s.modify x Cell.markFreed) { f with code := rest } ht y
    have h4 : ((s.modify x Cell.markFreed).goOn t f rest).count y = (s.modify x Cell.markFreed).count y := rfl
    have h5 : ((s.modify x Cell.markFreed).goOn t f rest).refs y =
      ((s.modify x Cell.markFreed).frame t { f with code := rest }).refs y := rfl
    have h6 : (Cell.markFreed c).liveRefs = c.liveRefs := rfl
    rw [h6] at h2
    rw [h4, h5, count_modify hx]
    split
    · rename_i h
      rw [h] at h1 h2 h3 ⊢
      rw [Host.count_eq hx] at h1
      show c.count = _
      simp only at h3
      omega
    · simp only at h3
      omega
  · intro y c' hc' hpos
    have hf := hfrees y
    rcases heap_modify (show (s.modify x Cell.markFreed).heap[y]? = some c' from hc') with
      ⟨hne, hc'⟩ | ⟨rfl, c₀, hc₀, rfl⟩
    · rw [if_neg hne] at hf
      have := hi.live y c' hc' hpos
      exact ⟨by omega, this.2⟩
    · rw [hx] at hc₀
      cases hc₀
      simp only [Cell.markFreed, h0] at hpos
      exact absurd hpos (lt_irrefl _)
  · intro y c' hc' hz
    have hf := hfrees y
    rcases heap_modify (show (s.modify x Cell.markFreed).heap[y]? = some c' from hc') with
      ⟨hne, hc'⟩ | ⟨rfl, c₀, hc₀, rfl⟩
    · rw [if_neg hne] at hf
      have := hi.dead y c' hc' hz
      omega
    · rw [hx] at hc₀
      cases hc₀
      rw [if_pos rfl] at hf
      have h1 : (Cell.markFreed c).freedOnce = 1 := rfl
      omega
  · intro y hy
    have hf := hfrees y
    have := hi.absent y (heap_modify_none.1 (show (s.modify x Cell.markFreed).heap[y]? = none from hy))
    omega

/-! ### Bodies -/

theorem queueBody_eq_some {q : Id} {b : QueueBody} :
    s.queueBody q = some b ↔ ∃ c, s.heap[q]? = some c ∧ c.body = .queue b := by
  unfold Host.queueBody Host.body
  cases s.heap[q]? with
  | none => simp
  | some c => cases hb : c.body <;> simp [hb]

theorem eventBody_eq_some {e : Id} {b : EventBody} :
    s.eventBody e = some b ↔ ∃ c, s.heap[e]? = some c ∧ c.body = .event b := by
  unfold Host.eventBody Host.body
  cases s.heap[e]? with
  | none => simp
  | some c => cases hb : c.body <;> simp [hb]

theorem table_eq_some {g : Id} {table : XrpBufferGroup Id} :
    s.table g = some table ↔ ∃ c, s.heap[g]? = some c ∧ c.body = .group table := by
  unfold Host.table Host.body
  cases s.heap[g]? with
  | none => simp
  | some c => cases hb : c.body <;> simp [hb]

theorem body_eq_some {x : Id} {b : Body} : s.body x = some b ↔ ∃ c, s.heap[x]? = some c ∧ c.body = b := by
  unfold Host.body
  rw [Option.map_eq_some_iff]

theorem slots_add {table table' : XrpBufferGroup Id} {b : Id} {flags : XrpAccessFlags} {ok : Bool} {n : Nat}
    (h : xrpAddBufferToGroup table b flags ok = some (table', n)) : table'.slots = table.slots ++ [b] := by
  simp [XrpBufferGroup.slots, (xrpAddBufferToGroup_buffer h).1]

private theorem cons_set {l : List Id} {i : Nat} {a b : Id} (h : l[i]? = some a) :
    a ::ₘ (l.set i b : Multiset Id) = b ::ₘ (l : Multiset Id) := by
  induction l generalizing i with
  | nil => cases h
  | cons x l ih =>
    cases i with
    | zero =>
      cases h
      simp only [List.set_cons_zero, ← Multiset.cons_coe]
      exact Multiset.cons_swap _ _ _
    | succ i =>
      have := ih (i := i) (by simpa using h)
      simp only [List.set_cons_succ, ← Multiset.cons_coe]
      rw [Multiset.cons_swap, this, Multiset.cons_swap]

theorem slots_set {table table' : XrpBufferGroup Id} {i : Nat} {b old : Id} {flags : XrpAccessFlags}
    (h : xrpSetBufferInGroup table i b flags = some (table', old)) :
    table.slots[i]? = some old ∧ table'.slots = table.slots.set i b := by
  unfold xrpSetBufferInGroup at h
  split at h
  · rename_i r hr
    cases h
    simp [XrpBufferGroup.slots, hr]
  · cases h

theorem slots_get {table : XrpBufferGroup Id} {i : Nat} {b : Id} (h : xrpGetBufferFromGroup table i = some b) :
    b ∈ table.slots := by
  obtain ⟨r, hr, rfl⟩ := Option.map_eq_some_iff.1 h
  exact List.mem_map.2 ⟨r, List.mem_of_getElem? hr, rfl⟩

/-! ### Threads that hold nothing -/

/-- A new thread without references. -/
theorem RefInv.spawn (hi : RefInv s) {f' : Thread} (hheld : f'.held = 0) (hrun : Runs f'.code f'.held)
    (hfree : ∀ y, f'.code.count (.free y) = 0) : RefInv { s with threads := s.threads ++ [f'] } := by
  have hfrees : ∀ y, ({ s with threads := s.threads ++ [f'] } : Host).frees y = s.frees y := by
    intro y
    simp [Host.frees, hfree]
  refine ⟨?_, ?_, ?_, ?_, ?_⟩
  · intro x hx
    rcases List.mem_append.1 hx with hx | hx
    · exact hi.runs x hx
    · rw [List.mem_singleton.1 hx]
      exact hrun
  · intro y
    have := hi.count y
    simpa [Host.count, Host.refs, hheld] using this
  · intro y c hc hpos
    rw [hfrees]
    exact hi.live y c hc hpos
  · intro y c hc h0
    rw [hfrees]
    exact hi.dead y c hc h0
  · intro y hy
    rw [hfrees]
    exact hi.absent y hy

theorem mem_raiseExit {w : Nat} {x : Thread} (h : x ∈ (s.raiseExit w).threads) :
    ∃ y ∈ s.threads, x.code = y.code ∧ x.held = y.held := by
  obtain ⟨n, hn⟩ := List.mem_iff_getElem?.1 h
  rw [Host.raiseExit, List.getElem?_modify] at hn
  obtain ⟨y, hy, rfl⟩ := Option.map_eq_some_iff.1 hn
  refine ⟨y, List.mem_of_getElem? hy, ?_⟩
  split <;> exact ⟨rfl, rfl⟩

theorem RefInv.raiseExit (hi : RefInv s) (w : Nat) : RefInv (s.raiseExit w) := by
  have hfrees : ∀ y, (s.raiseExit w).frees y = s.frees y := fun y => total_modify_same _ _ _ _ fun _ => rfl
  have hrefs : ∀ y, (s.raiseExit w).refs y = s.refs y := fun y => by
    have := total_modify_same (fun f : Thread => f.held.count y) s.threads w (fun f => { f with exit := true })
      fun _ => rfl
    simp only [Host.refs, Host.raiseExit, this]
  refine ⟨?_, ?_, ?_, ?_, ?_⟩
  · intro x hx
    obtain ⟨y, hy, hc, hh⟩ := mem_raiseExit hx
    rw [hc, hh]
    exact hi.runs y hy
  · intro y
    rw [hrefs]
    exact hi.count y
  · intro y c hc hpos
    rw [hfrees]
    exact hi.live y c hc hpos
  · intro y c hc h0
    rw [hfrees]
    exact hi.dead y c hc h0
  · intro y hy
    rw [hfrees]
    exact hi.absent y hy

/-! ### The instructions -/

/-- No `free` in the code that an instruction puts in front of the rest. -/
private theorem sameFrees_of {i : Instr} {c : List Instr} (hcode : f.code = i :: rest) (hi : ∀ y, i ≠ .free y)
    (hc : ∀ y, Instr.free y ∉ c) : SameFrees f.code (c ++ rest) := by
  intro y
  rw [hcode, List.count_append, List.count_cons_of_ne (fun h => hi y h), List.count_eq_zero.2 (hc y),
    Nat.zero_add]

private theorem sameFrees_rest {i : Instr} (hcode : f.code = i :: rest) (hi : ∀ y, i ≠ .free y) :
    SameFrees f.code rest := by
  simpa using sameFrees_of (c := []) hcode hi (by simp)

/-- The references that the first instruction of a thread needs are live. -/
theorem RefInv.of_needs (hi : RefInv s) (ht : s.threads[t]? = some f) {i : Instr}
    (hcode : f.code = i :: rest) {x : Id}
    (hx : x ∈ i.needs) : ∃ c, s.heap[x]? = some c ∧ 0 < c.count ∧ c.freed = false := by
  obtain ⟨hneeds, -⟩ := hcode ▸ hi.runs f (List.mem_of_getElem? ht)
  exact hi.of_held ht (Multiset.mem_of_le hneeds (Multiset.mem_coe.2 hx))

/-- A store to a field of a queue that is no reference. -/
theorem RefInv.setQueue (hi : RefInv s) {q : Id} {b : QueueBody} (hb : s.queueBody q = some b) (b' : QueueBody)
    (hd : b'.device = b.device) : RefInv (s.modify q (Cell.setBody (.queue b'))) := by
  obtain ⟨c, hc, hcb⟩ := queueBody_eq_some.1 hb
  exact hi.setBody hc (by simp [hcb, Body.refs, hd])

/-- A store to the `map_count` of a buffer. -/
private theorem RefInv.setMaps (hi : RefInv s) {x : Id} {d : Option Id} {n : Nat}
    (hb : s.body x = some (.buffer d n)) (m : Nat) : RefInv (s.modify x (Cell.setBody (.buffer d m))) := by
  obtain ⟨c, hc, hcb⟩ := body_eq_some.1 hb
  exact hi.setBody hc (by rw [hcb]; rfl)

section

variable {ok : Bool} {s' : Host}

private theorem RefInv.exec_openInner (hi : RefInv s) (ht : s.threads[t]? = some f)
    (hcode : f.code = .openInner :: rest) (he : s.exec t f rest ok .openInner = some s') : RefInv s' := by
  obtain ⟨-, -, hj, hrest⟩ := hcode ▸ hi.runs f (List.mem_of_getElem? ht)
  simp only [Host.exec] at he
  split at he <;> cases he
  · refine hi.alloc ht (Multiset.zero_le _) ⟨?_, by simp [Instr.closes], hj, hrest.mono ?_⟩
      (sameFrees_of (c := [.openWrapper _]) hcode (by simp) (by simp))
    · simp [Instr.needs]
    · simp [Instr.out, Body.refs, Multiset.sub_singleton]
  · exact hi.goOn ht hrest (sameFrees_rest hcode (by simp))

/-- The wrapper takes over the reference to the device that was opened for it. -/
private theorem RefInv.exec_openWrapper (hi : RefInv s) (ht : s.threads[t]? = some f) {n : Id}
    (hcode : f.code = .openWrapper n :: rest) (he : s.exec t f rest ok (.openWrapper n) = some s') :
    RefInv s' := by
  obtain ⟨hneeds, -, -, hrest⟩ := hcode ▸ hi.runs f (List.mem_of_getElem? ht)
  simp only [Host.exec] at he
  split at he <;> cases he
  · exact hi.alloc ht hneeds (hrest.mono (Multiset.le_cons_self _ _)) (sameFrees_rest hcode (by simp))
  · refine hi.transfer ht rfl rfl (fun y => ?_) hrest (sameFrees_rest hcode (by simp))
    have := Multiset.count_le_of_le y hneeds
    simp only [Instr.needs, count_coe_cons, count_coe_nil] at this
    simp only [Host.frame, Multiset.count_cons, Multiset.count_sub, Multiset.count_singleton]
    omega

/-- A buffer of a device retains it before it has its pointer. -/
private theorem RefInv.exec_newBuffer (hi : RefInv s) (ht : s.threads[t]? = some f) {device : Option Id}
    (hcode : f.code = .newBuffer device :: rest) (he : s.exec t f rest ok (.newBuffer device) = some s') :
    RefInv s' := by
  obtain ⟨hneeds, -, hj, hrest⟩ := hcode ▸ hi.runs f (List.mem_of_getElem? ht)
  simp only [Host.exec] at he
  split at he <;> cases he
  · refine hi.alloc ht (Multiset.zero_le _) ?_ (sameFrees_of hcode (by simp) (by cases device <;> simp))
    have hle : f.held ≤ s.heap.length ::ₘ (f.held - (Body.buffer none 0).refs) := by
      simp [Body.refs, Multiset.le_cons_self]
    cases device with
    | none => exact hrest.mono hle
    | some d =>
      refine ⟨?_, by simp [Instr.closes], by simpa [Instr.joins] using hj, Multiset.zero_le _,
        by simp [Instr.closes], hj, hrest.mono hle⟩
      have hd : (([d] : List Id) : Multiset Id) ≤ f.held := hneeds
      simpa [Instr.needs, Body.refs, ← Multiset.cons_coe] using hd
  · exact hi.goOn ht hrest (sameFrees_rest hcode (by simp))

/-- The reference that was taken for the pointer goes to the buffer. -/
private theorem RefInv.exec_attachDevice (hi : RefInv s) (ht : s.threads[t]? = some f) {b d : Id}
    (hcode : f.code = .attachDevice b d :: rest) (he : s.exec t f rest ok (.attachDevice b d) = some s') :
    RefInv s' := by
  obtain ⟨-, -, -, hrest⟩ := hcode ▸ hi.runs f (List.mem_of_getElem? ht)
  obtain ⟨cb, hb, hcb, -⟩ := hi.of_needs ht hcode (x := b) (by simp [Instr.needs])
  obtain ⟨cd, hd, hcd, -⟩ := hi.of_needs ht hcode (x := d) (by simp [Instr.needs])
  simp only [Host.exec] at he
  split at he
  · rename_i n hbody
    cases he
    obtain ⟨c, hc, hcbody⟩ := body_eq_some.1 hbody
    rw [hb] at hc
    cases hc
    exact hi.attach ht hd hcd hb hcb (by rw [hcbody]; rfl) hrest (sameFrees_rest hcode (by simp))
  · cases he

private theorem RefInv.exec_mapCheck (hi : RefInv s) (ht : s.threads[t]? = some f) {b : Id}
    (hcode : f.code = .mapCheck b :: rest) (he : s.exec t f rest ok (.mapCheck b) = some s') : RefInv s' := by
  obtain ⟨hneeds, -, hj, hrest⟩ := hcode ▸ hi.runs f (List.mem_of_getElem? ht)
  cases he
  split
  · refine hi.goOn ht ⟨hneeds, by simp [Instr.closes], by simpa [Instr.joins] using hj, ?_,
      by simp [Instr.closes], hj, hrest.mono ?_⟩
      (sameFrees_of (c := [.retain b, .mapInc b]) hcode (by simp) (by simp))
    · simp [Instr.needs, Instr.out]
    · simp [Instr.out, Multiset.sub_singleton]
  · exact hi.goOn ht hrest (sameFrees_rest hcode (by simp))

/-- The reference that was taken for the mapping goes to the mappings. -/
private theorem RefInv.exec_mapInc (hi : RefInv s) (ht : s.threads[t]? = some f) {b : Id}
    (hcode : f.code = .mapInc b :: rest) (he : s.exec t f rest ok (.mapInc b) = some s') : RefInv s' := by
  obtain ⟨hneeds, -, -, hrest⟩ := hcode ▸ hi.runs f (List.mem_of_getElem? ht)
  simp only [Host.exec] at he
  split at he
  · rename_i d n hbody
    cases he
    refine (hi.setMaps hbody (n + 1)).transfer ht rfl rfl (fun y => ?_) hrest (sameFrees_rest hcode (by simp))
    have := Multiset.count_le_of_le y hneeds
    simp only [Instr.needs, count_coe_cons, count_coe_nil] at this
    simp only [Host.frame, Host.modify, Multiset.count_cons, Multiset.count_sub, Multiset.count_singleton]
    omega
  · cases he

/-- The reference that was taken for the slot goes to the group. -/
private theorem RefInv.exec_add (hi : RefInv s) (ht : s.threads[t]? = some f) {g b : Id}
    {flags : XrpAccessFlags}
    (hcode : f.code = .add g b flags :: rest) (he : s.exec t f rest ok (.add g b flags) = some s') :
    RefInv s' := by
  obtain ⟨-, -, -, hrest⟩ := hcode ▸ hi.runs f (List.mem_of_getElem? ht)
  obtain ⟨cg, hg, hcg, -⟩ := hi.of_needs ht hcode (x := g) (by simp [Instr.needs])
  obtain ⟨cb, hb, hcb, -⟩ := hi.of_needs ht hcode (x := b) (by simp [Instr.needs])
  simp only [Host.exec] at he
  split at he
  · rename_i table htable
    obtain ⟨c, hc, hcbody⟩ := table_eq_some.1 htable
    rw [hg] at hc
    cases hc
    split at he <;> cases he
    · rename_i table' n hadd
      refine hi.attach ht hb hcb hg hcg ?_ hrest (sameFrees_rest hcode (by simp))
      rw [hcbody]
      simp only [Body.refs, slots_add hadd]
      rw [← Multiset.coe_add, add_comm]
      rfl
    · exact hi.goOn ht hrest (sameFrees_rest hcode (by simp))
  · cases he

/-- The slot takes the new reference; the old one, or the new one if there is no such slot, is released. -/
private theorem RefInv.exec_swap (hi : RefInv s) (ht : s.threads[t]? = some f) {g : Id} {i : Nat} {b : Id}
    {flags : XrpAccessFlags}
    (hcode : f.code = .swap g i b flags :: rest) (he : s.exec t f rest ok (.swap g i b flags) = some s') :
    RefInv s' := by
  obtain ⟨hneeds, -, hj, hrest⟩ := hcode ▸ hi.runs f (List.mem_of_getElem? ht)
  obtain ⟨cg, hg, hcg, -⟩ := hi.of_needs ht hcode (x := g) (by simp [Instr.needs])
  have hbheld : b ∈ f.held := Multiset.mem_of_le hneeds (by simp [Instr.needs])
  simp only [Host.exec] at he
  split at he
  · rename_i table htable
    obtain ⟨c, hc, hcbody⟩ := table_eq_some.1 htable
    rw [hg] at hc
    cases hc
    split at he <;> cases he
    · rename_i table' old hset
      obtain ⟨hold, hslots⟩ := slots_set hset
      refine hi.exchange ht hg hcg ?_ ⟨?_, by simp [Instr.closes], hj, hrest.mono ?_⟩
        (sameFrees_of (c := [.release old]) hcode (by simp) (by simp))
      · rw [hcbody]
        simp only [Body.refs, hslots]
        rw [Multiset.add_cons, ← Multiset.cons_add, cons_set hold, Multiset.sub_singleton, Multiset.cons_add,
          ← Multiset.add_cons, Multiset.cons_erase hbheld]
      · simp [Instr.needs]
      · simp [Instr.out, Multiset.sub_singleton]
    · exact hi.goOn ht ⟨by simpa [Instr.needs] using hbheld, by simp [Instr.closes], hj, hrest⟩
        (sameFrees_of (c := [.release b]) hcode (by simp) (by simp))
  · cases he

private theorem RefInv.exec_get (hi : RefInv s) (ht : s.threads[t]? = some f) {g : Id} {i : Nat}
    (hcode : f.code = .get g i :: rest) (he : s.exec t f rest ok (.get g i) = some s') : RefInv s' := by
  obtain ⟨-, -, -, hrest⟩ := hcode ▸ hi.runs f (List.mem_of_getElem? ht)
  obtain ⟨cg, hg, hcg, -⟩ := hi.of_needs ht hcode (x := g) (by simp [Instr.needs])
  simp only [Host.exec] at he
  split at he
  · rename_i table htable
    obtain ⟨c, hc, hcbody⟩ := table_eq_some.1 htable
    rw [hg] at hc
    cases hc
    split at he <;> cases he
    · rename_i b hb
      obtain ⟨cb, hcb, hpos, -⟩ := hi.of_body hg hcg (x := b) (by rw [hcbody]; exact slots_get hb)
      exact hi.retain ht hcb hpos rfl (hrest.mono (Multiset.le_cons_self _ _)) (sameFrees_rest hcode (by simp))
    · exact hi.goOn ht hrest (sameFrees_rest hcode (by simp))
  · cases he

/-- The reference to the device goes to the queue, or is given back. -/
private theorem RefInv.exec_newQueue (hi : RefInv s) (ht : s.threads[t]? = some f) {d : Id}
    (hcode : f.code = .newQueue d :: rest) (he : s.exec t f rest ok (.newQueue d) = some s') : RefInv s' := by
  obtain ⟨hneeds, -, hj, hrest⟩ := hcode ▸ hi.runs f (List.mem_of_getElem? ht)
  simp only [Host.exec] at he
  split at he <;> cases he
  · refine hi.alloc ht hneeds ⟨?_, by simp [Instr.closes], hj, hrest.mono (Multiset.le_cons_self _ _)⟩
      (sameFrees_of (c := [.createThread _]) hcode (by simp) (by simp))
    simp [Instr.needs]
  · refine hi.goOn ht ⟨hneeds, by simp [Instr.closes], hj, hrest⟩ ?_
    exact sameFrees_of (c := [.release d]) hcode (by simp) (by simp)

private theorem RefInv.exec_createThread (hi : RefInv s) (ht : s.threads[t]? = some f) {q : Id}
    (hcode : f.code = .createThread q :: rest) (he : s.exec t f rest ok (.createThread q) = some s') :
    RefInv s' := by
  obtain ⟨-, -, -, hrest⟩ := hcode ▸ hi.runs f (List.mem_of_getElem? ht)
  simp only [Host.exec] at he
  split at he
  · rename_i b hb
    split at he <;> cases he
    · refine RefInv.spawn ?_ rfl ⟨Multiset.zero_le _, by simp [Instr.closes], by simp, trivial⟩ (by simp)
      exact (hi.setQueue hb { b with worker := some s.threads.length } rfl).goOn ht hrest
        (sameFrees_rest hcode (by simp))
    · exact hi.goOn ht hrest (sameFrees_rest hcode (by simp))
  · cases he

private theorem RefInv.exec_setExit (hi : RefInv s) (ht : s.threads[t]? = some f) {q d : Id}
    (hcode : f.code = .setExit q d :: rest) (he : s.exec t f rest ok (.setExit q d) = some s') : RefInv s' := by
  obtain ⟨hneeds, hcloses, hj, hrest⟩ := hcode ▸ hi.runs f (List.mem_of_getElem? ht)
  have hrun : Runs (.join q d :: rest) f.held := ⟨hneeds, hcloses, hj, hrest⟩
  simp only [Host.exec] at he
  split at he
  · rename_i b hb
    cases he
    exact (hi.setQueue hb { b with exit := true, wakes := b.wakes + 1 } rfl).goOn ht hrun
      (sameFrees_of (c := [.join q d]) hcode (by simp) (by simp))
  · cases he

private theorem RefInv.exec_join (hi : RefInv s) (ht : s.threads[t]? = some f) {q d : Id}
    (hcode : f.code = .join q d :: rest) (he : s.exec t f rest ok (.join q d) = some s') : RefInv s' := by
  obtain ⟨hneeds, hcloses, hj, hrest⟩ := hcode ▸ hi.runs f (List.mem_of_getElem? ht)
  have hrun : Runs (.closeQueue q d :: rest) f.held := ⟨hneeds, hcloses, hj, hrest⟩
  have hgo : RefInv (s.goOn t f (.closeQueue q d :: rest)) :=
    hi.goOn ht hrun (sameFrees_of (c := [.closeQueue q d]) hcode (by simp) (by simp))
  have hcrash : RefInv { s with crashed := true } := ⟨hi.runs, hi.count, hi.live, hi.dead, hi.absent⟩
  simp only [Host.exec] at he
  split at he
  · split at he
    · split at he
      · split at he <;> cases he
        · exact hgo.raiseExit _
        · exact hcrash
      · split at he <;> cases he
        exact hgo
    · split at he <;> cases he
      · exact hgo.raiseExit _
      · exact hcrash
  · cases he

private theorem RefInv.exec_newRequest (hi : RefInv s) (ht : s.threads[t]? = some f) {q : Id} {g : Option Id}
    {evt sync : Bool}
    (hcode : f.code = .newRequest q g evt sync :: rest)
    (he : s.exec t f rest ok (.newRequest q g evt sync) = some s') : RefInv s' := by
  obtain ⟨hneeds, -, hj, hrest⟩ := hcode ▸ hi.runs f (List.mem_of_getElem? ht)
  simp only [Host.exec] at he
  split at he <;> cases he
  · split
    · exact hi.goOn ht ⟨hneeds, by simp [Instr.closes], hj, hrest⟩
        (sameFrees_of (c := [.newEvent q g sync]) hcode (by simp) (by simp))
    · have hrun : Runs (enqueueCode q g none false ++ rest) _ := runs_enqueueCode hneeds hj hrest
      exact hi.goOn ht (by simpa using hrun)
        (sameFrees_of hcode (by simp) (by cases g <;> simp [enqueueCode]))
  · exact hi.transfer ht rfl rfl (fun _ => rfl) hrest (sameFrees_rest hcode (by simp))

private theorem RefInv.exec_newEvent (hi : RefInv s) (ht : s.threads[t]? = some f) {q : Id} {g : Option Id}
    {sync : Bool}
    (hcode : f.code = .newEvent q g sync :: rest) (he : s.exec t f rest ok (.newEvent q g sync) = some s') :
    RefInv s' := by
  obtain ⟨hneeds, -, hj, hrest⟩ := hcode ▸ hi.runs f (List.mem_of_getElem? ht)
  simp only [Host.exec] at he
  split at he <;> cases he
  · refine hi.alloc ht (Multiset.zero_le _) ?_
      (sameFrees_of hcode (by simp) (by cases g <;> cases sync <;> simp [enqueueCode]))
    have hrun : Runs (enqueueCode q g (some s.heap.length) sync ++ rest) _ := runs_enqueueCode hneeds hj hrest
    exact hrun.mono (by simp [Body.refs])
  · exact hi.transfer ht rfl rfl (fun _ => rfl) hrest (sameFrees_rest hcode (by simp))

private theorem RefInv.exec_attachQueue (hi : RefInv s) (ht : s.threads[t]? = some f) {e q : Id}
    (hcode : f.code = .attachQueue e q :: rest) (he : s.exec t f rest ok (.attachQueue e q) = some s') :
    RefInv s' := by
  obtain ⟨-, -, -, hrest⟩ := hcode ▸ hi.runs f (List.mem_of_getElem? ht)
  obtain ⟨ce, hce, hpe, -⟩ := hi.of_needs ht hcode (x := e) (by simp [Instr.needs])
  obtain ⟨cq, hcq, hpq, -⟩ := hi.of_needs ht hcode (x := q) (by simp [Instr.needs])
  simp only [Host.exec] at he
  split at he
  · rename_i b hb
    obtain ⟨c, hc, hcbody⟩ := eventBody_eq_some.1 hb
    rw [hce] at hc
    cases hc
    split at he <;> cases he
    rename_i hnone
    refine hi.attach ht hcq hpq hce hpe ?_ hrest (sameFrees_rest hcode (by simp))
    rw [hcbody]
    simp [Body.refs, hnone]
  · cases he

/-- The references of the request go from the call to the list. -/
private theorem RefInv.exec_push (hi : RefInv s) (ht : s.threads[t]? = some f) {q : Id} {g e : Option Id}
    (hcode : f.code = .push q g e :: rest) (he : s.exec t f rest ok (.push q g e) = some s') : RefInv s' := by
  obtain ⟨hneeds, -, -, hrest⟩ := hcode ▸ hi.runs f (List.mem_of_getElem? ht)
  simp only [Host.exec] at he
  split at he
  · rename_i b hb
    cases he
    refine (hi.setQueue hb { b with wakes := if s.waiting q = true then b.wakes else b.wakes + 1 } rfl).transfer
      ht rfl rfl (fun y => ?_) hrest (sameFrees_rest hcode (by simp))
    have := Multiset.count_le_of_le y hneeds
    simp only [Instr.needs, count_coe_cons, count_coe_append] at this
    simp only [Host.frame, Host.modify, Multiset.count_sub, total_append, total_cons, total_nil, Request.refs,
      count_coe_append]
    omega
  · cases he

private theorem RefInv.exec_wait (hi : RefInv s) (ht : s.threads[t]? = some f) {e : Id}
    (hcode : f.code = .wait e :: rest) (he : s.exec t f rest ok (.wait e) = some s') : RefInv s' := by
  obtain ⟨hneeds, -, hj, hrest⟩ := hcode ▸ hi.runs f (List.mem_of_getElem? ht)
  simp only [Host.exec] at he
  split at he
  · cases he
    split
    · exact hi.goOn ht ⟨hneeds, by simp [Instr.closes], hj, hrest⟩
        (sameFrees_of (c := [.asleep e _]) hcode (by simp) (by simp))
    · exact hi.goOn ht hrest (sameFrees_rest hcode (by simp))
  · cases he

private theorem RefInv.exec_enter (hi : RefInv s) (ht : s.threads[t]? = some f) {q : Id}
    (hcode : f.code = .enter q :: rest) (he : s.exec t f rest ok (.enter q) = some s') : RefInv s' := by
  obtain ⟨-, -, hj, hrest⟩ := hcode ▸ hi.runs f (List.mem_of_getElem? ht)
  simp only [Host.exec] at he
  split at he
  · rename_i b hb
    cases he
    exact (hi.setQueue hb { b with syncExit := some t } rfl).transfer ht rfl rfl (fun _ => rfl)
      ⟨Multiset.zero_le _, by simp [Instr.closes], hj, hrest⟩
      (sameFrees_of (c := [.process q]) hcode (by simp) (by simp))
  · cases he

/-- The references of the request go from the list to the worker. -/
private theorem RefInv.exec_process (hi : RefInv s) (ht : s.threads[t]? = some f) {q : Id}
    (hcode : f.code = .process q :: rest) (he : s.exec t f rest ok (.process q) = some s') : RefInv s' := by
  obtain ⟨-, -, hj, hrest⟩ := hcode ▸ hi.runs f (List.mem_of_getElem? ht)
  simp only [Host.exec] at he
  split at he
  · rename_i b hb
    split at he
    · rename_i rq hrq
      cases he
      refine hi.transfer ht rfl rfl (fun y => ?_)
        ⟨Multiset.le_add_right _ _, by simp [Instr.closes], by simpa [Instr.joins] using hj, Multiset.zero_le _,
          by simp [Instr.closes], hj, hrest.mono ?_⟩
        (sameFrees_of (c := [.snapshot rq, .loop q]) hcode (by simp) (by simp))
      · have := total_eraseP (fun r : Request => (r.refs : Multiset Id).count y) hrq
        simp only [Host.frame, Multiset.count_add]
        omega
      · simp [Instr.out]
    · cases he
      split
      · exact hi.goOn ht hrest (sameFrees_rest hcode (by simp))
      · exact hi.goOn ht ⟨Multiset.zero_le _, by simp [Instr.closes], hj, hrest⟩
          (sameFrees_of (c := [.asleepQueue q _]) hcode (by simp) (by simp))
  · cases he

private theorem RefInv.exec_snapshot (hi : RefInv s) (ht : s.threads[t]? = some f) {rq : Request}
    (hcode : f.code = .snapshot rq :: rest) (he : s.exec t f rest ok (.snapshot rq) = some s') : RefInv s' := by
  obtain ⟨hneeds, -, hj, hrest⟩ := hcode ▸ hi.runs f (List.mem_of_getElem? ht)
  have hrun : Runs (.ioctl rq :: rest) f.held := ⟨hneeds, by simp [Instr.closes], hj, hrest⟩
  have hfree := sameFrees_of (c := [.ioctl rq]) hcode (by simp) (by simp)
  simp only [Host.exec] at he
  split at he
  · split at he <;> cases he
    exact hi.transfer ht rfl rfl (fun _ => rfl) hrun hfree
  · cases he
    exact hi.transfer ht rfl rfl (fun _ => rfl) hrun hfree

/-- The references of the request are released by the code behind the driver call. -/
private theorem RefInv.exec_ioctl (hi : RefInv s) (ht : s.threads[t]? = some f) {rq : Request}
    (hcode : f.code = .ioctl rq :: rest) (he : s.exec t f rest ok (.ioctl rq) = some s') : RefInv s' := by
  obtain ⟨hneeds, -, hj, hrest⟩ := hcode ▸ hi.runs f (List.mem_of_getElem? ht)
  cases he
  refine hi.transfer ht rfl rfl (fun _ => rfl) ?_ (sameFrees_of hcode (by simp) (fun y => ?_))
  · have hrun : Runs (finishCode rq (if ok then .success else .failure) ++ rest) _ := runs_finishCode hj hrest
    have hadd : ((rq.refs : List Id) : Multiset Id) + (f.held - rq.refs) = f.held :=
      add_tsub_cancel_of_le hneeds
    rw [show (Instr.ioctl rq).out f.held = f.held - rq.refs from rfl, hadd] at hrun
    exact hrun
  · simp only [finishCode]
    cases rq.group <;> cases rq.event <;> simp

private theorem RefInv.exec_complete (hi : RefInv s) (ht : s.threads[t]? = some f) {e : Id} {status : XrpStatus}
    (hcode : f.code = .complete e status :: rest) (he : s.exec t f rest ok (.complete e status) = some s') :
    RefInv s' := by
  obtain ⟨-, -, -, hrest⟩ := hcode ▸ hi.runs f (List.mem_of_getElem? ht)
  simp only [Host.exec] at he
  split at he
  · rename_i b hb
    cases he
    obtain ⟨c, hc, hcb⟩ := eventBody_eq_some.1 hb
    exact (hi.setBody (b := .event { b with status := status, wakes := b.wakes + 1 }) hc
      (by rw [hcb]; rfl)).goOn ht hrest (sameFrees_rest hcode (by simp))
  · cases he

theorem RefInv.exec (hi : RefInv s) (ht : s.threads[t]? = some f) {i : Instr} (hcode : f.code = i :: rest)
    (he : s.exec t f rest ok i = some s') : RefInv s' := by
  obtain ⟨hneeds, hcloses, hj, hrest⟩ := hcode ▸ hi.runs f (List.mem_of_getElem? ht)
  have hsame : (∀ y, i ≠ .free y) → SameFrees f.code rest := sameFrees_rest hcode
  cases i with
  | ret =>
    cases he
    refine hi.transfer ht rfl rfl (fun y => ?_) hrest (hsame (by simp))
    simp only [Host.frame, Multiset.count_add, Multiset.count_zero]
    omega
  | retain x =>
    obtain ⟨c, hx, hc, -⟩ := hi.of_needs ht hcode (x := x) (by simp [Instr.needs])
    cases he
    exact hi.retain ht hx hc rfl hrest (hsame (by simp))
  | release x => exact hi.release ht hcode he
  | free x =>
    cases he
    exact hi.free ht hcode
  | openNewmode =>
    simp only [Host.exec] at he
    split at he <;> cases he
    · exact hi.alloc ht (Multiset.zero_le _) (hrest.mono
        (by simp [Body.refs, Instr.out, Multiset.le_cons_self]))
        (hsame (by simp))
    · exact hi.goOn ht hrest (hsame (by simp))
  | openInner => exact hi.exec_openInner ht hcode he
  | openWrapper n => exact hi.exec_openWrapper ht hcode he
  | newBuffer device => exact hi.exec_newBuffer ht hcode he
  | attachDevice b d => exact hi.exec_attachDevice ht hcode he
  | ionmem =>
    simp only [Host.exec] at he
    split at he <;> cases he
    · exact hi.goOn ht hrest (hsame (by simp))
    · exact ⟨hi.runs, hi.count, hi.live, hi.dead, hi.absent⟩
  | newGroup =>
    simp only [Host.exec] at he
    split at he <;> cases he
    · exact hi.alloc ht (Multiset.zero_le _)
        (hrest.mono (by simp [Body.refs, XrpBufferGroup.slots, XrpBufferGroup.empty, Instr.out,
        Multiset.le_cons_self])) (hsame (by simp))
    · exact hi.goOn ht hrest (hsame (by simp))
  | newQueue d => exact hi.exec_newQueue ht hcode he
  | createThread q => exact hi.exec_createThread ht hcode he
  | mapCheck b => exact hi.exec_mapCheck ht hcode he
  | mapInc b => exact hi.exec_mapInc ht hcode he
  | mapDec b =>
    simp only [Host.exec] at he
    split at he
    · rename_i d n hbody
      cases he
      exact (hi.setMaps hbody (n - 1)).goOn ht hrest (hsame (by simp))
    · cases he
  | add g b flags => exact hi.exec_add ht hcode he
  | swap g i b flags => exact hi.exec_swap ht hcode he
  | get g i => exact hi.exec_get ht hcode he
  | newRequest q g evt sync => exact hi.exec_newRequest ht hcode he
  | newEvent q g sync => exact hi.exec_newEvent ht hcode he
  | attachQueue e q => exact hi.exec_attachQueue ht hcode he
  | push q g e => exact hi.exec_push ht hcode he
  | wait e => exact hi.exec_wait ht hcode he
  | asleep e n =>
    cases he
    exact hi.goOn ht ⟨hneeds, by simp [Instr.closes], hj, hrest⟩
      (sameFrees_of (c := [.wait e]) hcode (by simp) (by simp))
  | eventStatus e =>
    simp only [Host.exec] at he
    split at he
    · cases he
      exact hi.transfer ht rfl rfl (fun _ => rfl) hrest (hsame (by simp))
    · cases he
  | enter q => exact hi.exec_enter ht hcode he
  | process q => exact hi.exec_process ht hcode he
  | asleepQueue q n =>
    cases he
    exact hi.goOn ht ⟨Multiset.zero_le _, by simp [Instr.closes], hj, hrest⟩
      (sameFrees_of (c := [.process q]) hcode (by simp) (by simp))
  | snapshot rq => exact hi.exec_snapshot ht hcode he
  | ioctl rq => exact hi.exec_ioctl ht hcode he
  | complete e status => exact hi.exec_complete ht hcode he
  | loop q =>
    cases he
    split
    · exact hi.goOn ht hrest (hsame (by simp))
    · exact hi.goOn ht ⟨Multiset.zero_le _, by simp [Instr.closes], hj, hrest⟩
        (sameFrees_of (c := [.enter q]) hcode (by simp) (by simp))
  | condDestroy e =>
    cases he
    exact hi.goOn ht hrest (hsame (by simp))
  | setExit q d => exact hi.exec_setExit ht hcode he
  | join q d => exact hi.exec_join ht hcode he
  | closeQueue q d =>
    simp only [Host.exec] at he
    split at he
    · rename_i b hb
      cases he
      exact (hi.setQueue hb { b with destroyed := true } rfl).goOn ht hrest (hsame (by simp))
    · cases he

end

/-! ### The steps -/

/-- Each call runs on the references that it uses. -/
theorem runs_code (c : ApiCall) : Runs c.code (c.uses + c.unmaps) := by
  cases c with
  | createBuffer device => cases device <;> simp [ApiCall.code, ApiCall.uses, ApiCall.unmaps, Runs, Instr.needs,
      Instr.closes, Instr.joins, Instr.out]
  | setBufferInGroup g i b flags =>
    have hle : (([g, b] : List Id) : Multiset Id) ≤ b ::ₘ ([g, b] : List Id) := Multiset.le_cons_self _ _
    simpa [ApiCall.code, ApiCall.uses, ApiCall.unmaps, Runs, Instr.needs, Instr.closes, Instr.joins, Instr.out]
      using hle
  | _ =>
    simp [ApiCall.code, ApiCall.uses, ApiCall.unmaps, Runs, Instr.needs, Instr.closes, Instr.joins, Instr.out]

theorem count_free_code (c : ApiCall) (y : Id) : c.code.count (.free y) = 0 := by
  cases c <;> simp [ApiCall.code]

theorem RefInv.start : RefInv .start :=
  ⟨by simp [Host.start], by simp [Host.start, Host.count, Host.refs], by simp [Host.start], by
    simp [Host.start],
    by simp [Host.start, Host.frees]⟩

/-- A thread without code holds no reference. -/
def Settled (s : Host) : Prop := ∀ f ∈ s.threads, f.code = [] → f.held = 0

/-- A call reserves the references that it uses. -/
private theorem RefInv.call (hi : RefInv s) (ht : s.threads[t]? = some f) {c : ApiCall} (hcode : f.code = [])
    (hheld : f.held = 0) (huses : (c.uses : Multiset Id) ≤ s.pool)
    (hunmaps : (c.unmaps : Multiset Id) ≤ s.maps) :
    RefInv { s.frame t { f with code := c.code, held := c.uses + c.unmaps } with
      pool := s.pool - c.uses
      maps := s.maps - c.unmaps } := by
  refine hi.transfer ht rfl rfl (fun y => ?_) (runs_code c) fun y => by rw [hcode, count_free_code]; rfl
  have h1 := Multiset.count_le_of_le y huses
  have h2 := Multiset.count_le_of_le y hunmaps
  simp only [Host.frame, hheld, Multiset.count_add, Multiset.count_sub, Multiset.count_zero]
  omega

/-- A step is a new client thread, a call, a fault, or one instruction. -/
theorem step_cases {l : HostLabel} {s' : Host} (hs : s.step l = some s') :
    (l = .attach ∧ s' = { s with threads := s.threads ++ [.idle] }) ∨
    (∃ t c f, l = .call t c ∧ s.threads[t]? = some f ∧ f.role = none ∧ f.code = [] ∧
      (c.uses : Multiset Id) ≤ s.pool ∧ (c.unmaps : Multiset Id) ≤ s.maps ∧
      s' = { s.frame t { f with code := c.code, held := c.uses + c.unmaps } with
        pool := s.pool - c.uses
        maps := s.maps - c.unmaps }) ∨
    (∃ t ok f i rest, l = .run t ok ∧ s.threads[t]? = some f ∧ f.code = i :: rest ∧
      (((∃ x ∈ i.accesses s, s.gone x = true) ∧ s' = { s with fault := true }) ∨
      s.exec t f rest ok i = some s')) := by
  cases l with
  | attach =>
    cases hs
    exact .inl ⟨rfl, rfl⟩
  | call t c =>
    simp only [Host.step] at hs
    split at hs
    · rename_i f ht
      split at hs <;> cases hs
      rename_i h
      exact .inr (.inl ⟨t, c, f, rfl, ht, h.1, h.2.1, h.2.2.1, h.2.2.2, rfl⟩)
    · cases hs
  | run t ok =>
    simp only [Host.step] at hs
    split at hs
    · rename_i f ht
      split at hs
      · rename_i i rest hcode
        refine .inr (.inr ⟨t, ok, f, i, rest, rfl, ht, hcode, ?_⟩)
        split at hs
        · rename_i hany
          cases hs
          exact .inl ⟨List.any_eq_true.1 hany, rfl⟩
        · exact .inr hs
      · cases hs
    · cases hs

theorem RefInv.step (hi : RefInv s) (hset : Settled s) {l : HostLabel} {s' : Host} (hs : s.step l = some s') :
    RefInv s' := by
  rcases step_cases hs with ⟨-, rfl⟩ | ⟨t, c, f, -, ht, -, hcode, huses, hunmaps, rfl⟩ |
    ⟨t, ok, f, i, rest, -, ht, hcode, ⟨-, rfl⟩ | he⟩
  · exact hi.spawn rfl trivial (by simp [Thread.idle])
  · exact hi.call ht hcode (hset f (List.mem_of_getElem? ht) hcode) huses hunmaps
  · exact ⟨hi.runs, hi.count, hi.live, hi.dead, hi.absent⟩
  · exact hi.exec ht hcode he

end Vdsp
