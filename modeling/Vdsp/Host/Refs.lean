import Vdsp.Host.Code
import Vdsp.Lib.Ledger

/-!
# Reference counts

`RefInv` says that every thread can go on with its code, that the count of every object is the number of
references to it wherever they are, and that an object whose count is zero is freed or is about to be, by one
`free` in one thread's code.  Each lemma of this module is about one way in which a step moves references.
-/

namespace Vdsp

open Ledger

/-- The references that a live object holds; those of a dying one are with the thread that destroys it. -/
def Cell.liveRefs (c : Cell) : Multiset Id := if c.count = 0 then 0 else c.body.refs

theorem liveRefs_of_pos {c : Cell} (h : 0 < c.count) : c.liveRefs = c.body.refs := if_neg (by omega)

/-- The reference count of `x`. -/
def Host.count (s : Host) (x : Id) : Nat := ((s.heap[x]?).map Cell.count).getD 0

/-- The number of references to `x`. -/
def Host.refs (s : Host) (x : Id) : Nat :=
  s.pool.count x + s.maps.count x + s.leaked.count x + total (fun f : Thread => f.held.count x) s.threads +
    total (fun r : Request => (r.refs : Multiset Id).count x) s.requests +
    total (fun c : Cell => c.liveRefs.count x) s.heap

/-- The number of times that `x` is about to be freed. -/
def Host.frees (s : Host) (x : Id) : Nat := total (fun f : Thread => f.code.count (.free x)) s.threads

/-- Freed once, or not. -/
def Cell.freedOnce (c : Cell) : Nat := if c.freed then 1 else 0

/-- A freed object is dead, and a dead one that is not freed is freed by one instruction. -/
structure RefInv (s : Host) : Prop where
  runs : ∀ f ∈ s.threads, Runs f.code f.held
  count : ∀ x, s.count x = s.refs x
  live : ∀ (x : Id) c, s.heap[x]? = some c → 0 < c.count → s.frees x = 0 ∧ c.freed = false
  dead : ∀ (x : Id) c, s.heap[x]? = some c → c.count = 0 → s.frees x + c.freedOnce = 1
  absent : ∀ x : Id, s.heap[x]? = none → s.frees x = 0

variable {s : Host} {t : Nat} {f : Thread}

theorem Host.count_eq {x : Id} {c : Cell} (h : s.heap[x]? = some c) : s.count x = c.count := by
  simp [Host.count, h]

/-! ### The primitives -/

theorem heap_modify {x y : Id} {g : Cell → Cell} {c : Cell} (h : (s.modify x g).heap[y]? = some c) :
    (y ≠ x ∧ s.heap[y]? = some c) ∨ (y = x ∧ ∃ c', s.heap[x]? = some c' ∧ c = g c') := by
  rw [Host.modify, List.getElem?_modify] at h
  by_cases hxy : x = y
  · subst hxy
    obtain ⟨c', hc', rfl⟩ := Option.map_eq_some_iff.1 h
    exact .inr ⟨rfl, c', hc', by simp⟩
  · simp only [hxy, if_false] at h
    exact .inl ⟨fun h => hxy h.symm, by simpa using h⟩

theorem heap_modify_none {x y : Id} {g : Cell → Cell} : (s.modify x g).heap[y]? = none ↔ s.heap[y]? = none := by
  simp [Host.modify, List.getElem?_modify]

theorem count_modify {x : Id} {g : Cell → Cell} {c : Cell} (h : s.heap[x]? = some c) (y : Id) :
    (s.modify x g).count y = if y = x then (g c).count else s.count y := by
  unfold Host.count Host.modify
  rw [List.getElem?_modify]
  by_cases hxy : x = y
  · subst hxy
    simp [h]
  · simp [hxy, Ne.symm hxy]

theorem refs_modify {x : Id} {g : Cell → Cell} {c : Cell} (h : s.heap[x]? = some c) (y : Id) :
    (s.modify x g).refs y + c.liveRefs.count y = s.refs y + (g c).liveRefs.count y := by
  have := total_modify (fun c : Cell => c.liveRefs.count y) g h
  simp only [Host.refs, Host.modify]
  omega

theorem refs_frame (f' : Thread) (h : s.threads[t]? = some f) (y : Id) :
    (s.frame t f').refs y + f.held.count y = s.refs y + f'.held.count y := by
  have := total_set (fun f : Thread => f.held.count y) f' h
  simp only [Host.refs, Host.frame]
  omega

theorem frees_frame (f' : Thread) (h : s.threads[t]? = some f) (y : Id) :
    (s.frame t f').frees y + f.code.count (.free y) = s.frees y + f'.code.count (.free y) :=
  total_set (fun f : Thread => f.code.count (Instr.free y)) f' h

theorem mem_threads_set {ts : List Thread} {f' x : Thread} (h : x ∈ ts.set t f') : x = f' ∨ x ∈ ts :=
  (List.mem_or_eq_of_mem_set h).symm

/-- The number of `free`s in a thread's code. -/
def SameFrees (c c' : List Instr) : Prop := ∀ y, c'.count (.free y) = c.count (.free y)

/-! ### What the invariant gives -/

/-- Counted references are to live objects. -/
theorem RefInv.of_refs (hi : RefInv s) {x : Id} (h : 0 < s.refs x) :
    ∃ c, s.heap[x]? = some c ∧ 0 < c.count ∧ c.freed = false := by
  have hc := hi.count x
  cases hx : s.heap[x]? with
  | none =>
    have : s.count x = 0 := by simp [Host.count, hx]
    omega
  | some c =>
    rw [Host.count_eq hx] at hc
    exact ⟨c, rfl, by omega, (hi.live x c hx (by omega)).2⟩

theorem held_le_refs (h : s.threads[t]? = some f) (x : Id) : f.held.count x ≤ s.refs x := by
  have := le_total (fun f : Thread => f.held.count x) (List.mem_of_getElem? h)
  simp only [Host.refs]
  omega

theorem liveRefs_le_refs {y : Id} {c : Cell} (h : s.heap[y]? = some c) (x : Id) :
    c.liveRefs.count x ≤ s.refs x := by
  have := le_total (fun c : Cell => c.liveRefs.count x) (List.mem_of_getElem? h)
  simp only [Host.refs]
  omega

/-- What a thread holds is live. -/
theorem RefInv.of_held (hi : RefInv s) (h : s.threads[t]? = some f) {x : Id} (hx : x ∈ f.held) :
    ∃ c, s.heap[x]? = some c ∧ 0 < c.count ∧ c.freed = false := by
  have := held_le_refs h x
  have := Multiset.count_pos.2 hx
  exact hi.of_refs (by omega)

/-- What a live object refers to is live. -/
theorem RefInv.of_body (hi : RefInv s) {y : Id} {c : Cell} (h : s.heap[y]? = some c) (hc : 0 < c.count) {x : Id}
    (hx : x ∈ c.body.refs) : ∃ c', s.heap[x]? = some c' ∧ 0 < c'.count ∧ c'.freed = false := by
  have := liveRefs_le_refs h x
  have hl : c.liveRefs.count x = (c.body.refs : Multiset Id).count x := by
    rw [liveRefs_of_pos hc]
  have := Multiset.count_pos.2 (Multiset.mem_coe.2 hx)
  exact hi.of_refs (by omega)

/-! ### The ways in which a step moves references -/

/-- The code of a thread goes on, and its references stay in sight. -/
theorem RefInv.transfer (hi : RefInv s) (ht : s.threads[t]? = some f) {f' : Thread} {s' : Host}
    (hheap : s'.heap = s.heap) (hthreads : s'.threads = s.threads.set t f')
    (hmove : ∀ y, s'.pool.count y + s'.maps.count y + s'.leaked.count y +
      total (fun r : Request => (r.refs : Multiset Id).count y) s'.requests + f'.held.count y =
      s.pool.count y + s.maps.count y + s.leaked.count y +
      total (fun r : Request => (r.refs : Multiset Id).count y) s.requests + f.held.count y)
    (hrun : Runs f'.code f'.held) (hfree : SameFrees f.code f'.code) : RefInv s' := by
  have hfrees : ∀ y, s'.frees y = s.frees y := by
    intro y
    have h1 := frees_frame f' ht y
    have h2 : s'.frees y = (s.frame t f').frees y := by rw [Host.frees, hthreads, Host.frees, Host.frame]
    rw [hfree y] at h1
    omega
  refine ⟨?_, ?_, ?_, ?_, ?_⟩
  · rw [hthreads]
    intro x hx
    rcases mem_threads_set hx with rfl | hx
    · exact hrun
    · exact hi.runs x hx
  · intro y
    have h1 := hi.count y
    have h2 := hmove y
    have h3 := total_set (fun f : Thread => f.held.count y) f' ht
    simp only [Host.count, Host.refs, hheap, hthreads] at h1 ⊢
    omega
  · intro y c hc hpos
    rw [hfrees]
    exact hi.live y c (hheap ▸ hc) hpos
  · intro y c hc h0
    rw [hfrees]
    exact hi.dead y c (hheap ▸ hc) h0
  · intro y hy
    rw [hfrees]
    exact hi.absent y (hheap ▸ hy)

/-- The code of a thread goes on. -/
theorem RefInv.goOn (hi : RefInv s) (ht : s.threads[t]? = some f) {code : List Instr} (hrun : Runs code f.held)
    (hfree : SameFrees f.code code) : RefInv (s.goOn t f code) :=
  hi.transfer ht rfl rfl (fun _ => rfl) hrun hfree

/-- An object changes without touching its references. -/
theorem RefInv.setBody (hi : RefInv s) {x : Id} {c : Cell} {b : Body} (hx : s.heap[x]? = some c)
    (hb : b.refs = c.body.refs) : RefInv (s.modify x (Cell.setBody b)) := by
  have hfrees : ∀ y, (s.modify x (Cell.setBody b)).frees y = s.frees y := fun _ => rfl
  refine ⟨hi.runs, ?_, ?_, ?_, ?_⟩
  · intro y
    have h1 := hi.count y
    have h2 := refs_modify (g := Cell.setBody b) hx y
    have h3 : (Cell.setBody b c).liveRefs = c.liveRefs := by simp [Cell.liveRefs, Cell.setBody, hb]
    rw [h3] at h2
    rw [count_modify hx]
    split
    · rename_i h
      rw [h] at h1 h2 ⊢
      rw [Host.count_eq hx] at h1
      show c.count = _
      omega
    · omega
  · intro y c' hc hpos
    rw [hfrees]
    rcases heap_modify hc with ⟨-, hc⟩ | ⟨rfl, c₀, hc₀, rfl⟩
    · exact hi.live y c' hc hpos
    · exact hi.live y c₀ hc₀ hpos
  · intro y c' hc h0
    rw [hfrees]
    rcases heap_modify hc with ⟨-, hc⟩ | ⟨rfl, c₀, hc₀, rfl⟩
    · exact hi.dead y c' hc h0
    · exact hi.dead y c₀ hc₀ h0
  · intro y hy
    rw [hfrees]
    exact hi.absent y (heap_modify_none.1 hy)

/-- An object changes and a thread goes on: the count and the references change by the same number, and the
object stays as live or dead as it was. -/
theorem RefInv.update (hi : RefInv s) (ht : s.threads[t]? = some f) {x : Id} {c : Cell} {g : Cell → Cell}
    {f' : Thread} (hx : s.heap[x]? = some c) (h0 : (g c).count = 0 ↔ c.count = 0) (hf : (g c).freed = c.freed)
    (hbal : ∀ y, (if y = x then (g c).count else 0) + c.liveRefs.count y + f.held.count y =
      (if y = x then c.count else 0) + (g c).liveRefs.count y + f'.held.count y)
    (hrun : Runs f'.code f'.held) (hfree : SameFrees f.code f'.code) : RefInv ((s.modify x g).frame t f') := by
  have hfrees : ∀ y, ((s.modify x g).frame t f').frees y = s.frees y := by
    intro y
    have h1 := frees_frame f' ht y
    rw [hfree y] at h1
    have h2 : ((s.modify x g).frame t f').frees y = (s.frame t f').frees y := rfl
    omega
  have hheap : ∀ y : Id, ((s.modify x g).frame t f').heap[y]? = (s.modify x g).heap[y]? := fun _ => rfl
  refine ⟨?_, ?_, ?_, ?_, ?_⟩
  · intro y hy
    rcases mem_threads_set hy with rfl | hy
    · exact hrun
    · exact hi.runs y hy
  · intro y
    have h1 := hi.count y
    have h2 := refs_modify (g := g) hx y
    have h3 := refs_frame (s := s.modify x g) f' ht y
    have h4 := hbal y
    have h5 : ((s.modify x g).frame t f').count y = (s.modify x g).count y := rfl
    rw [h5, count_modify hx]
    split
    · rename_i h
      rw [h] at h1 h2 h3 h4 ⊢
      simp only [if_true] at h4
      rw [Host.count_eq hx] at h1
      omega
    · rename_i h
      simp only [h, if_false] at h4
      omega
  · intro y c' hc hpos
    rw [hfrees]
    rcases heap_modify hc with ⟨-, hc⟩ | ⟨rfl, c₀, hc₀, rfl⟩
    · exact hi.live y c' hc hpos
    · rw [hx] at hc₀
      cases hc₀
      rw [hf]
      exact hi.live y c hx (Nat.pos_of_ne_zero fun h => by rw [h0.2 h] at hpos; exact lt_irrefl _ hpos)
  · intro y c' hc hz
    rw [hfrees]
    rcases heap_modify hc with ⟨-, hc⟩ | ⟨rfl, c₀, hc₀, rfl⟩
    · exact hi.dead y c' hc hz
    · rw [hx] at hc₀
      cases hc₀
      rw [Cell.freedOnce, hf]
      exact hi.dead y c hx (h0.1 hz)
  · intro y hy
    rw [hfrees]
    exact hi.absent y (heap_modify_none.1 ((hheap y).symm.trans hy))

/-- `retain_refcounted` by a thread that then holds the reference. -/
theorem RefInv.retain (hi : RefInv s) (ht : s.threads[t]? = some f) {x : Id} {c : Cell} (hx : s.heap[x]? = some c)
    (hc : 0 < c.count) {f' : Thread} (hheld : f'.held = x ::ₘ f.held) (hrun : Runs f'.code f'.held)
    (hfree : SameFrees f.code f'.code) : RefInv ((s.modify x Cell.inc).frame t f') := by
  refine hi.update ht hx ?_ rfl (fun y => ?_) hrun hfree
  · simp only [Cell.inc]
    omega
  · have h1 : (Cell.inc c).liveRefs = c.liveRefs := by
      rw [liveRefs_of_pos hc, liveRefs_of_pos (Nat.succ_pos _)]
      rfl
    rw [h1, hheld, Multiset.count_cons]
    simp only [Cell.inc]
    split <;> omega

/-- References move between a live object and the thread. -/
theorem RefInv.exchange (hi : RefInv s) (ht : s.threads[t]? = some f) {x : Id} {c : Cell}
    (hx : s.heap[x]? = some c) (hc : 0 < c.count) {b : Body} {g : Thread}
    (hmove : (b.refs : Multiset Id) + g.held = (c.body.refs : Multiset Id) + f.held) (hrun : Runs g.code g.held)
    (hfree : SameFrees f.code g.code) : RefInv ((s.modify x (Cell.setBody b)).frame t g) := by
  refine hi.update ht hx Iff.rfl rfl (fun y => ?_) hrun hfree
  have hm := congrArg (Multiset.count y) hmove
  have h1 : (Cell.setBody b c).liveRefs = b.refs := liveRefs_of_pos (show 0 < c.count from hc)
  rw [h1, liveRefs_of_pos hc]
  rw [Multiset.count_add, Multiset.count_add] at hm
  show (if y = x then c.count else 0) + _ + _ = _
  omega

/-- A thread retains an object for another one, which then refers to it. -/
theorem RefInv.attach (hi : RefInv s) (ht : s.threads[t]? = some f) {x z : Id} {c d : Cell}
    (hx : s.heap[x]? = some c)
    (hc : 0 < c.count) (hz : s.heap[z]? = some d) (hd : 0 < d.count) {b : Body} {code : List Instr}
    (hb : (b.refs : Multiset Id) = x ::ₘ (d.body.refs : Multiset Id)) (hrun : Runs code f.held)
    (hfree : SameFrees f.code code) : RefInv (((s.modify x Cell.inc).modify z (Cell.setBody b)).goOn t
      f code) := by
  have hi₁ : RefInv ((s.modify x Cell.inc).frame t { f with held := x ::ₘ f.held, code := code }) :=
    hi.retain ht hx hc rfl (hrun.mono (Multiset.le_cons_self _ _)) hfree
  have ht₁ : ((s.modify x Cell.inc).frame t { f with held := x ::ₘ f.held, code := code }).threads[t]? =
      some { f with held := x ::ₘ f.held, code := code } :=
    List.getElem?_set_self (List.getElem?_eq_some_iff.1 ht).1
  -- the object that gets the reference, which may be the retained one
  obtain ⟨d₁, hd₁, hbody, hpos⟩ : ∃ d₁, ((s.modify x Cell.inc).frame t
      { f with held := x ::ₘ f.held, code := code }).heap[z]? = some d₁ ∧ d₁.body = d.body ∧ 0 < d₁.count := by
    show ∃ d₁, (s.heap.modify x Cell.inc)[z]? = some d₁ ∧ _
    rw [List.getElem?_modify, hz]
    by_cases h : x = z
    · exact ⟨Cell.inc d, by simp [h], rfl, Nat.succ_pos _⟩
    · exact ⟨d, by simp [h], rfl, hd⟩
  have := hi₁.exchange ht₁ hd₁ hpos (b := b) (g := { f with code := code })
    (by rw [hbody, hb, Multiset.cons_add, Multiset.add_cons]) hrun (fun _ => rfl)
  simpa [Host.frame, Host.modify, Host.goOn] using this

/-- `alloc_refcounted` of an object that gets some of the thread's references. -/
theorem RefInv.alloc (hi : RefInv s) (ht : s.threads[t]? = some f) {body : Body} {code : Id → List Instr}
    (hle : (body.refs : Multiset Id) ≤ f.held)
    (hrun : Runs (code s.heap.length) (s.heap.length ::ₘ (f.held - body.refs)))
    (hfree : SameFrees f.code (code s.heap.length)) : RefInv (s.alloc t f body code) := by
  set f' : Thread := { f with code := code s.heap.length, held := s.heap.length ::ₘ (f.held - body.refs) } with
    hf'
  have hfrees : ∀ y, (s.alloc t f body code).frees y = s.frees y := by
    intro y
    have h1 := frees_frame f' ht y
    rw [show f'.code.count (.free y) = f.code.count (.free y) from hfree y] at h1
    have h2 : (s.alloc t f body code).frees y = (s.frame t f').frees y := rfl
    omega
  have hheap : ∀ y c, (s.alloc t f body code).heap[y]? = some c →
      s.heap[y]? = some c ∨ (s.heap[y]? = none ∧ y = s.heap.length ∧ c = ⟨1, body, false⟩) := by
    intro y c hc
    have hc : (s.heap ++ [⟨1, body, false⟩])[y]? = some c := hc
    rcases Nat.lt_trichotomy y s.heap.length with h | h | h
    · rw [List.getElem?_append_left h] at hc
      exact .inl hc
    · rw [h, List.getElem?_concat_length] at hc
      cases hc
      exact .inr ⟨by simp [h], h, rfl⟩
    · rw [List.getElem?_eq_none (by simp; omega)] at hc
      cases hc
  refine ⟨?_, ?_, ?_, ?_, ?_⟩
  · intro y hy
    rcases mem_threads_set hy with rfl | hy
    · exact hrun
    · exact hi.runs y hy
  · intro y
    have h1 := hi.count y
    have h3 := total_set (fun f : Thread => f.held.count y) f' ht
    have h4 := Multiset.count_le_of_le y hle
    have h5 : (s.alloc t f body code).count y = if y = s.heap.length then 1 else s.count y := by
      show ((((s.heap ++ [⟨1, body, false⟩])[y]?).map Cell.count).getD 0) = _
      rcases Nat.lt_trichotomy y s.heap.length with h | h | h
      · rw [List.getElem?_append_left h, if_neg (Nat.ne_of_lt h)]
        rfl
      · rw [h, List.getElem?_concat_length, if_pos rfl]
        rfl
      · rw [List.getElem?_eq_none (by simp; omega), if_neg (Nat.ne_of_gt h), Host.count,
          List.getElem?_eq_none (Nat.le_of_lt h)]
    have h6 : total (fun c : Cell => c.liveRefs.count y) (s.heap ++ [⟨1, body, false⟩]) =
        total (fun c : Cell => c.liveRefs.count y) s.heap + (body.refs : Multiset Id).count y := by
      rw [total_append, total_cons, total_nil]
      rfl
    have h7 : s.count s.heap.length = 0 := by simp [Host.count]
    have h8 : f'.held.count y = (if y = s.heap.length then 1 else 0) +
      (f.held.count y - (body.refs : Multiset Id).count y) := by
      rw [hf']
      simp only [Multiset.count_cons, Multiset.count_sub]
      omega
    rw [h5]
    simp only [Host.alloc, Host.frame, Host.refs] at h1 ⊢
    rw [h6, ← hf']
    split
    · rename_i h
      rw [if_pos h] at h8
      rw [h, h7] at h1
      rw [h] at h3 h4 h8 ⊢
      omega
    · rename_i h
      rw [if_neg h] at h8
      omega
  · intro y c hc hpos
    rw [hfrees]
    rcases hheap y c hc with hc | ⟨hn, -, rfl⟩
    · exact hi.live y c hc hpos
    · exact ⟨hi.absent y hn, rfl⟩
  · intro y c hc h0
    rw [hfrees]
    rcases hheap y c hc with hc | ⟨-, -, rfl⟩
    · exact hi.dead y c hc h0
    · cases h0
  · intro y hy
    rw [hfrees]
    refine hi.absent y ?_
    have hy : (s.heap ++ [⟨1, body, false⟩])[y]? = none := hy
    rw [List.getElem?_eq_none_iff] at hy ⊢
    rw [List.length_append] at hy
    omega

end Vdsp
