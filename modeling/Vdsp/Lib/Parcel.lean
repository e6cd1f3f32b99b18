import Mathlib.Data.Finset.Basic
import Mathlib.Logic.Function.Basic

/-!
# A heap in parcels

A heap maps the addresses of what is allocated to its contents.  `store` and `free` of what is not allocated are
undefined (`none`).

`Owned cells ps h` says that the heap `h` consists of the parcels `ps` and nothing else: `cells p` are the
addresses of the parcel `p` with their contents, and no address belongs to two parcels.  So what one owner does with its
parcel leaves the others as they are, a heap without parcels is empty, and what is in no parcel has been freed.
-/

namespace Parcel

abbrev Heap (α β : Type*) := α → Option β

variable {α β π : Type*}

section Calls

variable [DecidableEq α] {h h' : Heap α β} {a : α} {b b' : β}

/-- `malloc` gives the address `a`, which must be free. -/
def malloc (h : Heap α β) (a : α) (b : β) : Option (Heap α β) :=
  if (h a).isSome then none else some (Function.update h a (some b))

def store (h : Heap α β) (a : α) (b : β) : Option (Heap α β) :=
  if (h a).isSome then some (Function.update h a (some b)) else none

def free (h : Heap α β) (a : α) : Option (Heap α β) :=
  if (h a).isSome then some (Function.update h a none) else none

theorem malloc_eq_some : malloc h a b = some h' ↔ h a = none ∧ h' = Function.update h a (some b) := by
  unfold malloc
  cases ha : h a with
  | none => simp [eq_comm]
  | some c => simp

theorem store_eq (ha : h a = some b') : store h a b = some (Function.update h a (some b)) := by
  simp [store, ha]

theorem free_eq (ha : h a = some b) : free h a = some (Function.update h a none) := by
  simp [free, ha]

/-- What was just allocated is freed. -/
theorem free_of_malloc (h₁ : malloc h a b = some h') : free h' a = some h := by
  obtain ⟨ha, rfl⟩ := malloc_eq_some.1 h₁
  rw [free_eq (b := b) (by rw [Function.update_self]), Function.update_idem, ← ha, Function.update_eq_self]

end Calls

structure Owned (cells : π → Heap α β) (ps : Finset π) (h : Heap α β) : Prop where
  cell : ∀ a b, h a = some b ↔ ∃ p ∈ ps, cells p a = some b
  apart : ∀ p ∈ ps, ∀ q ∈ ps, ∀ a b c, cells p a = some b → cells q a = some c → p = q

variable {cells : π → Heap α β} {ps : Finset π} {p q : π} {h h' : Heap α β} {a : α} {b b' : β}

theorem owned_empty (cells : π → Heap α β) : Owned cells ∅ (fun _ => none) := by
  constructor <;> simp

theorem Owned.load (ho : Owned cells ps h) (hp : p ∈ ps) (ha : cells p a = some b) : h a = some b :=
  (ho.cell a b).2 ⟨p, hp, ha⟩

/-- Without parcels nothing is allocated. -/
theorem Owned.empty (ho : Owned cells ∅ h) (a : α) : h a = none := by
  cases ha : h a with
  | none => rfl
  | some b =>
    obtain ⟨p, hp, -⟩ := (ho.cell a b).1 ha
    cases hp

variable [DecidableEq π]

/-- A new parcel, of addresses that were free. -/
theorem Owned.add (ho : Owned cells ps h) (hfree : ∀ a b, cells p a = some b → h a = none)
    (hh : ∀ a, h' a = (cells p a).or (h a)) : Owned cells (insert p ps) h' := by
  have hnot : ∀ q ∈ ps, ∀ a b c, cells q a = some b → cells p a = some c → False := by
    intro q hq a b c hb hc
    have := ho.load hq hb
    rw [hfree a c hc] at this
    cases this
  constructor
  · intro a b
    rw [hh]
    constructor
    · intro h
      cases hp : cells p a with
      | none =>
        rw [hp, Option.none_or] at h
        obtain ⟨q, hq, hqa⟩ := (ho.cell a b).1 h
        exact ⟨q, Finset.mem_insert_of_mem hq, hqa⟩
      | some c =>
        rw [hp, Option.some_or] at h
        exact ⟨p, Finset.mem_insert_self p ps, hp.trans h⟩
    · rintro ⟨q, hq, hqa⟩
      rcases Finset.mem_insert.1 hq with rfl | hq
      · rw [hqa, Option.some_or]
      · have hp : cells p a = none := Option.eq_none_iff_forall_ne_some.2 fun c hc => hnot q hq a b c hqa hc
        rw [hp, Option.none_or]
        exact ho.load hq hqa
  · intro q hq r hr a b c hb hc
    rcases Finset.mem_insert.1 hq with hqp | hq' <;> rcases Finset.mem_insert.1 hr with hrp | hr'
    · rw [hqp, hrp]
    · exact (hnot r hr' a c b hc (hqp ▸ hb)).elim
    · exact (hnot q hq' a b c hb (hrp ▸ hc)).elim
    · exact ho.apart q hq' r hr' a b c hb hc

/-- A parcel is given back. -/
theorem Owned.drop (ho : Owned cells ps h) (hp : p ∈ ps)
    (hh : ∀ a, h' a = if (cells p a).isSome then none else h a) : Owned cells (ps.erase p) h' := by
  constructor
  · intro a b
    rw [hh]
    cases hpa : cells p a with
    | none =>
      simp only [Option.isSome_none, Bool.false_eq_true, if_false]
      rw [ho.cell]
      constructor
      · rintro ⟨q, hq, hqa⟩
        refine ⟨q, Finset.mem_erase.2 ⟨fun he => ?_, hq⟩, hqa⟩
        rw [he, hpa] at hqa
        cases hqa
      · rintro ⟨q, hq, hqa⟩
        exact ⟨q, Finset.mem_of_mem_erase hq, hqa⟩
    | some c =>
      simp only [Option.isSome_some, if_true]
      constructor
      · nofun
      · rintro ⟨q, hq, hqa⟩
        obtain ⟨hne, hq⟩ := Finset.mem_erase.1 hq
        exact absurd (ho.apart q hq p hp a b c hqa hpa) hne
  · intro q hq r hr
    exact ho.apart q (Finset.mem_of_mem_erase hq) r (Finset.mem_of_mem_erase hr)

/-- The two cells of a parcel are freed. -/
theorem Owned.drop_pair [DecidableEq α] (ho : Owned cells ps h) (hp : p ∈ ps) {x y : α}
    (hcells : ∀ a, (cells p a).isSome = true ↔ a = x ∨ a = y) :
    Owned cells (ps.erase p) (Function.update (Function.update h x none) y none) := by
  refine ho.drop hp fun a => ?_
  by_cases hy : a = y
  · rw [if_pos ((hcells a).2 (.inr hy)), hy, Function.update_self]
  · rw [Function.update_of_ne hy]
    by_cases hx : a = x
    · rw [if_pos ((hcells a).2 (.inl hx)), hx, Function.update_self]
    · rw [Function.update_of_ne hx, if_neg]
      intro ha
      rcases (hcells a).1 ha with h | h
      · exact hx h
      · exact hy h

end Parcel
