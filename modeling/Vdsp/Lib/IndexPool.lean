import Mathlib.Data.Finset.Basic
import Mathlib.Order.Bounds.Defs

/-!
# Pools of indexes

A pool hands out the indexes below `n`; its state is the set of those that are taken.  The calls answer with a
code, as in C: the index that is handed out or 0, and -1 for a failure.

* `Step n s c r s'`: the call `c` answers `r` in `s`, and leaves `s'`.
* `Run n s calls s'`: the calls with their answers, one after the other.
* `Run.free_between`: an index is freed before it is handed out again.
-/

namespace IndexPool

inductive PoolCall
  | alloc
  | free (i : ℤ)
  | check (i : ℤ)
  deriving DecidableEq, Repr

/-- The least free index is handed out; only what is taken can be freed, and is valid. -/
inductive Step (n : ℕ) (s : Finset ℕ) : PoolCall → ℤ → Finset ℕ → Prop
  | alloc {i : ℕ} (h : IsLeast {k | k < n ∧ k ∉ s} i) : Step n s .alloc i (insert i s)
  | full (h : ∀ k < n, k ∈ s) : Step n s .alloc (-1) s
  | free {i : ℕ} (h : i ∈ s) : Step n s (.free i) 0 (s.erase i)
  | notFreed {i : ℤ} (h : ∀ k ∈ s, (k : ℤ) ≠ i) : Step n s (.free i) (-1) s
  | valid {i : ℕ} (h : i ∈ s) : Step n s (.check i) 0 s
  | notValid {i : ℤ} (h : ∀ k ∈ s, (k : ℤ) ≠ i) : Step n s (.check i) (-1) s

inductive Run (n : ℕ) : Finset ℕ → List (PoolCall × ℤ) → Finset ℕ → Prop
  | nil {s : Finset ℕ} : Run n s [] s
  | cons {s s' s'' : Finset ℕ} {c : PoolCall} {r : ℤ} {calls : List (PoolCall × ℤ)} (h : Step n s c r s')
      (hs : Run n s' calls s'') : Run n s ((c, r) :: calls) s''

variable {n i : ℕ} {s s' : Finset ℕ} {c : PoolCall} {r : ℤ} {calls calls' pre mid post : List (PoolCall × ℤ)}

theorem run_append : Run n s (calls ++ calls') s' ↔ ∃ t, Run n s calls t ∧ Run n t calls' s' := by
  constructor
  · intro h
    induction calls generalizing s with
    | nil => exact ⟨s, .nil, h⟩
    | cons c calls ih =>
      cases h with
      | cons hc h =>
        obtain ⟨t, h₁, h₂⟩ := ih h
        exact ⟨t, .cons hc h₁, h₂⟩
  · rintro ⟨t, h₁, h₂⟩
    induction h₁ with
    | nil => exact h₂
    | cons hc _ ih => exact .cons hc (ih h₂)

/-- A run goes on with a step. -/
theorem Run.snoc {t : Finset ℕ} (h : Run n s calls t) (hc : Step n t c r s') :
    Run n s (calls ++ [(c, r)]) s' :=
  run_append.2 ⟨t, h, .cons hc .nil⟩

/-- What is handed out was free, and is taken then. -/
theorem Step.of_alloc (h : Step n s .alloc i s') : i ∉ s ∧ i ∈ s' := by
  generalize hr : (i : ℤ) = r at h
  cases h with
  | alloc h =>
    cases Int.ofNat_inj.1 hr
    exact ⟨h.1.2, Finset.mem_insert_self _ _⟩
  | full h => omega

/-- What is taken stays so until it is freed. -/
theorem Step.taken (h : Step n s c r s') (hi : i ∈ s) (hne : (c, r) ≠ (.free i, 0)) : i ∈ s' := by
  cases h with
  | alloc h => exact Finset.mem_insert_of_mem hi
  | @free k h =>
    refine Finset.mem_erase.2 ⟨?_, hi⟩
    rintro rfl
    exact hne rfl
  | _ => exact hi

theorem Run.taken (h : Run n s calls s') (hi : i ∈ s) (hfree : (.free i, 0) ∉ calls) : i ∈ s' := by
  induction h with
  | nil => exact hi
  | cons hc _ ih =>
    refine ih (hc.taken hi fun he => hfree ?_) fun hm => hfree (List.mem_cons_of_mem _ hm)
    rw [he]
    exact List.mem_cons_self

/-- Between two allocations of an index it is freed. -/
theorem Run.free_between (h : Run n s (pre ++ (.alloc, (i : ℤ)) :: mid ++ (.alloc, (i : ℤ)) :: post) s') :
    (.free i, 0) ∈ mid := by
  by_contra hmid
  obtain ⟨t, h₁, h₂⟩ := run_append.1 h
  obtain ⟨t₀, -, h₁⟩ := run_append.1 h₁
  cases h₁ with
  | cons hfirst hrun =>
    cases h₂ with
    | cons hsecond _ =>
      -- the first allocation takes the index, and the second one needs it free
      have htaken := hrun.taken hfirst.of_alloc.2 hmid
      exact hsecond.of_alloc.1 htaken

end IndexPool
