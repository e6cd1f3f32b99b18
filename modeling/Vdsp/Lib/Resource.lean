import Mathlib.Data.List.Count
import Mathlib.Tactic.TypeStar

/-!
# Resources that are acquired and released

A run of a program as a list of events.  `replay` follows what is held, and is `none` when something is released
that is not held.  A run is clean when it starts and ends with nothing.
-/

namespace Resource

variable {ρ : Type*} [DecidableEq ρ]

inductive Event (ρ : Type*)
  | acquire (r : ρ)
  | release (r : ρ)
  deriving DecidableEq

/-- What is held after the events. -/
def replay (held : List ρ) : List (Event ρ) → Option (List ρ)
  | [] => some held
  | .acquire r :: es => replay (r :: held) es
  | .release r :: es => if r ∈ held then replay (held.erase r) es else none

def Clean (es : List (Event ρ)) : Prop := replay [] es = some []

instance (es : List (Event ρ)) : Decidable (Clean es) := inferInstanceAs (Decidable (_ = _))

variable {held held' : List ρ} {es : List (Event ρ)} {r : ρ}

@[simp] theorem replay_nil (held : List ρ) : replay held [] = some held := rfl

@[simp] theorem replay_acquire (held : List ρ) (r : ρ) (es : List (Event ρ)) :
    replay held (.acquire r :: es) = replay (r :: held) es := rfl

theorem replay_release (h : r ∈ held) (es : List (Event ρ)) :
    replay held (.release r :: es) = replay (held.erase r) es := if_pos h

/-- What was acquired last. -/
@[simp] theorem replay_release_head (held : List ρ) (r : ρ) (es : List (Event ρ)) :
    replay (r :: held) (.release r :: es) = replay held es := by
  rw [replay_release List.mem_cons_self, List.erase_cons_head]

/-- What was acquired last, in the other order. -/
theorem replay_release_swap (held : List ρ) (q r : ρ) (es : List (Event ρ)) :
    replay (r :: q :: held) (.release q :: .release r :: es) = replay held es := by
  rw [replay_release (List.mem_cons_of_mem _ List.mem_cons_self)]
  by_cases h : r = q
  · rw [h, List.erase_cons_head, replay_release_head]
  · have herase : (r :: q :: held).erase q = r :: held := by
      rw [List.erase_cons_tail (by simpa using h), List.erase_cons_head]
    rw [herase, replay_release_head]

/-- What is held in the end, and what was released, is what was held and what was acquired. -/
theorem replay_count (h : replay held es = some held') (r : ρ) :
    held'.count r + es.count (.release r) = held.count r + es.count (.acquire r) := by
  induction es generalizing held with
  | nil =>
    cases h
    simp
  | cons e es ih =>
    cases e with
    | acquire q =>
      have := ih h
      have hrel : (Event.acquire q :: es).count (.release r) = es.count (.release r) :=
        List.count_cons_of_ne (by simp)
      rw [hrel]
      by_cases hq : q = r
      · subst hq
        rw [List.count_cons_self] at this ⊢
        omega
      · rw [List.count_cons_of_ne hq] at this
        rwa [List.count_cons_of_ne (by simpa using hq)]
    | release q =>
      rw [replay] at h
      split at h
      · rename_i hmem
        have := ih h
        have hacq : (Event.release q :: es).count (.acquire r) = es.count (.acquire r) :=
          List.count_cons_of_ne (by simp)
        have hpos := List.count_pos_iff.2 hmem
        rw [hacq]
        by_cases hq : q = r
        · subst hq
          rw [List.count_erase_self] at this
          rw [List.count_cons_self]
          omega
        · rw [List.count_erase_of_ne (Ne.symm hq)] at this
          rwa [List.count_cons_of_ne (by simpa using hq)]
      · cases h

/-- Each resource is released as often as it is acquired. -/
theorem Clean.count (h : Clean es) (r : ρ) : es.count (.release r) = es.count (.acquire r) := by
  have := replay_count h r
  simpa using this

end Resource
