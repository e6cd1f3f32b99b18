import Mathlib.Data.Finset.Card

/-!
# Counters of what holds

`Counts p n` says that `p` holds of exactly `n` things.  The type need not be finite; the number is an integer,
as a counter of a program is.
-/

namespace Counting

variable {α : Type*}

/-- Exactly `n` things have the property. -/
def Counts (p : α → Prop) (n : ℤ) : Prop := ∃ F : Finset α, (∀ a, a ∈ F ↔ p a) ∧ n = F.card

variable {p q : α → Prop} {n m : ℤ}

theorem Counts.congr (h : Counts p n) (hpq : ∀ a, q a ↔ p a) : Counts q n := by
  obtain ⟨F, hF, hn⟩ := h
  exact ⟨F, fun a => (hF a).trans (hpq a).symm, hn⟩

theorem counts_zero (h : ∀ a, ¬ p a) : Counts p 0 :=
  ⟨∅, fun a => by simp [h a], by simp⟩

theorem Counts.nonneg (h : Counts p n) : 0 ≤ n := by
  obtain ⟨F, -, hn⟩ := h
  omega

/-- The number is determined. -/
theorem Counts.unique (h : Counts p n) (h' : Counts p m) : n = m := by
  obtain ⟨F, hF, hn⟩ := h
  obtain ⟨G, hG, hm⟩ := h'
  have : F = G := Finset.ext fun a => (hF a).trans (hG a).symm
  rw [hn, hm, this]

theorem Counts.eq_zero_iff (h : Counts p n) : n = 0 ↔ ∀ a, ¬ p a := by
  constructor
  · obtain ⟨F, hF, hn⟩ := h
    intro h0 a ha
    have hcard : F.card = 0 := by omega
    rw [Finset.card_eq_zero] at hcard
    have := (hF a).2 ha
    rw [hcard] at this
    exact absurd this (Finset.notMem_empty a)
  · exact fun hno => h.unique (counts_zero hno)

/-- One thing more. -/
theorem Counts.insert [DecidableEq α] (h : Counts p n) {a : α} (ha : ¬ p a) (hq : ∀ b, q b ↔ b = a ∨ p b) :
    Counts q (n + 1) := by
  obtain ⟨F, hF, hn⟩ := h
  refine ⟨Insert.insert a F, fun b => ?_, ?_⟩
  · rw [Finset.mem_insert, hF, hq]
  · rw [Finset.card_insert_of_notMem fun h => ha ((hF a).1 h)]
    push_cast
    omega

/-- One thing less. -/
theorem Counts.erase [DecidableEq α] (h : Counts p n) {a : α} (ha : p a) (hq : ∀ b, q b ↔ b ≠ a ∧ p b) :
    Counts q (n - 1) := by
  obtain ⟨F, hF, hn⟩ := h
  have hmem : a ∈ F := (hF a).2 ha
  refine ⟨F.erase a, fun b => ?_, ?_⟩
  · rw [Finset.mem_erase, hF, hq]
  · have hpos : 0 < F.card := Finset.card_pos.2 ⟨a, hmem⟩
    rw [Finset.card_erase_of_mem hmem]
    omega

end Counting
