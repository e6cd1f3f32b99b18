import Mathlib.Algebra.BigOperators.Group.List.Basic
import Mathlib.Algebra.GroupWithZero.Nat
import Mathlib.Data.List.Basic

/-!
# Totals over a list of accounts

`total w l` is the sum of the weights of the entries of `l`.  When one entry is replaced, removed or added the
total changes by the difference of the weights: the lemmas state this as equations between sums, so that linear
arithmetic can use them.
-/

namespace Ledger

variable {α : Type*}

/-- The sum of the weights of the entries. -/
def total (w : α → ℕ) (l : List α) : ℕ := (l.map w).sum

@[simp] theorem total_nil (w : α → ℕ) : total w [] = 0 := rfl

@[simp] theorem total_cons (w : α → ℕ) (a : α) (l : List α) : total w (a :: l) = w a + total w l := by
  simp [total]

@[simp] theorem total_append (w : α → ℕ) (l l' : List α) : total w (l ++ l') = total w l + total w l' := by
  simp [total]

/-- Larger weights have a larger total. -/
theorem total_mono {w w' : α → ℕ} {l : List α} (h : ∀ a ∈ l, w a ≤ w' a) : total w l ≤ total w' l := by
  induction l with
  | nil => exact Nat.le_refl _
  | cons x l ih =>
    rw [total_cons, total_cons]
    have hx := h x (by simp)
    have hl := ih fun a ha => h a (by simp [ha])
    omega

theorem total_add (w w' : α → ℕ) (l : List α) : total (fun a => w a + w' a) l = total w l + total w' l := by
  induction l with
  | nil => rfl
  | cons x l ih =>
    rw [total_cons, total_cons, total_cons, ih]
    omega

theorem total_mul (c : ℕ) (w : α → ℕ) (l : List α) : total (fun a => c * w a) l = c * total w l := by
  induction l with
  | nil => rfl
  | cons x l ih => rw [total_cons, total_cons, ih, Nat.mul_add]

/-- Replacing an entry. -/
theorem total_set (w : α → ℕ) {l : List α} {i : ℕ} {a : α} (b : α) (h : l[i]? = some a) :
    total w (l.set i b) + w a = total w l + w b := by
  induction l generalizing i with
  | nil => cases h
  | cons x l ih =>
    cases i with
    | zero =>
      cases h
      simp only [List.set_cons_zero, total_cons]
      omega
    | succ i =>
      have := ih (i := i) (by simpa using h)
      simp only [List.set_cons_succ, total_cons]
      omega

/-- Updating an entry. -/
theorem total_modify (w : α → ℕ) {l : List α} {i : ℕ} {a : α} (g : α → α) (h : l[i]? = some a) :
    total w (l.modify i g) + w a = total w l + w (g a) := by
  have : l.modify i g = l.set i (g a) := by
    obtain ⟨hi, ha⟩ := List.getElem?_eq_some_iff.1 h
    rw [List.modify_eq_set_get _ hi]
    simp [ha]
  rw [this]
  exact total_set w _ h

/-- An update that keeps the weights. -/
theorem total_modify_same (w : α → ℕ) (l : List α) (i : ℕ) (g : α → α) (h : ∀ a, w (g a) = w a) :
    total w (l.modify i g) = total w l := by
  cases hi : l[i]? with
  | some a =>
    have := total_modify w g hi
    rw [h] at this
    omega
  | none => rw [List.modify_eq_self (List.getElem?_eq_none_iff.1 hi)]

/-- Removing an entry. -/
theorem total_eraseIdx (w : α → ℕ) {l : List α} {i : ℕ} {a : α} (h : l[i]? = some a) :
    total w (l.eraseIdx i) + w a = total w l := by
  induction l generalizing i with
  | nil => cases h
  | cons x l ih =>
    cases i with
    | zero =>
      cases h
      simp only [List.eraseIdx_cons_zero, total_cons]
      omega
    | succ i =>
      have := ih (i := i) (by simpa using h)
      simp only [List.eraseIdx_cons_succ, total_cons]
      omega

theorem total_erase [BEq α] [LawfulBEq α] (w : α → ℕ) {l : List α} {a : α} (h : a ∈ l) :
    total w (l.erase a) + w a = total w l := by
  have hperm : total w l = total w (a :: l.erase a) := ((List.perm_cons_erase h).map w).sum_eq
  rw [hperm, total_cons, Nat.add_comm]

/-- Removing the first entry that meets `p`. -/
theorem total_eraseP (w : α → ℕ) {p : α → Bool} {l : List α} {a : α} (h : l.find? p = some a) :
    total w (l.eraseP p) + w a = total w l := by
  induction l with
  | nil => cases h
  | cons x l ih =>
    by_cases hx : p x = true
    · rw [List.find?_cons_of_pos hx] at h
      cases h
      rw [List.eraseP_cons_of_pos hx, total_cons]
      omega
    · rw [List.find?_cons_of_neg hx] at h
      rw [List.eraseP_cons_of_neg hx, total_cons, total_cons]
      have := ih h
      omega

/-- No entry weighs more than the total. -/
theorem le_total (w : α → ℕ) {l : List α} {a : α} (h : a ∈ l) : w a ≤ total w l := by
  induction l with
  | nil => cases h
  | cons x l ih =>
    rw [total_cons]
    rcases List.mem_cons.1 h with rfl | h
    · omega
    · have := ih h
      omega

/-- Two entries weigh no more than the total. -/
theorem add_le_total (w : α → ℕ) {l : List α} {i j : ℕ} {a b : α} (hij : i ≠ j) (hi : l[i]? = some a)
    (hj : l[j]? = some b) : w a + w b ≤ total w l := by
  induction l generalizing i j with
  | nil => cases hi
  | cons x l ih =>
    cases i with
    | zero =>
      cases hi
      cases j with
      | zero => exact absurd rfl hij
      | succ j =>
        have := le_total w (List.mem_of_getElem? (show l[j]? = some b by simpa using hj))
        rw [total_cons]
        omega
    | succ i =>
      cases j with
      | zero =>
        cases hj
        have := le_total w (List.mem_of_getElem? (show l[i]? = some a by simpa using hi))
        rw [total_cons]
        omega
      | succ j =>
        have := ih (i := i) (j := j) (by omega) (by simpa using hi) (by simpa using hj)
        rw [total_cons]
        omega

theorem total_eq_zero {w : α → ℕ} {l : List α} : total w l = 0 ↔ ∀ a ∈ l, w a = 0 := by
  induction l with
  | nil => simp
  | cons x l ih =>
    rw [total_cons, Nat.add_eq_zero_iff, ih]
    simp

/-- A positive total has a positive entry. -/
theorem exists_of_total_pos {w : α → ℕ} {l : List α} (h : 0 < total w l) : ∃ a ∈ l, 0 < w a := by
  by_contra hn
  have : total w l = 0 := total_eq_zero.2 fun a ha => Nat.eq_zero_of_not_pos fun hp => hn ⟨a, ha, hp⟩
  omega

/-- A total of at most one has at most one entry that weighs something. -/
theorem eq_of_total_le_one {w : α → ℕ} {l : List α} (h : total w l ≤ 1) {a b : α} (ha : a ∈ l) (hb : b ∈ l)
    (hwa : 0 < w a) (hwb : 0 < w b) : a = b := by
  obtain ⟨i, hi⟩ := List.mem_iff_getElem?.1 ha
  obtain ⟨j, hj⟩ := List.mem_iff_getElem?.1 hb
  by_cases hij : i = j
  · subst hij
    rw [hi] at hj
    exact Option.some.inj hj
  · have := add_le_total w hij hi hj
    omega

/-- If one entry at most weighs something, the total is at most the bound of the weights. -/
theorem total_le_of_unique {w : α → ℕ} {l : List α} {c : ℕ} (hle : ∀ a ∈ l, w a ≤ c)
    (hunique : ∀ (i j : ℕ) (a b : α), l[i]? = some a → l[j]? = some b → 0 < w a → 0 < w b → i = j) : total w l ≤ c := by
  induction l with
  | nil => exact Nat.zero_le _
  | cons x l ih =>
    rw [total_cons]
    by_cases hx : w x = 0
    · have hl := ih (fun a ha => hle a (by simp [ha])) fun i j a b hi hj ha hb =>
        Nat.succ.inj (hunique (i + 1) (j + 1) a b (by simpa using hi) (by simpa using hj) ha hb)
      omega
    · have hzero : total w l = 0 := by
        refine total_eq_zero.2 fun a ha => ?_
        by_contra hwa
        obtain ⟨i, hi⟩ := List.mem_iff_getElem?.1 ha
        have := hunique 0 (i + 1) x a rfl (by simpa using hi) (by omega) (by omega)
        omega
      have hxc := hle x (by simp)
      omega

end Ledger
