import Mathlib.Data.List.Basic

/-!
# Readers of a fixed width, and loops that may fail

A reader takes tokens from the front of a list, or fails.

* `Reads p n ok v e`: `p` takes exactly `n` tokens and has the value `v l` on every list `l` that is long enough
  and meets `ok`, and fails with `e` on every other list.  Such readers compose (`Reads.bind`), so the width and
  the failures of a header come from those of its fields.
* `tryLoop n f` is a counted loop whose rounds may fail.
-/

namespace Reading

variable {τ α β σ ε : Type}

/-- `p` takes `n` tokens if there are so many and they meet `ok`, and fails with `e` if not. -/
structure Reads (p : StateT (List τ) (Except ε) α) (n : ℕ) (ok : List τ → Prop) (v : List τ → α) (e : ε) :
    Prop where
  reads : ∀ l, n ≤ l.length → ok l → p l = .ok (v l, l.drop n)
  fails : ∀ l, ¬ (n ≤ l.length ∧ ok l) → p l = .error e

variable {p : StateT (List τ) (Except ε) α} {k : α → StateT (List τ) (Except ε) β} {n m : ℕ}
  {ok : List τ → Prop} {okk : α → List τ → Prop} {v : List τ → α} {w : α → List τ → β} {e : ε}

theorem Reads.pure (a : α) (e : ε) :
    Reads (Pure.pure a : StateT (List τ) (Except ε) α) 0 (fun _ => True) (fun _ => a) e where
  reads _ _ _ := rfl
  fails _ h := absurd ⟨Nat.zero_le _, trivial⟩ h

theorem Reads.bind (hp : Reads p n ok v e) (hk : ∀ a, Reads (k a) m (okk a) (w a) e) :
    Reads (p >>= k) (n + m) (fun l => ok l ∧ okk (v l) (l.drop n)) (fun l => w (v l) (l.drop n)) e where
  reads l hn h := by
    have h1 := hp.reads l (by omega) h.1
    have h2 := (hk (v l)).reads (l.drop n) (by rw [List.length_drop]; omega) h.2
    rw [List.drop_drop] at h2
    show (p l >>= fun r => k r.1 r.2) = _
    rw [h1]
    exact h2
  fails l h := by
    show (p l >>= fun r => k r.1 r.2) = _
    by_cases h1 : n ≤ l.length ∧ ok l
    · rw [hp.reads l h1.1 h1.2]
      refine (hk (v l)).fails (l.drop n) fun h2 => h ⟨?_, h1.2, h2.2⟩
      have := h2.1
      rw [List.length_drop] at this
      omega
    · rw [hp.fails l h1]
      rfl

/-- A test that fails in the same way. -/
theorem Reads.ite {c : Prop} [Decidable c] (hp : Reads p n ok v e) :
    Reads (if c then throw e else p) n (fun l => ¬ c ∧ ok l) v e where
  reads l hn h := by
    rw [if_neg h.1]
    exact hp.reads l hn h.2
  fails l h := by
    by_cases hc : c
    · rw [if_pos hc]
      rfl
    · rw [if_neg hc]
      exact hp.fails l fun h' => h ⟨h'.1, hc, h'.2⟩

theorem Reads.congr {ok' : List τ → Prop} {v' : List τ → α} (hp : Reads p n ok v e)
    (hok : ∀ l, n ≤ l.length → (ok l ↔ ok' l)) (hv : ∀ l, n ≤ l.length → ok l → v l = v' l) :
    Reads p n ok' v' e where
  reads l hn h := by
    rw [hp.reads l hn ((hok l hn).2 h), hv l hn ((hok l hn).2 h)]
  fails l h := hp.fails l fun h' => h ⟨h'.1, (hok l h'.1).1 h'.2⟩

/-! ### Loops -/

/-- `for (i = 0; i < n; i++)` with a body that may leave the function. -/
def tryLoop (n : ℕ) (f : ℕ → σ → Except ε σ) (s : σ) : Except ε σ :=
  match n with
  | 0 => .ok s
  | n + 1 => (tryLoop n f s).bind (f n)

/-- A loop goes on with `P`, or it is left with a failure that meets `E`. -/
theorem tryLoop_spec {f : ℕ → σ → Except ε σ} {s : σ} (P : ℕ → σ → Prop) (E : ε → Prop) (n : ℕ) (h0 : P 0 s)
    (hstep : ∀ i < n, ∀ s, P i s → (∃ s', f i s = .ok s' ∧ P (i + 1) s') ∨ ∃ e, f i s = .error e ∧ E e) :
    (∃ s', tryLoop n f s = .ok s' ∧ P n s') ∨ ∃ e, tryLoop n f s = .error e ∧ E e := by
  induction n with
  | zero => exact .inl ⟨s, rfl, h0⟩
  | succ n ih =>
    rcases ih fun i hi => hstep i (by omega) with ⟨s₁, h₁, hP⟩ | ⟨e, he, hE⟩
    · simp only [tryLoop, h₁, Except.bind]
      exact hstep n (by omega) s₁ hP
    · right
      exact ⟨e, by simp only [tryLoop, he, Except.bind], hE⟩

/-- A loop whose rounds do not fail. -/
theorem tryLoop_ok {f : ℕ → σ → Except ε σ} {s : σ} (P : ℕ → σ → Prop) (n : ℕ) (h0 : P 0 s)
    (hstep : ∀ i < n, ∀ s, P i s → ∃ s', f i s = .ok s' ∧ P (i + 1) s') :
    ∃ s', tryLoop n f s = .ok s' ∧ P n s' := by
  rcases tryLoop_spec P (fun _ => False) n h0 fun i hi s hs => .inl (hstep i hi s hs) with h | ⟨_, _, hE⟩
  · exact h
  · exact hE.elim

end Reading
