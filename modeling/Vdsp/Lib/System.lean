import Mathlib.Tactic.TypeStar

/-!
# Labelled transition systems

A system is given by its initial states and a partial step function.  Everything outside the program (the
scheduler, the outcome of an allocation, the answer of a driver) is part of the label, so a step is a function
and a finite run can be computed.

* `Reach M ok` are the states of the runs of `M` all of whose steps meet the condition `ok`;
* `Reach.invariant` is the induction over such a run;
* `System.exec` replays a finite run, and `Reach.of_exec` shows that its last state is reached;
* `System.record` adds a history to the states, and `Reach.of_record` forgets it;
* `Sequential S l` are the runs of a specification, and `Reach.sequential` is the rule for a system that refines
  it.
-/

namespace Lts

/-- A labelled transition system: `step s l` is the state after the step `l`, if that step can be taken in `s`. -/
structure System (σ ℓ : Type*) where
  init : σ → Prop
  step : σ → ℓ → Option σ

variable {σ ℓ : Type*}

/-- The states of the runs of `M` all of whose steps meet `ok`. -/
inductive Reach (M : System σ ℓ) (ok : σ → ℓ → Prop) : σ → Prop
  | start {s : σ} (h : M.init s) : Reach M ok s
  | step {s s' : σ} {l : ℓ} (h : Reach M ok s) (hok : ok s l) (hs : M.step s l = some s') : Reach M ok s'

/-- No condition on the steps. -/
def anyStep (_ : σ) (_ : ℓ) : Prop := True

instance (s : σ) (l : ℓ) : Decidable (anyStep s l) := inferInstanceAs (Decidable True)

/-- Induction over a run. -/
theorem Reach.invariant {M : System σ ℓ} {ok : σ → ℓ → Prop} {P : σ → Prop} (h0 : ∀ s, M.init s → P s)
    (hstep : ∀ s l s', P s → ok s l → M.step s l = some s' → P s') {s : σ} (h : Reach M ok s) : P s := by
  induction h with
  | start h => exact h0 _ h
  | step _ hok hs ih => exact hstep _ _ _ ih hok hs

/-- A run under a condition is a run under a weaker one. -/
theorem Reach.mono {M : System σ ℓ} {ok ok' : σ → ℓ → Prop} (hok : ∀ s l, ok s l → ok' s l) {s : σ}
    (h : Reach M ok s) : Reach M ok' s := by
  induction h with
  | start h0 => exact .start h0
  | step _ hl hs ih => exact .step ih (hok _ _ hl) hs

/-- Replay a finite run from `s`, checking the condition before each step. -/
def System.exec (M : System σ ℓ) (ok : σ → ℓ → Prop) [∀ s l, Decidable (ok s l)] : σ → List ℓ → Option σ
  | s, [] => some s
  | s, l :: ls => if ok s l then (M.step s l).bind fun s' => M.exec ok s' ls else none

theorem Reach.exec {M : System σ ℓ} {ok : σ → ℓ → Prop} [∀ s l, Decidable (ok s l)] :
    ∀ {ls : List ℓ} {s s' : σ}, Reach M ok s → M.exec ok s ls = some s' → Reach M ok s'
  | [], s, s', hs, h => by
    simp only [System.exec, Option.some.injEq] at h
    exact h ▸ hs
  | l :: ls, s, s', hs, h => by
    simp only [System.exec] at h
    split at h
    · rename_i hok
      obtain ⟨s₁, h₁, h₂⟩ := Option.bind_eq_some_iff.1 h
      exact Reach.exec (.step hs hok h₁) h₂
    · cases h

/-- The last state of a replayed run is reached. -/
theorem Reach.of_exec {M : System σ ℓ} {ok : σ → ℓ → Prop} [∀ s l, Decidable (ok s l)] {s s' : σ} (ls : List ℓ)
    (h0 : M.init s) (h : M.exec ok s ls = some s') : Reach M ok s' :=
  Reach.exec (.start h0) h

/-- A replayed run that ends in a state with a decidable property. -/
theorem Reach.exists_exec (M : System σ ℓ) (ok : σ → ℓ → Prop) [∀ s l, Decidable (ok s l)] (s : σ) (ls : List ℓ)
    (p : σ → Bool) (h0 : M.init s) (h : (M.exec ok s ls).any p = true) :
    ∃ s', M.exec ok s ls = some s' ∧ Reach M ok s' ∧ p s' = true := by
  obtain ⟨s', hs, hp⟩ := (Option.any_eq_true _ _).1 h
  exact ⟨s', hs, .of_exec ls h0 hs, hp⟩

/-! ### Histories -/

/-- The system with a history, which each step goes on with; the steps do not depend on it. -/
def System.record {η : Type*} (M : System σ ℓ) (start : η) (upd : σ → ℓ → η → η) : System (σ × η) ℓ where
  init p := M.init p.1 ∧ p.2 = start
  step p l := (M.step p.1 l).map fun s' => (s', upd p.1 l p.2)

theorem System.record_step {η : Type*} {M : System σ ℓ} {start : η} {upd : σ → ℓ → η → η} {p p' : σ × η} {l : ℓ}
    (h : (M.record start upd).step p l = some p') : M.step p.1 l = some p'.1 ∧ p'.2 = upd p.1 l p.2 := by
  obtain ⟨s', hs, rfl⟩ := Option.map_eq_some_iff.1 h
  exact ⟨hs, rfl⟩

/-- A run with its history is a run. -/
theorem Reach.of_record {η : Type*} {M : System σ ℓ} {start : η} {upd : σ → ℓ → η → η} {ok : σ → ℓ → Prop}
    {p : σ × η}
    (h : Reach (M.record start upd) (fun p => ok p.1) p) : Reach M ok p.1 := by
  induction h with
  | start h0 => exact .start h0.1
  | step _ hok hs ih => exact .step ih hok (System.record_step hs).1

/-- Every run has a history. -/
theorem Reach.to_record {η : Type*} {M : System σ ℓ} (start : η) (upd : σ → ℓ → η → η) {ok : σ → ℓ → Prop} {s : σ}
    (h : Reach M ok s) : ∃ past, Reach (M.record start upd) (fun p => ok p.1) (s, past) := by
  induction h with
  | start h0 => exact ⟨start, .start ⟨h0, rfl⟩⟩
  | @step s s' l _ hok hs ih =>
    obtain ⟨past, hp⟩ := ih
    refine ⟨upd s l past, .step hp hok ?_⟩
    simp [System.record, hs]

/-! ### Specifications -/

/-- A run of the specification `S` from `l`: the calls with their replies, one after the other. -/
inductive Sequential {κ ρ lam : Type*} (S : lam → κ → ρ → lam → Prop) (l : lam) : List (κ × ρ) → lam → Prop
  | start : Sequential S l [] l
  | step {cs l' c r l''} (h : Sequential S l cs l') (hs : S l' c r l'') : Sequential S l (cs ++ [(c, r)]) l''

/-- If each step that can be seen is one of the specification and each other step changes nothing that the
specification speaks of, what can be seen of a run is a run of the specification. -/
theorem Reach.sequential {κ ρ lam : Type*} {M : System σ ℓ} {ok : σ → ℓ → Prop} {S : lam → κ → ρ → lam → Prop}
    {visible : σ → ℓ → Option (κ × ρ)} {f : σ → lam} {l₀ : lam} (h0 : ∀ s, M.init s → f s = l₀)
    (hsee : ∀ s l s' c r, Reach M ok s → ok s l → M.step s l = some s' → visible s l = some (c, r) →
      S (f s) c r (f s'))
    (hhide : ∀ s l s', Reach M ok s → ok s l → M.step s l = some s' → visible s l = none → f s' = f s)
    {p : σ × List (κ × ρ)}
    (h : Reach (M.record [] fun s l past => past ++ (visible s l).toList) (fun p => ok p.1) p) :
    Sequential S l₀ p.2 (f p.1) := by
  induction h with
  | start h =>
    rw [h.2, h0 _ h.1]
    exact .start
  | @step p p' l hr hok hs ih =>
    obtain ⟨hstep, hpast⟩ := System.record_step hs
    have hreach := hr.of_record
    rw [hpast]
    cases hv : visible p.1 l with
    | none =>
      rw [hhide _ _ _ hreach hok hstep hv, Option.toList_none, List.append_nil]
      exact ih
    | some e =>
      rw [Option.toList_some]
      exact .step ih (hsee _ _ _ e.1 e.2 hreach hok hstep hv)

end Lts
