import Mathlib.Logic.Function.Basic
import Vdsp.Lib.System

/-!
# Threads that share a mutex

Any number of threads run code over shared variables and one mutex, which does not check who unlocks it.

* `Code` is what a thread has still to do; `guarded` is a block that releases the mutex at every exit;
* `Balanced p held c` says of the text of `c` that a thread that runs it unlocks only what it holds and returns
  without the mutex, up to the tests that `p` marks;
* `Disciplined` is what the mutex is there for: only the holder unlocks, no call returns with the mutex, and at
  most one thread is between its lock and its unlock;
* `held_of_reach` and `Held.disciplined`: it holds in the runs of balanced code in which every marked test goes
  on with balanced code.
-/

namespace Monitor

open Lts

/-- Code over shared variables `γ`, with answers `α` of the environment and results `ρ`. -/
inductive Code (γ α ρ : Type)
  | ret (r : ρ)
  | lock (k : Code γ α ρ)
  | unlock (k : Code γ α ρ)
  | read (k : γ → Code γ α ρ)
  | write (f : γ → γ) (k : Code γ α ρ)
  | ask (k : α → Code γ α ρ)

variable {γ α ρ κ : Type}

/-- A block under the mutex; the block puts its argument before each of its exits. -/
def guarded (block : (Code γ α ρ → Code γ α ρ) → Code γ α ρ) : Code γ α ρ := .lock (block .unlock)

structure State (γ α ρ : Type) where
  shared : γ
  holder : Option Nat
  /-- What each thread has to do; `none` outside a call. -/
  code : Nat → Option (Code γ α ρ)
  /-- The thread is between a lock and its unlock. -/
  inside : Nat → Bool

inductive Event (κ α : Type)
  | enter (t : Nat) (call : κ)
  | run (t : Nat) (a : α)
  deriving DecidableEq, Repr

def State.goto (s : State γ α ρ) (t : Nat) (c : Option (Code γ α ρ)) : State γ α ρ :=
  { s with code := Function.update s.code t c }

/-- One thread begins a call or makes the next step of it. -/
def step (body : κ → Code γ α ρ) (s : State γ α ρ) : Event κ α → Option (State γ α ρ)
  | .enter t call => if (s.code t).isNone then some (s.goto t (some (body call))) else none
  | .run t a =>
    match s.code t with
    | none => none
    | some (.ret _) => some (s.goto t none)
    | some (.lock k) =>
      if s.holder = none then
        some { s.goto t (some k) with holder := some t, inside := Function.update s.inside t true }
      else none
    | some (.unlock k) =>
      some { s.goto t (some k) with holder := none, inside := Function.update s.inside t false }
    | some (.read k) => some (s.goto t (some (k s.shared)))
    | some (.write f k) => some { s.goto t (some k) with shared := f s.shared }
    | some (.ask k) => some (s.goto t (some (k a)))

def start (x : γ) : State γ α ρ where
  shared := x
  holder := none
  code := fun _ => none
  inside := fun _ => false

def machine (body : κ → Code γ α ρ) (x : γ) : System (State γ α ρ) (Event κ α) where
  init := fun s => s = start x
  step := step body

/-- A thread that runs the code, and holds the mutex or not, unlocks only what it holds and returns without the
mutex. -/
inductive Balanced (p : (γ → Code γ α ρ) → Prop) : Bool → Code γ α ρ → Prop
  | marked {k : γ → Code γ α ρ} (h : p k) : Balanced p true (.read k)
  | ret (r : ρ) : Balanced p false (.ret r)
  | lock {k : Code γ α ρ} (h : Balanced p true k) : Balanced p false (.lock k)
  | unlock {k : Code γ α ρ} (h : Balanced p false k) : Balanced p true (.unlock k)
  | read {held : Bool} {k : γ → Code γ α ρ} (h : ∀ x, Balanced p held (k x)) : Balanced p held (.read k)
  | write {held : Bool} {f : γ → γ} {k : Code γ α ρ} (h : Balanced p held k) : Balanced p held (.write f k)
  | ask {held : Bool} {k : α → Code γ α ρ} (h : ∀ a, Balanced p held (k a)) : Balanced p held (.ask k)

structure Disciplined (s : State γ α ρ) : Prop where
  unlocks : ∀ t k, s.code t = some (.unlock k) → s.holder = some t
  returns : ∀ t, (s.code t = none ∨ ∃ r, s.code t = some (.ret r)) → s.holder ≠ some t
  exclusive : ∀ t u, s.inside t = true → s.inside u = true → t = u

variable {p : (γ → Code γ α ρ) → Prop} {body : κ → Code γ α ρ} {s s' : State γ α ρ}

/-- Each thread is inside if and only if it is the holder, and has balanced code left. -/
structure Held (p : (γ → Code γ α ρ) → Prop) (s : State γ α ρ) : Prop where
  holder : ∀ t, s.inside t = true ↔ s.holder = some t
  idle : ∀ t, s.code t = none → s.inside t = false
  code : ∀ t c, s.code t = some c → Balanced p (s.inside t) c

theorem held_start (x : γ) : Held p (start x : State γ α ρ) where
  holder t := by simp [start]
  idle _ _ := rfl
  code t c h := by simp [start] at h

theorem Held.disciplined (h : Held p s) : Disciplined s where
  unlocks t k hk := by
    have := h.code t _ hk
    rw [← h.holder]
    cases hin : s.inside t with
    | true => rfl
    | false =>
      rw [hin] at this
      cases this
  returns t ht := by
    rw [ne_eq, ← h.holder, Bool.not_eq_true]
    rcases ht with ht | ⟨r, ht⟩
    · exact h.idle t ht
    · have := h.code t _ ht
      cases hin : s.inside t with
      | false => rfl
      | true =>
        rw [hin] at this
        cases this
  exclusive t u ht hu := by
    rw [h.holder] at ht hu
    exact Option.some.inj (ht.symm.trans hu)

/-- A thread goes on and keeps what it holds. -/
private theorem Held.goto (h : Held p s) {t : Nat} {c : Option (Code γ α ρ)} {x : γ}
    (hnone : c = none → s.inside t = false) (hsome : ∀ k, c = some k → Balanced p (s.inside t) k) :
    Held p { s.goto t c with shared := x } where
  holder := h.holder
  idle u hu := by
    by_cases hut : u = t
    · subst hut
      exact hnone (by simpa [State.goto] using hu)
    · exact h.idle u (by simpa [State.goto, hut] using hu)
  code u k hu := by
    by_cases hut : u = t
    · subst hut
      exact hsome k (by simpa [State.goto] using hu)
    · exact h.code u k (by simpa [State.goto, hut] using hu)

/-- A thread takes the mutex or gives it back. -/
private theorem Held.move (h : Held p s) {t : Nat} {k : Code γ α ρ} {b : Bool}
    (ht : ∀ u, u ≠ t → s.holder ≠ some u) (hk : Balanced p b k) :
    Held p { s.goto t (some k) with
      holder := if b = true then some t else none
      inside := Function.update s.inside t b } where
  holder u := by
    by_cases hut : u = t
    · subst hut
      cases b <;> simp
    · have hfalse : ¬ s.inside u = true := fun hin => ht u hut ((h.holder u).1 hin)
      simp only [ne_eq, hut, not_false_eq_true, Function.update_of_ne, hfalse]
      cases b
      · simp
      · simpa using Ne.symm hut
  idle u hu := by
    by_cases hut : u = t
    · subst hut
      simp [State.goto] at hu
    · simp only [ne_eq, hut, not_false_eq_true, Function.update_of_ne]
      exact h.idle u (by simpa [State.goto, hut] using hu)
  code u c hu := by
    by_cases hut : u = t
    · subst hut
      simp only [State.goto, Function.update_self, Option.some.injEq] at hu
      simpa [← hu] using hk
    · simp only [ne_eq, hut, not_false_eq_true, Function.update_of_ne]
      exact h.code u c (by simpa [State.goto, hut] using hu)

/-- One step: a marked test has to go on with balanced code. -/
theorem Held.step (hbody : ∀ c, Balanced p false (body c)) (h : Held p s) {e : Event κ α}
    (hok : ∀ t a k, e = .run t a → s.code t = some (.read k) → p k → Balanced p true (k s.shared))
    (hs : step body s e = some s') : Held p s' := by
  cases e with
  | enter t call =>
    simp only [Monitor.step] at hs
    split at hs
    · rename_i hidle
      cases hs
      have hin := h.idle t (Option.isNone_iff_eq_none.1 hidle)
      refine h.goto (x := s.shared) (by simp) fun k hk => ?_
      cases hk
      rw [hin]
      exact hbody call
    · cases hs
  | run t a =>
    simp only [Monitor.step] at hs
    split at hs
    · cases hs
    · rename_i r ht
      cases hs
      have hb := h.code t _ ht
      refine h.goto (x := s.shared) (fun _ => ?_) (by simp)
      generalize s.inside t = b at hb
      cases hb
      rfl
    · rename_i k ht
      split at hs
      · rename_i hfree
        cases hs
        have hb := h.code t _ ht
        refine h.move (b := true) (fun u _ hu => ?_) ?_
        · rw [hfree] at hu
          cases hu
        · generalize s.inside t = b at hb
          cases hb
          assumption
      · cases hs
    · rename_i k ht
      cases hs
      have hb := h.code t _ ht
      have hmine := h.disciplined.unlocks t k ht
      refine h.move (b := false) (fun u hut hu => ?_) ?_
      · rw [hmine] at hu
        exact hut (Option.some.inj hu).symm
      · generalize s.inside t = b at hb
        cases hb
        assumption
    · rename_i k ht
      cases hs
      have hb := h.code t _ ht
      have hmark := hok t a k rfl ht
      refine h.goto (x := s.shared) (by simp) fun c hc => ?_
      cases hc
      generalize s.inside t = b at hb
      cases hb with
      | marked hp => exact hmark hp
      | read hall => exact hall _
    · rename_i f k ht
      cases hs
      have hb := h.code t _ ht
      refine h.goto (by simp) fun c hc => ?_
      cases hc
      generalize s.inside t = b at hb ⊢
      cases hb
      assumption
    · rename_i k ht
      cases hs
      have hb := h.code t _ ht
      refine h.goto (x := s.shared) (by simp) fun c hc => ?_
      cases hc
      generalize s.inside t = b at hb
      cases hb with
      | ask hall => exact hall a

/-- The discipline holds in the runs of balanced code in which every marked test goes on with balanced code. -/
theorem held_of_reach {ok : State γ α ρ → Event κ α → Prop} {x : γ} (hbody : ∀ c, Balanced p false (body c))
    (hok : ∀ s t a k, ok s (.run t a) → s.code t = some (.read k) → p k → Balanced p true (k s.shared))
    (h : Reach (machine body x) ok s) : Held p s := by
  refine h.invariant (P := Held p) ?_ ?_
  · rintro s rfl
    exact held_start x
  · intro s e s' hi hoke hs
    refine hi.step hbody (fun t a k he => ?_) hs
    subst he
    exact hok s t a k hoke

end Monitor
