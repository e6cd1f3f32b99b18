import Vdsp.Lib.Monitor

/-!
# Calls that are one section under the mutex

A call that takes the mutex once, at its start, and returns right after its unlock is linearizable: any
interleaving of such calls, one access of the shared variables at a time, has the results and the effect of the
calls one after the other, in the order of their unlocks.

* `Alone Q c x` is the weakest precondition of the code of a section that nobody interferes with;
* `Mark` are the moments of a call: it begins, it unlocks (`done`), it returns;
* `Tale` says that the moments of one thread are those of calls one after the other;
* `linearized_of_reach`: if the section of each call, alone, keeps `R` and does a step of the specification
  `S`, then in every run the calls in the order of their `done` are a run of the specification.
-/

namespace Monitor

open Lts

variable {γ α ρ κ lam : Type}

/-- The rest of a section, from the shared variables `x` and whatever it is answered, unlocks and returns with
`Q`, if nobody else writes. -/
inductive Alone (Q : ρ → γ → Prop) : Code γ α ρ → γ → Prop
  | leave {r : ρ} {x : γ} (h : Q r x) : Alone Q (.unlock (.ret r)) x
  | read {k : γ → Code γ α ρ} {x : γ} (h : Alone Q (k x) x) : Alone Q (.read k) x
  | write {f : γ → γ} {k : Code γ α ρ} {x : γ} (h : Alone Q k (f x)) : Alone Q (.write f k) x
  | ask {k : α → Code γ α ρ} {x : γ} (h : ∀ a, Alone Q (k a) x) : Alone Q (.ask k) x

/-- A moment of a call of the thread `t`. -/
inductive Mark (κ ρ : Type)
  | called (t : Nat) (c : κ)
  | done (t : Nat) (c : κ) (r : ρ)
  | returned (t : Nat) (r : ρ)
  deriving DecidableEq, Repr

def Mark.thread : Mark κ ρ → Nat
  | called t _ | done t _ _ | returned t _ => t

/-- The call with its result, at its unlock. -/
def Mark.effect : Mark κ ρ → Option (κ × ρ)
  | done _ c r => some (c, r)
  | _ => none

/-- What has happened: the last call of each thread, and the moments of all calls. -/
structure Past (κ ρ : Type) where
  last : Nat → Option κ
  marks : List (Mark κ ρ)

def Past.start : Past κ ρ := ⟨fun _ => none, []⟩

/-- The calls in the order of their unlocks, with their results. -/
def Past.effects (p : Past κ ρ) : List (κ × ρ) := p.marks.filterMap Mark.effect

def Past.of (p : Past κ ρ) (t : Nat) : List (Mark κ ρ) := p.marks.filter fun m => m.thread = t

def Past.add (p : Past κ ρ) (m : Mark κ ρ) : Past κ ρ := { p with marks := p.marks ++ [m] }

def Past.next (s : State γ α ρ) (e : Event κ α) (p : Past κ ρ) : Past κ ρ :=
  match e with
  | .enter t c => { p.add (.called t c) with last := Function.update p.last t (some c) }
  | .run t _ =>
    match s.code t, p.last t with
    | some (.unlock (.ret r)), some c => p.add (.done t c r)
    | some (.ret r), _ => p.add (.returned t r)
    | _, _ => p

/-- The runs with their past. -/
def histories (body : κ → Code γ α ρ) (x : γ) : System (State γ α ρ × Past κ ρ) (Event κ α) :=
  (machine body x).record .start Past.next

/-- Where a thread is in its call. -/
inductive Phase (κ ρ : Type)
  | idle
  | calling (c : κ)
  | leaving (r : ρ)

/-- The moments of one thread: calls one after the other, each done between its begin and its return, with the
result that it returns. -/
inductive Tale (t : Nat) : List (Mark κ ρ) → Phase κ ρ → Prop
  | start : Tale t [] .idle
  | called {ms c} (h : Tale t ms .idle) : Tale t (ms ++ [.called t c]) (.calling c)
  | done {ms c r} (h : Tale t ms (.calling c)) : Tale t (ms ++ [.done t c r]) (.leaving r)
  | returned {ms r} (h : Tale t ms (.leaving r)) : Tale t (ms ++ [.returned t r]) .idle

/-- The calls of the past, in the order of their unlocks, are a run of the specification, which the variables
represent whenever the mutex is free; and each of them is done between its begin and its return. -/
structure Linearized (R : γ → lam → Prop) (S : lam → κ → ρ → lam → Prop) (l₀ : lam) (s : State γ α ρ)
    (p : Past κ ρ) : Prop where
  sequential : ∃ l, Sequential S l₀ p.effects l ∧ (s.holder = none → R s.shared l)
  order : ∀ t, ∃ phase, Tale t (p.of t) phase ∧ (s.code t = none → phase = .idle)

theorem Past.of_add_self {p : Past κ ρ} {m : Mark κ ρ} {t : Nat} (h : m.thread = t) :
    (p.add m).of t = p.of t ++ [m] := by
  simp [Past.of, Past.add, h]

theorem Past.of_add_ne {p : Past κ ρ} {m : Mark κ ρ} {t : Nat} (h : m.thread ≠ t) : (p.add m).of t = p.of t := by
  simp [Past.of, Past.add, h]

theorem Past.effects_add (p : Past κ ρ) (m : Mark κ ρ) :
    (p.add m).effects = p.effects ++ m.effect.toList := by
  cases h : m.effect <;> simp [Past.effects, Past.add, h]

/-! ### The invariant -/

section

variable (body : κ → Code γ α ρ) (R : γ → lam → Prop) (S : lam → κ → ρ → lam → Prop)

/-- What the call `c` has to do to the value `l`. -/
def Does (l : lam) (c : κ) (r : ρ) (x : γ) : Prop := ∃ l', S l c r l' ∧ R x l'

/-- Where the thread `t` is in its code and in its tale. -/
inductive At (l : lam) (s : State γ α ρ) (p : Past κ ρ) (t : Nat) : Phase κ ρ → Prop
  | idle (h : s.code t = none) (hout : s.holder ≠ some t) : At l s p t .idle
  | waits {c : κ} (h : s.code t = some (body c)) (hout : s.holder ≠ some t) (hlast : p.last t = some c) :
      At l s p t (.calling c)
  | inside {c : κ} {k : Code γ α ρ} (h : s.code t = some k) (hin : s.holder = some t) (hlast : p.last t = some c)
      (hk : Alone (Does R S l c) k s.shared) : At l s p t (.calling c)
  | leaves {r : ρ} (h : s.code t = some (.ret r)) (hout : s.holder ≠ some t) : At l s p t (.leaving r)

structure AtomicInv (l₀ : lam) (s : State γ α ρ) (p : Past κ ρ) (l : lam) : Prop where
  run : Sequential S l₀ p.effects l
  free : s.holder = none → R s.shared l
  thread : ∀ t, ∃ phase, Tale t (p.of t) phase ∧ At body R S l s p t phase

end

variable {body : κ → Code γ α ρ} {R : γ → lam → Prop} {S : lam → κ → ρ → lam → Prop} {l₀ l l' : lam}
  {s s' : State γ α ρ} {p p' : Past κ ρ} {t u : Nat} {phase : Phase κ ρ}

/-- A thread that is not inside does not see what another one does. -/
theorem At.other (h : At body R S l s p u phase) (hcode : s'.code u = s.code u) (hlast : p'.last u = p.last u)
    (hout : s.holder ≠ some u) (hout' : s'.holder ≠ some u) : At body R S l' s' p' u phase := by
  cases h with
  | idle h _ => exact .idle (hcode.trans h) hout'
  | waits h _ hl => exact .waits (hcode.trans h) hout' (hlast.trans hl)
  | inside _ hin => exact absurd hin hout
  | leaves h _ => exact .leaves (hcode.trans h) hout'

/-- The holder does not see what a thread outside does, which writes nothing. -/
theorem At.frame (h : At body R S l s p u phase) (hcode : s'.code u = s.code u) (hlast : p'.last u = p.last u)
    (hholder : s'.holder = s.holder) (hshared : s'.shared = s.shared) : At body R S l s' p' u phase := by
  cases h with
  | idle h hout => exact .idle (hcode.trans h) (hholder ▸ hout)
  | waits h hout hl => exact .waits (hcode.trans h) (hholder ▸ hout) (hlast.trans hl)
  | inside h hin hl hk => exact .inside (hcode.trans h) (hholder.trans hin) (hlast.trans hl) (hshared ▸ hk)
  | leaves h hout => exact .leaves (hcode.trans h) (hholder ▸ hout)

/-- A thread with code of a section is inside. -/
theorem At.inside_of (h : At body R S l s p t phase) (hbody : ∀ c, ∃ k, body c = .lock k) {k : Code γ α ρ}
    (ht : s.code t = some k) (hlock : ∀ k', k ≠ .lock k') (hret : ∀ r, k ≠ .ret r) :
    ∃ c, phase = .calling c ∧ s.holder = some t ∧ p.last t = some c ∧ Alone (Does R S l c) k s.shared := by
  cases h with
  | idle h =>
    rw [h] at ht
    cases ht
  | @waits c h =>
    obtain ⟨k', hk'⟩ := hbody c
    rw [h, hk', Option.some.injEq] at ht
    exact absurd ht.symm (hlock k')
  | @inside c k' h hin hlast hk =>
    rw [h, Option.some.injEq] at ht
    exact ⟨c, rfl, hin, hlast, ht ▸ hk⟩
  | leaves h =>
    rw [h, Option.some.injEq] at ht
    exact absurd ht.symm (hret _)

theorem At.waits_of (h : At body R S l s p t phase) {k : Code γ α ρ} (ht : s.code t = some (.lock k)) :
    ∃ c, phase = .calling c ∧ body c = .lock k ∧ p.last t = some c := by
  cases h with
  | idle h =>
    rw [h] at ht
    cases ht
  | @waits c h _ hlast =>
    rw [h, Option.some.injEq] at ht
    exact ⟨c, rfl, ht, hlast⟩
  | inside h _ _ hk =>
    rw [h, Option.some.injEq] at ht
    subst ht
    cases hk
  | leaves h =>
    rw [h, Option.some.injEq] at ht
    cases ht

theorem At.leaves_of (h : At body R S l s p t phase) (hbody : ∀ c, ∃ k, body c = .lock k) {r : ρ}
    (ht : s.code t = some (.ret r)) : phase = .leaving r ∧ s.holder ≠ some t := by
  cases h with
  | idle h =>
    rw [h] at ht
    cases ht
  | @waits c h =>
    obtain ⟨k', hk'⟩ := hbody c
    rw [h, hk', Option.some.injEq] at ht
    cases ht
  | inside h _ _ hk =>
    rw [h, Option.some.injEq] at ht
    subst ht
    cases hk
  | leaves h hout =>
    rw [h, Option.some.injEq] at ht
    cases ht
    exact ⟨rfl, hout⟩

theorem At.idle_of (h : At body R S l s p t phase) (ht : s.code t = none) : phase = .idle ∧ s.holder ≠ some t := by
  cases h with
  | idle _ hout => exact ⟨rfl, hout⟩
  | waits h | inside h | leaves h =>
    rw [ht] at h
    cases h

/-- A thread goes on; the others do not see it. -/
private theorem AtomicInv.update (hi : AtomicInv body R S l₀ s p l) (hrun : Sequential S l₀ p'.effects l')
    (hfree : s'.holder = none → R s'.shared l')
    (hself : ∃ phase, Tale t (p'.of t) phase ∧ At body R S l' s' p' t phase)
    (hother : ∀ u, u ≠ t → p'.of u = p.of u ∧ ∀ phase, At body R S l s p u phase → At body R S l' s' p' u phase) :
    AtomicInv body R S l₀ s' p' l' where
  run := hrun
  free := hfree
  thread u := by
    by_cases hu : u = t
    · subst hu
      exact hself
    · obtain ⟨phase, htale, hat⟩ := hi.thread u
      obtain ⟨hof, hnext⟩ := hother u hu
      exact ⟨phase, hof ▸ htale, hnext phase hat⟩

theorem AtomicInv.enter (hi : AtomicInv body R S l₀ s p l) {c : κ} (hidle : s.code t = none) :
    AtomicInv body R S l₀ (s.goto t (some (body c)))
      { p.add (.called t c) with last := Function.update p.last t (some c) } l := by
  have hcode : ∀ u, u ≠ t → (s.goto t (some (body c))).code u = s.code u := fun u hu =>
    Function.update_of_ne hu _ _
  refine hi.update (t := t) ?_ hi.free ?_ ?_
  · show Sequential S l₀ (p.add (.called t c)).effects l
    rw [Past.effects_add]
    simpa [Mark.effect] using hi.run
  · obtain ⟨phase, htale, hat⟩ := hi.thread t
    obtain ⟨rfl, hout⟩ := hat.idle_of hidle
    refine ⟨.calling c, ?_, .waits (Function.update_self ..) hout (Function.update_self ..)⟩
    show Tale t ((p.add (.called t c)).of t) _
    rw [Past.of_add_self (m := .called t c) (t := t) rfl]
    exact htale.called
  · intro u hu
    refine ⟨Past.of_add_ne (p := p) (m := .called t c) (Ne.symm hu), fun phase hat => ?_⟩
    exact hat.frame (hcode u hu) (Function.update_of_ne hu _ _) rfl rfl

theorem AtomicInv.leave (hi : AtomicInv body R S l₀ s p l) (hbody : ∀ c, ∃ k, body c = .lock k) {r : ρ}
    (ht : s.code t = some (.ret r)) : AtomicInv body R S l₀ (s.goto t none) (p.add (.returned t r)) l := by
  refine hi.update (t := t) ?_ hi.free ?_ ?_
  · rw [Past.effects_add]
    simpa [Mark.effect] using hi.run
  · obtain ⟨phase, htale, hat⟩ := hi.thread t
    obtain ⟨rfl, hout⟩ := hat.leaves_of hbody ht
    refine ⟨.idle, ?_, .idle (Function.update_self ..) hout⟩
    rw [Past.of_add_self (m := .returned t r) (t := t) rfl]
    exact htale.returned
  · intro u hu
    refine ⟨Past.of_add_ne (p := p) (m := .returned t r) (Ne.symm hu), fun phase hat => ?_⟩
    exact hat.frame (Function.update_of_ne hu _ _) rfl rfl rfl

/-- The section begins in what the calls before it have left. -/
theorem AtomicInv.take (hi : AtomicInv body R S l₀ s p l) {k : Code γ α ρ} (ht : s.code t = some (.lock k))
    (hk : ∀ c, body c = .lock k → R s.shared l → Alone (Does R S l c) k s.shared) (hfree : s.holder = none) :
    AtomicInv body R S l₀
      { s.goto t (some k) with holder := some t, inside := Function.update s.inside t true } p l := by
  refine hi.update (t := t) hi.run ?_ ?_ ?_
  · intro h
    cases h
  · obtain ⟨phase, htale, hat⟩ := hi.thread t
    obtain ⟨c, rfl, hc, hlast⟩ := hat.waits_of ht
    exact ⟨.calling c, htale, .inside (Function.update_self ..) rfl hlast (hk c hc (hi.free hfree))⟩
  · intro u hu
    refine ⟨rfl, fun phase hat => hat.other (Function.update_of_ne hu _ _) rfl ?_ ?_⟩
    · rw [hfree]
      exact nofun
    · intro h
      exact hu (Option.some.inj h).symm

/-- The unlock is the moment at which the call takes effect. -/
theorem AtomicInv.unlock (hi : AtomicInv body R S l₀ s p l) (hbody : ∀ c, ∃ k, body c = .lock k)
    {k : Code γ α ρ} (ht : s.code t = some (.unlock k)) :
    ∃ c r l', k = .ret r ∧ p.last t = some c ∧ AtomicInv body R S l₀
      { s.goto t (some k) with holder := none, inside := Function.update s.inside t false }
      (p.add (.done t c r)) l' := by
  obtain ⟨phase, htale, hat⟩ := hi.thread t
  obtain ⟨c, rfl, hin, hlast, hk⟩ := hat.inside_of hbody ht nofun nofun
  cases hk with
  | @leave r _ hq =>
    obtain ⟨l', hs, hr⟩ := hq
    refine ⟨c, r, l', rfl, hlast, hi.update (t := t) ?_ (fun _ => hr) ?_ ?_⟩
    · rw [Past.effects_add]
      exact hi.run.step hs
    · refine ⟨.leaving r, ?_, .leaves (Function.update_self ..) nofun⟩
      rw [Past.of_add_self (m := .done t c r) (t := t) rfl]
      exact htale.done
    · intro u hu
      refine ⟨Past.of_add_ne (p := p) (m := .done t c r) (Ne.symm hu), fun phase hat => ?_⟩
      refine hat.other (Function.update_of_ne hu _ _) rfl ?_ nofun
      intro h
      rw [hin] at h
      exact hu (Option.some.inj h).symm

/-- A step inside the section. -/
theorem AtomicInv.inner (hi : AtomicInv body R S l₀ s p l) (hbody : ∀ c, ∃ k, body c = .lock k)
    {k k' : Code γ α ρ} {x : γ} (ht : s.code t = some k) (hlock : ∀ k', k ≠ .lock k') (hret : ∀ r, k ≠ .ret r)
    (hnext : ∀ Q, Alone Q k s.shared → Alone Q k' x) :
    AtomicInv body R S l₀ { s.goto t (some k') with shared := x } p l := by
  obtain ⟨phase, htale, hat⟩ := hi.thread t
  obtain ⟨c, rfl, hin, hlast, hk⟩ := hat.inside_of hbody ht hlock hret
  refine hi.update (t := t) hi.run ?_ ?_ ?_
  · intro h
    rw [show s.holder = none from h] at hin
    cases hin
  · exact ⟨.calling c, htale, .inside (Function.update_self ..) hin hlast (hnext _ hk)⟩
  · intro u hu
    have hout : s.holder ≠ some u := fun h => hu (Option.some.inj (hin.symm.trans h)).symm
    exact ⟨rfl, fun phase hat => hat.other (Function.update_of_ne hu _ _) rfl hout hout⟩

theorem AtomicInv.start {x : γ} (hR : R x l₀) :
    AtomicInv body R S l₀ (Monitor.start x : State γ α ρ) (.start : Past κ ρ) l₀ where
  run := .start
  free _ := hR
  thread _ := ⟨.idle, .start, .idle rfl nofun⟩

theorem AtomicInv.step {x : γ} (hi : AtomicInv body R S l₀ s p l)
    (hbody : ∀ c, ∃ k, body c = .lock k ∧ ∀ x l, R x l → Alone (Does R S l c) k x) {e : Event κ α}
    (hs : (histories body x).step (s, p) e = some (s', p')) : ∃ l', AtomicInv body R S l₀ s' p' l' := by
  obtain ⟨hstep, hp⟩ := System.record_step hs
  have hlocks : ∀ c, ∃ k, body c = .lock k := fun c => ⟨_, (hbody c).choose_spec.1⟩
  simp only at hp
  subst hp
  cases e with
  | enter t c =>
    simp only [machine, Monitor.step] at hstep
    split at hstep
    · rename_i hidle
      cases hstep
      exact ⟨l, hi.enter (Option.isNone_iff_eq_none.1 hidle)⟩
    · cases hstep
  | run t a =>
    cases ht : s.code t with
    | none => simp [machine, Monitor.step, ht] at hstep
    | some c =>
      cases c with
      | ret r =>
        simp only [machine, Monitor.step, ht, Option.some.injEq] at hstep
        subst hstep
        rw [show Past.next s (.run t a) p = p.add (.returned t r) by simp [Past.next, ht]]
        exact ⟨l, hi.leave hlocks ht⟩
      | lock k =>
        simp only [machine, Monitor.step, ht, Option.ite_none_right_eq_some, Option.some.injEq] at hstep
        obtain ⟨hfree, rfl⟩ := hstep
        rw [show Past.next s (.run t a) p = p by simp [Past.next, ht]]
        refine ⟨l, hi.take ht (fun c hc hr => ?_) hfree⟩
        obtain ⟨k', hk', halone⟩ := hbody c
        rw [hc] at hk'
        cases hk'
        exact halone _ _ hr
      | unlock k =>
        simp only [machine, Monitor.step, ht, Option.some.injEq] at hstep
        subst hstep
        obtain ⟨c, r, l', rfl, hlast, hi'⟩ := hi.unlock hlocks ht
        rw [show Past.next s (.run t a) p = p.add (.done t c r) by simp [Past.next, ht, hlast]]
        exact ⟨l', hi'⟩
      | read k =>
        simp only [machine, Monitor.step, ht, Option.some.injEq] at hstep
        subst hstep
        rw [show Past.next s (.run t a) p = p by simp [Past.next, ht]]
        refine ⟨l, hi.inner (x := s.shared) hlocks ht (by simp) (by simp) fun Q hk => ?_⟩
        cases hk
        assumption
      | write f k =>
        simp only [machine, Monitor.step, ht, Option.some.injEq] at hstep
        subst hstep
        rw [show Past.next s (.run t a) p = p by simp [Past.next, ht]]
        refine ⟨l, hi.inner hlocks ht (by simp) (by simp) fun Q hk => ?_⟩
        cases hk
        assumption
      | ask k =>
        simp only [machine, Monitor.step, ht, Option.some.injEq] at hstep
        subst hstep
        rw [show Past.next s (.run t a) p = p by simp [Past.next, ht]]
        refine ⟨l, hi.inner (x := s.shared) hlocks ht (by simp) (by simp) fun Q hk => ?_⟩
        cases hk with
        | ask h => exact h a

/-- Calls of one section each: if the section alone keeps `R` and does a step of `S`, all runs are linearized. -/
theorem linearized_of_reach {x : γ} (hR : R x l₀)
    (hbody : ∀ c, ∃ k, body c = .lock k ∧ ∀ x l, R x l → Alone (Does R S l c) k x)
    {q : State γ α ρ × Past κ ρ} (h : Reach (histories body x) anyStep q) : Linearized R S l₀ q.1 q.2 := by
  have hinv : ∃ l, AtomicInv body R S l₀ q.1 q.2 l := by
    refine h.invariant (P := fun q => ∃ l, AtomicInv body R S l₀ q.1 q.2 l) ?_ ?_
    · rintro ⟨s, p⟩ ⟨hs, hp⟩
      simp only at hp
      obtain rfl : s = Monitor.start x := hs
      subst hp
      exact ⟨l₀, .start hR⟩
    · rintro ⟨s, p⟩ e ⟨s', p'⟩ ⟨l, hi⟩ - hs
      exact hi.step hbody hs
  obtain ⟨l, hi⟩ := hinv
  constructor
  · exact ⟨l, hi.run, hi.free⟩
  · intro t
    obtain ⟨phase, htale, hat⟩ := hi.thread t
    exact ⟨phase, htale, fun hidle => (hat.idle_of hidle).1⟩

end Monitor
