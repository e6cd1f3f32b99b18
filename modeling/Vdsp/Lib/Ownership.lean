import Vdsp.Lib.Ledger
import Vdsp.Lib.Resource
import Mathlib.Data.List.Nodup

/-!
# Objects that own resources, under any interleaving

Calls in progress acquire, release and use resources, one act after the other; a call has what it has acquired
and not yet released, and may use an object, whose resources it does not release.  A call that ends leaves what it
has to the object that it has made.

`Sound` is what one call must meet on its own: it releases and uses only what it has or is lent, and ends with
what it leaves.  If all calls are sound then, however their acts are interleaved, nothing is released or used that
is not held, what is held is what the calls and the objects have, and no resource belongs to two of them
(`Owned.next`, `Owned.finish`, and `Owned.enter` and `Owned.leave` for the calls that begin).
-/

namespace Ownership

open Ledger Resource

variable {ρ ω : Type*} [DecidableEq ρ]

inductive Act (ρ : Type*)
  | event (e : Event ρ)
  | use (r : ρ)
  deriving DecidableEq

/-- A call in progress: what it has, what it will do, the object that it uses, and the one that it leaves. -/
structure Call (ρ ω : Type*) where
  own : List ρ
  rest : List (Act ρ)
  lent : Option ω
  leaves : Option ω
  deriving DecidableEq

/-- `held` are the resources that the system has given away. -/
structure State (ρ ω : Type*) where
  held : List ρ
  fault : Bool
  live : List ω
  calls : List (Call ρ ω)

namespace State

def start : State ρ ω := ⟨[], false, [], []⟩

/-- A call begins. -/
def enter (s : State ρ ω) (c : Call ρ ω) : State ρ ω := { s with calls := s.calls ++ [c] }

/-- The call `i` does its next act; the system gives nothing away that is held. -/
def next (s : State ρ ω) (i : ℕ) : Option (State ρ ω) :=
  match s.calls[i]? with
  | some ⟨own, .event (.acquire r) :: rest, lent, leaves⟩ =>
    if r ∈ s.held then none
    else some { s with held := r :: s.held, calls := s.calls.set i ⟨r :: own, rest, lent, leaves⟩ }
  | some ⟨own, .event (.release r) :: rest, lent, leaves⟩ =>
    let s := { s with calls := s.calls.set i ⟨own.erase r, rest, lent, leaves⟩ }
    some (if r ∈ s.held then { s with held := s.held.erase r } else { s with fault := true })
  | some ⟨own, .use r :: rest, lent, leaves⟩ =>
    let s := { s with calls := s.calls.set i ⟨own, rest, lent, leaves⟩ }
    some (if r ∈ s.held then s else { s with fault := true })
  | _ => none

/-- The call `i` returns. -/
def finish (s : State ρ ω) (i : ℕ) : Option (State ρ ω) :=
  match s.calls[i]? with
  | some ⟨_, [], _, leaves⟩ => some { s with calls := s.calls.eraseIdx i, live := leaves.toList ++ s.live }
  | _ => none

end State

/-- Over what it has and what it is lent, the call does nothing undefined, and has `final` in the end. -/
def Sound (lent final : List ρ) : List ρ → List (Act ρ) → Prop
  | own, [] => own.Perm final
  | own, .event (.acquire r) :: rest => Sound lent final (r :: own) rest
  | own, .event (.release r) :: rest => r ∈ own ∧ Sound lent final (own.erase r) rest
  | own, .use r :: rest => (r ∈ own ∨ r ∈ lent) ∧ Sound lent final own rest

/-- What an object has, if there is one. -/
def ofObject (owned : ω → List ρ) (x : Option ω) : List ρ := x.elim [] owned

structure Owned (owned : ω → List ρ) (s : State ρ ω) : Prop where
  fault : s.fault = false
  ledger : ∀ r, s.held.count r =
    total (fun c => c.own.count r) s.calls + total (fun x => (owned x).count r) s.live
  once : s.held.Nodup
  lent : ∀ c ∈ s.calls, ∀ x, c.lent = some x → x ∈ s.live
  sound : ∀ c ∈ s.calls, Sound (ofObject owned c.lent) (ofObject owned c.leaves) c.own c.rest

section Sound

variable {lent final final' own held : List ρ} {acts acts' : List (Act ρ)} {es : List (Event ρ)} {r : ρ}

/-- A sequence of events that can be replayed. -/
theorem sound_of_replay (h : replay own es = some held) (hfinal : held.Perm final) :
    Sound lent final own (es.map Act.event) := by
  induction es generalizing own with
  | nil =>
    cases h
    exact hfinal
  | cons e es ih =>
    cases e with
    | acquire r => exact ih h
    | release r =>
      rw [replay] at h
      split at h
      · rename_i hr
        exact ⟨hr, ih h⟩
      · cases h

/-- One part of a call after the other. -/
theorem Sound.append (h : Sound lent final own acts)
    (hrest : ∀ own, own.Perm final → Sound lent final' own acts') :
    Sound lent final' own (acts ++ acts') := by
  induction acts generalizing own with
  | nil => exact hrest own h
  | cons a acts ih =>
    cases a with
    | event e =>
      cases e with
      | acquire r => exact ih h
      | release r => exact ⟨h.1, ih h.2⟩
    | use r => exact ⟨h.1, ih h.2⟩

/-- All that is owned is released, in any order. -/
theorem sound_releases {rs : List ρ} (h : own.Perm rs) :
    Sound lent [] own (rs.map fun r => Act.event (.release r)) := by
  induction rs generalizing own with
  | nil => exact h
  | cons r rs ih =>
    refine ⟨h.mem_iff.2 List.mem_cons_self, ih ?_⟩
    simpa using h.erase r

end Sound

/-! ### The acts keep the ownership -/

variable {owned : ω → List ρ} {s s' : State ρ ω} {c : Call ρ ω} {x : ω} {i : ℕ}

theorem Owned.start : Owned owned (.start : State ρ ω) := by
  constructor <;> simp [State.start]

/-- What a call or an object has is held. -/
theorem Owned.held_of_call (ho : Owned owned s) (hc : c ∈ s.calls) {r : ρ} (hr : r ∈ c.own) : r ∈ s.held := by
  have hpos := List.count_pos_iff.2 hr
  have hle := le_total (fun c => c.own.count r) hc
  have := ho.ledger r
  exact List.count_pos_iff.1 (by omega)

theorem Owned.held_of_live (ho : Owned owned s) (hx : x ∈ s.live) {r : ρ} (hr : r ∈ owned x) : r ∈ s.held := by
  have hpos := List.count_pos_iff.2 hr
  have hle := le_total (fun x => (owned x).count r) hx
  have := ho.ledger r
  exact List.count_pos_iff.1 (by omega)

/-- No resource belongs to two objects. -/
theorem Owned.apart (ho : Owned owned s) {y : ω} {r : ρ} (hx : x ∈ s.live) (hy : y ∈ s.live) (hrx : r ∈ owned x)
    (hry : r ∈ owned y) : x = y := by
  have hle := List.nodup_iff_count_le_one.1 ho.once r
  have := ho.ledger r
  exact eq_of_total_le_one (w := fun x => (owned x).count r) (by omega) hx hy (List.count_pos_iff.2 hrx)
    (List.count_pos_iff.2 hry)

/-- A call begins that has nothing yet. -/
theorem Owned.enter (ho : Owned owned s) (hown : c.own = []) (hlent : ∀ x, c.lent = some x → x ∈ s.live)
    (hsound : Sound (ofObject owned c.lent) (ofObject owned c.leaves) [] c.rest) : Owned owned (s.enter c) := by
  refine ⟨ho.fault, fun r => ?_, ho.once, fun c' hc' => ?_, fun c' hc' => ?_⟩
  · show s.held.count r =
      total (fun c => c.own.count r) (s.calls ++ [c]) + total (fun x => (owned x).count r) s.live
    rw [total_append, total_cons, total_nil, hown, ho.ledger r]
    simp
  · rcases List.mem_append.1 hc' with h | h
    · exact ho.lent c' h
    · rw [List.mem_singleton.1 h]
      exact hlent
  · rcases List.mem_append.1 hc' with h | h
    · exact ho.sound c' h
    · rw [List.mem_singleton.1 h, hown]
      exact hsound

/-- A call begins with what an object has, which no other call uses. -/
theorem Owned.leave [BEq ω] [LawfulBEq ω] (ho : Owned owned s) (hx : x ∈ s.live)
    (hfree : ∀ c ∈ s.calls, c.lent ≠ some x) (hown : c.own = owned x) (hlent : c.lent = none)
    (hsound : Sound [] (ofObject owned c.leaves) c.own c.rest) :
    Owned owned ({ s with live := s.live.erase x }.enter c) := by
  refine ⟨ho.fault, fun r => ?_, ho.once, fun c' hc' y hy => ?_, fun c' hc' => ?_⟩
  · have herase := total_erase (fun x => (owned x).count r) hx
    show s.held.count r =
      total (fun c => c.own.count r) (s.calls ++ [c]) + total (fun x => (owned x).count r) (s.live.erase x)
    rw [total_append, total_cons, total_nil, hown, ho.ledger r]
    omega
  · rcases List.mem_append.1 hc' with h | h
    · have hne : y ≠ x := by
        intro he
        exact hfree c' h (by rw [hy, he])
      exact (List.mem_erase_of_ne hne).2 (ho.lent c' h y hy)
    · rw [List.mem_singleton.1 h, hlent] at hy
      cases hy
  · rcases List.mem_append.1 hc' with h | h
    · exact ho.sound c' h
    · rw [List.mem_singleton.1 h, hlent]
      exact hsound

/-- The call `i` goes on. -/
private theorem Owned.update (ho : Owned owned s) (hi : s.calls[i]? = some c) {c' : Call ρ ω} {held : List ρ}
    (hlent : c'.lent = c.lent)
    (hledger : ∀ r, held.count r + c.own.count r = s.held.count r + c'.own.count r) (honce : held.Nodup)
    (hsound : Sound (ofObject owned c'.lent) (ofObject owned c'.leaves) c'.own c'.rest) :
    Owned owned { s with held := held, calls := s.calls.set i c' } := by
  refine ⟨ho.fault, fun r => ?_, honce, fun d hd => ?_, fun d hd => ?_⟩
  · have hset := total_set (fun c => c.own.count r) c' hi
    have hl := ho.ledger r
    have hr := hledger r
    show held.count r =
      total (fun c => c.own.count r) (s.calls.set i c') + total (fun x => (owned x).count r) s.live
    omega
  · rcases List.mem_or_eq_of_mem_set hd with h | h
    · exact ho.lent d h
    · rw [h, hlent]
      exact ho.lent c (List.mem_of_getElem? hi)
  · rcases List.mem_or_eq_of_mem_set hd with h | h
    · exact ho.sound d h
    · rw [h]
      exact hsound

/-- What one act does. -/
theorem State.next_cases (hs : s.next i = some s') : ∃ own rest lent leaves,
    (∃ r, s.calls[i]? = some ⟨own, .event (.acquire r) :: rest, lent, leaves⟩ ∧ r ∉ s.held ∧
      s' = ⟨r :: s.held, s.fault, s.live, s.calls.set i ⟨r :: own, rest, lent, leaves⟩⟩) ∨
    (∃ r, s.calls[i]? = some ⟨own, .event (.release r) :: rest, lent, leaves⟩ ∧
      s' = ⟨s.held.erase r, s.fault || decide (r ∉ s.held), s.live,
        s.calls.set i ⟨own.erase r, rest, lent, leaves⟩⟩) ∨
    ∃ r, s.calls[i]? = some ⟨own, .use r :: rest, lent, leaves⟩ ∧
      s' = ⟨s.held, s.fault || decide (r ∉ s.held), s.live, s.calls.set i ⟨own, rest, lent, leaves⟩⟩ := by
  unfold State.next at hs
  cases hi : s.calls[i]? with
  | none => simp [hi] at hs
  | some c =>
    obtain ⟨own, rest, lent, leaves⟩ := c
    cases rest with
    | nil => simp [hi] at hs
    | cons a rest =>
      refine ⟨own, rest, lent, leaves, ?_⟩
      cases a with
      | event e =>
        cases e with
        | acquire r =>
          simp only [hi, Option.ite_none_left_eq_some, Option.some.injEq] at hs
          exact .inl ⟨r, rfl, hs.1, hs.2.symm⟩
        | release r =>
          simp only [hi, Option.some.injEq] at hs
          refine .inr (.inl ⟨r, rfl, ?_⟩)
          rw [← hs]
          by_cases hr : r ∈ s.held
          · simp [hr]
          · simp [hr, List.erase_of_not_mem]
      | use r =>
        simp only [hi, Option.some.injEq] at hs
        refine .inr (.inr ⟨r, rfl, ?_⟩)
        rw [← hs]
        by_cases hr : r ∈ s.held
        · simp [hr]
        · simp [hr]

theorem Owned.next (ho : Owned owned s) (hs : s.next i = some s') : Owned owned s' := by
  obtain ⟨own, rest, lent, leaves, ⟨r, hi, hr, rfl⟩ | ⟨r, hi, rfl⟩ | ⟨r, hi, rfl⟩⟩ := State.next_cases hs
  · have hsound := ho.sound _ (List.mem_of_getElem? hi)
    refine ho.update hi rfl (fun q => ?_) (List.nodup_cons.2 ⟨hr, ho.once⟩) hsound
    simp only [List.count_cons]
    omega
  · have hmem := List.mem_of_getElem? hi
    obtain ⟨hown, hsound⟩ := ho.sound _ hmem
    have hheld := ho.held_of_call hmem hown
    simp only [hheld, not_true_eq_false, decide_false, Bool.or_false]
    refine ho.update hi rfl (fun q => ?_) (ho.once.erase r) hsound
    have h₁ : 0 < own.count r := List.count_pos_iff.2 hown
    have h₂ := List.count_pos_iff.2 hheld
    by_cases hq : q = r
    · subst hq
      show (s.held.erase q).count q + own.count q = s.held.count q + (own.erase q).count q
      rw [List.count_erase_self, List.count_erase_self]
      omega
    · simp only [List.count_erase_of_ne hq]
  · have hmem := List.mem_of_getElem? hi
    obtain ⟨huse, hsound⟩ := ho.sound _ hmem
    have hheld : r ∈ s.held := by
      rcases huse with h | h
      · exact ho.held_of_call hmem h
      · cases lent with
        | none => cases h
        | some x => exact ho.held_of_live (ho.lent _ hmem x rfl) h
    simp only [hheld, not_true_eq_false, decide_false, Bool.or_false]
    exact ho.update hi rfl (fun _ => rfl) ho.once hsound

omit [DecidableEq ρ] in
/-- What a return does. -/
theorem State.finish_cases (hs : s.finish i = some s') : ∃ own lent leaves,
    s.calls[i]? = some ⟨own, [], lent, leaves⟩ ∧
      s' = ⟨s.held, s.fault, leaves.toList ++ s.live, s.calls.eraseIdx i⟩ := by
  unfold State.finish at hs
  cases hi : s.calls[i]? with
  | none => simp [hi] at hs
  | some c =>
    obtain ⟨own, rest, lent, leaves⟩ := c
    cases rest with
    | cons a rest => simp [hi] at hs
    | nil =>
      simp only [hi, Option.some.injEq] at hs
      exact ⟨own, lent, leaves, rfl, hs.symm⟩

theorem Owned.finish (ho : Owned owned s) (hs : s.finish i = some s') : Owned owned s' := by
  obtain ⟨own, lent, leaves, hi, rfl⟩ := State.finish_cases hs
  have hsound := ho.sound _ (List.mem_of_getElem? hi)
  refine ⟨ho.fault, fun r => ?_, ho.once, fun d hd y hy => ?_, fun d hd => ?_⟩
  · have herase : total (fun c => c.own.count r) (s.calls.eraseIdx i) + own.count r =
        total (fun c => c.own.count r) s.calls := total_eraseIdx _ hi
    have hcount : own.count r = (ofObject owned leaves).count r := hsound.count_eq r
    have hleaves : total (fun x => (owned x).count r) leaves.toList = (ofObject owned leaves).count r := by
      cases leaves <;> simp [ofObject]
    have hl := ho.ledger r
    show s.held.count r =
      total (fun c => c.own.count r) (s.calls.eraseIdx i) +
        total (fun x => (owned x).count r) (leaves.toList ++ s.live)
    rw [total_append, hleaves, ← hcount]
    omega
  · exact List.mem_append_right _ (ho.lent d (List.mem_of_mem_eraseIdx hd) y hy)
  · exact ho.sound d (List.mem_of_mem_eraseIdx hd)

/-! ### Properties of the objects -/

/-- All objects meet `P`, and so do those that the calls will leave. -/
structure Made (P : ω → Prop) (s : State ρ ω) : Prop where
  live : ∀ x ∈ s.live, P x
  leaves : ∀ c ∈ s.calls, ∀ x, c.leaves = some x → P x

variable {P : ω → Prop}

omit [DecidableEq ρ] in
theorem Made.enter (hm : Made P s) (hc : ∀ x, c.leaves = some x → P x) : Made P (s.enter c) := by
  refine ⟨hm.live, fun c' hc' => ?_⟩
  rcases List.mem_append.1 hc' with h | h
  · exact hm.leaves c' h
  · rw [List.mem_singleton.1 h]
    exact hc

omit [DecidableEq ρ] in
theorem Made.leave [BEq ω] (hm : Made P s) (x : ω) : Made P { s with live := s.live.erase x } :=
  ⟨fun y hy => hm.live y (List.mem_of_mem_erase hy), hm.leaves⟩

theorem Made.next (hm : Made P s) (hs : s.next i = some s') : Made P s' := by
  have hset : ∀ {held : List ρ} {fault : Bool} {c' : Call ρ ω} {c : Call ρ ω}, s.calls[i]? = some c →
      c'.leaves = c.leaves → Made P ⟨held, fault, s.live, s.calls.set i c'⟩ := by
    intro held fault c' c hi hc
    refine ⟨hm.live, fun d hd => ?_⟩
    rcases List.mem_or_eq_of_mem_set hd with h | h
    · exact hm.leaves d h
    · rw [h, hc]
      exact hm.leaves c (List.mem_of_getElem? hi)
  obtain ⟨own, rest, lent, leaves, ⟨r, hi, -, rfl⟩ | ⟨r, hi, rfl⟩ | ⟨r, hi, rfl⟩⟩ := State.next_cases hs
  · exact hset hi rfl
  · exact hset hi rfl
  · exact hset hi rfl

omit [DecidableEq ρ] in
theorem Made.finish (hm : Made P s) (hs : s.finish i = some s') : Made P s' := by
  obtain ⟨own, lent, leaves, hi, rfl⟩ := State.finish_cases hs
  refine ⟨fun x hx => ?_, fun d hd => hm.leaves d (List.mem_of_mem_eraseIdx hd)⟩
  rcases List.mem_append.1 hx with h | h
  · exact hm.leaves _ (List.mem_of_getElem? hi) x (Option.mem_toList.1 h)
  · exact hm.live x h

end Ownership
