import Mathlib.Data.List.Basic
import Mathlib.Tactic.TypeStar

/-!
# Blocks of memory

A block is an array of cells as an allocator gives it.  Its length is fixed, and a cell is indeterminate
(`none`) until it is stored to.  An access outside the block, or a load of an indeterminate cell, is undefined
behaviour: the result is `none`, and so is the result of everything that goes on from there.

* `Holds b l`: the first cells of `b` hold the list `l`.
* `Fills v S b c`: `c` is `b` after stores of `v k` to the cells `k` of `S`, in any order and any number of
  times.  The value depends on the cell only, so the stores of a loop nest are put together without an argument
  that they do not overlap.
* `loop n f` is a counted loop.
-/

namespace Memory

abbrev Block (α : Type*) := List (Option α)

variable {α σ : Type*}

def malloc (α : Type*) (n : ℕ) : Block α := List.replicate n none

def calloc (n : ℕ) (a : α) : Block α := List.replicate n (some a)

/-- The block with `n` cells; those that both have are kept. -/
def realloc (b : Block α) (n : ℕ) : Block α := b.take n ++ List.replicate (n - b.length) none

def fetch (b : Block α) (k : ℕ) : Option α := (b[k]?).join

def store (b : Block α) (k : ℕ) (a : α) : Option (Block α) :=
  if k < b.length then some (b.set k (some a)) else none

variable {b c d : Block α} {l : List α} {a : α} {i k n : ℕ}

theorem lt_of_fetch (h : fetch b k = some a) : k < b.length := by
  by_contra hk
  rw [fetch, List.getElem?_eq_none (by omega)] at h
  cases h

theorem fetch_set (k' : ℕ) (hk : k < b.length) :
    fetch (b.set k (some a)) k' = if k' = k then some a else fetch b k' := by
  unfold fetch
  by_cases h : k' = k
  · subst h
    rw [if_pos rfl, List.getElem?_set_self hk]
    rfl
  · rw [if_neg h, List.getElem?_set_ne fun h' => h h'.symm]

theorem store_eq_some : store b k a = some c ↔ k < b.length ∧ c = b.set k (some a) := by
  unfold store
  split
  · rename_i h
    simp only [Option.some.injEq, h, true_and]
    exact eq_comm
  · rename_i h
    simp [h]

@[simp] theorem length_malloc (n : ℕ) : (malloc α n).length = n := List.length_replicate

@[simp] theorem length_calloc (n : ℕ) (a : α) : (calloc n a).length = n := List.length_replicate

@[simp] theorem length_realloc (b : Block α) (n : ℕ) : (realloc b n).length = n := by
  simp only [realloc, List.length_append, List.length_take, List.length_replicate]
  omega

theorem fetch_calloc (hk : k < n) : fetch (calloc n a) k = some a := by
  simp [fetch, calloc, hk]

theorem fetch_realloc (hk : k < n) (h : fetch b k = some a) : fetch (realloc b n) k = some a := by
  have hlt := lt_of_fetch h
  have htake : k < (b.take n).length := by
    rw [List.length_take]
    omega
  rw [fetch, realloc, List.getElem?_append_left htake, List.getElem?_take, if_pos hk]
  exact h

/-! ### Lists in a block -/

/-- The first cells of the block hold the list. -/
def Holds (b : Block α) (l : List α) : Prop := ∀ i a, l[i]? = some a → fetch b i = some a

theorem holds_nil (b : Block α) : Holds b [] := fun i a h => by simp at h

theorem Holds.length_le (h : Holds b l) : l.length ≤ b.length := by
  by_contra hlt
  have hb : b.length < l.length := by omega
  have := lt_of_fetch (h b.length _ (List.getElem?_eq_getElem hb))
  omega

/-- A block that holds a list of its own length is the list. -/
theorem Holds.eq_map (h : Holds b l) (hlen : b.length = l.length) : b = l.map some := by
  refine List.ext_getElem (by rw [hlen, List.length_map]) fun k hk hk' => ?_
  rw [List.length_map] at hk'
  have hload := h k _ (List.getElem?_eq_getElem hk')
  rw [fetch, List.getElem?_eq_getElem hk] at hload
  rw [List.getElem_map]
  exact hload

/-- A block without indeterminate cells is a list. -/
theorem exists_eq_map {v : ℕ → α} (h : ∀ k < b.length, fetch b k = some (v k)) :
    ∃ l : List α, l.length = b.length ∧ b = l.map some := by
  have hlen : ((List.range b.length).map v).length = b.length := by rw [List.length_map, List.length_range]
  refine ⟨(List.range b.length).map v, hlen, Holds.eq_map (fun i a ha => ?_) hlen.symm⟩
  obtain ⟨hi, rfl⟩ := List.getElem?_eq_some_iff.1 ha
  rw [hlen] at hi
  rw [List.getElem_map, List.getElem_range]
  exact h i hi

theorem fetch_map (l : List α) (k : ℕ) : fetch (l.map some) k = l[k]? := by
  rw [fetch, List.getElem?_map]
  cases l[k]? <;> rfl

theorem fetch_map_getD {l : List α} (d : α) (hk : k < l.length) : fetch (l.map some) k = some (l.getD k d) := by
  rw [fetch_map, List.getD_eq_getElem?_getD, List.getElem?_eq_getElem hk, Option.getD_some]

/-- A block whose cells are those of a list of its own length is the list. -/
theorem eq_map_of_getD {l : List α} (d : α) (hlen : b.length = l.length)
    (h : ∀ k < l.length, fetch b k = some (l.getD k d)) : b = l.map some := by
  refine Holds.eq_map (fun k a ha => ?_) hlen
  rw [h k (List.getElem?_eq_some_iff.1 ha).1, List.getD_eq_getElem?_getD, ha, Option.getD_some]

theorem Holds.realloc (h : Holds b l) (hn : l.length ≤ n) : Holds (realloc b n) l := by
  intro i a ha
  have hi := (List.getElem?_eq_some_iff.1 ha).1
  exact fetch_realloc (by omega) (h i a ha)

/-- A store behind the list appends to it. -/
theorem Holds.append (h : Holds b l) (a : α) (hl : l.length < b.length) :
    Holds (b.set l.length (some a)) (l ++ [a]) := by
  intro i x hx
  rw [fetch_set i hl]
  by_cases hi : i = l.length
  · subst hi
    rw [if_pos rfl]
    simpa using hx
  · rw [if_neg hi]
    have hlt := (List.getElem?_eq_some_iff.1 hx).1
    rw [List.length_append, List.length_singleton] at hlt
    rw [List.getElem?_append_left (by omega)] at hx
    exact h i x hx

/-- A store to the list. -/
theorem Holds.set (h : Holds b l) (a : α) (hk : k < l.length) : Holds (b.set k (some a)) (l.set k a) := by
  have hb := h.length_le
  intro i x hx
  rw [fetch_set i (by omega)]
  by_cases hi : i = k
  · subst hi
    rw [if_pos rfl]
    rwa [List.getElem?_set_self hk] at hx
  · rw [if_neg hi]
    rw [List.getElem?_set_ne fun h' => hi h'.symm] at hx
    exact h i x hx

/-! ### Copying a list -/

/-- The values of the list, stored one after the other from the cell `k` on. -/
def storeList (b : Block α) (k : ℕ) : List α → Option (Block α)
  | [] => some b
  | a :: l => (store b k a).bind fun b => storeList b (k + 1) l

/-- The list fits. -/
theorem storeList_eq (h : k + l.length ≤ b.length) : ∃ c, storeList b k l = some c ∧ c.length = b.length ∧
    (∀ i a, l[i]? = some a → fetch c (k + i) = some a) ∧
    ∀ i, i < k ∨ k + l.length ≤ i → fetch c i = fetch b i := by
  induction l generalizing b k with
  | nil => exact ⟨b, rfl, rfl, by simp, fun _ _ => rfl⟩
  | cons a l ih =>
    rw [List.length_cons] at h
    have hk : k < b.length := by omega
    obtain ⟨c, hc, hlen, hin, hout⟩ := ih (b := b.set k (some a)) (k := k + 1) (by rw [List.length_set]; omega)
    have hstore : store b k a = some (b.set k (some a)) := store_eq_some.2 ⟨hk, rfl⟩
    refine ⟨c, by rw [storeList, hstore, Option.bind_some, hc], by rw [hlen, List.length_set], ?_, ?_⟩
    · intro i x hx
      cases i with
      | zero =>
        cases hx
        rw [Nat.add_zero, hout k (.inl (by omega)), fetch_set k hk, if_pos rfl]
      | succ i =>
        rw [show k + (i + 1) = k + 1 + i by omega]
        exact hin i x (by simpa using hx)
    · intro i hi
      rw [List.length_cons] at hi
      rw [hout i (by omega), fetch_set i hk, if_neg (by omega)]

/-- The list does not fit. -/
theorem storeList_none (h : b.length < k + l.length) (hne : l ≠ []) : storeList b k l = none := by
  induction l generalizing b k with
  | nil => exact absurd rfl hne
  | cons a l ih =>
    rw [storeList]
    cases hs : store b k a with
    | none => rfl
    | some c =>
      obtain ⟨hk, rfl⟩ := store_eq_some.1 hs
      rw [List.length_cons] at h
      refine ih (by rw [List.length_set]; omega) fun hl => ?_
      rw [hl, List.length_nil] at h
      omega

/-! ### Loops -/

/-- `for (i = 0; i < n; i++)`; the body is `none` where it is undefined. -/
def loop (n : ℕ) (f : ℕ → σ → Option σ) (s : σ) : Option σ :=
  match n with
  | 0 => some s
  | n + 1 => (loop n f s).bind (f n)

/-- What each round goes on with holds at the end. -/
theorem loop_invariant {f : ℕ → σ → Option σ} {s : σ} (P : ℕ → σ → Prop) (n : ℕ) (h0 : P 0 s)
    (hstep : ∀ i < n, ∀ s, P i s → ∃ s', f i s = some s' ∧ P (i + 1) s') :
    ∃ s', loop n f s = some s' ∧ P n s' := by
  induction n with
  | zero => exact ⟨s, rfl, h0⟩
  | succ n ih =>
    obtain ⟨s₁, h₁, hP⟩ := ih fun i hi => hstep i (by omega)
    obtain ⟨s₂, h₂, hP'⟩ := hstep n (by omega) s₁ hP
    exact ⟨s₂, by simp only [loop, h₁, Option.bind_some, h₂], hP'⟩

/-- A loop whose first round is undefined. -/
theorem loop_none {f : ℕ → σ → Option σ} {s : σ} (hn : 0 < n) (h : f 0 s = none) : loop n f s = none := by
  induction n with
  | zero => omega
  | succ n ih =>
    rw [loop]
    cases n with
    | zero => exact h
    | succ n => rw [ih (by omega), Option.bind_none]

/-! ### Stores by the cell -/

/-- `c` is `b` with the value `v k` in each cell `k` of `S`. -/
structure Fills (v : ℕ → α) (S : ℕ → Prop) (b c : Block α) : Prop where
  length : c.length = b.length
  stored : ∀ k, S k → fetch c k = some (v k)
  kept : ∀ k, ¬ S k → fetch c k = fetch b k

variable {v : ℕ → α} {S T : ℕ → Prop}

theorem fills_none (v : ℕ → α) (b : Block α) : Fills v (fun _ => False) b b :=
  ⟨rfl, fun _ h => h.elim, fun _ _ => rfl⟩

theorem Fills.congr (h : Fills v S b c) (hST : ∀ k, T k ↔ S k) : Fills v T b c :=
  ⟨h.length, fun k hk => h.stored k ((hST k).1 hk), fun k hk => h.kept k fun hS => hk ((hST k).2 hS)⟩

theorem Fills.trans (h : Fills v S b c) (h' : Fills v T c d) : Fills v (fun k => S k ∨ T k) b d := by
  classical
  refine ⟨h'.length.trans h.length, fun k hk => ?_, fun k hk => ?_⟩
  · by_cases hT : T k
    · exact h'.stored k hT
    · rw [h'.kept k hT]
      exact h.stored k (hk.resolve_right hT)
  · rw [h'.kept k fun hT => hk (.inr hT), h.kept k fun hS => hk (.inl hS)]

/-- One store. -/
theorem fills_store (v : ℕ → α) (hk : k < b.length) (ha : a = v k) :
    ∃ c, store b k a = some c ∧ Fills v (fun k' => k' = k) b c := by
  refine ⟨b.set k (some a), store_eq_some.2 ⟨hk, rfl⟩, by simp, fun k' h => ?_, fun k' h => ?_⟩
  · rw [fetch_set k' hk, if_pos h, ha, h]
  · rw [fetch_set k' hk, if_neg h]

/-- A loop fills what its rounds fill. -/
theorem fills_loop {f : ℕ → Block α → Option (Block α)} {S : ℕ → ℕ → Prop} (n : ℕ) (b : Block α)
    (hf : ∀ i < n, ∀ c, c.length = b.length → ∃ d, f i c = some d ∧ Fills v (S i) c d) :
    ∃ c, loop n f b = some c ∧ Fills v (fun k => ∃ i < n, S i k) b c := by
  obtain ⟨c, hc, h⟩ := loop_invariant (f := f) (s := b) (fun m c => Fills v (fun k => ∃ i < m, S i k) b c) n
    ((fills_none v b).congr (by simp)) fun i hi c hP => by
      obtain ⟨d, hd, hfill⟩ := hf i hi c hP.length
      refine ⟨d, hd, (hP.trans hfill).congr fun k => ?_⟩
      constructor
      · rintro ⟨j, hj, hS⟩
        rcases Nat.lt_succ_iff_lt_or_eq.1 hj with h | rfl
        · exact .inl ⟨j, h, hS⟩
        · exact .inr hS
      · rintro (⟨j, hj, hS⟩ | hS)
        · exact ⟨j, by omega, hS⟩
        · exact ⟨i, by omega, hS⟩
  exact ⟨c, hc, h⟩

/-! ### Copying cells -/

/-- `memcpy` of `n` cells, indeterminate ones as well. -/
def memcpy (b e : Block α) (n : ℕ) : Option (Block α) :=
  if n ≤ e.length ∧ n ≤ b.length then some (e.take n ++ b.drop n) else none

theorem fills_memcpy {e : Block α} (hn : n ≤ b.length) (he : ∀ k < n, fetch e k = some (v k)) :
    ∃ c, memcpy b e n = some c ∧ Fills v (fun k => k < n) b c := by
  have hlen : n ≤ e.length := by
    cases n with
    | zero => omega
    | succ n => exact lt_of_fetch (he n (by omega))
  have htake : (e.take n).length = n := by
    rw [List.length_take]
    omega
  refine ⟨e.take n ++ b.drop n, if_pos ⟨hlen, hn⟩, ?_, fun k hk => ?_, fun k hk => ?_⟩
  · rw [List.length_append, htake, List.length_drop]
    omega
  · rw [← he k hk, fetch, fetch, List.getElem?_append_left (by omega), List.getElem?_take, if_pos hk]
  · have hsub : n + (k - n) = k := by omega
    rw [fetch, fetch, List.getElem?_append_right (by omega), htake, List.getElem?_drop, hsub]

/-- There is no room. -/
theorem memcpy_none {e : Block α} (hn : b.length < n) : memcpy b e n = none :=
  if_neg fun h => by omega

/-! ### Rows -/

variable {f : ℕ → ℕ → Block α → Option (Block α)} {e : Block α} {h w s t W j : ℕ}

theorem row_col (i : ℕ) (hj : j < W) : (i * W + j) / W = i ∧ (i * W + j) % W = j := by
  constructor
  · rw [Nat.add_comm, Nat.add_mul_div_right _ _ (by omega), Nat.div_eq_of_lt hj, Nat.zero_add]
  · rw [Nat.add_comm, Nat.add_mul_mod_self_right, Nat.mod_eq_of_lt hj]

theorem row_col_lt (hi : i < h) (hj : j < W) : i * W + j < h * W := by
  have := Nat.mul_le_mul_right W (show i + 1 ≤ h by omega)
  rw [Nat.add_mul, Nat.one_mul] at this
  omega

theorem row_lt (hk : k < h * W) : k / W < h ∧ k % W < W := by
  have hpos : 0 < W := by
    by_contra h0
    rw [Nat.eq_zero_of_not_pos h0] at hk
    omega
  exact ⟨(Nat.div_lt_iff_lt_mul hpos).2 hk, Nat.mod_lt _ hpos⟩

/-- A loop over the columns inside one over the rows. -/
theorem fills_rows {S : ℕ → ℕ → ℕ → Prop} (b : Block α)
    (hf : ∀ i < h, ∀ j < w, ∀ c, c.length = b.length → ∃ d, f i j c = some d ∧ Fills v (S i j) c d) :
    ∃ c, loop h (fun i => loop w (f i)) b = some c ∧ Fills v (fun k => ∃ i < h, ∃ j < w, S i j k) b c :=
  fills_loop h b fun i hi c hc => fills_loop w c fun j hj d hd => hf i hi j hj d (hd.trans hc)

/-- What each round of a loop nest goes on with, by the number of rounds before it. -/
theorem loop_rows_invariant {f : ℕ → ℕ → σ → Option σ} {s : σ} (P : ℕ → σ → Prop) (h0 : P 0 s)
    (hstep : ∀ i < h, ∀ j < w, ∀ s, P (i * w + j) s → ∃ s', f i j s = some s' ∧ P (i * w + j + 1) s') :
    ∃ s', loop h (fun i => loop w (f i)) s = some s' ∧ P (h * w) s' := by
  refine loop_invariant (fun i => P (i * w)) h (by rwa [Nat.zero_mul]) fun i hi s hP => ?_
  obtain ⟨s', hs', hP'⟩ := loop_invariant (f := f i) (s := s) (fun j => P (i * w + j)) w hP (hstep i hi)
  refine ⟨s', hs', ?_⟩
  rw [Nat.add_mul, Nat.one_mul]
  exact hP'

theorem loop_rows_none {f : ℕ → ℕ → σ → Option σ} {s : σ} (hh : 0 < h) (hw : 0 < w) (hf : f 0 0 s = none) :
    loop h (fun i => loop w (f i)) s = none :=
  loop_none hh (loop_none hw hf)

/-- Rows of `w` cells are copied from a table with rows of `s` cells to one with rows of `t`. -/
theorem fills_copy {a : ℕ → α} (b : Block α) (hw : w ≤ t)
    (hf : ∀ i < h, ∀ j < w, ∀ c, f i j c = (fetch e (i * s + j)).bind fun x => store c (i * t + j) x)
    (hsrc : ∀ i < h, ∀ j < w, fetch e (i * s + j) = some (a (i * s + j)))
    (hb : ∀ i < h, ∀ j < w, i * t + j < b.length) :
    ∃ c, loop h (fun i => loop w (f i)) b = some c ∧
      Fills (fun k => a (k / t * s + k % t)) (fun k => k / t < h ∧ k % t < w) b c := by
  obtain ⟨c, hc, hfill⟩ := fills_rows (f := f) (h := h) (w := w) (v := fun k => a (k / t * s + k % t))
    (S := fun i j k => k = i * t + j) b fun i hi j hj c hlen => by
      obtain ⟨hdiv, hmod⟩ := row_col (W := t) i (show j < t by omega)
      rw [hf i hi j hj c, hsrc i hi j hj, Option.bind_some]
      exact fills_store _ (by rw [hlen]; exact hb i hi j hj) (by rw [hdiv, hmod])
  refine ⟨c, hc, hfill.congr fun k => ?_⟩
  constructor
  · rintro ⟨hi, hj⟩
    exact ⟨k / t, hi, k % t, hj, by rw [Nat.mul_comm, Nat.div_add_mod]⟩
  · rintro ⟨i, hi, j, hj, rfl⟩
    obtain ⟨hdiv, hmod⟩ := row_col (W := t) i (show j < t by omega)
    rw [hdiv, hmod]
    exact ⟨hi, hj⟩

end Memory
