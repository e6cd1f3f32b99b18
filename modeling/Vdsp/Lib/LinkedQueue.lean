import Mathlib.Data.List.Nodup
import Mathlib.Logic.Function.Basic

/-!
# Queues as intrusive singly linked lists

A queue is kept as two pointers, `head` and `tail`, into nodes that are linked by `next`.
`Represents next head tail xs` says that the nodes reachable from `head` are exactly `xs`, in order and without
repetition, and that `tail` is the last of them.  The lemmas follow the three changes such a queue goes through:
the first node of an empty queue, a node linked behind the last one, and the unlinking of the first node.
-/

namespace LinkedQueue

variable {α : Type*}

/-- Following `next` from `p` runs through the nodes `xs` and ends there. -/
def Chain (next : α → Option α) : Option α → List α → Prop
  | p, [] => p = none
  | p, x :: xs => p = some x ∧ Chain next (next x) xs

/-- The pointers `head` and `tail` and the links `next` hold the queue `xs`. -/
structure Represents (next : α → Option α) (head tail : Option α) (xs : List α) : Prop where
  chain : Chain next head xs
  last : tail = xs.getLast?
  nodup : xs.Nodup

theorem chain_congr {next next' : α → Option α} {xs : List α} (h : ∀ x ∈ xs, next' x = next x) {p : Option α}
    (hc : Chain next p xs) : Chain next' p xs := by
  induction xs generalizing p with
  | nil => exact hc
  | cons x xs ih =>
    refine ⟨hc.1, ?_⟩
    rw [h x (List.mem_cons_self ..)]
    exact ih (fun y hy => h y (List.mem_cons_of_mem _ hy)) hc.2

/-- The link of the last node is empty. -/
theorem Chain.next_last {next : α → Option α} {p : Option α} {xs : List α} (hc : Chain next p xs) {t : α}
    (ht : xs.getLast? = some t) : next t = none := by
  induction xs generalizing p with
  | nil => cases ht
  | cons x xs ih =>
    cases xs with
    | nil =>
      obtain rfl : x = t := by simpa using ht
      exact hc.2
    | cons y ys => exact ih hc.2 (by rw [← ht, List.getLast?_cons_cons])

/-- Linking a node behind the last one appends it. -/
theorem Chain.append [DecidableEq α] {next : α → Option α} {p : Option α} {xs : List α} (hc : Chain next p xs)
    {t x : α} (ht : xs.getLast? = some t) (hnd : xs.Nodup) (hx : x ∉ xs) (hnx : next x = none) :
    Chain (Function.update next t (some x)) p (xs ++ [x]) := by
  induction xs generalizing p with
  | nil => cases ht
  | cons y ys ih =>
    refine ⟨hc.1, ?_⟩
    rw [List.nodup_cons] at hnd
    rw [List.mem_cons, not_or] at hx
    cases ys with
    | nil =>
      obtain rfl : y = t := by simpa using ht
      refine ⟨by simp, ?_⟩
      show Function.update next y (some x) x = none
      rw [Function.update_of_ne hx.1, hnx]
    | cons z zs =>
      have ht' : (z :: zs).getLast? = some t := by rw [← ht, List.getLast?_cons_cons]
      have hyt : y ≠ t := fun h => hnd.1 (h ▸ List.mem_of_getLast? ht')
      rw [Function.update_of_ne hyt]
      exact ih hc.2 ht' hnd.2 hx.2

theorem represents_nil (next : α → Option α) : Represents next none none [] :=
  ⟨rfl, rfl, List.nodup_nil⟩

theorem Represents.congr {next next' : α → Option α} {head tail : Option α} {xs : List α}
    (h : Represents next head tail xs) (hn : ∀ x ∈ xs, next' x = next x) : Represents next' head tail xs :=
  ⟨chain_congr hn h.chain, h.last, h.nodup⟩

theorem Represents.head_eq {next : α → Option α} {head tail : Option α} {xs : List α}
    (h : Represents next head tail xs) : head = xs.head? := by
  cases xs with
  | nil => exact h.chain
  | cons x xs => exact h.chain.1

theorem Represents.head_none {next : α → Option α} {head tail : Option α} {xs : List α}
    (h : Represents next head tail xs) : head = none ↔ xs = [] := by
  rw [h.head_eq, List.head?_eq_none_iff]

theorem Represents.tail_none {next : α → Option α} {head tail : Option α} {xs : List α}
    (h : Represents next head tail xs) : tail = none ↔ xs = [] := by
  rw [h.last, List.getLast?_eq_none_iff]

/-- The queue is empty for both of its pointers or for none. -/
theorem Represents.head_none_iff_tail_none {next : α → Option α} {head tail : Option α} {xs : List α}
    (h : Represents next head tail xs) : head = none ↔ tail = none := by
  rw [h.head_none, h.tail_none]

theorem Represents.next_tail {next : α → Option α} {head tail : Option α} {xs : List α}
    (h : Represents next head tail xs) {t : α} (ht : tail = some t) : next t = none :=
  h.chain.next_last (h.last ▸ ht)

/-- The first node of an empty queue. -/
theorem Represents.push_empty [DecidableEq α] {next : α → Option α} {head : Option α} {xs : List α}
    (h : Represents next head none xs) (x : α) :
    xs = [] ∧ Represents (Function.update next x none) (some x) (some x) [x] := by
  refine ⟨h.tail_none.1 rfl, ⟨⟨rfl, ?_⟩, rfl, List.nodup_singleton x⟩⟩
  exact Function.update_self ..

/-- A node linked behind the last one. -/
theorem Represents.push [DecidableEq α] {next : α → Option α} {head : Option α} {t : α} {xs : List α}
    (h : Represents next head (some t) xs) {x : α} (hx : x ∉ xs) :
    Represents (Function.update (Function.update next x none) t (some x)) head (some x) (xs ++ [x]) := by
  refine ⟨?_, by simp, ?_⟩
  · refine Chain.append ?_ h.last.symm h.nodup hx (Function.update_self ..)
    refine chain_congr (fun y hy => ?_) h.chain
    rw [Function.update_of_ne]
    rintro rfl
    exact hx hy
  · rw [List.nodup_append]
    exact ⟨h.nodup, List.nodup_singleton x, fun a ha b hb => by
      rw [List.mem_singleton] at hb
      rintro rfl
      exact hx (hb ▸ ha)⟩

/-- The unlinking of the first node, which resets `tail` when it was also the last. -/
theorem Represents.pop [DecidableEq α] {next : α → Option α} {x : α} {tail : Option α} {xs : List α}
    (h : Represents next (some x) tail xs) :
    ∃ ys, xs = x :: ys ∧ Represents next (next x) (if some x = tail then none else tail) ys := by
  cases xs with
  | nil => cases h.chain
  | cons y ys =>
    obtain rfl : x = y := Option.some.inj h.chain.1
    have hnd := List.nodup_cons.1 h.nodup
    refine ⟨ys, rfl, h.chain.2, ?_, hnd.2⟩
    rw [h.last]
    cases ys with
    | nil => simp
    | cons z zs =>
      rw [List.getLast?_cons_cons]
      have hne : some x ≠ (z :: zs).getLast? := fun h' => hnd.1 (List.mem_of_getLast? h'.symm)
      rw [if_neg hne]

end LinkedQueue
