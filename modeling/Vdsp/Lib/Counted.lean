import Mathlib.Data.List.Basic

/-!
# Heaps of counted objects

A heap is a list; the address of an object is its index, and addresses are not used again.  A cell is an object
with its reference count, a natural number, or `none` once the object is freed.  `retain` and `release` fail on a
freed object; the release of the last reference frees the object and hands it out.

The lemmas say what the operations do to the cell between two parts of a heap, which stay as they are.
-/

namespace Counted

/-- A heap of objects of one type. -/
abbrev Heap (α : Type*) := List (Option (Nat × α))

variable {α β : Type*}

/-- A new object with one reference, at the address `h.length`. -/
def alloc (h : Heap α) (a : α) : Heap α := h ++ [some (1, a)]

/-- The object at an address. -/
def get (h : Heap α) (i : Nat) : Option α :=
  match h[i]? with
  | some (some (_, a)) => some a
  | _ => none

def set (h : Heap α) (i : Nat) (a : α) : Heap α :=
  match h[i]? with
  | some (some (n, _)) => List.set h i (some (n, a))
  | _ => h

def retain (h : Heap α) (i : Nat) : Option (Heap α) :=
  match h[i]? with
  | some (some (n, a)) => some (List.set h i (some (n + 1, a)))
  | _ => none

/-- The heap after a release, with the object if it was freed. -/
def release (h : Heap α) (i : Nat) : Option (Heap α × Option α) :=
  match h[i]? with
  | some (some (n, a)) =>
    if n = 1 then some (List.set h i none, some a) else some (List.set h i (some (n - 1, a)), none)
  | _ => none

variable {h k : Heap α} {i n : Nat} {a b : α}

theorem getElem?_mid (c : Option (Nat × α)) (hi : i = h.length) : (h ++ c :: k)[i]? = some c := by
  subst hi
  simp

theorem list_set_mid (c d : Option (Nat × α)) (hi : i = h.length) : List.set (h ++ c :: k) i d = h ++ d :: k := by
  subst hi
  simp

theorem get_mid (hi : i = h.length) : get (h ++ some (n, a) :: k) i = some a := by
  rw [get, getElem?_mid _ hi]

theorem set_mid (hi : i = h.length) : set (h ++ some (n, a) :: k) i b = h ++ some (n, b) :: k := by
  rw [set, getElem?_mid _ hi]
  exact list_set_mid _ _ hi

theorem retain_mid (hi : i = h.length) : retain (h ++ some (n, a) :: k) i = some (h ++ some (n + 1, a) :: k) := by
  rw [retain, getElem?_mid _ hi]
  exact congrArg some (list_set_mid _ _ hi)

theorem release_mid (hi : i = h.length) (hn : n ≠ 1) :
    release (h ++ some (n, a) :: k) i = some (h ++ some (n - 1, a) :: k, none) := by
  rw [release, getElem?_mid _ hi]
  simp only [if_neg hn, list_set_mid _ _ hi]

theorem release_last (hi : i = h.length) :
    release (h ++ some (1, a) :: k) i = some (h ++ none :: k, some a) := by
  rw [release, getElem?_mid _ hi]
  simp only [if_true, list_set_mid _ _ hi]

/-! ### Freed parts -/

/-- A run of freed cells. -/
def freed (α : Type*) (n : Nat) : Heap α := List.replicate n none

@[simp] theorem freed_zero : freed α 0 = [] := rfl

@[simp] theorem freed_succ (n : Nat) : freed α (n + 1) = none :: freed α n := rfl

/-- Everything in `k` that is not in `h` is freed, and `h` is as it was. -/
def Spent (h k : Heap α) : Prop := ∃ n, k = h ++ freed α n

theorem Spent.refl (h : Heap α) : Spent h h := ⟨0, by simp⟩

end Counted
