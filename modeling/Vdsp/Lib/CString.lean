import Mathlib.Data.List.Basic

/-!
# Strings in memory

The bytes that may be read from a pointer on are a list; a read beyond them is undefined (`none`).  A string is
a list without zero bytes, and in memory a zero byte follows it.
-/

namespace CString

variable {s t : List UInt8}

/-- No terminator in it. -/
def IsString (s : List UInt8) : Prop := ∀ c ∈ s, c ≠ 0

instance (s : List UInt8) : Decidable (IsString s) := List.decidableBAll (· ≠ 0) s

/-- `strlen`. -/
def strlen : List UInt8 → Option Nat
  | [] => none
  | c :: mem => if c = 0 then some 0 else (strlen mem).map (· + 1)

/-- The bytes of a string are read and counted. -/
theorem strlen_append (h : IsString s) (a : List UInt8) : strlen (s ++ a) = (strlen a).map (· + s.length) := by
  induction s with
  | nil => simp
  | cons c s ih =>
    have hc : c ≠ 0 := h c (by simp)
    have hs : IsString s := fun d hd => h d (by simp [hd])
    rw [List.cons_append, strlen, if_neg hc, ih hs, Option.map_map]
    congr 1

theorem strlen_string (h : IsString s) (a : List UInt8) : strlen (s ++ 0 :: a) = some s.length := by
  rw [strlen_append h, strlen, if_pos rfl, Option.map_some, Nat.zero_add]

/-- Without a terminator there is no end. -/
theorem strlen_unterminated (h : IsString s) : strlen s = none := by
  have := strlen_append h []
  rwa [List.append_nil] at this

end CString
