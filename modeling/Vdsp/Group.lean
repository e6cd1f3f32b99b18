import Vdsp.Types
import Mathlib.Tactic.Ring

/-!
# Buffer groups

The table of a `struct xrp_buffer_group`, over any type of buffers.  It grows by `realloc`, whose outcome is an
argument.  Without failures the table grows at the lengths 0, 4, 12, 28 and so on: `xrpAddBufferToGroup_grow`.
-/

namespace Vdsp

/-- `struct xrp_buffer_group_record`. -/
structure XrpBufferGroupRecord (β : Type) where
  buffer : β
  accessFlags : XrpAccessFlags
  deriving DecidableEq, Repr

/-- The table of a `struct xrp_buffer_group`; `n_buffers` is the length of `buffer`. -/
structure XrpBufferGroup (β : Type) where
  capacity : Nat
  buffer : List (XrpBufferGroupRecord β)
  le : buffer.length ≤ capacity
  deriving DecidableEq

variable {β : Type}

def XrpBufferGroup.nBuffers (g : XrpBufferGroup β) : Nat := g.buffer.length

/-- The table of `xrp_create_buffer_group`. -/
def XrpBufferGroup.empty : XrpBufferGroup β := ⟨0, [], le_refl _⟩

/-- `xrp_add_buffer_to_group`: the group and the index of the buffer, or a failure. -/
def xrpAddBufferToGroup (g : XrpBufferGroup β) (b : β) (flags : XrpAccessFlags) (realloc : Bool) :
    Option (XrpBufferGroup β × Nat) :=
  if h : g.nBuffers = g.capacity then
    if realloc then
      some (⟨(g.capacity + 2) * 2, g.buffer ++ [⟨b, flags⟩], by
        have h' : g.buffer.length = g.capacity := h
        simp only [List.length_append, List.length_singleton]
        omega⟩, g.nBuffers)
    else none
  else
    some (⟨g.capacity, g.buffer ++ [⟨b, flags⟩], by
      have h' : g.buffer.length ≠ g.capacity := h
      have := g.le
      simp only [List.length_append, List.length_singleton]
      omega⟩, g.nBuffers)

/-- `xrp_set_buffer_in_group`: the group and the buffer that was replaced, or a failure. -/
def xrpSetBufferInGroup (g : XrpBufferGroup β) (index : Nat) (b : β) (flags : XrpAccessFlags) :
    Option (XrpBufferGroup β × β) :=
  match g.buffer[index]? with
  | some old => some (⟨g.capacity, g.buffer.set index ⟨b, flags⟩, by simpa using g.le⟩, old.buffer)
  | none => none

/-- `xrp_get_buffer_from_group`. -/
def xrpGetBufferFromGroup (g : XrpBufferGroup β) (idx : Nat) : Option β :=
  (g.buffer[idx]?).map XrpBufferGroupRecord.buffer

/-- An addition succeeds unless the table is full and `realloc` fails. -/
theorem xrpAddBufferToGroup_isSome {g : XrpBufferGroup β} {b : β} {flags : XrpAccessFlags} {realloc : Bool} :
    (xrpAddBufferToGroup g b flags realloc).isSome = true ↔ (g.nBuffers = g.capacity → realloc = true) := by
  unfold xrpAddBufferToGroup
  split
  · rename_i h
    cases realloc <;> simp [h]
  · rename_i h
    simp [h]

/-- An addition appends. -/
theorem xrpAddBufferToGroup_buffer {g g' : XrpBufferGroup β} {b : β} {flags : XrpAccessFlags}
    {realloc : Bool} {i : Nat} (h : xrpAddBufferToGroup g b flags realloc = some (g', i)) :
    g'.buffer = g.buffer ++ [⟨b, flags⟩] ∧ i = g.nBuffers := by
  unfold xrpAddBufferToGroup at h
  split at h
  · split at h
    · cases h
      exact ⟨rfl, rfl⟩
    · cases h
  · cases h
    exact ⟨rfl, rfl⟩

/-- The table is full, and grows, at the length `i`. -/
def GrowsAt (i : Nat) : Prop := ∃ k, i + 4 = 2 ^ (k + 2)

/-- The capacity is the least of 0, 4, 12, 28, … that holds the table. -/
def XrpBufferGroup.Tight (g : XrpBufferGroup β) : Prop :=
  ∃ k, g.capacity + 4 = 2 ^ (k + 2) ∧ ∀ j < k, 2 ^ (j + 2) < g.nBuffers + 4

theorem XrpBufferGroup.tight_empty : (XrpBufferGroup.empty : XrpBufferGroup β).Tight :=
  ⟨0, rfl, fun _ h => absurd h (Nat.not_lt_zero _)⟩

/-- A tight table is full exactly at the lengths where it grows. -/
theorem XrpBufferGroup.Tight.full_iff {g : XrpBufferGroup β} (h : g.Tight) :
    g.nBuffers = g.capacity ↔ GrowsAt g.nBuffers := by
  obtain ⟨k, hk, hlt⟩ := h
  constructor
  · intro he
    exact ⟨k, he ▸ hk⟩
  · rintro ⟨j, hj⟩
    have hle : g.nBuffers ≤ g.capacity := g.le
    rcases Nat.lt_trichotomy j k with h | rfl | h
    · have := hlt j h
      omega
    · omega
    · have : 2 ^ (k + 2) < 2 ^ (j + 2) := Nat.pow_lt_pow_right (by omega) (by omega)
      omega

/-- An addition keeps the table tight. -/
theorem xrpAddBufferToGroup_grow {g g' : XrpBufferGroup β} {b : β} {flags : XrpAccessFlags}
    {realloc : Bool} {i : Nat}
    (ht : g.Tight) (h : xrpAddBufferToGroup g b flags realloc = some (g', i)) : g'.Tight := by
  obtain ⟨k, hk, hlt⟩ := ht
  have hn : g'.nBuffers = g.nBuffers + 1 := by
    unfold XrpBufferGroup.nBuffers
    rw [(xrpAddBufferToGroup_buffer h).1, List.length_append, List.length_singleton]
  unfold xrpAddBufferToGroup at h
  split at h
  · rename_i hfull
    split at h
    · cases h
      refine ⟨k + 1, ?_, fun j hj => ?_⟩
      · show (g.capacity + 2) * 2 + 4 = _
        rw [pow_succ, ← hk]
        ring
      · have : 2 ^ (j + 2) ≤ 2 ^ (k + 2) := Nat.pow_le_pow_right (by omega) (by omega)
        omega
    · cases h
  · cases h
    refine ⟨k, hk, fun j hj => ?_⟩
    have := hlt j hj
    omega

end Vdsp
