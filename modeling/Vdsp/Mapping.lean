import Vdsp.Abi
import Vdsp.Types
import Vdsp.Lib.System
import Mathlib.Data.Multiset.AddSub

/-!
# The mapping of buffers (`xrp_map_buffer`, `xrp_unmap_buffer`)

Pointers, sizes and the two counters of a buffer are words of `w` bits, with the arithmetic and the comparisons
of the code.  Both functions compare differences, so nothing wraps around on the way (`MapBuffer.Fits.maps`), and what
`xrp_map_buffer` returns is what `xrp_unmap_buffer` takes, up to the end of the buffer.

In a run the clients map, unmap, retain and release one buffer, on references that they own.  The counters count
as long as fewer than `2 ^ w` references are outstanding (`mapping_counted`); after `2 ^ 32` mappings of a
buffer of a 32-bit process `map_count` is 0 again.
-/

namespace Vdsp

open Lts

variable {w : Nat}

/-- A `struct xrp_buffer`, as far as mappings read it. -/
structure MapBuffer (w : Nat) where
  /-- `ref.count`. -/
  count : BitVec w
  mapCount : BitVec w
  mapFlags : Nat
  ptr : BitVec w
  size : BitVec w
  freed : Bool
  deriving DecidableEq

/-- `xrp_retain_buffer`. -/
def MapBuffer.retain (b : MapBuffer w) : MapBuffer w := { b with count := b.count + 1 }

/-- `xrp_release_buffer`: the buffer is freed when the count was 1. -/
def MapBuffer.release (b : MapBuffer w) : MapBuffer w :=
  { b with count := b.count - 1, freed := b.freed || b.count = 1 }

/-- `xrp_map_buffer`. -/
def xrpMapBuffer (b : MapBuffer w) (offset size : BitVec w) (mapFlags : XrpAccessFlags) :
    MapBuffer w × XrpStatus × Option (BitVec w) :=
  if offset ≤ b.size ∧ size ≤ b.size - offset then
    ({ b.retain with mapCount := b.mapCount + 1, mapFlags := b.mapFlags ||| mapFlags.toNat }, .success,
      some (b.ptr + offset))
  else (b, .failure, none)

/-- `xrp_unmap_buffer`. -/
def xrpUnmapBuffer (b : MapBuffer w) (p : BitVec w) : MapBuffer w × XrpStatus :=
  if b.ptr ≤ p ∧ p - b.ptr ≤ b.size then (({ b with mapCount := b.mapCount - 1 }).release, .success)
  else (b, .failure)

/-- The storage does not wrap around the address space. -/
def MapBuffer.Fits (b : MapBuffer w) : Prop := b.ptr.toNat + b.size.toNat < 2 ^ w

/-- What the two functions do with a buffer, for all words. -/
structure Maps (b : MapBuffer w) : Prop where
  /-- A mapping succeeds exactly when it is inside the buffer, and its pointer is there. -/
  map : ∀ offset size flags, (offset.toNat + size.toNat ≤ b.size.toNat →
    ∃ p, xrpMapBuffer b offset size flags = ({ b.retain with
        mapCount := b.mapCount + 1
        mapFlags := b.mapFlags ||| flags.toNat }, .success, some p) ∧
      p.toNat = b.ptr.toNat + offset.toNat ∧ p.toNat + size.toNat ≤ b.ptr.toNat + b.size.toNat)
  refused : ∀ offset size flags, b.size.toNat < offset.toNat + size.toNat →
    xrpMapBuffer b offset size flags = (b, .failure, none)
  /-- Its pointer is taken back, also from a buffer that has been mapped and released since. -/
  unmap : ∀ offset size flags b' status p, xrpMapBuffer b offset size flags = (b', status, some p) →
    ∀ c : MapBuffer w, c.ptr = b.ptr → c.size = b.size →
      xrpUnmapBuffer c p = (({ c with mapCount := c.mapCount - 1 }).release, .success)
  outside : ∀ p, p.toNat < b.ptr.toNat ∨ b.ptr.toNat + b.size.toNat < p.toNat →
    xrpUnmapBuffer b p = (b, .failure)

private theorem toNat_sub_of_le {x y : BitVec w} (h : y ≤ x) : (x - y).toNat = x.toNat - y.toNat :=
  BitVec.toNat_sub_of_le h

private theorem map_test (b : MapBuffer w) (offset size : BitVec w) :
    (offset ≤ b.size ∧ size ≤ b.size - offset) ↔ offset.toNat + size.toNat ≤ b.size.toNat := by
  constructor
  · rintro ⟨h1, h2⟩
    have h3 : offset.toNat ≤ b.size.toNat := h1
    have h4 : size.toNat ≤ (b.size - offset).toNat := h2
    rw [toNat_sub_of_le h1] at h4
    omega
  · intro h
    have h1 : offset ≤ b.size := show offset.toNat ≤ b.size.toNat by omega
    refine ⟨h1, show size.toNat ≤ (b.size - offset).toNat from ?_⟩
    rw [toNat_sub_of_le h1]
    omega

private theorem unmap_test (b : MapBuffer w) (p : BitVec w) :
    (b.ptr ≤ p ∧ p - b.ptr ≤ b.size) ↔ b.ptr.toNat ≤ p.toNat ∧ p.toNat ≤ b.ptr.toNat + b.size.toNat := by
  constructor
  · rintro ⟨h1, h2⟩
    have h3 : (p - b.ptr).toNat ≤ b.size.toNat := h2
    rw [toNat_sub_of_le h1] at h3
    have h4 : b.ptr.toNat ≤ p.toNat := h1
    omega
  · rintro ⟨h1, h2⟩
    have h3 : b.ptr ≤ p := h1
    refine ⟨h3, show (p - b.ptr).toNat ≤ b.size.toNat from ?_⟩
    rw [toNat_sub_of_le h3]
    omega

private theorem toNat_mapped {b : MapBuffer w} (hb : b.Fits) (offset : BitVec w)
    (h : offset.toNat ≤ b.size.toNat) : (b.ptr + offset).toNat = b.ptr.toNat + offset.toNat := by
  have hlt : b.ptr.toNat + b.size.toNat < 2 ^ w := hb
  rw [BitVec.toNat_add]
  exact Nat.mod_eq_of_lt (by omega)

theorem MapBuffer.Fits.maps {b : MapBuffer w} (hb : b.Fits) : Maps b := by
  refine ⟨fun offset size flags h => ?_, fun offset size flags h => ?_,
    fun offset size flags b' status p h c hp hs => ?_,
    fun p h => ?_⟩
  · have hp := toNat_mapped hb offset (by omega)
    refine ⟨b.ptr + offset, ?_, hp, by omega⟩
    rw [xrpMapBuffer, if_pos ((map_test b offset size).2 h)]
  · rw [xrpMapBuffer, if_neg fun h' => ?_]
    have := (map_test b offset size).1 h'
    omega
  · unfold xrpMapBuffer at h
    split at h
    · rename_i hin
      simp only [Prod.mk.injEq, Option.some.injEq] at h
      obtain ⟨-, -, rfl⟩ := h
      have hle := (map_test b offset size).1 hin
      have hptr := toNat_mapped hb offset (by omega)
      rw [xrpUnmapBuffer, if_pos ((unmap_test c _).2 ?_)]
      rw [hp, hs, hptr]
      omega
    · simp at h
  · rw [xrpUnmapBuffer, if_neg fun h' => ?_]
    have := (unmap_test b p).1 h'
    omega

/-! ### Runs -/

/-- A buffer with the references that the clients own to it, and the pointers of the outstanding mappings. -/
structure MapState (w : Nat) where
  buffer : MapBuffer w
  owned : Nat
  maps : Multiset (BitVec w)
  deriving DecidableEq

inductive MapCall (w : Nat)
  | map (offset size : BitVec w) (flags : XrpAccessFlags)
  | unmap (p : BitVec w)
  | retain
  | release
  deriving DecidableEq

/-- All the references to the buffer. -/
def MapState.refs (s : MapState w) : Nat := s.owned + s.maps.card

/-- A call on a reference that the clients own, or on an outstanding mapping. -/
def MapState.step (s : MapState w) : MapCall w → Option (MapState w)
  | .map offset size flags =>
    if 0 < s.refs then
      match xrpMapBuffer s.buffer offset size flags with
      | (b, _, some p) => some { s with buffer := b, maps := p ::ₘ s.maps }
      | (b, _, none) => some { s with buffer := b }
    else none
  | .unmap p =>
    if p ∈ s.maps then
      match xrpUnmapBuffer s.buffer p with
      | (b, .success) => some { s with buffer := b, maps := s.maps.erase p }
      | (b, _) => some { s with buffer := b }
    else none
  | .retain => if 0 < s.refs then some { s with buffer := s.buffer.retain, owned := s.owned + 1 } else none
  | .release => if 0 < s.owned then some { s with buffer := s.buffer.release, owned := s.owned - 1 } else none

/-- A new buffer, which its creator owns. -/
def MapState.start (ptr size : BitVec w) : MapState w := ⟨⟨1, 0, 0, ptr, size, false⟩, 1, 0⟩

def mappings (w : Nat) : System (MapState w) (MapCall w) where
  init s := ∃ ptr size : BitVec w, ptr.toNat + size.toNat < 2 ^ w ∧ s = .start ptr size
  step := MapState.step

/-- A map or a retain leaves fewer than `2 ^ w` references. -/
def fewReferences (s : MapState w) : MapCall w → Prop
  | .map .. | .retain => s.refs + 1 < 2 ^ w
  | .unmap _ | .release => True

instance (s : MapState w) (c : MapCall w) : Decidable (fewReferences s c) := by
  cases c <;> unfold fewReferences <;> infer_instance

/-- The counters count, and the buffer is there as long as there is a reference. -/
structure Counted (s : MapState w) : Prop where
  mapCount : s.buffer.mapCount.toNat = s.maps.card
  count : s.buffer.count.toNat = s.owned + s.maps.card
  alive : s.buffer.freed = true ↔ s.owned + s.maps.card = 0
  /-- An outstanding mapping is unmapped. -/
  unmaps : ∀ p ∈ s.maps, ∃ b, xrpUnmapBuffer s.buffer p = (b, .success) ∧
    b.mapCount.toNat + 1 = s.buffer.mapCount.toNat

structure MapInv (s : MapState w) : Prop where
  fits : s.buffer.Fits
  inside : ∀ p ∈ s.maps, s.buffer.ptr.toNat ≤ p.toNat ∧ p.toNat ≤ s.buffer.ptr.toNat + s.buffer.size.toNat
  mapCount : s.buffer.mapCount.toNat = s.maps.card
  count : s.buffer.count.toNat = s.refs
  alive : s.buffer.freed = true ↔ s.refs = 0

theorem toNat_one (hw : 1 < 2 ^ w) : (1 : BitVec w).toNat = 1 := by
  show 1 % 2 ^ w = 1
  exact Nat.mod_eq_of_lt hw

theorem toNat_succ {x : BitVec w} {n : Nat} (h : x.toNat = n) (hn : n + 1 < 2 ^ w) : (x + 1).toNat = n + 1 := by
  rw [BitVec.toNat_add, h, toNat_one (by omega)]
  exact Nat.mod_eq_of_lt hn

theorem toNat_pred {x : BitVec w} {n : Nat} (h : x.toNat = n) (hn : 0 < n) : (x - 1).toNat = n - 1 := by
  have hlt := x.isLt
  have hone : (1 : BitVec w).toNat = 1 := toNat_one (by omega)
  rw [BitVec.toNat_sub_of_le (show (1 : BitVec w).toNat ≤ x.toNat by omega), h, hone]

/-- The test of the last release. -/
theorem eq_one_iff {x : BitVec w} {n : Nat} (h : x.toNat = n) (hn : 0 < n) : x = 1 ↔ n = 1 := by
  have hlt := x.isLt
  have hone : (1 : BitVec w).toNat = 1 := toNat_one (by omega)
  rw [← BitVec.toNat_inj, hone, h]

theorem MapInv.start {ptr size : BitVec w} (h : ptr.toNat + size.toNat < 2 ^ w) (hw : 1 < 2 ^ w) :
    MapInv (.start ptr size) :=
  ⟨h, by simp [MapState.start], by simp [MapState.start], toNat_one hw, by simp [MapState.start, MapState.refs]⟩

theorem MapInv.retain {s : MapState w} (hi : MapInv s) (hrefs : 0 < s.refs) (hok : s.refs + 1 < 2 ^ w) :
    MapInv { s with buffer := s.buffer.retain, owned := s.owned + 1 } := by
  have hr : MapState.refs { s with buffer := s.buffer.retain, owned := s.owned + 1 } = s.refs + 1 := by
    simp only [MapState.refs]
    omega
  refine ⟨hi.fits, hi.inside, hi.mapCount, ?_, ?_⟩
  · rw [hr]
    exact toNat_succ hi.count hok
  · rw [hr]
    have hlive : s.buffer.freed ≠ true := fun h => by
      have := hi.alive.1 h
      omega
    exact iff_of_false hlive (by omega)

theorem MapInv.release {s : MapState w} (hi : MapInv s) (hown : 0 < s.owned) :
    MapInv { s with buffer := s.buffer.release, owned := s.owned - 1 } := by
  have hrefs : 0 < s.refs := by
    unfold MapState.refs
    omega
  have hr : MapState.refs { s with buffer := s.buffer.release, owned := s.owned - 1 } = s.refs - 1 := by
    simp only [MapState.refs]
    omega
  refine ⟨hi.fits, hi.inside, hi.mapCount, ?_, ?_⟩
  · rw [hr]
    exact toNat_pred hi.count hrefs
  · have hlive : s.buffer.freed = false := Bool.eq_false_iff.2 fun h => by
      have := hi.alive.1 h
      omega
    rw [hr]
    simp only [MapBuffer.release, hlive, Bool.false_or, decide_eq_true_eq, eq_one_iff hi.count hrefs]
    omega

theorem MapInv.map {s : MapState w} (hi : MapInv s) (hrefs : 0 < s.refs) (hok : s.refs + 1 < 2 ^ w)
    {offset size p : BitVec w} {flags : XrpAccessFlags} {b : MapBuffer w} {status : XrpStatus}
    (h : xrpMapBuffer s.buffer offset size flags = (b, status, some p)) :
    MapInv { s with buffer := b, maps := p ::ₘ s.maps } := by
  unfold xrpMapBuffer at h
  split at h
  · rename_i hin
    simp only [Prod.mk.injEq, Option.some.injEq] at h
    obtain ⟨rfl, -, rfl⟩ := h
    have hle := (map_test s.buffer offset size).1 hin
    have hptr := toNat_mapped hi.fits offset (by omega)
    have hcard : s.maps.card + 1 < 2 ^ w := by
      unfold MapState.refs at hok
      omega
    refine ⟨hi.fits, fun q hq => ?_, ?_, ?_, ?_⟩
    · rcases Multiset.mem_cons.1 hq with rfl | hq
      · show s.buffer.ptr.toNat ≤ _ ∧ _ ≤ s.buffer.ptr.toNat + s.buffer.size.toNat
        omega
      · exact hi.inside q hq
    · rw [Multiset.card_cons]
      exact toNat_succ hi.mapCount hcard
    · simp only [MapState.refs, Multiset.card_cons, ← Nat.add_assoc]
      exact toNat_succ hi.count hok
    · have hlive : s.buffer.freed ≠ true := fun h => by
        have := hi.alive.1 h
        omega
      refine iff_of_false hlive ?_
      simp [MapState.refs]
  · simp at h

/-- The unmapping of an outstanding mapping. -/
theorem MapInv.unmap {s : MapState w} (hi : MapInv s) {p : BitVec w} (hp : p ∈ s.maps) :
    xrpUnmapBuffer s.buffer p = (({ s.buffer with mapCount := s.buffer.mapCount - 1 }).release, .success) ∧
      (s.buffer.mapCount - 1).toNat + 1 = s.buffer.mapCount.toNat ∧
      MapInv { s with
        buffer := ({ s.buffer with mapCount := s.buffer.mapCount - 1 }).release
        maps := s.maps.erase p } := by
  have hpos : 0 < s.maps.card := Multiset.card_pos_iff_exists_mem.2 ⟨p, hp⟩
  have hcard := Multiset.card_erase_of_mem hp
  have hrefs : 0 < s.refs := by
    unfold MapState.refs
    omega
  have hdec := toNat_pred hi.mapCount hpos
  have hr : s.owned + (s.maps.erase p).card = s.refs - 1 := by
    unfold MapState.refs
    rw [hcard]
    show s.owned + (s.maps.card - 1) = _
    omega
  refine ⟨?_, ?_, hi.fits, fun q hq => hi.inside q (Multiset.mem_of_mem_erase hq), ?_, ?_, ?_⟩
  · rw [xrpUnmapBuffer, if_pos ((unmap_test s.buffer p).2 (hi.inside p hp))]
  · rw [hdec, hi.mapCount]
    omega
  · rw [hcard]
    exact hdec
  · show (s.buffer.count - 1).toNat = s.owned + (s.maps.erase p).card
    rw [hr]
    exact toNat_pred hi.count hrefs
  · have hlive : s.buffer.freed = false := Bool.eq_false_iff.2 fun h => by
      have := hi.alive.1 h
      omega
    show _ ↔ s.owned + (s.maps.erase p).card = 0
    rw [hr]
    simp only [MapBuffer.release, hlive, Bool.false_or, decide_eq_true_eq, eq_one_iff hi.count hrefs]
    omega

theorem MapInv.step {s s' : MapState w} {c : MapCall w} (hi : MapInv s) (hok : fewReferences s c)
    (hs : s.step c = some s') : MapInv s' := by
  cases c with
  | map offset size flags =>
    simp only [MapState.step] at hs
    split at hs
    · rename_i hrefs
      split at hs
      · rename_i b status p h
        cases hs
        exact hi.map hrefs hok h
      · rename_i b status h
        cases hs
        have hsame : b = s.buffer := by
          unfold xrpMapBuffer at h
          split at h
          · simp at h
          · simp only [Prod.mk.injEq] at h
            exact h.1.symm
        rw [hsame]
        exact hi
    · cases hs
  | unmap p =>
    simp only [MapState.step] at hs
    split at hs
    · rename_i hp
      obtain ⟨he, -, hi'⟩ := hi.unmap hp
      rw [he] at hs
      cases hs
      exact hi'
    · cases hs
  | retain =>
    simp only [MapState.step] at hs
    split at hs
    · rename_i hrefs
      cases hs
      exact hi.retain hrefs hok
    · cases hs
  | release =>
    simp only [MapState.step] at hs
    split at hs
    · rename_i hown
      cases hs
      exact hi.release hown
    · cases hs

theorem mapInv_of_reach {a : Abi} {s : MapState a.bits} (h : Reach (mappings a.bits) fewReferences s) :
    MapInv s := by
  refine h.invariant ?_ fun s c s' hi hok hs => hi.step hok hs
  rintro s ⟨ptr, size, hfits, rfl⟩
  exact .start hfits (by cases a <;> decide)

/-- The two functions are right for every buffer whose storage does not wrap around and for all words; and in
every run in which fewer than `2 ^ w` references are outstanding, the counters count. -/
theorem mapping_counted (a : Abi) : (∀ b : MapBuffer a.bits, b.Fits → Maps b) ∧
    ∀ s, Reach (mappings a.bits) fewReferences s → Counted s := by
  refine ⟨fun b hb => hb.maps, fun s h => ?_⟩
  have hi := mapInv_of_reach h
  refine ⟨hi.mapCount, hi.count, hi.alive, fun p hp => ?_⟩
  obtain ⟨he, hdec, -⟩ := hi.unmap hp
  exact ⟨_, he, hdec⟩

/-- The creator has released the buffer, and a mapping keeps it. -/
theorem mapping_counted_released : ∃ s, Reach (mappings 32) fewReferences s ∧ s.owned = 0 ∧ s.maps.card = 1 ∧
    s.buffer.freed = false ∧ Counted s := by
  obtain ⟨s, -, hs, hb⟩ := Reach.exists_exec (mappings 32) fewReferences (.start 0x1000 64)
    [.map 60 4 .write, .map 64 0 .read, .map 65 0 .read, .unmap 0x1040, .release]
    (fun s => s.owned = 0 ∧ s.maps.card = 1 ∧ s.buffer.freed = false) ⟨_, _, by decide, rfl⟩ (by decide)
  simp only [decide_eq_true_eq] at hb
  exact ⟨s, hs, hb.1, hb.2.1, hb.2.2, (mapping_counted .ilp32).2 s hs⟩

/-- Any number of mappings. -/
theorem reach_maps (n : Nat) : ∃ s, Reach (mappings w) anyStep s ∧ s.maps.card = n ∧ s.owned = 1 ∧
    s.buffer.mapCount = BitVec.ofNat w n ∧ s.buffer.size = 0 := by
  induction n with
  | zero =>
    have hfits : (0 : BitVec w).toNat + (0 : BitVec w).toNat < 2 ^ w := by
      rw [BitVec.ofNat_eq_ofNat, BitVec.toNat_zero]
      exact Nat.two_pow_pos w
    exact ⟨.start 0 0, .start ⟨0, 0, hfits, rfl⟩, rfl, rfl, rfl, rfl⟩
  | succ n ih =>
    obtain ⟨s, hs, hcard, hown, hcount, hsize⟩ := ih
    have hmap : xrpMapBuffer s.buffer 0 0 .read = ({ s.buffer.retain with
        mapCount := s.buffer.mapCount + 1
        mapFlags := s.buffer.mapFlags ||| XrpAccessFlags.read.toNat }, .success, some (s.buffer.ptr + 0)) := by
      rw [xrpMapBuffer, hsize, if_pos]
      exact (map_test ⟨0, 0, 0, 0, 0, false⟩ 0 0).2 (by simp)
    have hstep : (mappings w).step s (.map 0 0 .read) = some { s with
        buffer := { s.buffer.retain with
          mapCount := s.buffer.mapCount + 1
          mapFlags := s.buffer.mapFlags ||| XrpAccessFlags.read.toNat }
        maps := (s.buffer.ptr + 0) ::ₘ s.maps } := by
      have hrefs : 0 < s.refs := by
        unfold MapState.refs
        omega
      simp only [mappings, MapState.step, if_pos hrefs, hmap]
    refine ⟨_, .step hs trivial hstep, ?_, hown, ?_, hsize⟩
    · rw [Multiset.card_cons, hcard]
    · show s.buffer.mapCount + 1 = _
      rw [hcount]
      exact (BitVec.ofNat_add n 1).symm

/-- After `2 ^ 32` mappings in a 32-bit process `map_count` is 0. -/
theorem mapCount_wraps : ¬ ∀ s, Reach (mappings 32) anyStep s → Counted s := by
  intro hall
  obtain ⟨s, hs, hcard, -, hcount, -⟩ := reach_maps (w := 32) (2 ^ 32)
  have h := (hall s hs).mapCount
  rw [hcard, hcount] at h
  simp at h

end Vdsp
