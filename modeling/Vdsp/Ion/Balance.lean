import Vdsp.Ion

/-!
# The resources of a `VdspIon`

The destructor decides by the members what there is to release.  It takes the descriptor 0 of the device for
none, and unmaps whatever has a size: so the resources balance exactly when the device has another descriptor,
and memory that is not mapped locally has no size (`vdspIon_balanced_iff`).
-/

namespace Vdsp

open Resource

variable {p : IonPlatform} {env : IonAnswers} {size : p.SizeT} {flags memoryType : BitVec 32}

/-- A `VdspIon` is constructed and, in the same mode, destroyed. -/
def VdspIon.lifetime (p : IonPlatform) (env : IonAnswers) (size : p.SizeT) (flags memoryType : BitVec 32) :
    IonEvents :=
  (vdspIon p env size flags memoryType).2 ++ (vdspIon p env size flags memoryType).1.destroy env.legacy

/-- What the constructor acquires is released exactly once, and nothing else; a constructor that fails has
released it itself. -/
structure IonBalanced (p : IonPlatform) (env : IonAnswers) (size : p.SizeT) (flags memoryType : BitVec 32) :
    Prop where
  lifetime : Clean (VdspIon.lifetime p env size flags memoryType)
  failed : ¬ env.Makes p (pageAlign p size) flags memoryType → Clean (vdspIon p env size flags memoryType).2

/-- Nothing is left to destroy of a constructor that has failed. -/
theorem VdspIon.destroy_initial (legacy : Bool) : VdspIon.initial.destroy legacy = [] := by
  cases legacy <;> rfl

private theorem lifetime_eq {ion : VdspIon} {events : IonEvents}
    (h : vdspIon p env size flags memoryType = (ion, events)) :
    VdspIon.lifetime p env size flags memoryType = events ++ ion.destroy env.legacy := by
  rw [VdspIon.lifetime, h]

/-- The destructor of an object with a device, and with memory that is mapped and shared or not. -/
private theorem destroy_eq (legacy : Bool) (device fd : Nat) (handle : Int) (base : Option Addr) (len : Nat) :
    VdspIon.destroy legacy ⟨device, handle, fd, len, base⟩ =
      munmap base len ++ (if 0 < device then
        (if legacy then [.release (.handle device handle)] else []) ++ [.release (.fd device)] else []) ++
        [.release (.fd fd)] := by
  simp [VdspIon.destroy]

/-- The legacy interface, with mapped memory. -/
private theorem balanced_legacy (device fd : Nat) (handle : Int) (base : Addr) {len : Nat} (hlen : len ≠ 0) :
    Clean ([.acquire (.fd device), .acquire (.handle device handle), .acquire (.fd fd),
      .acquire (.mapping (some base) len)] ++ VdspIon.destroy true ⟨device, handle, fd, len, some base⟩) ↔
      device ≠ 0 := by
  rw [destroy_eq, munmap, if_neg hlen]
  by_cases hd : device = 0
  · simp [hd, Clean, replay]
  · have hmem : IonResource.handle device handle ∈ [.fd fd, .handle device handle, IonResource.fd device] := by
      simp
    have herase : [.fd fd, .handle device handle, IonResource.fd device].erase (.handle device handle) =
        [.fd fd, .fd device] := by
      simp
    simp [hd, Nat.pos_of_ne_zero hd, Clean, replay_release hmem, herase, replay_release_swap]

/-- The legacy interface, without a mapping. -/
private theorem balanced_unmapped (device : Nat) (handle : Int) (len : Nat) :
    Clean ([.acquire (.fd device), .acquire (.handle device handle)] ++
      VdspIon.destroy true ⟨device, handle, -1, len, none⟩) ↔ device ≠ 0 ∧ len = 0 := by
  by_cases hlen : len = 0
  · by_cases hd : device = 0
    · simp [VdspIon.destroy, munmap, hlen, hd, Clean, replay]
    · simp [VdspIon.destroy, munmap, hlen, hd, Nat.pos_of_ne_zero hd, Clean, replay]
  · simp [VdspIon.destroy, munmap, hlen, Clean, replay]

/-- The new interface. -/
private theorem balanced_new (device fd : Nat) (base : Addr) {len : Nat} (hlen : len ≠ 0) :
    Clean ([.acquire (.fd device), .acquire (.fd fd), .acquire (.mapping (some base) len)] ++
      VdspIon.destroy false ⟨device, -1, fd, len, some base⟩) ↔ device ≠ 0 := by
  rw [destroy_eq, munmap, if_neg hlen]
  by_cases hd : device = 0
  · simp [hd, Clean, replay]
  · simp [hd, Nat.pos_of_ne_zero hd, Clean, replay_release_swap]

/-- The life of an object that has its memory. -/
private theorem lifetime_clean_iff (hmakes : env.Makes p (pageAlign p size) flags memoryType) :
    Clean (VdspIon.lifetime p env size flags memoryType) ↔
      env.openFd ≠ some 0 ∧
        ¬ (env.legacy = true ∧ flags &&& VdspIon.dontMapLocally ≠ 0 ∧ pageAlign p size ≠ 0) := by
  obtain ⟨device, hopen, h⟩ := vdspIon_makes hmakes
  have hzero : env.openFd ≠ some 0 ↔ device ≠ 0 := by simp [hopen]
  rw [hzero]
  cases hlegacy : env.legacy with
  | true =>
    simp only [hlegacy, if_true] at h
    obtain ⟨handle, h⟩ := h
    by_cases hmap : flags &&& VdspIon.dontMapLocally = 0
    · simp only [hmap, if_true] at h
      obtain ⟨fd, base, hlen, he⟩ := h
      rw [lifetime_eq he, hlegacy, balanced_legacy device fd handle base hlen]
      simp [hmap]
    · simp only [hmap, if_false] at h
      rw [lifetime_eq h, hlegacy, balanced_unmapped device handle (pageAlign p size)]
      simp only [ne_eq, hmap, not_false_iff, true_and, not_not]
  | false =>
    simp only [hlegacy, Bool.false_eq_true, if_false] at h
    obtain ⟨fd, base, hlen, he⟩ := h
    rw [lifetime_eq he, hlegacy, balanced_new device fd base hlen]
    simp

/-- A constructor that fails has nothing left, and neither has the destructor anything to do. -/
private theorem lifetime_clean (hmakes : ¬ env.Makes p (pageAlign p size) flags memoryType) :
    Clean (vdspIon p env size flags memoryType).2 ∧ Clean (VdspIon.lifetime p env size flags memoryType) := by
  obtain ⟨events, he, hclean⟩ := vdspIon_fails hmakes
  rw [lifetime_eq he, VdspIon.destroy_initial, List.append_nil, he]
  exact ⟨hclean, hclean⟩

/-- The resources balance exactly when the constructor fails; or the descriptor of the device is not 0, and the
memory is mapped or has no size. -/
theorem vdspIon_balanced_iff (p : IonPlatform) (env : IonAnswers) (size : p.SizeT)
    (flags memoryType : BitVec 32) :
    IonBalanced p env size flags memoryType ↔
      ¬ env.Makes p (pageAlign p size) flags memoryType ∨
        (env.openFd ≠ some 0 ∧
          ¬ (env.legacy = true ∧ flags &&& VdspIon.dontMapLocally ≠ 0 ∧ pageAlign p size ≠ 0)) := by
  by_cases hmakes : env.Makes p (pageAlign p size) flags memoryType
  · rw [or_iff_right fun h => h hmakes, ← lifetime_clean_iff hmakes]
    exact ⟨IonBalanced.lifetime, fun h => ⟨h, fun hn => absurd hmakes hn⟩⟩
  · obtain ⟨hfailed, hlifetime⟩ := lifetime_clean hmakes
    exact iff_of_true ⟨hlifetime, fun _ => hfailed⟩ (.inl hmakes)

/-- Memory for a buffer that is allocated and freed leaves nothing, unless the device has the descriptor 0. -/
theorem allocIonmem_freeIonmem (p : IonPlatform) (env : IonAnswers) (size : BitVec 32) (iscache : BitVec 8) :
    Clean ((allocIonmem p env size iscache).2 ++
        (freeIonmem env.legacy (allocIonmem p env size iscache).1.handle).1) ↔
      ¬ env.Serves p size iscache ∨ env.openFd ≠ some 0 := by
  obtain ⟨ion, events, hion, halloc⟩ := allocIonmem_eq p env size iscache
  have hmap : (if iscache ≠ 0 then (0 : BitVec 32) else VdspIon.noCaching) &&& VdspIon.dontMapLocally = 0 := by
    split <;> decide
  have hlife := lifetime_eq hion
  rw [halloc, freeIonmem, ← hlife]
  by_cases hserves : env.Serves p size iscache
  · rw [lifetime_clean_iff hserves, or_iff_right fun h => h hserves]
    exact and_iff_left fun h => h.2.1 hmap
  · exact iff_of_true (lifetime_clean hserves).2 (.inl hserves)

/-- The device is opened with the descriptor 0. -/
def zeroIon : IonAnswers := { someIon with openFd := some 0 }

/-- It is not closed. -/
theorem zeroIon_not_balanced : ¬ IonBalanced lp64Platform zeroIon 100 0 0 := by
  rintro ⟨h, -⟩
  have hcount := h.count (.fd 0)
  exact absurd hcount (by decide +kernel)

end Vdsp
