import Vdsp.Abi
import Vdsp.Types
import Vdsp.Lib.Resource
import Mathlib.Data.Nat.Bitwise

/-!
# ION memory

A `VdspIon` opens the ION device, allocates, shares and maps memory, in the legacy and in the new ION interface;
`sprd_alloc_ionmem` and `vdsp_alloc_ionmem` hand it out as a handle.  The constructor has no result, and its
callers test only the pointer that `new` returned: a failure is not reported, and a handle stands for mapped
memory exactly when the system did everything (`allocIonmem_reports_iff`).

Every function returns the resources it acquires and releases, in order; `mmap` of no bytes fails, and `munmap`
of none does nothing.
-/

namespace Vdsp

open Resource

/-- What is fixed when the library is built, and the page size of the system. -/
structure IonPlatform where
  abi : Abi
  pageShift : Nat
  page_lt : pageShift < 31
  /-- `ION_HEAP_ID_MASK_SYSTEM` and `ION_FLAG_NO_CLEAR`. -/
  heapIdMaskSystem : BitVec 32
  flagNoClear : BitVec 32

/-- `getpagesize()`. -/
def IonPlatform.pagesize (p : IonPlatform) : Nat := 2 ^ p.pageShift

/-- A value of type `size_t`. -/
abbrev IonPlatform.SizeT (p : IonPlatform) : Type := BitVec p.abi.bits

/-- `struct ion_allocation_data`, and `struct ion_new_allocation_data`, which has no `align`. -/
structure IonAllocationData where
  len : Nat
  align : Nat
  heapIdMask : BitVec 32
  flags : BitVec 32
  deriving DecidableEq, Repr

structure IonNewAllocationData where
  len : Nat
  heapIdMask : BitVec 32
  flags : BitVec 32
  deriving DecidableEq, Repr

/-- What the system answers. -/
structure IonAnswers where
  openFd : Option Nat
  /-- `ION_IOC_VERSION` fails. -/
  legacy : Bool
  /-- `ION_IOC_ALLOC` and `ION_IOC_SHARE`. -/
  alloc : IonAllocationData → Option Int
  share : Int → Option Nat
  /-- `ION_IOC_NEW_ALLOC`. -/
  newAlloc : IonNewAllocationData → Option Nat
  /-- `mmap` of so many bytes of a file. -/
  mapped : Nat → Nat → Option Addr

inductive IonResource
  | fd (n : Int)
  /-- A handle of the device with the descriptor `device`. -/
  | handle (device : Int) (handle : Int)
  | mapping (base : Option Addr) (len : Nat)
  deriving DecidableEq, Repr

abbrev IonEvents := List (Event IonResource)

structure VdspIon where
  mIonDeviceFd : Int
  mIonHandle : Int
  mFD : Int
  mSize : Nat
  mBase : Option Addr
  deriving DecidableEq, Repr

namespace VdspIon

/-- The members as the constructor initialises them. -/
def initial : VdspIon := ⟨-1, -1, -1, 0, none⟩

/-- `DONT_MAP_LOCALLY` and `NO_CACHING`. -/
def dontMapLocally : BitVec 32 := 0x100

def noCaching : BitVec 32 := 0x200

/-- `1 << 31` in a memory type. -/
def cached : BitVec 32 := 0x80000000

end VdspIon

/-- `(size + pagesize - 1) & ~(pagesize - 1)`. -/
def pageAlign (p : IonPlatform) (size : p.SizeT) : Nat :=
  p.abi.sizeT (size.toNat + p.pagesize - 1) &&& (p.abi.sizeMax - (p.pagesize - 1))

/-- `data.flags`: the two lowest bits are set for a cached buffer. -/
def allocFlags (p : IonPlatform) (memoryType : BitVec 32) : BitVec 32 :=
  let flags := if memoryType &&& VdspIon.cached ≠ 0 then (memoryType &&& VdspIon.cached) ||| 3 else 0
  if memoryType &&& p.flagNoClear ≠ 0 then flags ||| p.flagNoClear else flags

/-- `mmap` of `len` bytes of the file `fd`. -/
def mmap (env : IonAnswers) (len fd : Nat) : Option Addr := if len = 0 then none else env.mapped len fd

def munmap (base : Option Addr) (len : Nat) : IonEvents :=
  if len = 0 then [] else [.release (.mapping base len)]

/-- `VdspIon::mapIonFd`, the legacy branch. -/
def mapIonFdLegacy (p : IonPlatform) (env : IonAnswers) (fd size : Nat) (memoryType uflags : BitVec 32) :
    VdspIon × IonEvents :=
  match env.alloc ⟨size, p.pagesize, memoryType, allocFlags p memoryType⟩ with
  | none => (.initial, [.release (.fd fd)])
  | some handle =>
    if uflags &&& VdspIon.dontMapLocally = 0 then
      match env.share handle with
      | none => (.initial, [.acquire (.handle fd handle), .release (.handle fd handle), .release (.fd fd)])
      | some shared =>
        match mmap env size shared with
        | none =>
          (.initial, [.acquire (.handle fd handle), .acquire (.fd shared), .release (.handle fd handle),
            .release (.fd shared), .release (.fd fd)])
        | some base =>
          (⟨fd, handle, shared, size, some base⟩,
            [.acquire (.handle fd handle), .acquire (.fd shared), .acquire (.mapping (some base) size)])
    else (⟨fd, handle, -1, size, none⟩, [.acquire (.handle fd handle)])

/-- `VdspIon::mapIonFd`, the other branch. -/
def mapIonFdNew (p : IonPlatform) (env : IonAnswers) (fd size : Nat) (memoryType : BitVec 32) :
    VdspIon × IonEvents :=
  match env.newAlloc ⟨size, memoryType, allocFlags p memoryType⟩ with
  | none => (.initial, [.release (.fd fd)])
  | some dataFd =>
    match mmap env size dataFd with
    | none => (.initial, [.acquire (.fd dataFd), .release (.fd dataFd), .release (.fd fd)])
    | some base =>
      (⟨fd, -1, dataFd, size, some base⟩, [.acquire (.fd dataFd), .acquire (.mapping (some base) size)])

/-- `VdspIon::mapIonFd`. -/
def mapIonFd (p : IonPlatform) (env : IonAnswers) (fd size : Nat) (memoryType uflags : BitVec 32) :
    VdspIon × IonEvents :=
  if env.legacy then mapIonFdLegacy p env fd size memoryType uflags else mapIonFdNew p env fd size memoryType

/-- `VdspIon::VdspIon`. -/
def vdspIon (p : IonPlatform) (env : IonAnswers) (size : p.SizeT) (flags memoryType : BitVec 32) :
    VdspIon × IonEvents :=
  match env.openFd with
  | none => (.initial, [])
  | some fd =>
    let (ion, events) := mapIonFd p env fd (pageAlign p size) memoryType flags
    (ion, .acquire (.fd fd) :: events)

/-- `VdspIon::~VdspIon`; `legacy` is what `is_ion_legacy` finds. -/
def VdspIon.destroy (legacy : Bool) (ion : VdspIon) : IonEvents :=
  munmap ion.mBase ion.mSize ++
    (if ion.mIonDeviceFd > 0 then
      (if legacy then [.release (.handle ion.mIonDeviceFd ion.mIonHandle)] else []) ++
        [.release (.fd ion.mIonDeviceFd)]
    else []) ++
    if ion.mFD ≥ 0 then [.release (.fd ion.mFD)] else []

/-- What `sprd_alloc_ionmem` returns, and stores to `*fd` and `*viraddr`. -/
structure IonMem where
  handle : Option VdspIon
  fd : Int
  viraddr : Option Addr
  deriving DecidableEq, Repr

/-- The body of `sprd_alloc_ionmem` and `vdsp_alloc_ionmem`.  The pointer that `new` returns is not `NULL`. -/
def allocIonmem (p : IonPlatform) (env : IonAnswers) (size : BitVec 32) (iscache : BitVec 8) :
    IonMem × IonEvents :=
  let (ion, events) :=
    if iscache ≠ 0 then
      vdspIon p env (size.setWidth _) 0 (VdspIon.cached ||| p.heapIdMaskSystem ||| p.flagNoClear)
    else vdspIon p env (size.setWidth _) VdspIon.noCaching (p.heapIdMaskSystem ||| p.flagNoClear)
  (⟨some ion, ion.mFD, ion.mBase⟩, events)

/-- `sprd_alloc_ionmem`. -/
def sprdAllocIonmem (p : IonPlatform) (env : IonAnswers) (size : BitVec 32) (iscache : BitVec 8) :
    IonMem × IonEvents :=
  allocIonmem p env size iscache

/-- `vdsp_alloc_ionmem`. -/
def vdspAllocIonmem (p : IonPlatform) (env : IonAnswers) (size : BitVec 32) (iscache : BitVec 8) :
    IonMem × IonEvents :=
  allocIonmem p env size iscache

/-- `sprd_free_ionmem` and `vdsp_free_ionmem`. -/
def freeIonmem (legacy : Bool) (handle : Option VdspIon) : IonEvents × SprdVdspStatus :=
  match handle with
  | some ion => (ion.destroy legacy, .success)
  | none => ([], .failure)

/-! ### Sizes -/

/-- The mask cuts off the lowest bits. -/
private theorem land_mask {w k x : Nat} (hk : k ≤ w) (hx : x < 2 ^ w) :
    x &&& (2 ^ w - 1 - (2 ^ k - 1)) = x / 2 ^ k * 2 ^ k := by
  have hpow : 2 ^ k ≤ 2 ^ w := Nat.pow_le_pow_right (by omega) hk
  have hpos : 0 < 2 ^ k := Nat.two_pow_pos k
  have hmask : 2 ^ w - 1 - (2 ^ k - 1) = 2 ^ w - ((2 ^ k - 1) + 1) := by omega
  rw [← Nat.shiftRight_eq_div_pow, ← Nat.shiftLeft_eq]
  refine Nat.eq_of_testBit_eq fun i => ?_
  rw [Nat.testBit_and, hmask, Nat.testBit_two_pow_sub_succ (by omega), Nat.testBit_two_pow_sub_one,
    Nat.testBit_shiftLeft, Nat.testBit_shiftRight]
  by_cases hik : k ≤ i
  · rw [show k + (i - k) = i by omega]
    by_cases hiw : i < w
    · simp [hik, hiw, Nat.not_lt.2 hik]
    · have hbit : x.testBit i = false :=
        Nat.testBit_lt_two_pow (lt_of_lt_of_le hx (Nat.pow_le_pow_right (by omega) (by omega)))
      simp [hbit]
  · simp [hik, Nat.lt_of_not_le hik]

theorem pageAlign_eq (p : IonPlatform) (size : p.SizeT) :
    pageAlign p size = (size.toNat + p.pagesize - 1) % 2 ^ p.abi.bits / p.pagesize * p.pagesize := by
  have hbits : p.pageShift ≤ p.abi.bits := by
    have := p.page_lt
    cases h : p.abi <;> simp only [Abi.bits] <;> omega
  exact land_mask hbits (Nat.mod_lt _ (Nat.two_pow_pos _))

/-- An aligned size is a multiple of the page size; it is at least the size, or 0, having wrapped around. -/
theorem pageAlign_spec (p : IonPlatform) (size : p.SizeT) :
    p.pagesize ∣ pageAlign p size ∧ (pageAlign p size ≠ 0 → size.toNat ≤ pageAlign p size) := by
  rw [pageAlign_eq]
  refine ⟨Nat.dvd_mul_left _ _, fun h => ?_⟩
  have hpos : 0 < p.pagesize := Nat.two_pow_pos _
  have hsize := size.isLt
  by_cases hwrap : size.toNat + p.pagesize - 1 < 2 ^ p.abi.bits
  · rw [Nat.mod_eq_of_lt hwrap]
    have hdiv := Nat.div_add_mod (size.toNat + p.pagesize - 1) p.pagesize
    have hmod := Nat.mod_lt (size.toNat + p.pagesize - 1) hpos
    rw [Nat.mul_comm] at hdiv
    omega
  · exfalso
    have hpage : p.pagesize ≤ 2 ^ p.abi.bits := by
      refine Nat.pow_le_pow_right (by omega) ?_
      have := p.page_lt
      cases h : p.abi <;> simp only [Abi.bits] <;> omega
    have hsmall : (size.toNat + p.pagesize - 1) % 2 ^ p.abi.bits < p.pagesize := by
      rw [Nat.mod_eq_sub_mod (by omega), Nat.mod_eq_of_lt (by omega)]
      omega
    rw [Nat.div_eq_of_lt hsmall, Nat.zero_mul] at h
    exact h rfl

/-! ### What the constructor does -/

/-- The system does everything that the constructor asks for. -/
def IonAnswers.Makes (env : IonAnswers) (p : IonPlatform) (len : Nat) (flags memoryType : BitVec 32) : Prop :=
  env.openFd.isSome = true ∧
    if env.legacy then
      ∃ handle, env.alloc ⟨len, p.pagesize, memoryType, allocFlags p memoryType⟩ = some handle ∧
        (flags &&& VdspIon.dontMapLocally = 0 → ∃ fd, env.share handle = some fd ∧
          (mmap env len fd).isSome = true)
    else ∃ fd, env.newAlloc ⟨len, memoryType, allocFlags p memoryType⟩ = some fd ∧
      (mmap env len fd).isSome = true

/-- A constructor that fails leaves the members as they are, and has released what it acquired. -/
theorem vdspIon_fails {p : IonPlatform} {env : IonAnswers} {size : p.SizeT} {flags memoryType : BitVec 32}
    (h : ¬ env.Makes p (pageAlign p size) flags memoryType) :
    ∃ events, vdspIon p env size flags memoryType = (.initial, events) ∧ Clean events := by
  unfold vdspIon
  cases hopen : env.openFd with
  | none => exact ⟨_, rfl, rfl⟩
  | some device =>
    simp only [IonAnswers.Makes, hopen, Option.isSome_some, true_and] at h
    unfold mapIonFd
    cases hlegacy : env.legacy with
    | true =>
      simp only [hlegacy, if_true] at h
      simp only [if_true, mapIonFdLegacy]
      cases halloc : env.alloc ⟨pageAlign p size, p.pagesize, memoryType, allocFlags p memoryType⟩ with
      | none => exact ⟨_, rfl, by simp [Clean]⟩
      | some handle =>
        rw [halloc] at h
        by_cases hmap : flags &&& VdspIon.dontMapLocally = 0
        · simp only [hmap, if_true]
          cases hshare : env.share handle with
          | none => exact ⟨_, rfl, by simp [Clean]⟩
          | some shared =>
            cases hmmap : mmap env (pageAlign p size) shared with
            | none =>
              simp only [hmmap]
              exact ⟨_, rfl, by simp [Clean, replay]⟩
            | some base => exact absurd ⟨handle, rfl, fun _ => ⟨shared, hshare, by rw [hmmap]; rfl⟩⟩ h
        · exact absurd ⟨handle, rfl, fun h0 => absurd h0 hmap⟩ h
    | false =>
      simp only [hlegacy, Bool.false_eq_true, if_false] at h
      simp only [Bool.false_eq_true, if_false, mapIonFdNew]
      cases halloc : env.newAlloc ⟨pageAlign p size, memoryType, allocFlags p memoryType⟩ with
      | none => exact ⟨_, rfl, by simp [Clean]⟩
      | some dataFd =>
        cases hmmap : mmap env (pageAlign p size) dataFd with
        | none =>
          simp only [hmmap]
          exact ⟨_, rfl, by simp [Clean]⟩
        | some base => exact absurd ⟨dataFd, halloc, by rw [hmmap]; rfl⟩ h

/-- A constructor that succeeds has opened the device and allocated memory, and mapped it unless it was asked
not to in the legacy interface. -/
theorem vdspIon_makes {p : IonPlatform} {env : IonAnswers} {size : p.SizeT} {flags memoryType : BitVec 32}
    (h : env.Makes p (pageAlign p size) flags memoryType) :
    ∃ device : Nat, env.openFd = some device ∧
      if env.legacy then
        ∃ handle, if flags &&& VdspIon.dontMapLocally = 0 then
          ∃ (fd : Nat) (base : Addr), pageAlign p size ≠ 0 ∧ vdspIon p env size flags memoryType =
            (⟨device, handle, fd, pageAlign p size, some base⟩, [.acquire (.fd device),
              .acquire (.handle device handle), .acquire (.fd fd),
                .acquire (.mapping (some base) (pageAlign p size))])
        else vdspIon p env size flags memoryType =
          (⟨device, handle, -1, pageAlign p size, none⟩,
            [.acquire (.fd device), .acquire (.handle device handle)])
      else ∃ (fd : Nat) (base : Addr), pageAlign p size ≠ 0 ∧ vdspIon p env size flags memoryType =
        (⟨device, -1, fd, pageAlign p size, some base⟩, [.acquire (.fd device), .acquire (.fd fd),
          .acquire (.mapping (some base) (pageAlign p size))]) := by
  have hlen : ∀ fd base, mmap env (pageAlign p size) fd = some base → pageAlign p size ≠ 0 := by
    intro fd base hm h0
    rw [mmap, if_pos h0] at hm
    cases hm
  obtain ⟨hopen, h⟩ := h
  obtain ⟨device, hopen⟩ := Option.isSome_iff_exists.1 hopen
  refine ⟨device, hopen, ?_⟩
  unfold vdspIon mapIonFd
  cases hlegacy : env.legacy with
  | true =>
    simp only [hlegacy, if_true] at h
    obtain ⟨handle, halloc, hmap⟩ := h
    simp only [hopen, if_true, mapIonFdLegacy, halloc]
    refine ⟨handle, ?_⟩
    by_cases h0 : flags &&& VdspIon.dontMapLocally = 0
    · obtain ⟨fd, hshare, hmmap⟩ := hmap h0
      obtain ⟨base, hbase⟩ := Option.isSome_iff_exists.1 hmmap
      simp only [h0, if_true, hshare, hbase]
      exact ⟨fd, base, hlen fd base hbase, rfl⟩
    · simp only [h0, if_false]
  | false =>
    simp only [hlegacy, Bool.false_eq_true, if_false] at h
    obtain ⟨fd, halloc, hmmap⟩ := h
    obtain ⟨base, hbase⟩ := Option.isSome_iff_exists.1 hmmap
    simp only [hopen, Bool.false_eq_true, if_false, mapIonFdNew, halloc, hbase]
    exact ⟨fd, base, hlen fd base hbase, rfl⟩

/-! ### What the allocation reports -/

/-- A handle stands for memory that is allocated and mapped: `*fd` is open, and whole pages, `size` bytes at
least, are mapped at `*viraddr`.  Without memory there is no handle, and `*fd` is -1 and `*viraddr` `NULL`. -/
def Reports (p : IonPlatform) (size : Nat) (r : IonMem × IonEvents) : Prop :=
  ∃ held, replay [] r.2 = some held ∧
    (r.1.handle ≠ none ↔ ∃ base len, .mapping (some base) len ∈ held) ∧
    (r.1.handle ≠ none → 0 ≤ r.1.fd ∧ .fd r.1.fd ∈ held ∧
      ∃ base len, r.1.viraddr = some base ∧ .mapping (some base) len ∈ held ∧ size ≤ len ∧ p.pagesize ∣ len) ∧
    (r.1.handle = none → r.1.fd = -1 ∧ r.1.viraddr = none)

/-- The system opens the device, allocates (and shares) the memory and maps it. -/
def IonAnswers.Serves (env : IonAnswers) (p : IonPlatform) (size : BitVec 32) (iscache : BitVec 8) : Prop :=
  env.Makes p (pageAlign p (size.setWidth _)) (if iscache ≠ 0 then 0 else VdspIon.noCaching)
    (if iscache ≠ 0 then VdspIon.cached ||| p.heapIdMaskSystem ||| p.flagNoClear
     else p.heapIdMaskSystem ||| p.flagNoClear)

theorem allocIonmem_eq (p : IonPlatform) (env : IonAnswers) (size : BitVec 32) (iscache : BitVec 8) :
    ∃ ion events, vdspIon p env (size.setWidth _) (if iscache ≠ 0 then 0 else VdspIon.noCaching)
        (if iscache ≠ 0 then VdspIon.cached ||| p.heapIdMaskSystem ||| p.flagNoClear
          else p.heapIdMaskSystem ||| p.flagNoClear) = (ion, events) ∧
      allocIonmem p env size iscache = (⟨some ion, ion.mFD, ion.mBase⟩, events) := by
  rcases he : vdspIon p env (size.setWidth _) (if iscache ≠ 0 then 0 else VdspIon.noCaching)
    (if iscache ≠ 0 then VdspIon.cached ||| p.heapIdMaskSystem ||| p.flagNoClear
      else p.heapIdMaskSystem ||| p.flagNoClear) with ⟨ion, events⟩
  refine ⟨ion, events, rfl, ?_⟩
  unfold allocIonmem
  by_cases h : iscache ≠ 0
  · rw [if_pos h, if_pos h] at he
    rw [if_pos h, he]
  · rw [if_neg h, if_neg h] at he
    rw [if_neg h, he]

private theorem pageAlign_setWidth {p : IonPlatform} {size : BitVec 32}
    (h : pageAlign p (size.setWidth _) ≠ 0) :
    size.toNat ≤ pageAlign p (size.setWidth _) := by
  have hle : size.toNat % 2 ^ p.abi.bits ≤ pageAlign p (size.setWidth _) := by
    rw [← BitVec.toNat_setWidth]
    exact (pageAlign_spec p _).2 h
  have hlt : size.toNat < 2 ^ p.abi.bits := by
    refine lt_of_lt_of_le size.isLt (Nat.pow_le_pow_right (by omega) ?_)
    cases p.abi <;> simp [Abi.bits]
  rwa [Nat.mod_eq_of_lt hlt] at hle

/-- Memory that is handed out. -/
theorem allocIonmem_serves {p : IonPlatform} {env : IonAnswers} {size : BitVec 32} {iscache : BitVec 8}
    (h : env.Serves p size iscache) : ∃ ion base events held,
      allocIonmem p env size iscache = (⟨some ion, ion.mFD, some base⟩, events) ∧ 0 ≤ ion.mFD ∧
      size.toNat ≤ ion.mSize ∧ p.pagesize ∣ ion.mSize ∧ replay [] events = some held ∧ .fd ion.mFD ∈ held ∧
      .mapping (some base) ion.mSize ∈ held := by
  obtain ⟨ion, events, hion, halloc⟩ := allocIonmem_eq p env size iscache
  obtain ⟨device, -, hmakes⟩ := vdspIon_makes h
  rw [hion] at hmakes
  have hmap : (if iscache ≠ 0 then (0 : BitVec 32) else VdspIon.noCaching) &&& VdspIon.dontMapLocally = 0 := by
    split <;> decide
  cases hlegacy : env.legacy with
  | true =>
    simp only [hlegacy, if_true, hmap] at hmakes
    obtain ⟨handle, fd, base, hlen, he⟩ := hmakes
    cases he
    exact ⟨_, base, _, _, halloc, Int.natCast_nonneg fd, pageAlign_setWidth hlen, (pageAlign_spec p _).1, rfl,
      List.mem_cons_of_mem _ List.mem_cons_self, List.mem_cons_self⟩
  | false =>
    simp only [hlegacy, Bool.false_eq_true, if_false] at hmakes
    obtain ⟨fd, base, hlen, he⟩ := hmakes
    cases he
    exact ⟨_, base, _, _, halloc, Int.natCast_nonneg fd, pageAlign_setWidth hlen, (pageAlign_spec p _).1, rfl,
      List.mem_cons_of_mem _ List.mem_cons_self, List.mem_cons_self⟩

/-- The failure of the constructor does not reach the handle. -/
theorem allocIonmem_fails {p : IonPlatform} {env : IonAnswers} {size : BitVec 32} {iscache : BitVec 8}
    (h : ¬ env.Serves p size iscache) :
    ∃ events, allocIonmem p env size iscache = (⟨some .initial, -1, none⟩, events) ∧ Clean events := by
  obtain ⟨ion, events, hion, halloc⟩ := allocIonmem_eq p env size iscache
  obtain ⟨events', he, hbalanced⟩ := vdspIon_fails h
  rw [hion] at he
  cases he
  exact ⟨events, halloc, hbalanced⟩

private theorem allocIonmem_reports {p : IonPlatform} {env : IonAnswers} {size : BitVec 32}
    {iscache : BitVec 8} :
    Reports p size.toNat (allocIonmem p env size iscache) ↔ env.Serves p size iscache := by
  by_cases h : env.Serves p size iscache
  · refine iff_of_true ?_ h
    obtain ⟨ion, base, events, held, he, hfd, hsize, hpage, hheld, hopen, hmapped⟩ := allocIonmem_serves h
    rw [he]
    refine ⟨held, hheld, iff_of_true (by simp) ⟨base, _, hmapped⟩, fun _ => ?_, fun h => by cases h⟩
    exact ⟨hfd, hopen, base, _, rfl, hmapped, hsize, hpage⟩
  · refine iff_of_false ?_ h
    obtain ⟨events, he, hbalanced⟩ := allocIonmem_fails h
    rw [he]
    rintro ⟨held, hheld, hhandle, -, -⟩
    have hempty : replay [] events = some [] := hbalanced
    obtain ⟨base, len, hmem⟩ := hhandle.1 (by simp)
    rw [hempty] at hheld
    cases hheld
    cases hmem

/-- Whatever fails, the handle is there: the two functions report what happened exactly when nothing fails. -/
theorem allocIonmem_reports_iff (p : IonPlatform) (env : IonAnswers) (size : BitVec 32) (iscache : BitVec 8) :
    (Reports p size.toNat (sprdAllocIonmem p env size iscache) ↔ env.Serves p size iscache) ∧
      (Reports p size.toNat (vdspAllocIonmem p env size iscache) ↔ env.Serves p size iscache) :=
  ⟨allocIonmem_reports, allocIonmem_reports⟩

/-- 64 bits and pages of 4096 bytes. -/
def lp64Platform : IonPlatform where
  abi := .lp64
  pageShift := 12
  page_lt := by decide
  heapIdMaskSystem := 1
  flagNoClear := 1 <<< 16

/-- There is no ION device. -/
def noIon : IonAnswers where
  openFd := none
  legacy := false
  alloc := fun _ => none
  share := fun _ => none
  newAlloc := fun _ => none
  mapped := fun _ _ => none

/-- The new interface, with memory. -/
def someIon : IonAnswers :=
  { noIon with openFd := some 3, newAlloc := fun _ => some 4, mapped := fun _ _ => some 0x7000 }

/-- Without a device there is a handle all the same. -/
theorem noIon_not_reported : ¬ Reports lp64Platform 100 (sprdAllocIonmem lp64Platform noIon 100 0) := by
  rintro ⟨held, hheld, hhandle, -, -⟩
  cases hheld
  obtain ⟨base, len, hmem⟩ := hhandle.1 (by simp [sprdAllocIonmem, allocIonmem])
  cases hmem

end Vdsp
