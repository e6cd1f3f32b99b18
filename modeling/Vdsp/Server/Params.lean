import Vdsp.Abi
import Vdsp.Lib.Block

/-!
# The parameters of a service call

`create_hidl_params` writes descriptors to a native handle: the fds come first, then `SPRD_VDSP_HANDLE_INT_NUM`
ints for each descriptor.  The macros and `native_handle_create` come from outside; `HandleLayout.Valid` and
`NativeHandle` are what is known of them.  The number of the ints is a product of 32 bits.  When it does not wrap
around, as for the 1024 descriptors at most that a native handle takes when `SPRD_VDSP_HANDLE_INT_NUM` is below 2^22,
what is written can be read back (`createHidlParams_lossless`).
-/

namespace Vdsp

open Memory

/-- `SPRD_VDSP_HANDLE_INT_NUM` and the three offsets. -/
structure HandleLayout where
  intNum : Nat
  phyaddrOffset : Nat
  sizeOffset : Nat
  flagOffset : Nat
  deriving DecidableEq, Repr

/-- A `struct sprd_vdsp_client_inout`, as the ints that are sent of it. -/
structure ClientInout where
  fd : BitVec 32
  phyAddr : BitVec 32
  size : BitVec 32
  flag : BitVec 32
  deriving DecidableEq, Repr

/-- The fields of an entry. -/
inductive HandleField
  | fd
  | phyAddr
  | size
  | flag
  deriving DecidableEq, Repr

def ClientInout.get (d : ClientInout) : HandleField → BitVec 32
  | .fd => d.fd
  | .phyAddr => d.phyAddr
  | .size => d.size
  | .flag => d.flag

/-- The index of `data` that the encoder uses for a field of the `i`-th entry; indices are 32-bit words. -/
def HandleLayout.slot (k : HandleLayout) (num i : Nat) : HandleField → Nat
  | .fd => i
  | .phyAddr => (num + i * k.intNum + k.phyaddrOffset - 1) % 2 ^ 32
  | .size => (num + i * k.intNum + k.sizeOffset - 1) % 2 ^ 32
  | .flag => (num + i * k.intNum + k.flagOffset - 1) % 2 ^ 32

/-- The stores for the `i`-th descriptor. -/
def writeEntry (k : HandleLayout) (num i : Nat) (d : ClientInout) (data : Block (BitVec 32)) :
    Option (Block (BitVec 32)) :=
  (store data (k.slot num i .fd) d.fd).bind fun data =>
    (store data (k.slot num i .phyAddr) d.phyAddr).bind fun data =>
      (store data (k.slot num i .size) d.size).bind fun data => store data (k.slot num i .flag) d.flag

/-- `create_hidl_params`: the result and the `data` of the handle. -/
def createHidlParams (k : HandleLayout) (nativeHandleCreate : Int → Int → Option (Block (BitVec 32)))
    (input : List ClientInout) (num : Nat) : Option (Int × Option (Block (BitVec 32))) :=
  if num = 0 then some (-1, none)
  else
    match nativeHandleCreate (intArg num) (intArg (num * k.intNum)) with
    | none => some (-1, none)
    | some data =>
      (loop num (fun i data => (input[i]?).bind fun d => writeEntry k num i d data) data).map fun data =>
        (0, some data)

/-! ### What comes from outside -/

/-- The offsets are different, and from 1 to `SPRD_VDSP_HANDLE_INT_NUM`. -/
structure HandleLayout.Valid (k : HandleLayout) : Prop where
  phyaddr : 1 ≤ k.phyaddrOffset ∧ k.phyaddrOffset ≤ k.intNum
  size : 1 ≤ k.sizeOffset ∧ k.sizeOffset ≤ k.intNum
  flag : 1 ≤ k.flagOffset ∧ k.flagOffset ≤ k.intNum
  phyaddr_ne_size : k.phyaddrOffset ≠ k.sizeOffset
  phyaddr_ne_flag : k.phyaddrOffset ≠ k.flagOffset
  size_ne_flag : k.sizeOffset ≠ k.flagOffset

/-- `native_handle_create(f, n)` gives `f + n` ints, or `NULL`: so it does when one of them is negative, or
above `NATIVE_HANDLE_MAX_FDS` or `NATIVE_HANDLE_MAX_INTS`. -/
structure NativeHandle (create : Int → Int → Option (Block (BitVec 32))) : Prop where
  length : ∀ f n data, create f n = some data → (data.length : Int) = f + n
  limits : ∀ f n data, create f n = some data → 0 ≤ f ∧ f ≤ 1024 ∧ 0 ≤ n ∧ n ≤ 1024

/-! ### The slots -/

/-- The offset of a field in the ints of its entry. -/
def HandleLayout.offset (k : HandleLayout) : HandleField → Nat
  | .fd => 0
  | .phyAddr => k.phyaddrOffset - 1
  | .size => k.sizeOffset - 1
  | .flag => k.flagOffset - 1

variable {k : HandleLayout} {num i j : Nat} {f g : HandleField}

/-- The offsets of the ints are different. -/
theorem HandleLayout.Valid.offset_inj (h : k.Valid) (hf : f ≠ .fd) (hg : g ≠ .fd)
    (he : k.offset f = k.offset g) :
    f = g := by
  obtain ⟨h1, h2, h3, h12, h13, h23⟩ := h
  cases f <;> cases g <;> simp only [HandleLayout.offset] at he <;> first | rfl | contradiction | omega

theorem HandleLayout.Valid.offset_lt (h : k.Valid) (hf : f ≠ .fd) : k.offset f < k.intNum := by
  obtain ⟨h1, h2, h3, -⟩ := h
  cases f <;> simp only [HandleLayout.offset] <;> first | contradiction | omega

private theorem entry_bound (hi : i < num) (K : Nat) : i * K + K ≤ num * K := by
  have := Nat.mul_le_mul_right K (show i + 1 ≤ num by omega)
  rwa [Nat.add_mul, Nat.one_mul] at this

/-- Nothing wraps around in the index of an int. -/
theorem HandleLayout.Valid.slot_eq (h : k.Valid) (hfit : num + num * k.intNum < 2 ^ 32) (hi : i < num)
    (hf : f ≠ .fd) : k.slot num i f = num + i * k.intNum + k.offset f := by
  have hlt := h.offset_lt hf
  have hbound := entry_bound hi k.intNum
  obtain ⟨h1, h2, h3, -⟩ := h
  cases f with
  | fd => exact absurd rfl hf
  | phyAddr =>
    simp only [HandleLayout.offset] at hlt ⊢
    rw [HandleLayout.slot, Nat.mod_eq_of_lt (by omega)]
    omega
  | size =>
    simp only [HandleLayout.offset] at hlt ⊢
    rw [HandleLayout.slot, Nat.mod_eq_of_lt (by omega)]
    omega
  | flag =>
    simp only [HandleLayout.offset] at hlt ⊢
    rw [HandleLayout.slot, Nat.mod_eq_of_lt (by omega)]
    omega

/-- The slots lie in the handle. -/
theorem HandleLayout.Valid.slot_lt (h : k.Valid) (hfit : num + num * k.intNum < 2 ^ 32) (hi : i < num)
    (f : HandleField) : k.slot num i f < num + num * k.intNum := by
  by_cases hf : f = .fd
  · rw [hf, HandleLayout.slot]
    omega
  · have hlt := h.offset_lt hf
    have hbound := entry_bound hi k.intNum
    rw [h.slot_eq hfit hi hf]
    omega

/-- Entries that share an int are the same. -/
private theorem entry_unique {K a b : Nat} (ha : a < K) (hb : b < K) (h : i * K + a = j * K + b) :
    i = j ∧ a = b := by
  rcases Nat.lt_trichotomy i j with hlt | heq | hlt
  · have := entry_bound hlt K
    omega
  · subst heq
    omega
  · have := entry_bound hlt K
    omega

/-- No slot is used twice. -/
theorem HandleLayout.Valid.slot_inj (h : k.Valid) (hfit : num + num * k.intNum < 2 ^ 32) (hi : i < num)
    (hj : j < num)
    (he : k.slot num i f = k.slot num j g) : i = j ∧ f = g := by
  by_cases hf : f = .fd
  · by_cases hg : g = .fd
    · subst hf hg
      exact ⟨he, rfl⟩
    · rw [hf, h.slot_eq hfit hj hg, HandleLayout.slot] at he
      omega
  · by_cases hg : g = .fd
    · rw [hg, h.slot_eq hfit hi hf, HandleLayout.slot] at he
      omega
    · rw [h.slot_eq hfit hi hf, h.slot_eq hfit hj hg] at he
      obtain ⟨hij, hfg⟩ := entry_unique (h.offset_lt hf) (h.offset_lt hg)
        (show i * k.intNum + _ = j * k.intNum + _ by omega)
      exact ⟨hij, h.offset_inj hf hg hfg⟩

/-! ### The encoder -/

variable {data : Block (BitVec 32)} {input : List ClientInout}

/-- One entry: its slots are written, and no others. -/
theorem writeEntry_spec (h : k.Valid) (hfit : num + num * k.intNum < 2 ^ 32) (hi : i < num)
    (hlen : data.length = num + num * k.intNum) (d : ClientInout) :
    ∃ data', writeEntry k num i d data = some data' ∧ data'.length = data.length ∧
      (∀ f, fetch data' (k.slot num i f) = some (d.get f)) ∧
      ∀ s, (∀ f, s ≠ k.slot num i f) → fetch data' s = fetch data s := by
  have hslot : ∀ f, k.slot num i f < data.length := fun f => by
    rw [hlen]
    exact h.slot_lt hfit hi f
  have hne : ∀ f g, f ≠ g → k.slot num i f ≠ k.slot num i g :=
    fun f g hfg he => hfg (h.slot_inj hfit hi hi he).2
  have hwrite : writeEntry k num i d data = some ((((data.set (k.slot num i .fd) (some d.fd)).set
      (k.slot num i .phyAddr) (some d.phyAddr)).set (k.slot num i .size) (some d.size)).set
      (k.slot num i .flag) (some d.flag)) := by
    simp [writeEntry, store, hslot]
  refine ⟨_, hwrite, by simp only [List.length_set], fun f => ?_, fun s hs => ?_⟩
  · cases f with
    | flag => rw [fetch_set _ (by simpa using hslot .flag), if_pos rfl, ClientInout.get]
    | size =>
      rw [fetch_set _ (by simpa using hslot .flag), if_neg (hne _ _ (by decide)),
        fetch_set _ (by simpa using hslot .size), if_pos rfl, ClientInout.get]
    | phyAddr =>
      rw [fetch_set _ (by simpa using hslot .flag), if_neg (hne _ _ (by decide)),
        fetch_set _ (by simpa using hslot .size), if_neg (hne _ _ (by decide)),
        fetch_set _ (by simpa using hslot .phyAddr), if_pos rfl, ClientInout.get]
    | fd =>
      rw [fetch_set _ (by simpa using hslot .flag), if_neg (hne _ _ (by decide)),
        fetch_set _ (by simpa using hslot .size), if_neg (hne _ _ (by decide)),
        fetch_set _ (by simpa using hslot .phyAddr), if_neg (hne _ _ (by decide)),
        fetch_set _ (hslot .fd), if_pos rfl, ClientInout.get]
  · rw [fetch_set _ (by simpa using hslot .flag), if_neg (hs _), fetch_set _ (by simpa using hslot .size),
      if_neg (hs _), fetch_set _ (by simpa using hslot .phyAddr), if_neg (hs _), fetch_set _ (hslot .fd),
      if_neg (hs _)]

/-- The first `n` entries can be read back. -/
def Written (k : HandleLayout) (num : Nat) (input : List ClientInout) (n : Nat)
    (data : Block (BitVec 32)) : Prop :=
  data.length = num + num * k.intNum ∧
    ∀ i d, i < n → input[i]? = some d → ∀ f, fetch data (k.slot num i f) = some (d.get f)

/-- A further entry does not touch those before. -/
theorem Written.step (h : k.Valid) (hfit : num + num * k.intNum < 2 ^ 32) (hi : i < num) {d : ClientInout}
    (hd : input[i]? = some d) (hw : Written k num input i data) :
    ∃ data', writeEntry k num i d data = some data' ∧ Written k num input (i + 1) data' := by
  obtain ⟨data', he, hlen, hself, hother⟩ := writeEntry_spec h hfit hi hw.1 d
  refine ⟨data', he, hlen.trans hw.1, fun j c hj hc f => ?_⟩
  rcases Nat.lt_succ_iff_lt_or_eq.1 hj with hj | rfl
  · rw [hother _ fun g hg => by have := (h.slot_inj hfit (by omega) hi hg).1; omega]
    exact hw.2 j c hj hc f
  · rw [hd] at hc
    cases hc
    exact hself f

/-- If the call succeeds, what it has written lies in the handle, no slot has been written twice, and each field of
each descriptor can be read back. -/
def Lossless (k : HandleLayout) (create : Int → Int → Option (Block (BitVec 32))) (input : List ClientInout) :
    Prop :=
  ∃ ret handle, createHidlParams k create input input.length = some (ret, handle) ∧
    (ret = 0 → ∃ data, handle = some data ∧ data.length = input.length + input.length * k.intNum ∧
      (∀ i f, i < input.length → k.slot input.length i f < data.length) ∧
      (∀ i j f g, i < input.length → j < input.length →
        k.slot input.length i f = k.slot input.length j g → i = j ∧ f = g) ∧
      ∀ i d, input[i]? = some d → ∀ f, fetch data (k.slot input.length i f) = some (d.get f))

/-- What `create_hidl_params` writes lies in the handle and can be read back, if the number of the ints does not wrap
around. -/
theorem createHidlParams_lossless {k : HandleLayout} {create : Int → Int → Option (Block (BitVec 32))}
    (hk : k.Valid) (hc : NativeHandle create) (input : List ClientInout) (hnum : input.length < 2 ^ 32)
    (hints : input.length * k.intNum < 2 ^ 32) : Lossless k create input := by
  unfold Lossless createHidlParams
  by_cases h0 : input.length = 0
  · rw [if_pos h0]
    exact ⟨-1, none, rfl, fun h => absurd h (by decide)⟩
  · rw [if_neg h0]
    cases hcreate : create (intArg input.length) (intArg (input.length * k.intNum)) with
    | none => exact ⟨-1, none, rfl, fun h => absurd h (by decide)⟩
    | some data =>
      obtain ⟨hf0, hf, hn0, hn⟩ := hc.limits _ _ _ hcreate
      have hlen := hc.length _ _ _ hcreate
      have hfds := intArg_of_nonneg hnum hf0
      have hdata := intArg_of_nonneg hints hn0
      rw [hfds, hdata] at hlen
      have hlen' : data.length = input.length + input.length * k.intNum := by exact_mod_cast hlen
      have hfit : input.length + input.length * k.intNum < 2 ^ 32 := by omega
      obtain ⟨data', hloop, hwritten⟩ := loop_invariant
        (f := fun i data => (input[i]?).bind fun d => writeEntry k input.length i d data) (s := data)
        (Written k input.length input) input.length ⟨hlen', fun i d hi => absurd hi (by omega)⟩
          fun i hi data hw => by
          have hd := List.getElem?_eq_getElem hi
          obtain ⟨data', he, hw'⟩ := hw.step hk hfit hi hd
          exact ⟨data', by rw [hd, Option.bind_some, he], hw'⟩
      refine ⟨0, some data', by simp only [hloop, Option.map_some], fun _ =>
        ⟨data', rfl, hwritten.1, ?_, ?_, ?_⟩⟩
      · intro i f hi
        rw [hwritten.1]
        exact hk.slot_lt hfit hi f
      · intro i j f g hi hj he
        exact hk.slot_inj hfit hi hj he
      · intro i d hd f
        exact hwritten.2 i d (List.getElem?_eq_some_iff.1 hd).1 hd f

/-- `native_handle_create` of libcutils. -/
def nativeHandleCreate (f n : Int) : Option (Block (BitVec 32)) :=
  if 0 ≤ f ∧ f ≤ 1024 ∧ 0 ≤ n ∧ n ≤ 1024 then some (malloc _ (f + n).toNat) else none

theorem nativeHandle : NativeHandle nativeHandleCreate where
  length f n data h := by
    unfold nativeHandleCreate at h
    split at h
    · cases h
      rw [length_malloc]
      omega
    · cases h
  limits f n data h := by
    unfold nativeHandleCreate at h
    split at h
    · assumption
    · cases h

/-- The ints in the order of their offsets. -/
def threeInts : HandleLayout := ⟨3, 1, 2, 3⟩

theorem threeInts_valid : threeInts.Valid := by
  constructor <;> decide

/-- Two descriptors. -/
def twoInouts : List ClientInout := [⟨5, 0, 64, 0⟩, ⟨6, 7, 128, 1⟩]

theorem createHidlParams_lossless_two :
    (createHidlParams threeInts nativeHandleCreate twoInouts 2).map Prod.fst = some 0 ∧
      Lossless threeInts nativeHandleCreate twoInouts :=
  ⟨by decide, createHidlParams_lossless threeInts_valid nativeHandle twoInouts (by decide) (by decide)⟩

/-- The number of the ints of two descriptors is 0 modulo 2^32. -/
def wrappingInts : HandleLayout := ⟨2 ^ 31, 1, 2, 3⟩

/-- The handle for them has no room for ints, and the first one is stored behind its end. -/
theorem wrappingInts_not_lossless :
    ¬ ∀ k create input, k.Valid → NativeHandle create → input.length < 2 ^ 32 → Lossless k create input := by
  intro hall
  obtain ⟨ret, handle, h, -⟩ := hall wrappingInts nativeHandleCreate twoInouts (by constructor <;> decide)
    nativeHandle (by decide)
  have hnone : createHidlParams wrappingInts nativeHandleCreate twoInouts twoInouts.length = none := by decide
  rw [hnone] at h
  cases h

end Vdsp
