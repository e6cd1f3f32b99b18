import Vdsp.Device

/-!
# Descriptors are used and closed as they were opened

Whatever is run on a device acts on the descriptor that its open got from the driver, and the last release
closes it, in every run whose steps meet `keepsDescriptors`.  Two slips are excluded: a device of
`xrp_open_device` keeps an address where a command looks for the descriptor, and `xrp_open_device` drops the
new-mode device it has opened when there is no memory for its wrapper.
-/

namespace Vdsp

open Lts

/-- Every `ioctl` acted on the descriptor opened for its device; the open descriptors are those of the devices
that still have references, each of one device; and no descriptor was closed twice. -/
structure DescriptorsKept (s : DeviceHost) : Prop where
  log : ∀ e ∈ s.log, e.2.fd = e.1
  openFds : ∀ fd, fd ∈ s.openFds ↔ ∃ p, 0 < s.owned p ∧ s.made p = fd
  inj : ∀ p p', 0 < s.owned p → 0 < s.owned p' → s.made p = s.made p' → p = p'
  fault : s.fault = false

/-- The condition on a step: an open whose new-mode device opens gets the memory of its wrapper, and a command
is run on a new-mode device or on one whose first word is by chance its descriptor. -/
def keepsDescriptors (s : DeviceHost) : DeviceEvent → Prop
  | .openDevice type fd inner outer => type ≠ .max → fd ≠ none → inner ≠ none → outer ≠ none
  | .command p _ => ∀ d ∈ s.heap p, d.device.type = .newmode ∨ d.device.implFd = s.made p
  | _ => True

instance (s : DeviceHost) : ∀ e, Decidable (keepsDescriptors s e)
  | .openDevice type fd inner outer =>
    inferInstanceAs (Decidable (type ≠ .max → fd ≠ none → inner ≠ none → outer ≠ none))
  | .command p _ => inferInstanceAs (Decidable (∀ d ∈ s.heap p, d.device.type = .newmode ∨
    d.device.implFd = s.made p))
  | .openDeviceNewmode .. | .retain _ | .release _ => inferInstanceAs (Decidable True)

/-! ### Commands -/

private theorem sprdVdspSendCommandDirectly_fd {env : Answers} {device : XrpDevice} {nsid : Nsid}
    {input output : Option SprdVdspInout} {buffer : List SprdVdspInout} {bufNum : Nat} {priority : BitVec 32}
    {io : Ioctl} {status : SprdVdspStatus}
    (h : sprdVdspSendCommandDirectly env device nsid input output buffer bufNum priority = some
      (some io, status)) :
    io.fd = device.implFd := by
  unfold sprdVdspSendCommandDirectly at h
  split at h
  · cases h
  · simp only at h
    split at h
    · split at h
      · cases h
        rfl
      · cases h
    · split at h
      · cases h
      · split at h
        · cases h
        · split at h <;> cases h
          rfl

/-- Every command acts on the first word of its device. -/
theorem DeviceCommand.ioctl_fd {device : XrpDevice} {c : DeviceCommand} {io : Ioctl}
    (h : c.ioctl device = some io) :
    io.fd = device.implFd := by
  cases c with
  | queued env useNsid priority nsid input output group =>
    obtain ⟨⟨o, status⟩, hr, ho⟩ := Option.bind_eq_some_iff.1 h
    unfold xrpRunCommand at hr
    simp only at hr
    split at hr
    · cases hr
      cases ho
    · unfold sprdVdspSendCmdDirec at hr
      rw [Option.map_map, Option.map_eq_some_iff] at hr
      obtain ⟨⟨o', ret⟩, hr, he⟩ := hr
      cases he
      cases ho
      exact sprdVdspSendCommandDirectly_fd hr
  | direct env nsid input output buffer bufNum priority =>
    obtain ⟨⟨o, status⟩, hr, ho⟩ := Option.bind_eq_some_iff.1 h
    cases ho
    exact sprdVdspSendCommandDirectly_fd hr
  | powerHint level acquireRelease ret =>
    cases h
    rfl

/-! ### The invariant -/

/-- The device at `p` is as an open with the descriptor `s.made p` filled it. -/
inductive Filled (s : DeviceHost) (p : DevicePtr) : Prop
  | newmode (h : s.heap p = some ⟨⟨⟨s.made p, 0⟩, .newmode⟩, s.owned p⟩)
  | normal (q : DevicePtr) (h : s.heap p = some ⟨⟨splitPtr q, .normal⟩, s.owned p⟩)
      (hq : s.heap q = some ⟨⟨⟨s.made p, 0⟩, .newmode⟩, 1⟩) (h0 : q ≠ 0) (ho : s.owned q = 0)

structure DeviceInv (s : DeviceHost) : Prop where
  filled : ∀ p, 0 < s.owned p → Filled s p
  unique : ∀ p p' q c c', 0 < s.owned p → 0 < s.owned p' → s.heap p = some ⟨⟨splitPtr q, .normal⟩, c⟩ →
    s.heap p' = some ⟨⟨splitPtr q, .normal⟩, c'⟩ → p = p'
  kept : DescriptorsKept s

theorem splitPtr_injective : Function.Injective splitPtr :=
  fun p q h => by rw [← joinPtr_splitPtr p, h, joinPtr_splitPtr]

private theorem wrapper_ne_newmode {q : DevicePtr} {h : VdspHandle} {c c' : Nat} :
    (some ⟨⟨splitPtr q, .normal⟩, c⟩ : Option CountedDevice) ≠ some ⟨⟨h, .newmode⟩, c'⟩ := by
  simp

private theorem wrapper_injective {q q' : DevicePtr} {c c' : Nat}
    (h : (some ⟨⟨splitPtr q, .normal⟩, c⟩ : Option CountedDevice) = some ⟨⟨splitPtr q', .normal⟩, c'⟩) :
    q = q' := by
  simp only [Option.some.injEq, CountedDevice.mk.injEq, XrpDevice.mk.injEq, and_true] at h
  exact splitPtr_injective h.1

/-- A device stays filled while it and the device it wraps are left alone. -/
theorem Filled.frame {s s' : DeviceHost} {p : DevicePtr} (h : Filled s p) (hp : s'.heap p = s.heap p)
    (ho : s'.owned p = s.owned p) (hm : s'.made p = s.made p)
    (hq : ∀ q, s.heap p = some ⟨⟨splitPtr q, .normal⟩, s.owned p⟩ → s.heap q ≠ none → s.owned q = 0 →
      s'.heap q = s.heap q ∧ s'.owned q = 0) : Filled s' p := by
  cases h with
  | newmode h => exact .newmode (by rw [hp, h, hm, ho])
  | normal q h hq' h0 ho' =>
    obtain ⟨h1, h2⟩ := hq q h (by simp [hq']) ho'
    exact .normal q (by rw [hp, h, ho]) (by rw [h1, hq', hm]) h0 h2

theorem DeviceInv.start : DeviceInv .start := by
  refine ⟨?_, ?_, ?_, ?_, ?_, rfl⟩ <;> simp [DeviceHost.start]

/-! ### Opening -/

/-- An open of a new-mode device fills one with a new descriptor, or changes nothing. -/
theorem xrpOpenDeviceNewmode_cases {s : DeviceHost} (type : XrpOpenType) {fd : Option Int} (p : Option DevicePtr)
    (hfd : s.opens fd) :
    (xrpOpenDeviceNewmode s type fd p = (s, none) ∧ (type = .max ∨ fd = none ∨ p = none)) ∨
    ∃ n p₀, type ≠ .max ∧ fd = some n ∧ p = some p₀ ∧ xrpOpenDeviceNewmode s type fd p =
      (({ s with openFds := insert n s.openFds } : DeviceHost).store p₀ (some ⟨⟨⟨n, 0⟩, .newmode⟩, 1⟩),
        some p₀) := by
  cases fd with
  | none =>
    left
    refine ⟨?_, .inr (.inl rfl)⟩
    cases type <;> rfl
  | some n =>
    have hn : n ∉ s.openFds := hfd.2
    have hclose : ({ s with openFds := insert n s.openFds } : DeviceHost).close n = s := by
      simp [DeviceHost.close, Finset.erase_insert hn]
    cases type with
    | max => exact .inl ⟨by cases p <;> rfl, .inl rfl⟩
    | normal | faceid =>
      cases p with
      | none => exact .inl ⟨by simp [xrpOpenDeviceNewmode, hclose], .inr (.inr rfl)⟩
      | some p₀ => exact .inr ⟨n, p₀, by simp, rfl, rfl, rfl⟩

/-- An open in the normal mode opens a new-mode device and its wrapper, or changes nothing. -/
theorem xrpOpenDevice_cases {s : DeviceHost} (type : XrpOpenType) {fd : Option Int}
    {inner outer : Option DevicePtr}
    (hfd : s.opens fd) (hok : type ≠ .max → fd ≠ none → inner ≠ none → outer ≠ none) :
    xrpOpenDevice s type fd inner outer = (s, none) ∨
    ∃ n q p, fd = some n ∧ inner = some q ∧ outer = some p ∧ xrpOpenDevice s type fd inner outer =
      ((({ s with openFds := insert n s.openFds } : DeviceHost).store q (some ⟨⟨⟨n, 0⟩, .newmode⟩, 1⟩)).store p
        (some ⟨⟨splitPtr q, .normal⟩, 1⟩), some p) := by
  have hsame : sprdVdspOpenDevice s (translateOpentype type) fd inner = xrpOpenDeviceNewmode s type fd inner := by
    cases type with
    | normal | faceid => rfl
    | max => cases fd <;> rfl
  simp only [xrpOpenDevice, sprdCavdspOpenDevice, hsame]
  rcases xrpOpenDeviceNewmode_cases type inner hfd with ⟨he, -⟩ | ⟨n, q, ht, hn, hq, he⟩
  · left
    rw [he]
    rfl
  · right
    obtain ⟨p, hp⟩ := Option.ne_none_iff_exists'.1 (hok ht (by simp [hn]) (by simp [hq]))
    refine ⟨n, q, p, hn, hq, hp, ?_⟩
    rw [he, hp]
    rfl

/-- A new device at a free address, with a new descriptor. -/
theorem DeviceInv.handOut {s s' : DeviceHost} (hi : DeviceInv s) {n : Int} {p : DevicePtr} (hn : n ∉ s.openFds)
    (hp : s.heap p = none) (hfilled : Filled s' p) (hmade : s'.made = Function.update s.made p n)
    (howned : s'.owned = Function.update s.owned p 1) (hfds : s'.openFds = insert n s.openFds)
    (hlog : s'.log = s.log) (hfault : s'.fault = s.fault)
    (hheap : ∀ q, q ≠ p → s.heap q ≠ none → s'.heap q = s.heap q)
    (hwrap : ∀ q c, s'.heap p = some ⟨⟨splitPtr q, .normal⟩, c⟩ → s.heap q = none) : DeviceInv s' := by
  have hp0 : s.owned p = 0 := by
    by_contra h
    cases hi.filled p (Nat.pos_of_ne_zero h) with
    | newmode h => rw [hp] at h; cases h
    | normal q h => rw [hp] at h; cases h
  have hne : ∀ x, 0 < s.owned x → x ≠ p := fun x hx h => by rw [h, hp0] at hx; exact lt_irrefl _ hx
  have hpos : ∀ x, 0 < s'.owned x → x = p ∨ 0 < s.owned x := by
    intro x hx
    by_cases h : x = p
    · exact .inl h
    · rw [howned, Function.update_of_ne h] at hx
      exact .inr hx
  have hsome : ∀ x, 0 < s.owned x → s.heap x ≠ none := by
    intro x hx h
    cases hi.filled x hx with
    | newmode h' => rw [h] at h'; cases h'
    | normal q h' => rw [h] at h'; cases h'
  -- the other devices and those they wrap are where they were
  have hold : ∀ x, 0 < s.owned x → Filled s' x := by
    intro x hx
    refine (hi.filled x hx).frame (hheap x (hne x hx) (hsome x hx)) ?_ ?_ fun q _ hq ho => ?_
    · rw [howned, Function.update_of_ne (hne x hx)]
    · rw [hmade, Function.update_of_ne (hne x hx)]
    · have hqp : q ≠ p := fun h => hq (h ▸ hp)
      refine ⟨hheap q hqp hq, ?_⟩
      rw [howned, Function.update_of_ne hqp, ho]
  have hinner : ∀ x q c, 0 < s.owned x → s'.heap x = some ⟨⟨splitPtr q, .normal⟩, c⟩ → s.heap q ≠ none := by
    intro x q c hx hxq h
    rw [hheap x (hne x hx) (hsome x hx)] at hxq
    cases hi.filled x hx with
    | newmode h' => exact wrapper_ne_newmode (hxq.symm.trans h')
    | normal q' h' hq' =>
      rw [wrapper_injective (hxq.symm.trans h'), hq'] at h
      cases h
  refine ⟨fun x hx => ?_, fun x x' q c c' hx hx' hxq hxq' => ?_, fun e he => ?_, fun fd => ?_, ?_, ?_⟩
  · rcases hpos x hx with rfl | hx
    · exact hfilled
    · exact hold x hx
  · rcases hpos x hx with rfl | hx <;> rcases hpos x' hx' with rfl | hx'
    · rfl
    · exact absurd (hwrap q c hxq) (hinner x' q c' hx' hxq')
    · exact absurd (hwrap q c' hxq') (hinner x q c hx hxq)
    · rw [hheap x (hne x hx) (hsome x hx)] at hxq
      rw [hheap x' (hne x' hx') (hsome x' hx')] at hxq'
      exact hi.unique x x' q c c' hx hx' hxq hxq'
  · exact hi.kept.log e (hlog ▸ he)
  · rw [hfds, Finset.mem_insert, hi.kept.openFds]
    constructor
    · rintro (rfl | ⟨x, hx, rfl⟩)
      · exact ⟨p, by simp [howned], by simp [hmade]⟩
      · refine ⟨x, ?_, ?_⟩
        · rwa [howned, Function.update_of_ne (hne x hx)]
        · rw [hmade, Function.update_of_ne (hne x hx)]
    · rintro ⟨x, hx, rfl⟩
      rcases hpos x hx with rfl | hx
      · simp [hmade]
      · rw [hmade, Function.update_of_ne (hne x hx)]
        exact .inr ⟨x, hx, rfl⟩
  · have hfresh : ∀ x, 0 < s.owned x → s.made x ≠ n := fun x hx h => hn ((hi.kept.openFds n).2 ⟨x, hx, h⟩)
    intro x x' hx hx' hm
    rcases hpos x hx with rfl | hx <;> rcases hpos x' hx' with rfl | hx'
    · rfl
    · rw [hmade, Function.update_self, Function.update_of_ne (hne x' hx')] at hm
      exact absurd hm.symm (hfresh x' hx')
    · rw [hmade, Function.update_self, Function.update_of_ne (hne x hx)] at hm
      exact absurd hm (hfresh x hx)
    · rw [hmade, Function.update_of_ne (hne x hx), Function.update_of_ne (hne x' hx')] at hm
      exact hi.kept.inj x x' hx hx' hm
  · rw [hfault]
    exact hi.kept.fault

/-! ### Retaining and releasing -/

/-- The heap where `p` is: the device with as many references as are owned. -/
theorem Filled.heap_eq {s : DeviceHost} {p : DevicePtr} (h : Filled s p) :
    ∃ device, s.heap p = some ⟨device, s.owned p⟩ := by
  cases h with
  | newmode h => exact ⟨_, h⟩
  | normal q h => exact ⟨_, h⟩

/-- A reference more or less, while one is left. -/
theorem DeviceInv.recount {s s' : DeviceHost} (hi : DeviceInv s) {p : DevicePtr} {k : Nat} (hp : 0 < s.owned p)
    (hk : 0 < k) {device : XrpDevice} (hd : s.heap p = some ⟨device, s.owned p⟩)
    (hheap : s'.heap = Function.update s.heap p (some ⟨device, k⟩))
    (howned : s'.owned = Function.update s.owned p k)
    (hmade : s'.made = s.made) (hfds : s'.openFds = s.openFds) (hlog : s'.log = s.log)
    (hfault : s'.fault = s.fault) : DeviceInv s' := by
  have hpos : ∀ x, 0 < s'.owned x ↔ 0 < s.owned x := by
    intro x
    rw [howned]
    by_cases h : x = p
    · rw [h, Function.update_self]
      exact iff_of_true hk hp
    · rw [Function.update_of_ne h]
  have hdevice : ∀ x q c, s'.heap x = some ⟨⟨splitPtr q, .normal⟩, c⟩ →
      ∃ c', s.heap x = some ⟨⟨splitPtr q, .normal⟩, c'⟩ := by
    intro x q c hx
    rw [hheap] at hx
    by_cases h : x = p
    · rw [h, Function.update_self] at hx
      simp only [Option.some.injEq, CountedDevice.mk.injEq] at hx
      exact ⟨s.owned p, by rw [h, hd, hx.1]⟩
    · rw [Function.update_of_ne h] at hx
      exact ⟨c, hx⟩
  have hinner : ∀ q, s.owned q = 0 → s'.heap q = s.heap q ∧ s'.owned q = 0 := by
    intro q hq
    have h : q ≠ p := fun h => by rw [h] at hq; omega
    rw [hheap, howned, Function.update_of_ne h, Function.update_of_ne h]
    exact ⟨rfl, hq⟩
  refine ⟨fun x hx => ?_, fun x x' q c c' hx hx' hxq hxq' => ?_, fun e he => ?_, fun fd => ?_, ?_, ?_⟩
  · have hx := (hpos x).1 hx
    by_cases h : x = p
    · subst h
      cases hi.filled x hx with
      | newmode h' =>
        refine .newmode ?_
        rw [hheap, howned, hmade, Function.update_self, Function.update_self]
        rw [hd] at h'
        simp only [Option.some.injEq, CountedDevice.mk.injEq, and_true] at h'
        rw [h']
      | normal q h' hq h0 ho =>
        obtain ⟨h1, h2⟩ := hinner q ho
        refine .normal q ?_ (by rw [h1, hmade, hq]) h0 h2
        rw [hheap, howned, Function.update_self, Function.update_self]
        rw [hd] at h'
        simp only [Option.some.injEq, CountedDevice.mk.injEq, and_true] at h'
        rw [h']
    · refine (hi.filled x hx).frame ?_ ?_ (by rw [hmade]) fun q _ _ ho => hinner q ho
      · rw [hheap, Function.update_of_ne h]
      · rw [howned, Function.update_of_ne h]
  · obtain ⟨d, hd⟩ := hdevice x q c hxq
    obtain ⟨d', hd'⟩ := hdevice x' q c' hxq'
    exact hi.unique x x' q d d' ((hpos x).1 hx) ((hpos x').1 hx') hd hd'
  · exact hi.kept.log e (hlog ▸ he)
  · rw [hfds, hi.kept.openFds, hmade]
    simp only [hpos]
  · intro x x' hx hx' hm
    rw [hmade] at hm
    exact hi.kept.inj x x' ((hpos x).1 hx) ((hpos x').1 hx') hm
  · rw [hfault]
    exact hi.kept.fault

/-- The last reference to a device is gone, and so is its descriptor. -/
theorem DeviceInv.dropped {s s' : DeviceHost} (hi : DeviceInv s) {p : DevicePtr} (hp : 0 < s.owned p)
    (hheap : ∀ x, x ≠ p → (∀ c, s.heap p ≠ some ⟨⟨splitPtr x, .normal⟩, c⟩) → s'.heap x = s.heap x)
    (howned : s'.owned = Function.update s.owned p 0) (hmade : s'.made = s.made)
    (hfds : s'.openFds = s.openFds.erase (s.made p)) (hlog : s'.log = s.log) (hfault : s'.fault = s.fault) :
    DeviceInv s' := by
  have hpos : ∀ x, 0 < s'.owned x ↔ x ≠ p ∧ 0 < s.owned x := by
    intro x
    rw [howned]
    by_cases h : x = p
    · rw [h, Function.update_self]
      simp
    · rw [Function.update_of_ne h]
      simp [h]
  -- a wrapped device has no owner of its own
  have hwrapped : ∀ x c, s.heap p = some ⟨⟨splitPtr x, .normal⟩, c⟩ → s.owned x = 0 := by
    intro x c h
    cases hi.filled p hp with
    | newmode h' => exact absurd (h.symm.trans h') wrapper_ne_newmode
    | normal q h' _ _ ho =>
      rw [wrapper_injective (h.symm.trans h')]
      exact ho
  have hsame : ∀ x, x ≠ p → 0 < s.owned x → s'.heap x = s.heap x := by
    intro x hx h0
    refine hheap x hx fun c h => ?_
    rw [hwrapped x c h] at h0
    exact lt_irrefl _ h0
  refine ⟨fun x hx => ?_, fun x x' q c c' hx hx' hxq hxq' => ?_, fun e he => ?_, fun fd => ?_, ?_, ?_⟩
  · obtain ⟨hne, hx⟩ := (hpos x).1 hx
    refine (hi.filled x hx).frame (hsame x hne hx) ?_ (by rw [hmade]) fun q hq _ ho => ?_
    · rw [howned, Function.update_of_ne hne]
    · have hqp : q ≠ p := fun h => by rw [h] at ho; omega
      refine ⟨hheap q hqp fun c h => hne (hi.unique x p q _ c hx hp hq h), ?_⟩
      rw [howned, Function.update_of_ne hqp, ho]
  · obtain ⟨hne, hx⟩ := (hpos x).1 hx
    obtain ⟨hne', hx'⟩ := (hpos x').1 hx'
    rw [hsame x hne hx] at hxq
    rw [hsame x' hne' hx'] at hxq'
    exact hi.unique x x' q c c' hx hx' hxq hxq'
  · exact hi.kept.log e (hlog ▸ he)
  · rw [hfds, Finset.mem_erase, hi.kept.openFds, hmade]
    constructor
    · rintro ⟨hne, x, hx, rfl⟩
      exact ⟨x, (hpos x).2 ⟨fun h => hne (h ▸ rfl), hx⟩, rfl⟩
    · rintro ⟨x, hx, rfl⟩
      obtain ⟨hne, hx⟩ := (hpos x).1 hx
      exact ⟨fun h => hne (hi.kept.inj x p hx hp h), x, hx, rfl⟩
  · intro x x' hx hx' hm
    rw [hmade] at hm
    exact hi.kept.inj x x' ((hpos x).1 hx).2 ((hpos x').1 hx').2 hm
  · rw [hfault]
    exact hi.kept.fault

theorem DeviceInv.retain {s : DeviceHost} (hi : DeviceInv s) {p : DevicePtr} (hp : 0 < s.owned p) :
    DeviceInv { xrpRetainDevice s p with owned := Function.update s.owned p (s.owned p + 1) } := by
  obtain ⟨device, hd⟩ := (hi.filled p hp).heap_eq
  have he : xrpRetainDevice s p = s.store p (some ⟨device, s.owned p + 1⟩) := by
    unfold xrpRetainDevice
    rw [hd]
  rw [he]
  exact hi.recount hp (Nat.succ_pos _) hd rfl rfl rfl rfl rfl rfl

/-- The release of a new-mode device with one reference. -/
private theorem xrpReleaseDevice_newmode {n : Nat} {s : DeviceHost} {p : DevicePtr} {fd : Int}
    (h : s.heap p = some ⟨⟨⟨fd, 0⟩, .newmode⟩, 1⟩) (hfd : fd ∈ s.openFds) :
    xrpReleaseDevice (n + 1) s p = ({ s with openFds := s.openFds.erase fd } : DeviceHost).store p none := by
  simp [xrpReleaseDevice, h, xrpImplReleaseDevice, DeviceHost.close, DeviceHost.store, XrpDevice.implFd, hfd]

theorem DeviceInv.release {s : DeviceHost} (hi : DeviceInv s) {p : DevicePtr} (hp : 0 < s.owned p) :
    DeviceInv { xrpReleaseDevice 2 s p with owned := Function.update s.owned p (s.owned p - 1) } := by
  have hopen : s.made p ∈ s.openFds := (hi.kept.openFds _).2 ⟨p, hp, rfl⟩
  by_cases h1 : s.owned p = 1
  · have hlast : s.owned p - 1 = 0 := by omega
    rw [hlast]
    cases hi.filled p hp with
    | newmode h =>
      rw [h1] at h
      rw [xrpReleaseDevice_newmode h hopen]
      refine hi.dropped hp (fun x hx _ => ?_) rfl rfl rfl rfl rfl
      exact Function.update_of_ne hx _ _
    | normal q h hq h0 ho =>
      rw [h1] at h
      have hqp : q ≠ p := fun h => by rw [h] at ho; omega
      have hinner := xrpReleaseDevice_newmode (n := 0) (s := s.store p (some ⟨⟨splitPtr q, .normal⟩, 0⟩)) (p := q)
        (by simp [DeviceHost.store, Function.update_of_ne hqp, hq]) hopen
      have he : xrpReleaseDevice 2 s p = (({ s.store p (some ⟨⟨splitPtr q, .normal⟩, 0⟩) with
          openFds := s.openFds.erase (s.made p) } : DeviceHost).store q none).store p none := by
        rw [xrpReleaseDevice, h]
        simp only [xrpImplReleaseDevice, sprdCavdspCloseDevice, joinPtr_splitPtr, h0, if_false, if_true,
          Nat.sub_self]
        rw [hinner]
        rfl
      rw [he]
      refine hi.dropped hp (fun x hx hxq => ?_) rfl rfl rfl rfl rfl
      have hxq' : x ≠ q := fun hxq' => hxq 1 (hxq' ▸ h)
      simp [DeviceHost.store, Function.update_of_ne hx, Function.update_of_ne hxq']
  · obtain ⟨device, hd⟩ := (hi.filled p hp).heap_eq
    have he : xrpReleaseDevice 2 s p = s.store p (some ⟨device, s.owned p - 1⟩) := by
      rw [xrpReleaseDevice, hd]
      simp only [h1, if_false]
    rw [he]
    exact hi.recount hp (by omega) hd rfl rfl rfl rfl rfl rfl

/-! ### Runs -/

theorem DeviceInv.command {s : DeviceHost} (hi : DeviceInv s) {p : DevicePtr} {c : DeviceCommand}
    {d : CountedDevice}
    (hp : 0 < s.owned p) (hd : s.heap p = some d) (hok : d.device.type = .newmode ∨ d.device.implFd = s.made p) :
    DeviceInv { s with log := s.log ++ (c.ioctl d.device).toList.map fun io => (s.made p, io) } := by
  refine ⟨fun x hx => (hi.filled x hx).frame rfl rfl rfl fun _ _ _ h => ⟨rfl, h⟩, hi.unique, ?_, hi.kept.openFds,
    hi.kept.inj, hi.kept.fault⟩
  have hfd : d.device.implFd = s.made p := by
    rcases hok with hok | hok
    · cases hi.filled p hp with
      | newmode h =>
        rw [hd] at h
        cases h
        rfl
      | normal q h =>
        rw [hd] at h
        cases h
        cases hok
    · exact hok
  intro e he
  rcases List.mem_append.1 he with he | he
  · exact hi.kept.log e he
  · obtain ⟨io, hio, rfl⟩ := List.mem_map.1 he
    exact (DeviceCommand.ioctl_fd (Option.mem_toList.1 hio)).trans hfd

theorem DeviceInv.step {s s' : DeviceHost} {e : DeviceEvent} (hi : DeviceInv s) (hok : keepsDescriptors s e)
    (hs : deviceHost.step s e = some s') : DeviceInv s' := by
  cases e with
  | openDevice type fd inner outer =>
    simp only [deviceHost, DeviceHost.step] at hs
    split at hs
    · rename_i hfresh
      obtain ⟨hfd, hinner, houter, hdiff⟩ := hfresh
      cases hs
      rcases xrpOpenDevice_cases type hfd hok with he | ⟨n, q, p, rfl, rfl, rfl, he⟩
      · rw [he]
        exact hi
      · have hq := hinner.2
        have hp := houter.2
        have hqp : q ≠ p := fun h => hdiff (by simp) (h ▸ rfl)
        have hq0 : s.owned q = 0 := by
          by_contra h
          obtain ⟨device, hd⟩ := (hi.filled q (Nat.pos_of_ne_zero h)).heap_eq
          rw [hq] at hd
          cases hd
        rw [he]
        refine hi.handOut (p := p) hfd.2 hp ?_ rfl rfl rfl rfl rfl (fun x hx hxs => ?_) fun x c hx => ?_
        · refine .normal q ?_ ?_ hinner.1 ?_
          · simp [DeviceHost.handOut, DeviceHost.store]
          · simp [DeviceHost.handOut, DeviceHost.store, Function.update_of_ne hqp]
          · simp [DeviceHost.handOut, Function.update_of_ne hqp, hq0, DeviceHost.store]
        · have hxq : x ≠ q := fun h => hxs (h ▸ hq)
          simp [DeviceHost.handOut, DeviceHost.store, Function.update_of_ne hx, Function.update_of_ne hxq]
        · simp only [DeviceHost.handOut, DeviceHost.store, Function.update_self] at hx
          rw [← wrapper_injective hx]
          exact hq
    · cases hs
  | openDeviceNewmode type fd p =>
    simp only [deviceHost, DeviceHost.step] at hs
    split at hs
    · rename_i hfresh
      cases hs
      rcases xrpOpenDeviceNewmode_cases type p hfresh.1 with ⟨he, -⟩ | ⟨n, p₀, -, rfl, rfl, he⟩
      · rw [he]
        exact hi
      · have hp := hfresh.2.2
        rw [he]
        refine hi.handOut (p := p₀) hfresh.1.2 hp ?_ rfl rfl rfl rfl rfl (fun x hx _ => ?_) fun x c hx => ?_
        · refine .newmode ?_
          simp [DeviceHost.handOut, DeviceHost.store]
        · simp [DeviceHost.handOut, DeviceHost.store, Function.update_of_ne hx]
        · simp only [DeviceHost.handOut, DeviceHost.store, Function.update_self] at hx
          exact absurd hx.symm wrapper_ne_newmode
    · cases hs
  | retain p =>
    simp only [deviceHost, DeviceHost.step] at hs
    split at hs
    · rename_i hp
      cases hs
      exact hi.retain hp
    · cases hs
  | release p =>
    simp only [deviceHost, DeviceHost.step] at hs
    split at hs
    · rename_i hp
      cases hs
      exact hi.release hp
    · cases hs
  | command p c =>
    simp only [deviceHost, DeviceHost.step] at hs
    split at hs
    · rename_i hp
      obtain ⟨device, hd⟩ := (hi.filled p hp).heap_eq
      rw [hd] at hs
      cases hs
      exact hi.command hp hd (hok _ hd)
    · cases hs

/-- In every run whose steps meet `keepsDescriptors`, every command, power hint and release acts on the
descriptor that was opened for its device, and a descriptor is open exactly as long as its device has
references. -/
theorem descriptors_kept {s : DeviceHost} (h : Reach deviceHost keepsDescriptors s) : DescriptorsKept s := by
  have hi : DeviceInv s :=
    h.invariant (fun _ h0 => h0 ▸ DeviceInv.start) (fun _ _ _ hi hok hs => hi.step hok hs)
  exact hi.kept

/-- A device of each kind; a power hint on the new-mode one; both released. -/
def bothKinds : List DeviceEvent :=
  [.openDevice .normal (some 3) (some 7) (some 8), .openDeviceNewmode .faceid (some 4) (some 9),
   .retain 9, .command 9 (.powerHint 2 1 0), .release 9, .release 8, .release 9]

theorem descriptors_kept_bothKinds :
    ∃ s, deviceHost.exec keepsDescriptors .start bothKinds = some s ∧ s.log.length = 1 ∧ s.openFds = ∅ ∧
      DescriptorsKept s := by
  refine ⟨_, rfl, by decide, by decide, ?_⟩
  exact descriptors_kept (Reach.of_exec (M := deviceHost) bothKinds (s := .start) rfl rfl)

/-- A power hint on a device of `xrp_open_device`. -/
def hintOnWrapper : List DeviceEvent :=
  [.openDevice .normal (some 3) (some 7) (some 8), .command 8 (.powerHint 2 1 0)]

theorem wrapper_descriptor_not_used : ¬ ∀ s, Reach deviceHost anyStep s → DescriptorsKept s := by
  intro hall
  have hk := hall _ (Reach.of_exec (M := deviceHost) hintOnWrapper (s := .start) rfl rfl)
  exact absurd (hk.log (3, ⟨7, .setPowerhint 2 1⟩) (by decide)) (by decide)

end Vdsp
