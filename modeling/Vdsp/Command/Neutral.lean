import Vdsp.Command.Send

/-!
# What a command leaves behind

`sprd_vdsp_send_command` and `sprd_vdsp_send_command_directly` leave nothing behind unless the addition of a
buffer to the group fails: that buffer is in neither of the two things that are released then, the group and the
buffers before it.  And the first one leaves its queue behind if the worker has not dropped the event when it
returns.
-/

namespace Vdsp

open Counted

/-! ### The release of buffers -/

/-- A buffer has a device if and only if it is of the device type. -/
def BufferCell.Fits (b : BufferCell) : Prop :=
  (b.buffer.type = .host ∧ b.device = none) ∨ (b.buffer.type = .device ∧ ∃ p, b.device = some p)

/-- The references of buffers to a device. -/
def deviceRefs (p : Addr) (bs : List BufferCell) : Nat := (bs.map fun b => if b.device = some p then 1 else 0).sum

/-- The ION blocks of buffers. -/
def ionBlocks (bs : List BufferCell) : Nat := (bs.map fun b => if b.buffer.type = .device then 1 else 0).sum

/-- The counts of devices and ION blocks are `d` and `n`, and what the buffers `bs` add. -/
structure Store.Owes (t : Store) (d : Addr → Nat) (n : Nat) (bs : List BufferCell) : Prop where
  device : ∀ p, t.device p = d p + deviceRefs p bs
  ionmem : t.ionmem = n + ionBlocks bs

/-- Only buffers, devices and ION blocks have changed. -/
structure Store.SameRest (s t : Store) : Prop where
  groups : t.groups = s.groups
  queues : t.queues = s.queues
  events : t.events = s.events

variable {s t : Store} {B R : Heap BufferCell} {b : BufferCell} {bs : List BufferCell}
    {d : Addr → Nat} {n i : Nat}

theorem Store.releaseBuffer_mid (h : t.buffers = B ++ some (n + 2, b) :: R) (hi : i = B.length) :
    t.releaseBuffer i = some { t with buffers := B ++ some (n + 1, b) :: R } := by
  rw [Store.releaseBuffer, h, release_mid hi (by omega)]
  rfl

theorem Store.releaseBuffer_last {m : Nat} (h : t.buffers = B ++ some (1, b) :: R) (hi : i = B.length)
    (hb : b.Fits) (ho : t.Owes d m (b :: bs)) :
    ∃ t', t.releaseBuffer i = some t' ∧ t'.buffers = B ++ none :: R ∧ t'.Owes d m bs ∧ t.SameRest t' := by
  rw [Store.releaseBuffer, h, release_last hi]
  have hdevice := ho.device
  have hion := ho.ionmem
  simp only [deviceRefs, ionBlocks, List.map_cons, List.sum_cons] at hdevice hion
  rcases hb with ⟨hhost, hnone⟩ | ⟨hdev, p, hp⟩
  · simp only [hhost]
    refine ⟨_, rfl, rfl, ⟨fun p => ?_, ?_⟩, rfl, rfl, rfl⟩
    · simpa [hnone, deviceRefs] using hdevice p
    · simpa [hhost, ionBlocks] using hion
  · simp only [hdev, hp, Store.releaseDevice]
    refine ⟨_, rfl, rfl, ⟨fun q => ?_, ?_⟩, rfl, rfl, rfl⟩
    · by_cases hq : q = p
      · subst hq
        have := hdevice q
        simp only [hp, if_true] at this
        simp only [Function.update_self, this, deviceRefs]
        omega
      · have := hdevice q
        have hne : ¬ (some p = some q) := fun h => hq (Option.some.inj h).symm
        simp only [hp, if_neg hne, Nat.zero_add] at this
        simpa [hq, deviceRefs] using this
    · simp only [hdev, if_true] at hion
      simp only [hion, ionBlocks]
      omega

/-- Of several references to each of the buffers one is released. -/
theorem Store.releaseBuffers_mid (h : t.buffers = B ++ (bs.map fun b => some (n + 2, b)) ++ R) :
    t.releaseBuffers (List.range' B.length bs.length) =
      some { t with buffers := B ++ (bs.map fun b => some (n + 1, b)) ++ R } := by
  induction bs generalizing t B with
  | nil =>
    simp only [List.map_nil, List.append_nil] at h ⊢
    rw [← h]
    rfl
  | cons b bs ih =>
    have h' : t.buffers = B ++ some (n + 2, b) :: ((bs.map fun b => some (n + 2, b)) ++ R) := by simpa using h
    rw [List.length_cons, List.range'_succ, Store.releaseBuffers, releaseBuffer_mid h' rfl, Option.bind_some]
    have := ih (t := { t with buffers := B ++ some (n + 1, b) :: ((bs.map fun b => some (n + 2, b)) ++ R) })
      (B := B ++ [some (n + 1, b)]) (by simp)
    rw [List.length_append, List.length_singleton] at this
    rw [this]
    simp

/-- The last references to the buffers are released. -/
theorem Store.releaseBuffers_last {m : Nat} (h : t.buffers = B ++ (bs.map fun b => some (1, b)) ++ R)
    (hb : ∀ b ∈ bs, b.Fits) {rest : List BufferCell} (ho : t.Owes d m (bs ++ rest)) :
    ∃ t', t.releaseBuffers (List.range' B.length bs.length) = some t' ∧
      t'.buffers = B ++ freed BufferCell bs.length ++ R ∧ t'.Owes d m rest ∧ t.SameRest t' := by
  induction bs generalizing t B with
  | nil => exact ⟨t, rfl, by simpa using h, by simpa using ho, rfl, rfl, rfl⟩
  | cons b bs ih =>
    have h' : t.buffers = B ++ some (1, b) :: ((bs.map fun b => some (1, b)) ++ R) := by simpa using h
    obtain ⟨t₁, h₁, hbuf, ho₁, hs₁⟩ := releaseBuffer_last h' rfl (hb b (by simp))
      (show t.Owes d m (b :: (bs ++ rest)) by simpa using ho)
    obtain ⟨t₂, h₂, hbuf₂, ho₂, hs₂⟩ := ih (t := t₁) (B := B ++ [none]) (by simpa using hbuf)
      (fun c hc => hb c (by simp [hc])) ho₁
    refine ⟨t₂, ?_, by simpa using hbuf₂, ho₂, hs₂.groups.trans hs₁.groups, hs₂.queues.trans hs₁.queues,
      hs₂.events.trans hs₁.events⟩
    rw [List.length_append, List.length_singleton] at h₂
    rw [List.length_cons, List.range'_succ, Store.releaseBuffers, h₁, Option.bind_some, h₂]

/-! ### The loop -/

/-- The table of a group with the buffers from the address `i` on. -/
def records : Nat → List (BufferCell × XrpAccessFlags) → List (XrpBufferGroupRecord Nat)
  | _, [] => []
  | i, r :: rs => ⟨i, r.2⟩ :: records (i + 1) rs

variable {rs : List (BufferCell × XrpAccessFlags)} {table : XrpBufferGroup Nat} {G GR : Heap (XrpBufferGroup Nat)}

theorem records_append (i : Nat) (r : BufferCell × XrpAccessFlags) :
    records i (rs ++ [r]) = records i rs ++ [⟨i + rs.length, r.2⟩] := by
  induction rs generalizing i with
  | nil => rfl
  | cons x rs ih =>
    simp only [List.cons_append, records, ih, List.length_cons]
    rw [show i + 1 + rs.length = i + (rs.length + 1) by omega]

theorem buffer_records (rs : List (BufferCell × XrpAccessFlags)) (i : Nat) :
    (records i rs).map XrpBufferGroupRecord.buffer = List.range' i rs.length := by
  induction rs generalizing i with
  | nil => rfl
  | cons r rs ih => rw [records, List.map_cons, ih, List.length_cons, List.range'_succ]

/-- The store `t` has, beyond `s`, a group of the buffers `rs`, each with a reference of the group and one of
the call, and the buffers `left` with one reference. -/
structure Store.Loaded (s t : Store) (table : XrpBufferGroup Nat) (rs : List (BufferCell × XrpAccessFlags))
    (left : List BufferCell) : Prop where
  buffers : t.buffers = s.buffers ++ (rs.map fun r => some (2, r.1)) ++ left.map fun b => some (1, b)
  groups : t.groups = s.groups ++ [some (1, table)]
  entries : table.buffer = records s.buffers.length rs
  tight : table.Tight
  fits : ∀ r ∈ rs, r.1.Fits
  owes : t.Owes s.device s.ionmem (rs.map Prod.fst ++ left)
  queues : t.queues = s.queues
  events : t.events = s.events

/-- All that is behind a loop is released, but the buffers `rest`. -/
theorem Store.dropBuffers_spec {m : Nat} {rest : List BufferCell}
    (hbuf : t.buffers = B ++ (rs.map fun r => some (2, r.1)) ++ R) (hg : t.groups = G ++ some (1, table) :: GR)
    (htable : table.buffer = records B.length rs) (hfit : ∀ r ∈ rs, r.1.Fits)
    (ho : t.Owes d m (rs.map Prod.fst ++ rest)) :
    ∃ t', t.dropBuffers G.length (List.range' B.length rs.length) = some t' ∧
      t'.buffers = B ++ freed BufferCell rs.length ++ R ∧ t'.groups = G ++ none :: GR ∧ t'.Owes d m rest ∧
      t'.queues = t.queues ∧ t'.events = t.events := by
  have hmap : ∀ c : Nat, (rs.map fun r => some (c, r.1)) = (rs.map Prod.fst).map fun b => some (c, b) :=
    fun c => by
    rw [List.map_map]
    rfl
  rw [hmap] at hbuf
  have hmid := Store.releaseBuffers_mid (n := 0) (t := { t with groups := G ++ none :: GR }) hbuf
  obtain ⟨t₁, ht₁⟩ : ∃ t₁ : Store, t₁ = { t with
    groups := G ++ none :: GR
    buffers := B ++ ((rs.map Prod.fst).map fun b => some (1, b)) ++ R } := ⟨_, rfl⟩
  have ho₁ : t₁.Owes d m (rs.map Prod.fst ++ rest) := by
    rw [ht₁]
    exact ⟨ho.device, ho.ionmem⟩
  obtain ⟨t', hlast, hbuf', ho', hs'⟩ := Store.releaseBuffers_last (by rw [ht₁]) (by simpa using hfit) ho₁
  rw [ht₁] at hlast hs'
  rw [List.length_map] at hmid hlast hbuf'
  refine ⟨t', ?_, hbuf', hs'.groups, ho', hs'.queues, hs'.events⟩
  rw [Store.dropBuffers, Store.releaseBufferGroup, hg, release_last rfl]
  simp only [htable, buffer_records, hmid, Option.bind_some]
  exact hlast

/-- `xrp_create_buffer` succeeds for the `i`-th descriptor. -/
def Answers.creates (env : Answers) (i : Nat) (b : SprdVdspInout) : Prop :=
  env.buffer i = true ∧ (b.fd = -1 → (env.ionmem i).isSome = true)

/-- The buffer that wraps the `i`-th descriptor. -/
def wrap (env : Answers) (device : Addr) (i : Nat) (b : SprdVdspInout) : BufferCell :=
  if b.fd = -1 then
    let m := (env.ionmem i).getD (-1, none)
    ⟨⟨.device, m.2, b.size, m.1⟩, some device⟩
  else ⟨⟨.host, b.virAddr, b.size, b.fd⟩, none⟩

def wrapAll (env : Answers) (device : Addr) (flags : SprdVdspInout → XrpAccessFlags) :
    Nat → List SprdVdspInout → List (BufferCell × XrpAccessFlags)
  | _, [] => []
  | i, b :: bs => (wrap env device i b, flags b) :: wrapAll env device flags (i + 1) bs

/-- Every allocation for the descriptors from the `i`-th on succeeds. -/
def Answers.wrapsAll (env : Answers) : Nat → List SprdVdspInout → Prop
  | _, [] => True
  | i, b :: bs => env.wraps i b ∧ env.wrapsAll (i + 1) bs

/-- A buffer of the descriptors from the `i`-th on is the first for which something fails, and it is created and
not added. -/
def Answers.addFails (env : Answers) : Nat → List SprdVdspInout → Prop
  | _, [] => False
  | i, b :: bs => (env.wraps i b ∧ env.addFails (i + 1) bs) ∨ (env.creates i b ∧ ¬ env.wraps i b)

theorem wrap_fits (env : Answers) (device : Addr) (i : Nat) (b : SprdVdspInout) : (wrap env device i b).Fits := by
  unfold wrap
  split
  · exact .inr ⟨rfl, device, rfl⟩
  · exact .inl ⟨rfl, rfl⟩

private theorem Store.createBuffer_wrap (t : Store) (env : Answers) (device : Addr) (i : Nat)
    (b : SprdVdspInout) :
    (env.creates i b ∧ ∃ t',
      t.createBuffer (env.buffer i) (env.ionmem i) (some device) b.size b.virAddr b.fd =
        some (t', some t.buffers.length, .success) ∧
      t'.buffers = t.buffers ++ [some (1, wrap env device i b)] ∧
      (∀ d m bs, t.Owes d m bs → t'.Owes d m (bs ++ [wrap env device i b])) ∧ t.SameRest t') ∨
    (¬ env.creates i b ∧
      (t.createBuffer (env.buffer i) (env.ionmem i) (some device) b.size b.virAddr b.fd = none ∨
        t.createBuffer (env.buffer i) (env.ionmem i) (some device) b.size b.virAddr b.fd =
          some (t, none, .failure))) := by
  rcases t.createBuffer_cases (env.buffer i) (env.ionmem i) (some device) b.size b.virAddr b.fd with ⟨h, he⟩ |
    ⟨-, ha, hfd, he⟩ | ⟨p, ionFd, viraddr, ha, hfd, hp, hion, he⟩ | ⟨-, ha, hfd, hnone, he⟩
  · right
    refine ⟨fun hc => ?_, .inr he⟩
    rcases h with h | h
    · cases h.2
    · rw [hc.1] at h
      cases h
  · left
    have hwrap : wrap env device i b = ⟨⟨.host, b.virAddr, b.size, b.fd⟩, none⟩ := if_neg hfd
    refine ⟨⟨ha, fun h => absurd h hfd⟩, _, he, by rw [hwrap], fun d m bs ho => ⟨fun q => ?_, ?_⟩, rfl, rfl, rfl⟩
    · rw [hwrap]
      simpa [deviceRefs] using ho.device q
    · rw [hwrap]
      simpa [ionBlocks] using ho.ionmem
  · left
    cases hp
    have hwrap : wrap env device i b = ⟨⟨.device, viraddr, b.size, ionFd⟩, some device⟩ := by
      simp [wrap, hfd, hion]
    refine ⟨⟨ha, fun _ => by simp [hion]⟩, _, he, by rw [hwrap], fun d m bs ho => ⟨fun q => ?_, ?_⟩,
      rfl, rfl, rfl⟩
    · have := ho.device q
      rw [hwrap]
      by_cases hq : q = device
      · subst hq
        simp only [deviceRefs] at this
        simp [deviceRefs, this]
        omega
      · simpa [deviceRefs, hq, Ne.symm hq] using this
    · have := ho.ionmem
      simp only [ionBlocks] at this
      rw [hwrap]
      simp [ionBlocks, this]
      omega
  · right
    refine ⟨fun hc => ?_, .inl he⟩
    rcases hnone with h | h
    · cases h
    · have := hc.2 hfd
      rw [h] at this
      cases this

private theorem Store.addBufferToGroup_spec (ht : table.Tight) (hg : t.groups = G ++ [some (1, table)])
    (hb : t.buffers = B ++ [some (1, b)]) (flags : XrpAccessFlags) (realloc : Bool) :
    ((GrowsAt table.nBuffers → realloc = true) ∧ ∃ table' : XrpBufferGroup Nat,
      table'.buffer = table.buffer ++ [⟨B.length, flags⟩] ∧ table'.Tight ∧
      t.addBufferToGroup G.length B.length flags realloc =
        some ({ t with buffers := B ++ [some (2, b)], groups := G ++ [some (1, table')] }, .success)) ∨
    (¬ (GrowsAt table.nBuffers → realloc = true) ∧
      t.addBufferToGroup G.length B.length flags realloc = some (t, .failure)) := by
  have hsome : (xrpAddBufferToGroup table B.length flags realloc).isSome = true ↔ _ := xrpAddBufferToGroup_isSome
  rw [ht.full_iff] at hsome
  rw [Store.addBufferToGroup, hg, get_mid rfl, Option.bind_some, hb]
  cases hadd : xrpAddBufferToGroup table B.length flags realloc with
  | none =>
    right
    rw [hadd] at hsome
    exact ⟨fun h => by simpa using hsome.2 h, rfl⟩
  | some p =>
    left
    rw [hadd] at hsome
    refine ⟨hsome.1 rfl, p.1, (xrpAddBufferToGroup_buffer hadd).1, xrpAddBufferToGroup_grow ht hadd, ?_⟩
    simp only [retain_mid rfl, Option.map_some, set_mid rfl]

theorem Answers.wraps_iff {env : Answers} {b : SprdVdspInout} :
    env.wraps i b ↔ env.creates i b ∧ (GrowsAt i → env.realloc i = true) := by
  unfold Answers.wraps Answers.creates
  rw [and_assoc]

private theorem Store.Loaded.length (hl : s.Loaded t table rs []) :
    t.buffers.length = s.buffers.length + rs.length ∧ table.nBuffers = rs.length := by
  refine ⟨by simp [hl.buffers], ?_⟩
  have := congrArg List.length (buffer_records rs s.buffers.length)
  rw [List.length_map, List.length_range', ← hl.entries] at this
  exact this

/-- The loop goes through exactly when every allocation succeeds; where it stops it has left a buffer that it
does not count as made exactly when an addition failed. -/
theorem Store.addBuffers_spec (env : Answers) (device : Addr) (flags : SprdVdspInout → XrpAccessFlags)
    {ds : List SprdVdspInout} (hl : s.Loaded t table rs []) {r : Option (Store × List Nat × Bool)}
    (hr : r = t.addBuffers env device s.groups.length flags rs.length
      (List.range' s.buffers.length rs.length) ds) :
    (env.wrapsAll rs.length ds ∧ ∃ t' table',
      s.Loaded t' table' (rs ++ wrapAll env device flags rs.length ds) [] ∧
      r = some (t', List.range' s.buffers.length (rs ++ wrapAll env device flags rs.length ds).length, true)) ∨
    (¬ env.wrapsAll rs.length ds ∧ (r = none ∨ ∃ t' table' rs' left,
      s.Loaded t' table' rs' left ∧ (left = [] ↔ ¬ env.addFails rs.length ds) ∧
      r = some (t', List.range' s.buffers.length rs'.length, false))) := by
  subst hr
  induction ds generalizing t table rs with
  | nil =>
    left
    exact ⟨trivial, t, table, by simpa [wrapAll] using hl, by simp [wrapAll, Store.addBuffers]⟩
  | cons b ds ih =>
    obtain ⟨hlen, hn⟩ := hl.length
    simp only [Store.addBuffers]
    rcases t.createBuffer_wrap env device rs.length b with ⟨hc, t₁, he, hbuf, howes, hs⟩ | ⟨hc, he⟩
    · have hg₁ : t₁.groups = s.groups ++ [some (1, table)] := hs.groups.trans hl.groups
      have hbuf₁ : t₁.buffers = s.buffers ++ (rs.map fun r => some (2, r.1)) ++
          [some (1, wrap env device rs.length b)] := by
        rw [hbuf, hl.buffers]
        simp
      have howes₁ := howes _ _ _ hl.owes
      simp only [he]
      rcases Store.addBufferToGroup_spec hl.tight hg₁ hbuf (flags b) (env.realloc rs.length) with
        ⟨hgrow, table', htable', htight', hadd⟩ | ⟨hgrow, hadd⟩
      · rw [hn] at hgrow
        have hw : env.wraps rs.length b := Answers.wraps_iff.2 ⟨hc, hgrow⟩
        have hl' : s.Loaded { t₁ with
            buffers := t.buffers ++ [some (2, wrap env device rs.length b)]
            groups := s.groups ++ [some (1, table')] } table' (rs ++ [(wrap env device rs.length b, flags b)])
              [] := by
          refine ⟨by simp [hl.buffers], rfl, ?_, htight', ?_, ⟨fun p => ?_, ?_⟩, hs.queues.trans hl.queues,
            hs.events.trans hl.events⟩
          · rw [htable', hl.entries, hlen, records_append]
          · intro r hr
            rcases List.mem_append.1 hr with hr | hr
            · exact hl.fits r hr
            · rw [List.mem_singleton.1 hr]
              exact wrap_fits ..
          · simpa using howes₁.device p
          · simpa using howes₁.ionmem
        have hmade : List.range' s.buffers.length rs.length ++ [t.buffers.length] =
            List.range' s.buffers.length (rs ++ [(wrap env device rs.length b, flags b)]).length := by
          rw [hlen, List.length_append, List.length_singleton, List.range'_1_concat]
        have hi : rs.length + 1 = (rs ++ [(wrap env device rs.length b, flags b)]).length := by simp
        simp only [hadd, hmade, hi]
        rcases ih hl' with ⟨hall, t', table'', hl'', he'⟩ | ⟨hall, he'⟩
        · left
          rw [← hi] at hall hl'' he'
          refine ⟨⟨hw, hall⟩, t', table'', ?_, ?_⟩
          · simpa [wrapAll] using hl''
          · rw [← hi, he']
            simp [wrapAll]
        · right
          rw [← hi] at hall he' ⊢
          refine ⟨fun h => hall h.2, ?_⟩
          have hfails : env.addFails rs.length (b :: ds) ↔ env.addFails (rs.length + 1) ds := by
            simp [Answers.addFails, hw]
          rw [hfails]
          exact he'
      · right
        rw [hn] at hgrow
        have hw : ¬ env.wraps rs.length b := fun h => hgrow (Answers.wraps_iff.1 h).2
        simp only [hadd]
        refine ⟨fun h => hw h.1, .inr ⟨t₁, table, rs, [wrap env device rs.length b], ?_, ?_, rfl⟩⟩
        · refine ⟨hbuf₁, hg₁, hl.entries, hl.tight, hl.fits, ?_, hs.queues.trans hl.queues,
            hs.events.trans hl.events⟩
          simpa using howes₁
        · exact iff_of_false (by simp) (not_not.2 (.inr ⟨hc, hw⟩))
    · right
      have hw : ¬ env.wraps rs.length b := fun h => hc (Answers.wraps_iff.1 h).1
      refine ⟨fun h => hw h.1, ?_⟩
      rcases he with he | he
      · exact .inl (by simp only [he])
      · right
        refine ⟨t, table, rs, [], hl, iff_of_true rfl ?_, by simp only [he]⟩
        rintro (h | h)
        · exact hw h.1
        · exact hc h.1

/-! ### The direct command -/

/-- The store has new cells, which are freed but for the buffers `left`, with one reference each. -/
structure Store.Grows (s t : Store) (left : List BufferCell) : Prop where
  owes : t.Owes s.device s.ionmem left
  buffers : ∃ n, t.buffers = s.buffers ++ freed BufferCell n ++ left.map fun b => some (1, b)
  groups : Spent s.groups t.groups
  queues : t.queues = s.queues
  events : t.events = s.events

theorem Store.Grows.refl (s : Store) : s.Grows s [] where
  owes := ⟨fun _ => rfl, rfl⟩
  buffers := ⟨0, by simp⟩
  groups := .refl _
  queues := rfl
  events := rfl

theorem Store.loaded_start (s : Store) :
    s.Loaded { s with groups := s.groups ++ [some (1, .empty)] } .empty [] [] where
  buffers := by simp
  groups := rfl
  entries := rfl
  tight := XrpBufferGroup.tight_empty
  fits := by simp
  owes := ⟨fun _ => rfl, rfl⟩
  queues := rfl
  events := rfl

/-- The loop over all descriptors. -/
theorem Store.addBuffers_start (s : Store) (env : Answers) (device : Addr)
    (flags : SprdVdspInout → XrpAccessFlags) {ds : List SprdVdspInout} {r : Option (Store × List Nat × Bool)}
    (hr : r = Store.addBuffers { s with groups := s.groups ++ [some (1, .empty)] } env device
      s.groups.length flags 0 [] ds) :
    (env.wrapsAll 0 ds ∧ ∃ t' table', s.Loaded t' table' (wrapAll env device flags 0 ds) [] ∧
      r = some (t', List.range' s.buffers.length (wrapAll env device flags 0 ds).length, true)) ∨
    (¬ env.wrapsAll 0 ds ∧ (r = none ∨ ∃ t' table' rs' left,
      s.Loaded t' table' rs' left ∧ (left = [] ↔ ¬ env.addFails 0 ds) ∧
      r = some (t', List.range' s.buffers.length rs'.length, false))) :=
  Store.addBuffers_spec env device flags s.loaded_start hr

theorem Store.Loaded.drop {left : List BufferCell} (hl : s.Loaded t table rs left) :
    ∃ t', t.dropBuffers s.groups.length (List.range' s.buffers.length rs.length) = some t' ∧ s.Grows t' left := by
  obtain ⟨t', h, hbuf, hg, ho, hq, he⟩ := Store.dropBuffers_spec hl.buffers hl.groups hl.entries hl.fits hl.owes
  exact ⟨t', h, ho, ⟨_, hbuf⟩, ⟨1, hg⟩, hq.trans hl.queues, he.trans hl.events⟩

/-- The loop ends as it does without the objects, for a group of the same length. -/
theorem Store.addBuffers_eq (env : Answers) (device : Addr) (d : XrpDevice) (made : List Nat)
    (ds : List SprdVdspInout) {group : XrpBufferGroup XrpBuffer} (hg : t.groups = G ++ [some (1, table)])
    (ht : table.Tight) (hgroup : group.Tight) (hn : table.nBuffers = group.nBuffers) (i : Nat) :
    (t.addBuffers env device G.length (fun b => translateBufflag b.flag) i made ds).map (fun r => r.2.2) =
      (Vdsp.addBuffers env d i group ds).map Option.isSome := by
  induction ds generalizing t table group i made with
  | nil => rfl
  | cons b ds ih =>
    have hcreate := t.createBuffer_eq env i (some device) d b.size b.virAddr b.fd
    rw [Option.map_some] at hcreate
    simp only [Store.addBuffers, Vdsp.addBuffers, ← hcreate]
    rcases t.createBuffer_wrap env device i b with ⟨-, t₁, he, hbuf, -, hs⟩ | ⟨-, he | he⟩
    · have hnew : Counted.get t₁.buffers t.buffers.length = some (wrap env device i b) := by
        rw [hbuf, get_mid rfl]
      have hsome : (xrpAddBufferToGroup group (wrap env device i b).buffer (translateBufflag b.flag)
        (env.realloc i)).isSome = true ↔ _ := xrpAddBufferToGroup_isSome
      rw [hgroup.full_iff, ← hn] at hsome
      rcases Store.addBufferToGroup_spec ht (hs.groups.trans hg) hbuf (translateBufflag b.flag)
        (env.realloc i) with
        ⟨hgrow, table', htable', htight', hadd⟩ | ⟨hgrow, hadd⟩
      · obtain ⟨⟨group', j⟩, h'⟩ := Option.isSome_iff_exists.1 (hsome.2 hgrow)
        have hlen : table'.nBuffers = group'.nBuffers := by
          have hn : table.buffer.length = group.buffer.length := hn
          simp [XrpBufferGroup.nBuffers, htable', (xrpAddBufferToGroup_buffer h').1, hn]
        simp only [he, hadd, Option.map_some, Option.bind_some, hnew, h']
        exact ih _ rfl htight' (xrpAddBufferToGroup_grow hgroup h') hlen _
      · have hnone := Option.not_isSome_iff_eq_none.1 (mt hsome.1 hgrow)
        simp only [he, hadd, Option.map_some, Option.bind_some, hnew, hnone, Option.isSome_none]
    · simp [he]
    · simp [he]

/-- With its objects, `sprd_vdsp_send_command_directly` returns what it returns without them. -/
theorem Store.sendCommandDirectly_eq (s : Store) (env : Answers) (device : Addr) (d : XrpDevice) (nsid : Nsid)
    (input output : Option SprdVdspInout) (buffer : List SprdVdspInout) (bufNum : Nat) (priority : BitVec 32) :
    (s.sendCommandDirectly env device nsid input buffer bufNum).map Prod.snd =
      (sprdVdspSendCommandDirectly env d nsid input output buffer bufNum priority).map Prod.snd := by
  unfold Store.sendCommandDirectly sprdVdspSendCommandDirectly
  by_cases hlen : strlen nsid.bytes > xrpNamespaceIdSize - 1
  · simp only [if_pos hlen, Option.map_some]
  by_cases hf : (strncpy nsid (strlen nsid.bytes)).faceid
  · simp only [if_neg hlen, if_pos hf]
    split <;> rfl
  simp only [if_neg hlen, if_neg hf]
  cases hbuf : env.buf with
  | false => rfl
  | true =>
  cases hg : env.group with
  | false => rfl
  | true =>
    have hloop := Store.addBuffers_eq env device d [] (buffer.take bufNum)
      (t := { s with groups := s.groups ++ [some (1, .empty)] }) rfl XrpBufferGroup.tight_empty
      XrpBufferGroup.tight_empty rfl 0
    simp only [Bool.true_eq_false, if_false, Store.createBufferGroup, if_true, Counted.alloc]
    cases hadd : ({ s with groups := s.groups ++ [some (1, .empty)] } : Store).addBuffers env device
      s.groups.length
      (fun b => translateBufflag b.flag) 0 [] (buffer.take bufNum) with
    | none =>
      rw [hadd, Option.map_none, eq_comm, Option.map_eq_none_iff] at hloop
      simp [hloop]
    | some r =>
      obtain ⟨t, made, ok⟩ := r
      rw [hadd, Option.map_some, eq_comm, Option.map_eq_some_iff] at hloop
      obtain ⟨group, hgroup, rfl⟩ := hloop
      -- what the loop has made is released
      obtain ⟨t', hdrop⟩ : ∃ t', t.dropBuffers s.groups.length made = some t' := by
        rcases s.addBuffers_start env device (fun b => translateBufflag b.flag) hadd.symm with
          ⟨-, u, table, hl, he⟩ | ⟨-, he | ⟨u, table, rs, left, hl, -, he⟩⟩
        · obtain ⟨rfl, rfl, -⟩ : t = u ∧ made = _ ∧ _ := by simpa using he
          obtain ⟨t', h, -⟩ := hl.drop
          exact ⟨t', h⟩
        · cases he
        · obtain ⟨rfl, rfl, -⟩ : t = u ∧ made = _ ∧ _ := by simpa using he
          obtain ⟨t', h, -⟩ := hl.drop
          exact ⟨t', h⟩
      cases group <;> simp [hgroup, hdrop, xrpRunCommandDirectly]

/-! ### The queued command -/

/-- The worker's command returns what `_xrp_run_command` does for a group with the same entries. -/
theorem Store.runCommand_eq {env : Answers} {q : QueueCell} {input : XrpData} {g : Nat} {queue : XrpQueue}
    {group : XrpBufferGroup XrpBuffer} (hg : Counted.get s.groups g = some table)
    (he : s.entries table.buffer = some group.buffer) (hq : queue.nsid = q.nsid) (output : XrpData) :
    (s.runCommand env q input g).map Prod.snd = (xrpRunCommand env queue input output (some group)).map
      Prod.snd := by
  rw [Store.runCommand, hg, Option.bind_some, he, Option.bind_some]
  unfold xrpRunCommand recordsOf
  by_cases hfail : 0 < group.buffer.length ∧ env.inout = false
  · simp only [if_pos hfail, Option.map_some]
  have hdirect := s.sendCommandDirectly_eq env q.device queue.device q.nsid (inoutOfData input)
    (inoutOfData output)
    (group.buffer.map inoutOfRecord) (group.buffer.length % 2 ^ 32) queue.priority
  have hresult := congrArg (Option.map fun ret1 : SprdVdspStatus =>
    exitStatus (if ret1.toInt = 0 then SprdVdspResult.success else .fail).toInt) hdirect
  simpa [hfail, sprdVdspSendCmdDirec, hq, Option.map_map, Function.comp_def] using hresult

variable {Q : Heap QueueCell} {E : Heap Nat} {q : QueueCell}

/-- Every allocation succeeds, and the worker has dropped the event before the client. -/
def SendAnswers.allOk : SendAnswers := ⟨.allOk, true, true, .allOk, .first⟩

end Vdsp
