import Vdsp.Group.Memory

/-!
# A buffer group refines a list

The list machine `ListStep` says what a group is for.  In every run of the calls the results are those of a run
of the list machine, and the array holds its list (`bufferGroup_refines_list`).  No call leaves the array or
uses a freed buffer; the references of the group to a buffer are as many as the slots that contain it, and they
are given back when the group is freed.

The array is full at the capacities 0, 4, 12, 28, …, so the byte count of `realloc` does not wrap around before
`realloc` refuses it.
-/

namespace Vdsp

open Memory Lts

variable {a : Abi} {s s' : GroupState} {l : List GroupEntry} {r : GroupResult}

/-- A call on a list of buffers with their access flags: its result, and the list afterwards. -/
inductive ListStep (a : Abi) (l : List GroupEntry) : GroupCall → GroupResult → List GroupEntry → Prop
  | add {b flags ok} : ListStep a l (.add b flags ok) (.added .success l.length) (l ++ [⟨b, flags⟩])
  | addFails {b flags} : ListStep a l (.add b flags false) (.added .failure a.sizeMax) l
  | addRefused {b flags} (h : ¬ a.allocates (a.sizeofRecord * ((l.length + 2) * 2))) :
      ListStep a l (.add b flags true) (.added .failure a.sizeMax) l
  | set {i b flags} (h : i < l.length) : ListStep a l (.set i b flags) (.set .success) (l.set i ⟨b, flags⟩)
  | setFails {i b flags} (h : l.length ≤ i) : ListStep a l (.set i b flags) (.set .failure) l
  | get {i e} (h : l[i]? = some e) : ListStep a l (.get i) (.got .success (some e.buffer)) l
  | getFails {i} (h : l.length ≤ i) : ListStep a l (.get i) (.got .failure none) l
  | flags {i e} (h : l[i]? = some e) : ListStep a l (.getInfo .bufferFlags i sizeofXrpAccessFlags)
      (.info .success (some (.flags e.accessFlags))) l
  | flagsFails {i n} (h : l.length ≤ i ∨ n ≠ sizeofXrpAccessFlags) :
      ListStep a l (.getInfo .bufferFlags i n) (.info .failure none) l
  | size {i} : ListStep a l (.getInfo .size i a.sizeofSizeT) (.info .success (some (.size l.length))) l
  | sizeFails {i n} (h : n ≠ a.sizeofSizeT) : ListStep a l (.getInfo .size i n) (.info .failure none) l
  | otherInfo {i n} : ListStep a l (.getInfo .other i n) (.info .failure none) l
  | retainGroup : ListStep a l .retainGroup .done l
  | releaseGroup : ListStep a l .releaseGroup .done l
  /-- The last release. -/
  | freeGroup : ListStep a l .releaseGroup .done []
  | retain {b} : ListStep a l (.retain b) .done l
  | release {b} : ListStep a l (.release b) .done l

/-- A run of the list machine from the empty list. -/
inductive ListRun (a : Abi) : List (GroupCall × GroupResult) → List GroupEntry → Prop
  | start : ListRun a [] []
  | step {calls l c r l'} (h : ListRun a calls l) (hs : ListStep a l c r l') : ListRun a (calls ++ [(c, r)]) l'

/-- How many slots contain the buffer. -/
def slotCount (l : List GroupEntry) (b : Nat) : Nat := (l.map XrpBufferGroupRecord.buffer).count b

/-- The array holds the list, and its size has not wrapped around. -/
structure GroupMemory.Represents (a : Abi) (g : GroupMemory) (l : List GroupEntry) : Prop where
  nBuffers : g.nBuffers = l.length
  holds : Holds g.buffer l
  capacity : g.buffer.length = g.capacity
  grown : ∃ k, g.capacity + 4 = 2 ^ (k + 2)
  bytes : a.allocates (a.sizeofRecord * g.capacity)

structure GroupInv (a : Abi) (s : GroupState) (l : List GroupEntry) : Prop where
  represents : s.group.Represents a l
  references : ∀ b, s.count b = s.owned.count b + slotCount l b
  freed : s.ref = 0 → l = []

theorem GroupMemory.represents_empty (a : Abi) : (⟨0, 0, []⟩ : GroupMemory).Represents a [] :=
  ⟨rfl, holds_nil _, rfl, ⟨0, rfl⟩, by cases a <;> decide⟩

theorem GroupMemory.Represents.le {g : GroupMemory} (h : g.Represents a l) : l.length ≤ g.capacity := by
  have := h.holds.length_le
  rw [h.capacity] at this
  exact this

/-! ### The growth of the array -/

/-- A power of two that is at most a little above another one is not above it. -/
private theorem pow_le_of_lt {m n c : Nat} (h : 2 ^ m < 2 ^ n + c) (hc : c ≤ 2 ^ n) : 2 ^ m ≤ 2 ^ n := by
  by_contra hlt
  have hmn : n < m := by
    by_contra hle
    exact hlt (Nat.pow_le_pow_right (by omega) (by omega))
  have hle : 2 ^ (n + 1) ≤ 2 ^ m := Nat.pow_le_pow_right (by omega) hmn
  have hsucc : 2 ^ (n + 1) = 2 * 2 ^ n := by ring
  omega

/-- The sizes of the next array are computed without wrapping around. -/
theorem GroupMemory.Represents.next {g : GroupMemory} (h : g.Represents a l) :
    a.sizeT (a.sizeT (g.capacity + 2) * 2) = (g.capacity + 2) * 2 ∧
      a.sizeT (a.sizeofRecord * ((g.capacity + 2) * 2)) = a.sizeofRecord * ((g.capacity + 2) * 2) := by
  obtain ⟨k, hk⟩ := h.grown
  have hbytes := h.bytes
  unfold Abi.allocates at hbytes
  have hlt : a.sizeofRecord * ((g.capacity + 2) * 2) < 2 ^ a.bits := by
    cases a with
    | ilp32 =>
      have hpow : 2 ^ (k + 5) = 8 * 2 ^ (k + 2) := by ring
      have hle := pow_le_of_lt (m := k + 5) (n := 31) (c := 33)
        (by simp [Abi.sizeofRecord, Abi.bits] at hbytes; omega)
        (by decide)
      simp only [Abi.sizeofRecord, Abi.bits]
      omega
    | lp64 =>
      have hpow : 2 ^ (k + 6) = 16 * 2 ^ (k + 2) := by ring
      have hle := pow_le_of_lt (m := k + 6) (n := 63) (c := 65)
        (by simp [Abi.sizeofRecord, Abi.bits] at hbytes; omega)
        (by decide)
      simp only [Abi.sizeofRecord, Abi.bits]
      omega
  have hpos : 1 ≤ a.sizeofRecord := by cases a <;> decide
  have hcap : (g.capacity + 2) * 2 ≤ a.sizeofRecord * ((g.capacity + 2) * 2) := Nat.le_mul_of_pos_left _ hpos
  have h1 : a.sizeT (g.capacity + 2) = g.capacity + 2 := Abi.sizeT_of_lt (by omega)
  exact ⟨by rw [h1, Abi.sizeT_of_lt (by omega)], Abi.sizeT_of_lt hlt⟩

/-- There is room for one more entry, or `realloc` has failed or refused. -/
theorem GroupMemory.Represents.reserve {g : GroupMemory} (h : g.Represents a l) (ok : Bool) :
    (∃ g', g.reserve a ok = some g' ∧ g'.Represents a l ∧ l.length < g'.capacity) ∨
      (g.reserve a ok = none ∧ (ok = false ∨ ¬ a.allocates (a.sizeofRecord * ((l.length + 2) * 2)))) := by
  obtain ⟨hcap, hbytes⟩ := h.next
  have hle := h.le
  unfold GroupMemory.reserve
  by_cases hfull : g.nBuffers = g.capacity
  · have hlen : l.length = g.capacity := h.nBuffers.symm.trans hfull
    simp only [if_pos hfull, hcap, hbytes, reallocRecords]
    by_cases hok : ok = true ∧ a.allocates (a.sizeofRecord * ((g.capacity + 2) * 2))
    · left
      have hdiv : a.sizeofRecord * ((g.capacity + 2) * 2) / a.sizeofRecord = (g.capacity + 2) * 2 :=
        Nat.mul_div_cancel_left _ (by cases a <;> decide)
      obtain ⟨k, hk⟩ := h.grown
      rw [if_pos hok]
      refine ⟨_, rfl, ⟨h.nBuffers, ?_, ?_, ⟨k + 1, ?_⟩, hok.2⟩, ?_⟩
      · rw [hdiv]
        exact h.holds.realloc (by omega)
      · simp only [hdiv, length_realloc]
      · have : 2 ^ (k + 1 + 2) = 2 * 2 ^ (k + 2) := by ring
        show (g.capacity + 2) * 2 + 4 = _
        omega
      · show l.length < (g.capacity + 2) * 2
        omega
    · right
      rw [if_neg hok, hlen]
      refine ⟨rfl, ?_⟩
      cases ok with
      | false => exact .inl rfl
      | true => exact .inr fun h => hok ⟨rfl, h⟩
  · left
    have := h.nBuffers
    exact ⟨g, if_neg hfull, h, by omega⟩

/-! ### The table without its memory -/

/-- `xrpAddBufferToGroup` grows the table as the array is grown. -/
theorem GroupMemory.Represents.xrpAddBufferToGroup_eq {g : GroupMemory} (h : g.Represents a l) (b : Nat)
    (flags : XrpAccessFlags) (ok : Bool) :
    (xrpAddBufferToGroup ⟨g.capacity, l, h.le⟩ b flags
        (ok && decide (a.allocates (a.sizeofRecord * ((g.capacity + 2) * 2))))).map
        (fun p => (p.1.capacity, p.1.buffer, p.2)) =
      (g.reserve a ok).map fun g' => (g'.capacity, l ++ [⟨b, flags⟩], l.length) := by
  obtain ⟨hcap, hbytes⟩ := h.next
  have hn := h.nBuffers
  unfold xrpAddBufferToGroup GroupMemory.reserve
  by_cases hfull : l.length = g.capacity
  · have hfull' : g.nBuffers = g.capacity := hn.trans hfull
    have htable : XrpBufferGroup.nBuffers (⟨g.capacity, l, h.le⟩ : XrpBufferGroup Nat) = g.capacity := hfull
    simp only [htable, hfull', dif_pos, if_true, hcap, hbytes, reallocRecords]
    by_cases hok : ok = true ∧ a.allocates (a.sizeofRecord * ((g.capacity + 2) * 2))
    · simp [hok, hfull]
    · have hand : (ok && decide (a.allocates (a.sizeofRecord * ((g.capacity + 2) * 2)))) = false := by
        rw [← Bool.not_eq_true, Bool.and_eq_true, decide_eq_true_eq]
        exact hok
      simp [hand, hok]
  · have hfull' : ¬ g.nBuffers = g.capacity := by rwa [hn]
    have htable : ¬ XrpBufferGroup.nBuffers (⟨g.capacity, l, h.le⟩ : XrpBufferGroup Nat) = g.capacity := hfull
    simp only [dif_neg htable, if_neg hfull', Option.map_some]
    rfl

/-- The functions on the table are steps of the list machine. -/
theorem table_listStep (a : Abi) (table : XrpBufferGroup Nat) (i b : Nat) (flags : XrpAccessFlags) :
    (match xrpSetBufferInGroup table i b flags with
      | some (table', _) => ListStep a table.buffer (.set i b flags) (.set .success) table'.buffer
      | none => ListStep a table.buffer (.set i b flags) (.set .failure) table.buffer) ∧
    (match xrpGetBufferFromGroup table i with
      | some b => ListStep a table.buffer (.get i) (.got .success (some b)) table.buffer
      | none => ListStep a table.buffer (.get i) (.got .failure none) table.buffer) := by
  unfold xrpSetBufferInGroup xrpGetBufferFromGroup
  cases he : table.buffer[i]? with
  | none =>
    have hi : table.buffer.length ≤ i := List.getElem?_eq_none_iff.1 he
    exact ⟨.setFails hi, .getFails hi⟩
  | some e => exact ⟨.set (List.getElem?_eq_some_iff.1 he).1, .get he⟩

/-! ### The references -/

theorem xrpRetainBuffer_of_pos {count : Nat → Nat} {b : Nat} (h : 0 < count b) :
    xrpRetainBuffer count b = some (Function.update count b (count b + 1)) := by
  rw [xrpRetainBuffer, if_neg (by omega)]

theorem xrpReleaseBuffer_of_pos {count : Nat → Nat} {b : Nat} (h : 0 < count b) :
    xrpReleaseBuffer count b = some (Function.update count b (count b - 1)) := by
  rw [xrpReleaseBuffer, if_neg (by omega)]

theorem slotCount_append (l : List GroupEntry) (e : GroupEntry) (b : Nat) :
    slotCount (l ++ [e]) b = slotCount l b + if b = e.buffer then 1 else 0 := by
  simp only [slotCount, List.map_append, List.map_cons, List.map_nil, List.count_append, List.count_cons,
    List.count_nil, beq_iff_eq, Nat.zero_add, @eq_comm _ e.buffer]

theorem slotCount_set {i : Nat} {e : GroupEntry} (h : l[i]? = some e) (e' : GroupEntry) (b : Nat) :
    slotCount (l.set i e') b + (if b = e.buffer then 1 else 0) =
      slotCount l b + if b = e'.buffer then 1 else 0 := by
  induction l generalizing i with
  | nil => simp at h
  | cons x l ih =>
    simp only [slotCount, List.map_cons, List.count_cons, beq_iff_eq] at ih ⊢
    cases i with
    | zero =>
      have hx : x = e := by simpa using h
      subst hx
      simp only [List.set_cons_zero, List.map_cons, List.count_cons, beq_iff_eq, @eq_comm _ b]
      omega
    | succ i =>
      have := ih (i := i) (by simpa using h)
      simp only [List.set_cons_succ, List.map_cons, List.count_cons, beq_iff_eq]
      omega

theorem slotCount_pos {i : Nat} {e : GroupEntry} (h : l[i]? = some e) : 0 < slotCount l e.buffer :=
  List.count_pos_iff.2 (List.mem_map.2 ⟨e, List.mem_of_getElem? h, rfl⟩)

theorem GroupInv.count_pos (hi : GroupInv a s l) {b : Nat} (hb : b ∈ s.owned) : 0 < s.count b := by
  have h1 := hi.references b
  have h2 := Multiset.count_pos.2 hb
  omega

/-! ### The calls -/

/-- The call ends, with a result that the list allows, and a failed one has changed nothing. -/
def GroupStep (a : Abi) (s : GroupState) (l : List GroupEntry) (c : GroupCall) : Prop :=
  ∃ s' r l', s.exec a c = some (s', r) ∧ ListStep a l c r l' ∧ GroupInv a s' l' ∧
    (r.status = some .failure → s' = s ∧ l' = l)

theorem GroupInv.addBuffer (hi : GroupInv a s l) {b : Nat} {flags : XrpAccessFlags} {ok : Bool}
    (ho : s.owns (.add b flags ok)) : GroupStep a s l (.add b flags ok) := by
  obtain ⟨href, hb⟩ := ho
  have hpos := hi.count_pos hb
  rcases hi.represents.reserve ok with ⟨g, hg, hrep, hroom⟩ | ⟨hg, hfail⟩
  · have hlen : l.length < g.buffer.length := by rw [hrep.capacity]; exact hroom
    have hstore : store g.buffer l.length ⟨b, flags⟩ = some (g.buffer.set l.length (some ⟨b, flags⟩)) :=
      store_eq_some.2 ⟨hlen, rfl⟩
    have hword : a.sizeT (l.length + 1) = l.length + 1 := by
      refine Abi.sizeT_of_lt ?_
      have hbytes := hrep.bytes
      have hsize : g.capacity ≤ a.sizeofRecord * g.capacity := Nat.le_mul_of_pos_left _ (by cases a <;> decide)
      have hbits : 2 ^ (a.bits - 1) ≤ 2 ^ a.bits := Nat.pow_le_pow_right (by decide) (by omega)
      unfold Abi.allocates at hbytes
      omega
    have he : s.exec a (.add b flags ok) = some (⟨⟨l.length + 1, g.capacity,
      g.buffer.set l.length (some ⟨b, flags⟩)⟩,
        s.ref, Function.update s.count b (s.count b + 1), s.owned⟩, .added .success l.length) := by
      simp only [GroupState.exec, GroupState.addBuffer, hg, xrpRetainBuffer_of_pos hpos,
        Option.bind_some, hstore,
        Option.map_some, hword, hrep.nBuffers]
    refine ⟨_, _, _, he, .add, ⟨⟨by simp, hrep.holds.append _ hlen, by simpa using hrep.capacity, hrep.grown,
      hrep.bytes⟩, fun b' => ?_, fun h => ?_⟩, ?_⟩
    · have := hi.references b'
      rw [slotCount_append]
      by_cases hbb : b' = b
      · subst hbb
        simp only [Function.update_self, if_true]
        omega
      · simp only [Function.update_of_ne hbb, if_neg hbb]
        omega
    · exact absurd h (by show s.ref ≠ 0; omega)
    · intro h
      cases h
  · refine ⟨s, .added .failure a.sizeMax, l, by simp only [GroupState.exec, GroupState.addBuffer, hg], ?_, hi,
      fun _ => ⟨rfl, rfl⟩⟩
    rcases hfail with rfl | h
    · exact .addFails
    · cases ok with
      | false => exact .addFails
      | true => exact .addRefused h

theorem GroupInv.setBuffer (hi : GroupInv a s l) {index b : Nat} {flags : XrpAccessFlags}
    (ho : s.owns (.set index b flags)) : GroupStep a s l (.set index b flags) := by
  obtain ⟨href, hb⟩ := ho
  have hpos := hi.count_pos hb
  have hn := hi.represents.nBuffers
  by_cases hidx : index < l.length
  · obtain ⟨e, he⟩ : ∃ e, l[index]? = some e := ⟨_, List.getElem?_eq_getElem hidx⟩
    have hlen : index < s.group.buffer.length := lt_of_fetch (hi.represents.holds index e he)
    have hold : 0 < Function.update s.count b (s.count b + 1) e.buffer := by
      by_cases hbe : e.buffer = b
      · rw [hbe, Function.update_self]
        omega
      · have h1 := hi.references e.buffer
        have h2 := slotCount_pos he
        rw [Function.update_of_ne hbe]
        omega
    have hstore : store s.group.buffer index ⟨b, flags⟩ = some (s.group.buffer.set index (some ⟨b, flags⟩)) :=
      store_eq_some.2 ⟨hlen, rfl⟩
    have hexec : s.exec a (.set index b flags) = some (⟨⟨l.length, s.group.capacity,
        s.group.buffer.set index (some ⟨b, flags⟩)⟩, s.ref,
        Function.update (Function.update s.count b (s.count b + 1))
        e.buffer (Function.update s.count b (s.count b + 1) e.buffer - 1), s.owned⟩, .set .success) := by
      simp only [GroupState.exec, GroupState.setBuffer, xrpRetainBuffer_of_pos hpos, Option.bind_some, hn,
        if_pos hidx,
        hi.represents.holds index e he, hstore, xrpReleaseBuffer_of_pos hold, Option.map_some]
    refine ⟨_, _, _, hexec, .set hidx, ⟨⟨?_, hi.represents.holds.set _ hidx, ?_,
      hi.represents.grown, hi.represents.bytes⟩, fun b' => ?_, fun h => ?_⟩, ?_⟩
    · simp
    · simpa using hi.represents.capacity
    · -- the new buffer gets a reference before the old one loses its own
      have h1 := hi.references b'
      have h2 := slotCount_set he ⟨b, flags⟩ b'
      have h3 := slotCount_pos he
      simp only at h2 ⊢
      by_cases hbe : b' = e.buffer
      · subst hbe
        rw [Function.update_self]
        by_cases hbb : e.buffer = b
        · subst hbb
          rw [Function.update_self]
          simp only [if_true] at h2
          omega
        · rw [Function.update_of_ne hbb]
          simp only [if_true, if_neg hbb] at h2
          omega
      · rw [Function.update_of_ne hbe]
        by_cases hbb : b' = b
        · subst hbb
          rw [Function.update_self]
          simp only [if_true, if_neg hbe] at h2
          omega
        · rw [Function.update_of_ne hbb]
          simp only [if_neg hbb, if_neg hbe] at h2
          omega
    · exact absurd h (by show s.ref ≠ 0; omega)
    · intro h
      cases h
  · have hself : 0 < Function.update s.count b (s.count b + 1) b := by
      rw [Function.update_self]
      omega
    refine ⟨s, .set .failure, l, ?_, .setFails (by omega), hi, fun _ => ⟨rfl, rfl⟩⟩
    simp only [GroupState.exec, GroupState.setBuffer, xrpRetainBuffer_of_pos hpos, Option.bind_some, hn,
      if_neg hidx,
      xrpReleaseBuffer_of_pos hself, Option.map_some, Function.update_self, Function.update_idem,
      Nat.add_sub_cancel,
      Function.update_eq_self]

theorem GroupInv.getBuffer (hi : GroupInv a s l) (idx : Nat) : GroupStep a s l (.get idx) := by
  have hn := hi.represents.nBuffers
  by_cases hidx : idx < l.length
  · obtain ⟨e, he⟩ : ∃ e, l[idx]? = some e := ⟨_, List.getElem?_eq_getElem hidx⟩
    have hpos : 0 < s.count e.buffer := by
      have h1 := hi.references e.buffer
      have h2 := slotCount_pos he
      omega
    have hexec : s.exec a (.get idx) = some (⟨s.group, s.ref,
      Function.update s.count e.buffer (s.count e.buffer + 1),
        e.buffer ::ₘ s.owned⟩, .got .success (some e.buffer)) := by
      simp only [GroupState.exec, GroupState.getBuffer, hn, if_pos hidx, hi.represents.holds idx e he,
        Option.bind_some, xrpRetainBuffer_of_pos hpos, Option.map_some]
    refine ⟨_, _, l, hexec, .get he, ⟨hi.represents, fun b' => ?_, fun h => ?_⟩, ?_⟩
    · have := hi.references b'
      simp only [Multiset.count_cons]
      by_cases hbe : b' = e.buffer
      · rw [hbe] at this ⊢
        simp only [Function.update_self, if_true]
        omega
      · simp only [Function.update_of_ne hbe, if_neg hbe]
        omega
    · exact hi.freed h
    · intro h
      cases h
  · refine ⟨s, .got .failure none, l, ?_, .getFails (by omega), hi, fun _ => ⟨rfl, rfl⟩⟩
    simp only [GroupState.exec, GroupState.getBuffer, hn, if_neg hidx]

theorem GroupInv.getInfo (hi : GroupInv a s l) (info : GroupInfo) (idx outSz : Nat) :
    GroupStep a s l (.getInfo info idx outSz) := by
  have hn := hi.represents.nBuffers
  have hsame : ∀ r, ListStep a l (.getInfo info idx outSz) r l → s.getInfo a info idx outSz = some (s, r) →
      GroupStep a s l (.getInfo info idx outSz) := fun r hl he => ⟨s, r, l, he, hl, hi, fun _ => ⟨rfl, rfl⟩⟩
  cases info with
  | bufferFlags =>
    by_cases hidx : l.length ≤ idx
    · exact hsame _ (.flagsFails (.inl hidx)) (by simp only [GroupState.getInfo, hn, if_pos hidx])
    · obtain ⟨e, he⟩ : ∃ e, l[idx]? = some e := ⟨_, List.getElem?_eq_getElem (by omega)⟩
      by_cases hsz : sizeofXrpAccessFlags = outSz
      · subst hsz
        exact hsame _ (.flags he) (by
          simp only [GroupState.getInfo, hn, if_neg hidx, if_true, hi.represents.holds idx e he,
            Option.map_some])
      · exact hsame _ (.flagsFails (.inr fun h => hsz h.symm)) (by
          simp only [GroupState.getInfo, hn, if_neg hidx, if_neg hsz])
  | size =>
    by_cases hsz : a.sizeofSizeT = outSz
    · subst hsz
      exact hsame _ .size (by simp only [GroupState.getInfo, if_true, hn])
    · exact hsame _ (.sizeFails fun h => hsz h.symm) (by simp only [GroupState.getInfo, if_neg hsz])
  | other => exact hsame _ .otherInfo rfl

/-- The loop of the last release gives back one reference for each slot. -/
private theorem release_slots {buffer : Block GroupEntry} (hh : Holds buffer l) {count outside : Nat → Nat}
    (hc : ∀ b, count b = outside b + slotCount l b) :
    ∃ count', loop l.length (fun i count =>
      (fetch buffer i).bind fun r => xrpReleaseBuffer count r.buffer) count = some count' ∧
        ∀ b, count' b = outside b := by
  have hstep : ∀ i < l.length, ∀ count : Nat → Nat, (∀ b, count b = outside b + slotCount (l.drop i) b) →
      ∃ count', ((fetch buffer i).bind fun r => xrpReleaseBuffer count r.buffer) = some count' ∧
        ∀ b, count' b = outside b + slotCount (l.drop (i + 1)) b := by
    intro i hi count hc
    have hdrop : l.drop i = l[i] :: l.drop (i + 1) := List.drop_eq_getElem_cons hi
    have hcons : ∀ b, slotCount (l.drop i) b = slotCount (l.drop (i + 1)) b + if l[i].buffer =
      b then 1 else 0 := by
      intro b
      rw [hdrop]
      simp only [slotCount, List.map_cons, List.count_cons, beq_iff_eq]
    have hpos : 0 < count l[i].buffer := by
      rw [hc, hcons, if_pos rfl]
      omega
    rw [hh i l[i] (List.getElem?_eq_getElem hi), Option.bind_some, xrpReleaseBuffer_of_pos hpos]
    refine ⟨_, rfl, fun b => ?_⟩
    have := hc b
    rw [hcons] at this
    by_cases hb : b = l[i].buffer
    · subst hb
      rw [Function.update_self]
      simp only [if_true] at this
      omega
    · rw [Function.update_of_ne hb]
      rw [if_neg fun h => hb h.symm] at this
      omega
  obtain ⟨count', hloop, hend⟩ := loop_invariant
    (fun i (count : Nat → Nat) => ∀ b, count b = outside b + slotCount (l.drop i) b) l.length
    (by simpa using hc) hstep
  refine ⟨count', hloop, fun b => ?_⟩
  rw [hend b, List.drop_length]
  rfl

theorem GroupInv.releaseGroup (hi : GroupInv a s l) (ho : s.owns .releaseGroup) :
    GroupStep a s l .releaseGroup ∧
      (s.ref = 1 → ∃ s', s.exec a .releaseGroup = some (s', .done) ∧ ∀ b, s'.count b = s.owned.count b) := by
  have href : 0 < s.ref := ho
  by_cases h1 : s.ref = 1
  · obtain ⟨count, hloop, hcount⟩ := release_slots hi.represents.holds hi.references
    have he : s.exec a .releaseGroup = some ({ s with group := ⟨0, 0, []⟩, ref := 0, count := count }, .done) :=
      by
      simp only [GroupState.exec, GroupState.releaseGroup, if_pos h1, hi.represents.nBuffers, hloop,
        Option.map_some]
    refine ⟨⟨_, .done, [], he, .freeGroup, ⟨GroupMemory.represents_empty a, fun b => ?_, fun _ => rfl⟩, ?_⟩,
      fun _ => ⟨_, he, hcount⟩⟩
    · exact hcount b
    · intro h
      cases h
  · refine ⟨⟨{ s with ref := s.ref - 1 }, .done, l, ?_, .releaseGroup,
      ⟨hi.represents, hi.references, fun h => ?_⟩, ?_⟩,
      fun h => absurd h h1⟩
    · simp only [GroupState.exec, GroupState.releaseGroup, if_neg h1]
    · exact absurd h (by show s.ref - 1 ≠ 0; omega)
    · intro h
      cases h

theorem GroupInv.retain (hi : GroupInv a s l) {b : Nat} (ho : s.owns (.retain b)) :
    GroupStep a s l (.retain b) := by
  have hpos := hi.count_pos ho
  have he : s.exec a (.retain b) = some (⟨s.group, s.ref, Function.update s.count b (s.count b + 1),
    b ::ₘ s.owned⟩,
      .done) := by
    simp only [GroupState.exec, xrpRetainBuffer_of_pos hpos, Option.map_some]
  refine ⟨_, .done, l, he, .retain, ⟨hi.represents, fun b' => ?_, hi.freed⟩, ?_⟩
  · have := hi.references b'
    simp only [Multiset.count_cons]
    by_cases hb : b' = b
    · rw [hb] at this ⊢
      simp only [Function.update_self, if_true]
      omega
    · simp only [Function.update_of_ne hb, if_neg hb]
      omega
  · intro h
    cases h

theorem GroupInv.release (hi : GroupInv a s l) {b : Nat} (ho : s.owns (.release b)) :
    GroupStep a s l (.release b) := by
  have hpos := hi.count_pos ho
  have hown : 0 < s.owned.count b := Multiset.count_pos.2 ho
  have he : s.exec a (.release b) = some (⟨s.group, s.ref, Function.update s.count b (s.count b - 1),
    s.owned - {b}⟩,
      .done) := by
    simp only [GroupState.exec, xrpReleaseBuffer_of_pos hpos, Option.map_some]
  refine ⟨_, .done, l, he, .release, ⟨hi.represents, fun b' => ?_, hi.freed⟩, ?_⟩
  · have := hi.references b'
    simp only [Multiset.count_sub, Multiset.count_singleton]
    by_cases hb : b' = b
    · rw [hb] at this ⊢
      simp only [Function.update_self, if_true]
      omega
    · simp only [Function.update_of_ne hb, if_neg hb]
      omega
  · intro h
    cases h

theorem GroupInv.call (hi : GroupInv a s l) {c : GroupCall} (ho : s.owns c) : GroupStep a s l c := by
  cases c with
  | add b flags ok => exact hi.addBuffer ho
  | set index b flags => exact hi.setBuffer ho
  | get idx => exact hi.getBuffer idx
  | getInfo info idx outSz => exact hi.getInfo info idx outSz
  | retainGroup =>
    refine ⟨{ s with ref := s.ref + 1 }, .done, l, rfl, .retainGroup,
      ⟨hi.represents, hi.references, fun h => ?_⟩,
      fun h => ?_⟩
    · exact absurd h (Nat.succ_ne_zero _)
    · cases h
  | releaseGroup => exact (hi.releaseGroup ho).1
  | retain b => exact hi.retain ho
  | release b => exact hi.release ho

/-! ### The runs -/

/-- The runs of the calls, with the calls that were made and their results. -/
def groupRuns (a : Abi) : System (GroupState × List (GroupCall × GroupResult)) (GroupCall × GroupResult) :=
  (groupCalls a).record [] fun _ l calls => calls ++ [l]

theorem GroupInv.start (a : Abi) (owned : Multiset Nat) : GroupInv a (.start owned) [] :=
  ⟨GroupMemory.represents_empty a, fun b => by simp [GroupState.start, slotCount], fun _ => rfl⟩

theorem groupInv_of_reach {p : GroupState × List (GroupCall × GroupResult)}
    (h : Reach (groupRuns a) anyStep p) :
    ∃ l, ListRun a p.2 l ∧ GroupInv a p.1 l := by
  refine h.invariant (P := fun p => ∃ l, ListRun a p.2 l ∧ GroupInv a p.1 l) ?_ ?_
  · rintro ⟨s, calls⟩ ⟨⟨owned, rfl⟩, rfl⟩
    exact ⟨[], .start, .start a owned⟩
  · rintro ⟨s, calls⟩ ⟨c, r⟩ ⟨s', calls'⟩ ⟨l, hrun, hi⟩ - hs
    obtain ⟨hs, rfl⟩ := System.record_step hs
    simp only [groupCalls] at hs
    split at hs
    · rename_i ho
      obtain ⟨s₁, r₁, l', he, hl, hi', -⟩ := hi.call ho
      rw [he, Option.bind_some] at hs
      split at hs
      · rename_i hr
        cases hs
        exact ⟨l', .step hrun (hr ▸ hl), hi'⟩
      · cases hs
    · cases hs

/-- What a reachable state of a group is to the list `l`. -/
structure RefinesList (a : Abi) (s : GroupState) (l : List GroupEntry) : Prop where
  /-- The first `n_buffers` cells of the array are the list, and the array has `capacity` cells. -/
  array : s.group.nBuffers = l.length ∧ (∀ i e, l[i]? = some e → fetch s.group.buffer i = some e) ∧
    s.group.nBuffers ≤ s.group.capacity ∧ s.group.buffer.length = s.group.capacity
  /-- A call on references that the clients own ends, and does to the list what it should; no access is outside
  the array or to a freed object. -/
  call : ∀ c, s.owns c → ∃ s' r l', s.exec a c = some (s', r) ∧ ListStep a l c r l' ∧
    s'.group.nBuffers = l'.length ∧ (∀ i e, l'[i]? = some e → fetch s'.group.buffer i = some e) ∧
    (r.status = some .failure → s' = s ∧ l' = l)
  /-- The references of the group. -/
  references : ∀ b, s.count b = s.owned.count b + slotCount l b
  /-- After the last release only those of the clients are left. -/
  lastRelease : s.ref = 1 → ∃ s', s.exec a .releaseGroup = some (s', .done) ∧ ∀ b, s'.count b = s.owned.count b

/-- In every run the calls return what they return for a list, and the group is that list. -/
theorem bufferGroup_refines_list {p : GroupState × List (GroupCall × GroupResult)}
    (h : Reach (groupRuns a) anyStep p) : ∃ l, ListRun a p.2 l ∧ RefinesList a p.1 l := by
  obtain ⟨l, hrun, hi⟩ := groupInv_of_reach h
  have hle := hi.represents.le
  refine ⟨l, hrun, ⟨hi.represents.nBuffers, hi.represents.holds, ?_, hi.represents.capacity⟩, fun c ho => ?_,
    hi.references, fun h1 => ?_⟩
  · rw [hi.represents.nBuffers]
    exact hle
  · obtain ⟨s', r, l', he, hl, hi', hfail⟩ := hi.call ho
    exact ⟨s', r, l', he, hl, hi'.represents.nBuffers, hi'.represents.holds, hfail⟩
  · exact (hi.releaseGroup (show 0 < p.1.ref by omega)).2 h1

/-- A buffer in two slots, replaced by itself in one. -/
theorem bufferGroup_refines_list_twoSlots :
    ∃ p, Reach (groupRuns .lp64) anyStep p ∧ p.1.group.nBuffers = 2 ∧ p.1.count 7 = 3 ∧
      ∃ l, ListRun .lp64 p.2 l ∧ RefinesList .lp64 p.1 l := by
  obtain ⟨p, -, hp, hb⟩ := Reach.exists_exec (groupRuns .lp64) anyStep (.start {7}, [])
    [(.add 7 .read true, .added .success 0), (.add 7 .write true, .added .success 1),
      (.set 0 7 .readWrite, .set .success), (.set 5 7 .read, .set .failure)]
    (fun p => p.1.group.nBuffers = 2 ∧ p.1.count 7 = 3) ⟨⟨_, rfl⟩, rfl⟩ (by decide)
  simp only [decide_eq_true_eq] at hb
  exact ⟨p, hp, hb.1, hb.2, bufferGroup_refines_list hp⟩

end Vdsp
