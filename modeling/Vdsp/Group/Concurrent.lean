import Vdsp.Group.Refine
import Vdsp.Lib.Atomic

/-!
# A buffer group that threads share (`xrp_host_common.c`)

The functions between `xrp_mutex_lock(&group->mutex)` and its unlock, one access of `struct xrp_buffer_group` at
a time: reads of a field, stores to a field or to a cell of the array, `realloc`.  An access outside the array,
or one to an entry that is not whole, ends the call with `none`.  The reference counts are atomic and no part of
the group.

Any number of threads call them in any interleaving: the calls take effect one after the other on a list, each
between its begin and its return, and no access is outside the array (`group_linearizable`).
-/

namespace Vdsp

open Memory Lts Monitor

abbrev GroupCode := Code GroupMemory Bool (Option GroupResult)

namespace GroupCode

/-- The unlock and the return. -/
def leave (r : GroupResult) : GroupCode := .unlock (.ret (some r))

/-- A store to a field of the entry `i`, after which the cell is `e`. -/
def storeField (i : Nat) (e : Option GroupEntry) (k : GroupCode) : GroupCode :=
  .read fun g =>
    if i < g.buffer.length then .write (fun g => { g with buffer := g.buffer.set i e }) k else .unlock (.ret none)

/-- The entry `group->buffer[i]`. -/
def fetchEntry (i : Nat) (k : GroupEntry → GroupCode) : GroupCode :=
  .read fun g =>
    match fetch g.buffer i with
    | some e => k e
    | none => .unlock (.ret none)

/-- The second part of `xrp_add_buffer_to_group`.  Between the stores to its two fields the entry is not whole. -/
def append (a : Abi) (b : Nat) (flags : XrpAccessFlags) : GroupCode :=
  .read fun g => storeField g.nBuffers none <|
  .read fun g => storeField g.nBuffers (some ⟨b, flags⟩) <|
  .read fun g => .write (fun g => { g with nBuffers := a.sizeT (g.nBuffers + 1) }) <|
  leave (.added .success g.nBuffers)

/-- `xrp_add_buffer_to_group`. -/
def addBuffer (a : Abi) (b : Nat) (flags : XrpAccessFlags) : GroupCode :=
  .lock <| .read fun g =>
    if g.nBuffers = g.capacity then
      .read fun g => .ask fun ok =>
        match reallocRecords a g.buffer (a.sizeT (a.sizeofRecord * a.sizeT (a.sizeT (g.capacity + 2) * 2))) ok with
        | none => leave (.added .failure a.sizeMax)
        | some r =>
          -- `realloc` has freed the array, to which `group->buffer` still points
          .write (fun g => { g with buffer := [] }) <|
          .write (fun g => { g with buffer := r }) <|
          .write (fun g => { g with capacity := a.sizeT (a.sizeT (g.capacity + 2) * 2) }) <|
          append a b flags
    else append a b flags

/-- `xrp_set_buffer_in_group`. -/
def setBuffer (index b : Nat) (flags : XrpAccessFlags) : GroupCode :=
  .lock <| .read fun g =>
    if index < g.nBuffers then
      fetchEntry index fun _ =>
        storeField index none <| storeField index (some ⟨b, flags⟩) <| leave (.set .success)
    else leave (.set .failure)

/-- `xrp_get_buffer_from_group`. -/
def getBuffer (idx : Nat) : GroupCode :=
  .lock <| .read fun g =>
    if idx < g.nBuffers then fetchEntry idx fun e => leave (.got .success (some e.buffer))
    else leave (.got .failure none)

/-- `xrp_buffer_group_get_info`. -/
def getInfo (a : Abi) (info : GroupInfo) (idx outSz : Nat) : GroupCode :=
  .lock <|
    match info with
    | .bufferFlags =>
      .read fun g =>
        if g.nBuffers ≤ idx then leave (.info .failure none)
        else if sizeofXrpAccessFlags = outSz then
          fetchEntry idx fun e => leave (.info .success (some (.flags e.accessFlags)))
        else leave (.info .failure none)
    | .size =>
      if a.sizeofSizeT = outSz then .read fun g => leave (.info .success (some (.size g.nBuffers)))
      else leave (.info .failure none)
    | .other => leave (.info .failure none)

end GroupCode

/-- The calls that take the mutex of the group. -/
inductive GroupAccess
  | add (b : Nat) (flags : XrpAccessFlags)
  | set (index b : Nat) (flags : XrpAccessFlags)
  | get (idx : Nat)
  | getInfo (info : GroupInfo) (idx outSz : Nat)
  deriving DecidableEq, Repr

def GroupAccess.code (a : Abi) : GroupAccess → GroupCode
  | add b flags => GroupCode.addBuffer a b flags
  | set index b flags => GroupCode.setBuffer index b flags
  | get idx => GroupCode.getBuffer idx
  | getInfo info idx outSz => GroupCode.getInfo a info idx outSz

/-- The call of the list machine; `ok` says whether the allocation succeeds. -/
def GroupAccess.call (ok : Bool) : GroupAccess → GroupCall
  | add b flags => .add b flags ok
  | set index b flags => .set index b flags
  | get idx => .get idx
  | getInfo info idx outSz => .getInfo info idx outSz

/-- What a call does to a list.  It has a result, so it has accessed nothing outside the array. -/
def GroupAccess.Step (a : Abi) (l : List GroupEntry) (c : GroupAccess) (r : Option GroupResult)
    (l' : List GroupEntry) : Prop :=
  ∃ ok r', r = some r' ∧ ListStep a l (c.call ok) r' l'

/-- The state of a new group. -/
def GroupMemory.empty : GroupMemory := ⟨0, 0, []⟩

/-- The calls of any number of threads, and their past. -/
def groupHistories (a : Abi) :
    System (State GroupMemory Bool (Option GroupResult) × Past GroupAccess (Option GroupResult))
      (Event GroupAccess Bool) :=
  histories (GroupAccess.code a) .empty

/-! ### The sections, alone -/

section

variable {a : Abi} {g : GroupMemory} {l m : List GroupEntry} {c : GroupAccess} {r : GroupResult}
  {Q : Option GroupResult → GroupMemory → Prop} {i : Nat}

theorem alone_leave (ok : Bool) (hs : ListStep a l (c.call ok) r m) (hr : g.Represents a m) :
    Alone (Does (GroupMemory.Represents a) (GroupAccess.Step a) l c) (GroupCode.leave r) g :=
  .leave ⟨m, ⟨ok, r, rfl, hs⟩, hr⟩

theorem alone_storeField {e : Option GroupEntry} {k : GroupCode} (hi : i < g.buffer.length)
    (hk : Alone Q k { g with buffer := g.buffer.set i e }) : Alone Q (GroupCode.storeField i e k) g := by
  refine .read ?_
  rw [if_pos hi]
  exact .write hk

theorem alone_fetchEntry {e : GroupEntry} {k : GroupEntry → GroupCode} (he : fetch g.buffer i = some e)
    (hk : Alone Q (k e) g) : Alone Q (GroupCode.fetchEntry i k) g := by
  refine .read ?_
  rw [he]
  exact hk

/-- `n_buffers + 1` does not wrap around while there is room. -/
theorem GroupMemory.Represents.succ (h : g.Represents a l) (hroom : l.length < g.capacity) :
    a.sizeT (l.length + 1) = l.length + 1 := by
  apply Abi.sizeT_of_lt
  have hbytes := h.bytes
  have hsize : g.capacity ≤ a.sizeofRecord * g.capacity := Nat.le_mul_of_pos_left _ (by cases a <;> decide)
  have hbits : 2 ^ (a.bits - 1) ≤ 2 ^ a.bits := Nat.pow_le_pow_right (by decide) (by omega)
  unfold Abi.allocates at hbytes
  omega

theorem alone_append (h : g.Represents a l) (hroom : l.length < g.capacity) {b : Nat} {flags : XrpAccessFlags}
    (ok : Bool) : Alone (Does (GroupMemory.Represents a) (GroupAccess.Step a) l (.add b flags))
      (GroupCode.append a b flags) g := by
  have hn := h.nBuffers
  have hlen : g.nBuffers < g.buffer.length := by
    rw [h.capacity, hn]
    exact hroom
  refine .read (alone_storeField hlen (.read (alone_storeField ?_ (.read (.write ?_)))))
  · simpa using hlen
  · simp only [List.set_set]
    refine alone_leave (m := l ++ [⟨b, flags⟩]) ok (hn ▸ .add) ⟨?_, ?_, ?_, h.grown, h.bytes⟩
    · simp only [hn, h.succ hroom, List.length_append, List.length_singleton]
    · rw [hn]
      exact h.holds.append _ (hn ▸ hlen)
    · simpa using h.capacity

theorem alone_addBuffer (h : g.Represents a l) (b : Nat) (flags : XrpAccessFlags) :
    ∃ k, GroupCode.addBuffer a b flags = .lock k ∧
      Alone (Does (GroupMemory.Represents a) (GroupAccess.Step a) l (.add b flags)) k g := by
  refine ⟨_, rfl, .read ?_⟩
  by_cases hfull : g.nBuffers = g.capacity
  · rw [if_pos hfull]
    refine .read (.ask fun ok => ?_)
    have hres := h.reserve ok
    unfold GroupMemory.reserve at hres
    simp only [if_pos hfull] at hres
    split
    · rename_i hnone
      rw [hnone] at hres
      rcases hres with ⟨g', hg', -⟩ | ⟨-, hfail⟩
      · cases hg'
      · refine alone_leave ok ?_ h
        rcases hfail with rfl | hrefused
        · exact .addFails
        · cases ok with
          | false => exact .addFails
          | true => exact .addRefused hrefused
    · rename_i r hsome
      rw [hsome] at hres
      rcases hres with ⟨g', hg', hrep, hroom⟩ | ⟨hg', -⟩
      · cases hg'
        exact .write (.write (.write (alone_append hrep hroom ok)))
      · cases hg'
  · rw [if_neg hfull]
    have hle := h.le
    have hn := h.nBuffers
    exact alone_append h (by omega) true

theorem alone_setBuffer (h : g.Represents a l) (index b : Nat) (flags : XrpAccessFlags) :
    ∃ k, GroupCode.setBuffer index b flags = .lock k ∧
      Alone (Does (GroupMemory.Represents a) (GroupAccess.Step a) l (.set index b flags)) k g := by
  refine ⟨_, rfl, .read ?_⟩
  have hn := h.nBuffers
  by_cases hi : index < g.nBuffers
  · rw [if_pos hi]
    have hil : index < l.length := hn ▸ hi
    have he := h.holds index _ (List.getElem?_eq_getElem hil)
    have hlen := lt_of_fetch he
    refine alone_fetchEntry he (alone_storeField hlen (alone_storeField ?_ ?_))
    · simpa using hlen
    · simp only [List.set_set]
      refine alone_leave (m := l.set index ⟨b, flags⟩) true (.set hil) ⟨?_, ?_, ?_, h.grown, h.bytes⟩
      · simpa using hn
      · exact h.holds.set _ hil
      · simpa using h.capacity
  · rw [if_neg hi]
    exact alone_leave true (.setFails (by omega)) h

theorem alone_getBuffer (h : g.Represents a l) (idx : Nat) :
    ∃ k, GroupCode.getBuffer idx = .lock k ∧
      Alone (Does (GroupMemory.Represents a) (GroupAccess.Step a) l (.get idx)) k g := by
  refine ⟨_, rfl, .read ?_⟩
  have hn := h.nBuffers
  by_cases hi : idx < g.nBuffers
  · rw [if_pos hi]
    have he := List.getElem?_eq_getElem (l := l) (hn ▸ hi)
    exact alone_fetchEntry (h.holds idx _ he) (alone_leave true (.get he) h)
  · rw [if_neg hi]
    exact alone_leave true (.getFails (by omega)) h

theorem alone_getInfo (h : g.Represents a l) (info : GroupInfo) (idx outSz : Nat) :
    ∃ k, GroupCode.getInfo a info idx outSz = .lock k ∧
      Alone (Does (GroupMemory.Represents a) (GroupAccess.Step a) l (.getInfo info idx outSz)) k g := by
  refine ⟨_, rfl, ?_⟩
  have hn := h.nBuffers
  cases info with
  | bufferFlags =>
    refine .read ?_
    by_cases hi : g.nBuffers ≤ idx
    · rw [if_pos hi]
      exact alone_leave true (.flagsFails (.inl (hn ▸ hi))) h
    · rw [if_neg hi]
      by_cases hsz : sizeofXrpAccessFlags = outSz
      · subst hsz
        rw [if_pos rfl]
        have he := List.getElem?_eq_getElem (l := l) (i := idx) (by omega)
        exact alone_fetchEntry (h.holds idx _ he) (alone_leave true (.flags he) h)
      · rw [if_neg hsz]
        exact alone_leave true (.flagsFails (.inr (Ne.symm hsz))) h
  | size =>
    by_cases hsz : a.sizeofSizeT = outSz
    · subst hsz
      simp only [if_true]
      exact .read (alone_leave true (hn ▸ .size) h)
    · simp only [if_neg hsz]
      exact alone_leave true (.sizeFails (Ne.symm hsz)) h
  | other => exact alone_leave true .otherInfo h

end

theorem alone_code {a : Abi} (c : GroupAccess) :
    ∃ k, c.code a = .lock k ∧ ∀ g l, g.Represents a l →
      Alone (Does (GroupMemory.Represents a) (GroupAccess.Step a) l c) k g := by
  have hcall : ∀ g l, g.Represents a l → ∃ k, c.code a = .lock k ∧
      Alone (Does (GroupMemory.Represents a) (GroupAccess.Step a) l c) k g := by
    intro g l h
    cases c with
    | add b flags => exact alone_addBuffer h b flags
    | set index b flags => exact alone_setBuffer h index b flags
    | get idx => exact alone_getBuffer h idx
    | getInfo info idx outSz => exact alone_getInfo h info idx outSz
  obtain ⟨k, hk, -⟩ := hcall _ _ (GroupMemory.represents_empty a)
  refine ⟨k, hk, fun g l h => ?_⟩
  obtain ⟨k', hk', halone⟩ := hcall g l h
  rw [hk] at hk'
  cases hk'
  exact halone

/-- The calls of any number of threads on one group are linearizable: in the order of their unlocks they are a
run on a list, which the array holds whenever the mutex is free. -/
theorem group_linearizable {a : Abi}
    {q : State GroupMemory Bool (Option GroupResult) × Past GroupAccess (Option GroupResult)}
    (h : Reach (groupHistories a) anyStep q) :
    Linearized (GroupMemory.Represents a) (GroupAccess.Step a) [] q.1 q.2 :=
  linearized_of_reach (GroupMemory.represents_empty a) alone_code h

/-- Two threads add a buffer each; the second call begins first and waits for the first. -/
def twoAdds : List (Event GroupAccess Bool) :=
  [.enter 1 (.add 8 .write), .enter 0 (.add 7 .read)] ++ List.replicate 17 (.run 0 true) ++
    List.replicate 11 (.run 1 true)

theorem group_linearizable_twoAdds :
    ∃ q, (groupHistories .lp64).exec anyStep (Monitor.start .empty, .start) twoAdds = some q ∧
      q.2.effects = [(.add 7 .read, some (.added .success 0)), (.add 8 .write, some (.added .success 1))] ∧
      Linearized (GroupMemory.Represents .lp64) (GroupAccess.Step .lp64) [] q.1 q.2 := by
  obtain ⟨q, hq, hr, hp⟩ := Reach.exists_exec (groupHistories .lp64) anyStep (Monitor.start .empty, .start) twoAdds
    (fun q => q.2.effects = [(.add 7 .read, some (.added .success 0)), (.add 8 .write, some (.added .success 1))])
    ⟨rfl, rfl⟩ (by decide)
  exact ⟨q, hq, of_decide_eq_true hp, group_linearizable hr⟩

end Vdsp
