import Vdsp.Server.Threads
import Mathlib.Algebra.Group.Nat.Defs
import Mathlib.Data.Finset.Filter

/-!
# Live handles and their fds

Two live handles of the current generation own two different bits of `g_fdtable`, in every run whose steps meet
`keepsFds`.  The code itself does not guarantee it: at `__openerror` an open frees its fd after the lock was
dropped, when the fd may belong to another handle; an open that finished its connect before a death or a
disconnect fills a handle of a session that the next connect throws away; and a refused close has already
decremented `gOpenedCount`, so a later close ends the session under other handles.

`FdInv` is the invariant: the fds of the current handles are allocated and different, `gOpenedCount` is their
number while the client is connected, and there are none while it is not.
-/

namespace Vdsp

open Bitmap Lts

/-- What a live handle of the current generation is due: its bit is set, and no other such handle has its fd. -/
def FdsDistinct (s : ServerClient) : Prop :=
  ∀ h ∈ s.live, h.generation = s.g.gGeneration →
    checkFdValid s.g.gFdtable h.fd = 0 ∧
      ∀ h' ∈ s.live, h'.generation = s.g.gGeneration → h'.fd = h.fd → h' = h

/-- The condition on the block that `call` is about to run: an open is granted only while the client is
connected, a late `Free_Fd` does not hit the fd of a current handle, and a close that passes the checks is of a
live handle and is not refused afterwards. -/
def keepsFdsAt (s : ServerClient) (ret : Int) : Call → Prop
  | .opening type _ => s.g.grants type ret → s.g.gInitFlag = true
  | .openError fd => 0 < fd → ∀ h ∈ s.current, h.fd ≠ fd
  | .closing h _ => s.g.accepts h.vdsp → h ∈ s.live ∧ ¬ s.g.refuses h.vdsp ret
  | _ => True

instance (s : ServerClient) (ret : Int) : ∀ c, Decidable (keepsFdsAt s ret c)
  | .opening type _ => inferInstanceAs (Decidable (s.g.grants type ret → s.g.gInitFlag = true))
  | .openError fd => inferInstanceAs (Decidable (0 < fd → ∀ h ∈ s.current, h.fd ≠ fd))
  | .closing h _ => inferInstanceAs (Decidable (s.g.accepts h.vdsp → h ∈ s.live ∧ ¬ s.g.refuses h.vdsp ret))
  | .idle | .calling .. | .inFlight .. => inferInstanceAs (Decidable True)

/-- The condition of `keepsFdsAt` on every block that uses the table, and a generation that does not wrap
around. -/
def keepsFds (s : ServerClient) : Event → Prop
  | .openLocked t ret | .closeLocked t ret => keepsFdsAt s ret (s.thread t)
  | .openError t => keepsFdsAt s 0 (s.thread t)
  | .serviceDied => s.g.gGeneration.toNat + 1 < 2 ^ 32
  | _ => True

instance (s : ServerClient) : ∀ e, Decidable (keepsFds s e)
  | .openLocked t ret | .closeLocked t ret => inferInstanceAs (Decidable (keepsFdsAt s ret (s.thread t)))
  | .openError t => inferInstanceAs (Decidable (keepsFdsAt s 0 (s.thread t)))
  | .serviceDied => inferInstanceAs (Decidable (s.g.gGeneration.toNat + 1 < 2 ^ 32))
  | .callOpen .. | .callClose .. | .callUse .. | .useLocked .. | .rpcDone .. => inferInstanceAs (Decidable True)

theorem mem_current {s : ServerClient} {h : Handle} :
    h ∈ s.current ↔ h ∈ s.live ∧ h.generation = s.g.gGeneration := by
  simp [ServerClient.current]

structure FdInv (s : ServerClient) : Prop where
  generation_le : ∀ h ∈ s.live, h.generation.toNat ≤ s.g.gGeneration.toNat
  fresh : ∀ h ∈ s.live, h.id < s.nextId
  fd : ∀ h ∈ s.current, 0 ≤ h.fd ∧ h.fd.toNat ∈ bits s.g.gFdtable
  inj : ∀ h ∈ s.current, ∀ h' ∈ s.current, h'.fd = h.fd → h' = h
  count : s.g.gInitFlag = true → s.g.gOpenedCount = s.current.card
  disconnected : s.g.gInitFlag = false → s.current = ∅

theorem FdInv.distinct {s : ServerClient} (hi : FdInv s) : FdsDistinct s := by
  intro h hl hg
  have hc := mem_current.2 ⟨hl, hg⟩
  refine ⟨checkFdValid_eq_zero.2 (hi.fd h hc), fun h' hl' hg' => ?_⟩
  exact hi.inj h hc h' (mem_current.2 ⟨hl', hg'⟩)

theorem FdInv.start : FdInv .start := by
  have hc : ServerClient.current .start = ∅ := Finset.filter_empty _
  refine ⟨?_, ?_, ?_, ?_, ?_, fun _ => hc⟩
  · simp [ServerClient.start]
  · simp [ServerClient.start]
  · simp [hc]
  · simp [hc]
  · simp [ServerClient.start, Globals.start]

/-- Steps that leave the session alone keep the invariant. -/
theorem FdInv.quiet {s s' : ServerClient} (hi : FdInv s) (hq : Quiet s s') : FdInv s' := by
  have hc := hq.current
  obtain ⟨⟨w, f, hg⟩, -, hl, hn, -, -, -⟩ := hq
  refine ⟨?_, ?_, ?_, ?_, ?_, ?_⟩
  · rw [hl, hg]
    exact hi.generation_le
  · rw [hl, hn]
    exact hi.fresh
  · rw [hc, hg]
    exact hi.fd
  · rw [hc]
    exact hi.inj
  · rw [hc, hg]
    exact hi.count
  · rw [hc, hg]
    exact hi.disconnected

/-- A connect finds no current handle, so it may clear the table. -/
theorem FdInv.connect {s : ServerClient} (hi : FdInv s) (answer : Option Service) : FdInv (s.connect answer) := by
  rcases s.connect_cases answer with h | ⟨hinit, binder, -, hg, -, -⟩
  · rw [h]
    exact hi
  · have hc : (s.connect answer).current = ∅ := by
      rw [← hi.disconnected hinit]
      unfold ServerClient.current
      rw [hg]
      rfl
    refine ⟨?_, hi.fresh, ?_, ?_, ?_, ?_⟩
    · rw [hg]
      exact hi.generation_le
    · rw [hc]
      simp
    · rw [hc]
      simp
    · rw [hc, hg]
      simp
    · rw [hg]
      simp

/-- The handle that a granted open fills is new, and so is its fd. -/
theorem FdInv.opened {s : ServerClient} (hi : FdInv s) {h : Handle} (hid : h.id = s.nextId)
    (hn : h.fd.toNat ∉ bits s.g.gFdtable) : h ∉ s.current ∧ ∀ h' ∈ s.current, h'.fd ≠ h.fd := by
  refine ⟨fun hc => ?_, fun h' hc' he => ?_⟩
  · have := hi.fresh h (mem_current.1 hc).1
    omega
  · exact hn (he ▸ (hi.fd h' hc').2)

theorem current_insert {s u : ServerClient} {h : Handle} (hl : u.live = insert h s.live)
    (hg : u.g.gGeneration = s.g.gGeneration) (hh : h.generation = s.g.gGeneration) :
    u.current = insert h s.current := by
  unfold ServerClient.current
  rw [hl, hg, Finset.filter_insert, if_pos hh]

theorem current_erase {s u : ServerClient} {h : Handle} (hl : u.live = s.live.erase h)
    (hg : u.g.gGeneration = s.g.gGeneration) : u.current = s.current.erase h := by
  ext x
  simp only [mem_current, hl, hg, Finset.mem_erase]
  tauto

theorem FdInv.openLocked {s s' : ServerClient} (hi : FdInv s) {t : Nat} {type : SprdVdspWorktype} {ret : Int}
    {r : Reply} (hok : s.g.grants type ret → s.g.gInitFlag = true) (hs : (s', r) = s.openLocked t type ret) :
    FdInv s' := by
  rcases s.openLocked_cases t type ret with
    ⟨hgr, h, table, hid, hgen, -, -, hfd, hn, hb, he⟩ | ⟨-, table, fd, rpcs, he, hsub, -, -⟩
  · rw [he] at hs
    obtain ⟨rfl, -⟩ := Prod.mk.injEq .. ▸ hs
    obtain ⟨hnew, hfds⟩ := hi.opened hid hn
    have hinit := hok hgr
    have hc := current_insert (s := s) (h := h) (u := { s.goto t .idle with
      g := { s.g with gFdtable := table, gOpenedCount := s.g.gOpenedCount + 1, gWorkType := type }
      opened := insert h s.opened
      live := insert h s.live
      nextId := s.nextId + 1
      deviceOpen := if s.g.gOpenedCount = 0 then true else s.deviceOpen }) rfl rfl hgen
    refine ⟨?_, ?_, ?_, ?_, ?_, ?_⟩
    · intro x hx
      rcases Finset.mem_insert.1 hx with rfl | hx
      · exact le_of_eq (congrArg _ hgen)
      · exact hi.generation_le x hx
    · intro x hx
      rcases Finset.mem_insert.1 hx with rfl | hx
      · exact hid ▸ Nat.lt_succ_self _
      · exact Nat.lt_succ_of_lt (hi.fresh x hx)
    · rw [hc]
      intro x hx
      rw [hb, Finset.mem_insert]
      rcases Finset.mem_insert.1 hx with rfl | hx
      · exact ⟨hfd, .inl rfl⟩
      · exact ⟨(hi.fd x hx).1, .inr (hi.fd x hx).2⟩
    · rw [hc]
      intro x hx y hy hxy
      rcases Finset.mem_insert.1 hx with hx | hx <;> rcases Finset.mem_insert.1 hy with hy | hy
      · rw [hx, hy]
      · exact absurd (hx ▸ hxy) (hfds y hy)
      · exact absurd (hy ▸ hxy).symm (hfds x hx)
      · exact hi.inj x hx y hy hxy
    · intro _
      rw [hc, Finset.card_insert_of_notMem hnew]
      have := hi.count hinit
      show s.g.gOpenedCount + 1 = _
      omega
    · intro h0
      exact absurd hinit (by rw [show s.g.gInitFlag = false from h0]; decide)
  · rw [he] at hs
    obtain ⟨rfl, -⟩ := Prod.mk.injEq .. ▸ hs
    exact ⟨hi.generation_le, hi.fresh, fun h hh => ⟨(hi.fd h hh).1, hsub (hi.fd h hh).2⟩, hi.inj, hi.count,
      hi.disconnected⟩

/-- A late `Free_Fd` that hits no current handle. -/
theorem FdInv.openError {s : ServerClient} (hi : FdInv s) (t : Nat) {fd : Int}
    (hok : 0 < fd → ∀ h ∈ s.current, h.fd ≠ fd) :
    FdInv { s.goto t .idle with g := openDeviceError s.g fd } := by
  unfold openDeviceError
  split
  · rename_i hpos
    refine ⟨hi.generation_le, hi.fresh, fun h hh => ⟨(hi.fd h hh).1, ?_⟩, hi.inj, hi.count, hi.disconnected⟩
    have hne := hok hpos h hh
    have h0 := (hi.fd h hh).1
    rw [bits_freeFd, if_pos (by omega), Finset.mem_erase]
    exact ⟨by omega, (hi.fd h hh).2⟩
  · exact ⟨hi.generation_le, hi.fresh, hi.fd, hi.inj, hi.count, hi.disconnected⟩

/-- The other current handles keep their fds when one of them is freed. -/
private theorem FdInv.fd_erase {s : ServerClient} (hi : FdInv s) {h : Handle} (hh : h ∈ s.current) :
    ∀ x ∈ s.current.erase h, 0 ≤ x.fd ∧ x.fd.toNat ∈ bits (freeFd s.g.gFdtable h.fd).2 := by
  intro x hx
  obtain ⟨hne, hx⟩ := Finset.mem_erase.1 hx
  have hfd := hi.fd x hx
  have hfd' := hi.fd h hh
  have hxh : x.fd ≠ h.fd := fun he => hne (hi.inj h hh x hx he)
  refine ⟨hfd.1, ?_⟩
  rw [bits_freeFd, if_pos hfd'.1, Finset.mem_erase]
  exact ⟨by omega, hfd.2⟩

/-- A current handle is closed only while the client is connected. -/
theorem FdInv.connected {s : ServerClient} (hi : FdInv s) {h : Handle} (hh : h ∈ s.current) :
    s.g.gInitFlag = true := by
  by_contra hn
  have := hi.disconnected (by simpa using hn)
  rw [this] at hh
  cases hh

theorem FdInv.closeLocked {s s' : ServerClient} (hi : FdInv s) {t : Nat} {h : Handle} {ret : Int} {r : Reply}
    (hok : s.g.accepts h.vdsp → h ∈ s.live ∧ ¬ s.g.refuses h.vdsp ret) (hs : (s', r) = s.closeLocked t h ret) :
    FdInv s' := by
  rcases s.closeLocked_cases t h ret with ⟨hg, he⟩ | ⟨-, -, he⟩ | ⟨ha, hr, -⟩ | ⟨ha, -, h1, he⟩ | ⟨ha, -, h1, he⟩
  · rw [he] at hs
    obtain ⟨rfl, -⟩ := Prod.mk.injEq .. ▸ hs
    -- the handle is of an older generation: the current handles stay
    have hc := current_erase (s := s) (h := h) (u := { s.goto t .idle with live := s.live.erase h }) rfl rfl
    rw [Finset.erase_eq_of_notMem fun hh => hg (mem_current.1 hh).2] at hc
    refine ⟨fun x hx => hi.generation_le x (Finset.mem_of_mem_erase hx),
      fun x hx => hi.fresh x (Finset.mem_of_mem_erase hx), ?_, ?_, ?_, ?_⟩ <;> rw [hc]
    · exact hi.fd
    · exact hi.inj
    · exact hi.count
    · exact hi.disconnected
  · rw [he] at hs
    obtain ⟨rfl, -⟩ := Prod.mk.injEq .. ▸ hs
    exact hi.quiet (Quiet.goto ..)
  · exact absurd hr (hok ha).2
  · rw [he] at hs
    obtain ⟨rfl, -⟩ := Prod.mk.injEq .. ▸ hs
    have hh : h ∈ s.current := mem_current.2 ⟨(hok ha).1, (Globals.accepts_iff.1 ha).1⟩
    have hinit := hi.connected hh
    -- the last current handle: none is left when the client disconnects
    have hput : putVdspService { s.g with gOpenedCount := 0, gFdtable := (freeFd s.g.gFdtable h.fd).2 } =
        { s.g with
          gOpenedCount := 0
          gFdtable := (freeFd s.g.gFdtable h.fd).2
          gVdspService := none
          gInitFlag := false } := by
      simp [putVdspService, hinit]
    have hempty : s.current.erase h = ∅ := by
      have := hi.count hinit
      rw [← Finset.card_eq_zero, Finset.card_erase_of_mem hh]
      omega
    rw [hput]
    have hc := current_erase (s := s) (h := h) (u := { s.goto t .idle with
      g := { s.g with
        gOpenedCount := 0
        gFdtable := (freeFd s.g.gFdtable h.fd).2
        gVdspService := none
        gInitFlag := false
        gWorkType := .maxtype }
      live := s.live.erase h
      deviceOpen := false }) rfl rfl
    rw [hempty] at hc
    refine ⟨fun x hx => hi.generation_le x (Finset.mem_of_mem_erase hx),
      fun x hx => hi.fresh x (Finset.mem_of_mem_erase hx), ?_, ?_, ?_, ?_⟩ <;> rw [hc]
    · simp
    · simp
    · intro h0
      cases h0
    · intro _
      rfl
  · rw [he] at hs
    obtain ⟨rfl, -⟩ := Prod.mk.injEq .. ▸ hs
    have hh : h ∈ s.current := mem_current.2 ⟨(hok ha).1, (Globals.accepts_iff.1 ha).1⟩
    have hinit := hi.connected hh
    have hc := current_erase (s := s) (h := h) (u := { s.goto t .idle with
      g := { s.g with gOpenedCount := s.g.gOpenedCount - 1, gFdtable := (freeFd s.g.gFdtable h.fd).2 }
      live := s.live.erase h }) rfl rfl
    refine ⟨fun x hx => hi.generation_le x (Finset.mem_of_mem_erase hx),
      fun x hx => hi.fresh x (Finset.mem_of_mem_erase hx), ?_, ?_, ?_, ?_⟩ <;> rw [hc]
    · exact hi.fd_erase hh
    · exact fun x hx y hy => hi.inj x (Finset.mem_of_mem_erase hx) y (Finset.mem_of_mem_erase hy)
    · intro _
      have := hi.count hinit
      have hpos := Finset.card_pos.2 ⟨h, hh⟩
      rw [Finset.card_erase_of_mem hh]
      show s.g.gOpenedCount - 1 = _
      omega
    · intro h0
      exact absurd hinit (by rw [show s.g.gInitFlag = false from h0]; decide)

/-- A death makes every handle one of an older generation. -/
theorem FdInv.died {s : ServerClient} (hi : FdInv s) (hok : s.g.gGeneration.toNat + 1 < 2 ^ 32) :
    FdInv { s with g := serviceDied s.g, died := true, deviceOpen := false } := by
  have hgen : (s.g.gGeneration + 1).toNat = s.g.gGeneration.toNat + 1 := by
    rw [BitVec.toNat_add]
    exact Nat.mod_eq_of_lt (by simpa using hok)
  have hc : ({ s with g := serviceDied s.g, died := true, deviceOpen := false } : ServerClient).current = ∅ := by
    refine Finset.filter_eq_empty_iff.2 fun h hh he => ?_
    have := hi.generation_le h hh
    rw [he] at this
    exact absurd (hgen ▸ this) (by omega)
  refine ⟨fun h hh => ?_, hi.fresh, ?_, ?_, ?_, ?_⟩
  · have := hi.generation_le h hh
    show h.generation.toNat ≤ (s.g.gGeneration + 1).toNat
    omega
  · rw [hc]
    simp
  · rw [hc]
    simp
  · intro h0
    cases h0
  · intro _
    exact hc

theorem FdInv.step {s s' : ServerClient} {e : Event} (hi : FdInv s) (hok : keepsFds s e)
    (hs : serverClient.step s e = some s') : FdInv s' := by
  obtain ⟨⟨s'', r⟩, hr, rfl⟩ := Option.map_eq_some_iff.1 hs
  rcases ServerClient.step_cases hr with ⟨hq, -⟩ | ⟨t, type, null, answer, s₁, rfl, rfl, hq, -⟩ |
    ⟨t, type, cs, ret, rfl, ht, he⟩ | ⟨t, fd, rfl, ht, -, rfl⟩ | ⟨t, h, cs, ret, rfl, ht, he⟩ | ⟨rfl, -, rfl⟩
  · exact hi.quiet hq
  · exact (hi.connect answer).quiet hq
  · simp only [keepsFds, ht] at hok
    exact hi.openLocked hok he
  · simp only [keepsFds, ht] at hok
    exact hi.openError t hok
  · simp only [keepsFds, ht] at hok
    exact hi.closeLocked hok he
  · exact hi.died hok

theorem FdInv.of_reach {s : ServerClient} (h : Reach serverClient keepsFds s) : FdInv s :=
  h.invariant (fun _ h0 => h0 ▸ FdInv.start) (fun _ _ _ hi hok hs => hi.step hok hs)

/-- Live handles of the current generation have different fds and their bits are set, in every state of a run
whose steps meet `keepsFds`. -/
theorem live_fds_distinct {s : ServerClient} (h : Reach serverClient keepsFds s) : FdsDistinct s :=
  (FdInv.of_reach h).distinct

/-- Two clients open the device for the same work, a third open is refused for its work type, and one handle is
closed again. -/
def quietRun : List Event :=
  [.callOpen 0 .normal false (some 7), .openLocked 0 0, .callOpen 1 .normal false none, .openLocked 1 0,
   .callOpen 2 .faceid false none, .openLocked 2 0, .openError 2,
   .callClose 0 (some ⟨0, 0, 0, .normal, 0⟩), .closeLocked 0 0]

theorem live_fds_distinct_quietRun :
    ∃ s, serverClient.exec keepsFds .start quietRun = some s ∧ s.live = {⟨1, 1, 0, .normal, 0⟩} ∧
    FdsDistinct s := by
  refine ⟨_, rfl, by decide, ?_⟩
  exact live_fds_distinct (Reach.of_exec (M := serverClient) quietRun (s := .start) rfl rfl)

/-- An open that is refused for its work type frees fd 1 twice; between the two, another open takes it. -/
def doubleFree : List Event :=
  [.callOpen 0 .normal false (some 7), .openLocked 0 0, .callOpen 1 .faceid false none, .openLocked 1 0,
   .callOpen 2 .normal false none, .openLocked 2 0, .openError 1]

theorem double_free_loses_fd : ¬ ∀ s, Reach serverClient anyStep s → FdsDistinct s := by
  intro hall
  have hd := hall _ (Reach.of_exec (M := serverClient) doubleFree (s := .start) rfl rfl)
  exact absurd (hd ⟨1, 1, 0, .normal, 0⟩ (by decide) (by decide)).1 (by decide)

end Vdsp
