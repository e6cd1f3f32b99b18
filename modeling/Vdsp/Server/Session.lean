import Vdsp.Server.Handles
import Mathlib.Data.Finset.Card

/-!
# The session of the server-mode client

While the client is connected, `gOpenedCount` counts the set bits of `g_fdtable` and the handles of the session,
the device of the service is open exactly when there is one, and all of them have the work type `gWorkType`.
Three slips break this: a failed first open leaves its fd 0 allocated, an fd freed twice at `__openerror` may by
then be another handle's, and a refused close leaves the counter one too low.  `keepsSession` excludes these
steps.
-/

namespace Vdsp

open Bitmap Lts

/-- What the variables of a connected client say about its session. -/
def SessionConsistent (s : ServerClient) : Prop :=
  s.g.gInitFlag = true →
    s.g.gOpenedCount = (bits s.g.gFdtable).card ∧ s.g.gOpenedCount = s.current.card ∧
    (s.deviceOpen = true ↔ 0 < s.g.gOpenedCount) ∧ ∀ h ∈ s.current, h.type = s.g.gWorkType

/-- `closeXrpDevice` is issued for the last handle only, and `openXrpDevice` on a closed device only. -/
def RpcsInOrder (s : ServerClient) (e : Event) (r : Reply) : Prop :=
  (Rpc.closeXrpDevice ∈ r.rpcs → ∃ t ret h cs, e = .closeLocked t ret ∧ s.thread t = .closing h cs ∧
    ∀ h' ∈ s.current, h' = h) ∧
  ∀ type, Rpc.openXrpDevice type ∈ r.rpcs → s.deviceOpen = false

/-- The condition on the block that `call` is about to run: while the client is connected the first open does
not fail, and while it is not no open is granted; a late `Free_Fd` finds its bit clear; a close that passes the
checks is of a live handle and is not refused afterwards. -/
def keepsSessionAt (s : ServerClient) (ret : Int) : Call → Prop
  | .opening type _ => if s.g.gInitFlag then s.g.gOpenedCount = 0 → ret = 0 else ¬ s.g.grants type ret
  | .openError fd => s.g.gInitFlag = true → 0 < fd → checkFdValid s.g.gFdtable fd ≠ 0
  | .closing h _ => s.g.accepts h.vdsp → h ∈ s.live ∧ ¬ s.g.refuses h.vdsp ret
  | _ => True

instance (s : ServerClient) (ret : Int) : ∀ c, Decidable (keepsSessionAt s ret c)
  | .opening type _ =>
    inferInstanceAs (Decidable (if s.g.gInitFlag then s.g.gOpenedCount = 0 → ret = 0 else ¬ s.g.grants type ret))
  | .openError fd =>
    inferInstanceAs (Decidable (s.g.gInitFlag = true → 0 < fd → checkFdValid s.g.gFdtable fd ≠ 0))
  | .closing h _ => inferInstanceAs (Decidable (s.g.accepts h.vdsp → h ∈ s.live ∧ ¬ s.g.refuses h.vdsp ret))
  | .idle | .calling .. | .inFlight .. => inferInstanceAs (Decidable True)

/-- The condition of `keepsSessionAt` on every block that uses the table, and a generation that does not wrap
around. -/
def keepsSession (s : ServerClient) : Event → Prop
  | .openLocked t ret | .closeLocked t ret => keepsSessionAt s ret (s.thread t)
  | .openError t => keepsSessionAt s 0 (s.thread t)
  | .serviceDied => s.g.gGeneration.toNat + 1 < 2 ^ 32
  | _ => True

instance (s : ServerClient) : ∀ e, Decidable (keepsSession s e)
  | .openLocked t ret | .closeLocked t ret => inferInstanceAs (Decidable (keepsSessionAt s ret (s.thread t)))
  | .openError t => inferInstanceAs (Decidable (keepsSessionAt s 0 (s.thread t)))
  | .serviceDied => inferInstanceAs (Decidable (s.g.gGeneration.toNat + 1 < 2 ^ 32))
  | .callOpen .. | .callClose .. | .callUse .. | .useLocked .. | .rpcDone .. => inferInstanceAs (Decidable True)

structure SessionInv (s : ServerClient) : Prop where
  fds : FdInv s
  table : s.g.gInitFlag = true → bits s.g.gFdtable = s.current.image fun h => h.fd.toNat
  device : s.deviceOpen = true ↔ s.g.gInitFlag = true ∧ s.current.Nonempty
  type : ∀ h ∈ s.current, h.type = s.g.gWorkType

/-- Handles with different fds use as many bits as there are handles. -/
private theorem FdInv.card_image {s : ServerClient} (hi : FdInv s) :
    (s.current.image fun h => h.fd.toNat).card = s.current.card := by
  refine Finset.card_image_of_injOn fun x hx y hy hxy => ?_
  have hx0 := (hi.fd x hx).1
  have hy0 := (hi.fd y hy).1
  have hxy : x.fd.toNat = y.fd.toNat := hxy
  exact hi.inj y hy x hx (by omega)

theorem SessionInv.consistent {s : ServerClient} (hi : SessionInv s) : SessionConsistent s := by
  intro hinit
  have hcount := hi.fds.count hinit
  refine ⟨?_, hcount, ?_, hi.type⟩
  · rw [hi.table hinit, hi.fds.card_image]
    exact hcount
  · rw [hi.device, hcount, and_iff_right hinit, ← Finset.card_pos]
    omega

/-- Under the invariant the steps that keep the session keep the fds. -/
theorem SessionInv.keepsFds {s : ServerClient} (hi : SessionInv s) {e : Event} (hok : keepsSession s e) :
    keepsFds s e := by
  have hat : ∀ ret c, keepsSessionAt s ret c → keepsFdsAt s ret c := by
    intro ret c hc
    cases c with
    | opening type cs =>
      intro hg
      by_contra hn
      simp only [keepsSessionAt, hn, if_false] at hc
      exact hc hg
    | openError fd =>
      intro hpos h hh he
      refine hc (hi.fds.connected hh) hpos (checkFdValid_eq_zero.2 ?_)
      exact he ▸ hi.fds.fd h hh
    | closing h cs => exact hc
    | idle | calling | inFlight => trivial
  cases e with
  | openLocked t ret | closeLocked t ret | openError t => exact hat _ _ hok
  | serviceDied => exact hok
  | callOpen | callClose | callUse | useLocked | rpcDone => trivial

theorem SessionInv.start : SessionInv .start := by
  have hc : ServerClient.current .start = ∅ := Finset.filter_empty _
  refine ⟨FdInv.start, ?_, ?_, ?_⟩
  · simp [ServerClient.start, Globals.start]
  · simp [ServerClient.start, Globals.start]
  · simp [hc]

theorem SessionInv.quiet {s s' : ServerClient} (hi : SessionInv s) (hq : Quiet s s') : SessionInv s' := by
  have hf := hi.fds.quiet hq
  have hc := hq.current
  obtain ⟨⟨w, f, hg⟩, -, -, -, -, -, hd⟩ := hq
  refine ⟨hf, ?_, ?_, ?_⟩ <;> rw [hc, hg]
  · exact hi.table
  · rw [hd]
    exact hi.device
  · exact hi.type

theorem SessionInv.connect {s : ServerClient} (hi : SessionInv s) (answer : Option Service) :
    SessionInv (s.connect answer) := by
  have hf := hi.fds.connect answer
  rcases s.connect_cases answer with h | ⟨hinit, binder, -, hg, -, -⟩
  · rw [h]
    exact hi
  · have hc : (s.connect answer).current = ∅ := by
      rw [← hi.fds.disconnected hinit]
      unfold ServerClient.current
      rw [hg]
      rfl
    have hd : s.deviceOpen = false := by
      by_contra hn
      have := (hi.device.1 (by simpa using hn)).1
      rw [hinit] at this
      cases this
    refine ⟨hf, ?_, ?_, ?_⟩
    · rw [hc, hg]
      simp
    · rw [hc, show (s.connect answer).deviceOpen = s.deviceOpen from rfl, hd]
      simp
    · rw [hc]
      simp

theorem SessionInv.openLocked {s s' : ServerClient} (hi : SessionInv s) {t : Nat} {type : SprdVdspWorktype}
    {cs : Service} {ret : Int} {r : Reply} (hok : keepsSessionAt s ret (.opening type cs))
    (hf : FdInv s') (hs : (s', r) = s.openLocked t type ret) : SessionInv s' := by
  rcases s.openLocked_cases t type ret with
    ⟨hgr, h, table, -, hgen, htype, -, -, -, hb, he⟩ | ⟨hgr, table, fd, rpcs, he, -, hb, -⟩
  · rw [he] at hs
    obtain ⟨rfl, -⟩ := Prod.mk.injEq .. ▸ hs
    have hinit : s.g.gInitFlag = true := by
      by_contra hn
      simp only [keepsSessionAt, hn, if_false] at hok
      exact hok hgr
    have hc := current_insert (s := s) (h := h) (u := { s.goto t .idle with
      g := { s.g with gFdtable := table, gOpenedCount := s.g.gOpenedCount + 1, gWorkType := type }
      opened := insert h s.opened
      live := insert h s.live
      nextId := s.nextId + 1
      deviceOpen := if s.g.gOpenedCount = 0 then true else s.deviceOpen }) rfl rfl hgen
    have hcount := hi.fds.count hinit
    refine ⟨hf, ?_, ?_, ?_⟩
    · intro _
      rw [hc, Finset.image_insert, ← hi.table hinit]
      exact hb
    · rw [hc]
      refine iff_of_true ?_ ⟨hinit, Finset.insert_nonempty _ _⟩
      show (if s.g.gOpenedCount = 0 then true else s.deviceOpen) = true
      split
      · rfl
      · exact hi.device.2 ⟨hinit, Finset.card_pos.1 (by omega)⟩
    · rw [hc]
      intro x hx
      rcases Finset.mem_insert.1 hx with hx | hx
      · exact hx ▸ htype
      · have hpos := Finset.card_pos.2 ⟨x, hx⟩
        exact (hi.type x hx).trans (hgr.2.2 (by omega)).symm
  · rw [he] at hs
    obtain ⟨rfl, -⟩ := Prod.mk.injEq .. ▸ hs
    refine ⟨hf, ?_, hi.device, hi.type⟩
    intro (hinit : s.g.gInitFlag = true)
    simp only [keepsSessionAt, hinit, if_true] at hok
    rcases hb with hb | ⟨h0, hr⟩
    · exact hb.trans (hi.table hinit)
    · exact absurd (hok h0) hr

theorem SessionInv.openError {s : ServerClient} (hi : SessionInv s) (t : Nat) {fd : Int}
    (hok : keepsSessionAt s 0 (.openError fd))
    (hf : FdInv { s.goto t .idle with g := openDeviceError s.g fd }) :
    SessionInv { s.goto t .idle with g := openDeviceError s.g fd } := by
  unfold openDeviceError at *
  split at hf
  · rename_i hpos
    rw [if_pos hpos]
    refine ⟨hf, ?_, hi.device, hi.type⟩
    intro (hinit : s.g.gInitFlag = true)
    show bits (freeFd s.g.gFdtable fd).2 = _
    rw [freeFd_of_not_valid (hok hinit hpos)]
    exact hi.table hinit
  · rename_i hpos
    rw [if_neg hpos]
    exact ⟨hf, hi.table, hi.device, hi.type⟩

theorem SessionInv.closeLocked {s s' : ServerClient} (hi : SessionInv s) {t : Nat} {h : Handle} {ret : Int}
    {r : Reply} (hok : s.g.accepts h.vdsp → h ∈ s.live ∧ ¬ s.g.refuses h.vdsp ret) (hf : FdInv s')
    (hs : (s', r) = s.closeLocked t h ret) : SessionInv s' := by
  rcases s.closeLocked_cases t h ret with ⟨hg, he⟩ | ⟨-, -, he⟩ | ⟨ha, hr, -⟩ | ⟨ha, -, h1, he⟩ | ⟨ha, -, h1, he⟩
  · rw [he] at hs
    obtain ⟨rfl, -⟩ := Prod.mk.injEq .. ▸ hs
    have hc := current_erase (s := s) (h := h) (u := { s.goto t .idle with live := s.live.erase h }) rfl rfl
    rw [Finset.erase_eq_of_notMem fun hh => hg (mem_current.1 hh).2] at hc
    refine ⟨hf, ?_, ?_, ?_⟩ <;> rw [hc]
    · exact hi.table
    · exact hi.device
    · exact hi.type
  · rw [he] at hs
    obtain ⟨rfl, -⟩ := Prod.mk.injEq .. ▸ hs
    exact hi.quiet (Quiet.goto ..)
  · exact absurd hr (hok ha).2
  · rw [he] at hs
    obtain ⟨rfl, -⟩ := Prod.mk.injEq .. ▸ hs
    have hh : h ∈ s.current := mem_current.2 ⟨(hok ha).1, (Globals.accepts_iff.1 ha).1⟩
    have hinit := hi.fds.connected hh
    simp only [putVdspService, hinit, if_true] at hf ⊢
    have hc := hf.disconnected rfl
    refine ⟨hf, ?_, ?_, ?_⟩
    · intro h0
      cases h0
    · simp
    · rw [hc]
      simp
  · rw [he] at hs
    obtain ⟨rfl, -⟩ := Prod.mk.injEq .. ▸ hs
    have hh : h ∈ s.current := mem_current.2 ⟨(hok ha).1, (Globals.accepts_iff.1 ha).1⟩
    have hinit := hi.fds.connected hh
    have hcount := hi.fds.count hinit
    have hpos := Finset.card_pos.2 ⟨h, hh⟩
    have hc := current_erase (s := s) (h := h) (u := { s.goto t .idle with
      g := { s.g with gOpenedCount := s.g.gOpenedCount - 1, gFdtable := (freeFd s.g.gFdtable h.fd).2 }
      live := s.live.erase h }) rfl rfl
    refine ⟨hf, ?_, ?_, ?_⟩ <;> rw [hc]
    · intro _
      show bits (freeFd s.g.gFdtable h.fd).2 = _
      rw [bits_freeFd, if_pos (hi.fds.fd h hh).1, hi.table hinit]
      ext i
      simp only [Finset.mem_erase, Finset.mem_image]
      constructor
      · rintro ⟨hne, x, hx, rfl⟩
        exact ⟨x, ⟨fun hxh => hne (hxh ▸ rfl), hx⟩, rfl⟩
      · rintro ⟨x, ⟨hne, hx⟩, rfl⟩
        refine ⟨fun hxh => hne (hi.fds.inj h hh x hx ?_), x, hx, rfl⟩
        have := (hi.fds.fd x hx).1
        have := (hi.fds.fd h hh).1
        omega
    · have : (s.current.erase h).Nonempty := by
        rw [← Finset.card_pos, Finset.card_erase_of_mem hh]
        omega
      exact iff_of_true (hi.device.2 ⟨hinit, h, hh⟩) ⟨hinit, this⟩
    · exact fun x hx => hi.type x (Finset.mem_of_mem_erase hx)

theorem SessionInv.died {s : ServerClient}
    (hf : FdInv { s with g := serviceDied s.g, died := true, deviceOpen := false }) :
    SessionInv { s with g := serviceDied s.g, died := true, deviceOpen := false } := by
  have hc := hf.disconnected rfl
  refine ⟨hf, ?_, ?_, ?_⟩
  · intro h0
    cases h0
  · simp [serviceDied]
  · rw [hc]
    simp

theorem SessionInv.step {s s' : ServerClient} {e : Event} (hi : SessionInv s) (hok : keepsSession s e)
    (hs : serverClient.step s e = some s') : SessionInv s' := by
  have hf := hi.fds.step (hi.keepsFds hok) hs
  obtain ⟨⟨s'', r⟩, hr, rfl⟩ := Option.map_eq_some_iff.1 hs
  rcases ServerClient.step_cases hr with ⟨hq, -⟩ | ⟨t, type, null, answer, s₁, rfl, rfl, hq, -⟩ |
    ⟨t, type, cs, ret, rfl, ht, he⟩ | ⟨t, fd, rfl, ht, -, rfl⟩ | ⟨t, h, cs, ret, rfl, ht, he⟩ | ⟨rfl, -, rfl⟩
  · exact hi.quiet hq
  · exact (hi.connect answer).quiet hq
  · simp only [keepsSession, ht] at hok
    exact hi.openLocked hok hf he
  · simp only [keepsSession, ht] at hok
    exact hi.openError t hok hf
  · simp only [keepsSession, ht] at hok
    exact hi.closeLocked hok hf he
  · exact SessionInv.died hf

theorem SessionInv.of_reach {s : ServerClient} (h : Reach serverClient keepsSession s) : SessionInv s :=
  h.invariant (fun _ h0 => h0 ▸ SessionInv.start) (fun _ _ _ hi hok hs => hi.step hok hs)

/-- A step that keeps the session issues its RPCs in order. -/
theorem SessionInv.rpcs {s s' : ServerClient} {e : Event} {r : Reply} (hi : SessionInv s) (hok : keepsSession s e)
    (hs : s.step e = some (s', r)) : RpcsInOrder s e r := by
  have hclosed : s.g.gOpenedCount = 0 → s.deviceOpen = false := by
    intro h0
    by_contra hn
    obtain ⟨hinit, hne⟩ := hi.device.1 (by simpa using hn)
    have := hi.fds.count hinit
    have := Finset.card_pos.2 hne
    omega
  rcases ServerClient.step_cases hs with ⟨-, hq⟩ | ⟨t, type, null, answer, s₁, -, -, -, hr⟩ |
    ⟨t, type, cs, ret, rfl, ht, he⟩ | ⟨t, fd, -, -, rfl, -⟩ | ⟨t, h, cs, ret, rfl, ht, he⟩ | ⟨-, rfl, -⟩
  · exact ⟨fun hc => absurd rfl (hq _ hc).1, fun type ho => absurd rfl ((hq _ ho).2 type)⟩
  · simp [RpcsInOrder, hr]
  · rcases s.openLocked_cases t type ret with
      ⟨-, h, table, -, -, -, -, -, -, -, ho⟩ | ⟨-, table, fd, rpcs, ho, -, -, hr⟩
    · rw [ho] at he
      obtain ⟨-, rfl⟩ := Prod.mk.injEq .. ▸ he
      by_cases h0 : s.g.gOpenedCount = 0 <;> simp [RpcsInOrder, h0, hclosed]
    · rw [ho] at he
      obtain ⟨-, rfl⟩ := Prod.mk.injEq .. ▸ he
      rcases hr with rfl | ⟨h0, -, rfl⟩
      · simp [RpcsInOrder]
      · simp [RpcsInOrder, hclosed h0]
  · simp [RpcsInOrder]
  · simp only [keepsSession, ht] at hok
    rcases s.closeLocked_cases t h ret with ⟨-, ho⟩ | ⟨-, -, ho⟩ | ⟨ha, hr, -⟩ | ⟨ha, -, h1, ho⟩ | ⟨-, -, -, ho⟩
    · rw [ho] at he
      obtain ⟨-, rfl⟩ := Prod.mk.injEq .. ▸ he
      simp [RpcsInOrder]
    · rw [ho] at he
      obtain ⟨-, rfl⟩ := Prod.mk.injEq .. ▸ he
      simp [RpcsInOrder]
    · exact absurd hr (hok ha).2
    · rw [ho] at he
      obtain ⟨-, rfl⟩ := Prod.mk.injEq .. ▸ he
      have hh : h ∈ s.current := mem_current.2 ⟨(hok ha).1, (Globals.accepts_iff.1 ha).1⟩
      have hcount := hi.fds.count (hi.fds.connected hh)
      refine ⟨fun _ => ⟨t, ret, h, cs, rfl, ht, fun x hx => ?_⟩, by simp⟩
      exact Finset.card_le_one.1 (by omega) x hx h hh
    · rw [ho] at he
      obtain ⟨-, rfl⟩ := Prod.mk.injEq .. ▸ he
      simp [RpcsInOrder]
  · simp [RpcsInOrder]

/-- In every state of a run whose steps meet `keepsSession` the variables describe the session, and every such
step issues its RPCs in order. -/
theorem session_consistent {s : ServerClient} (h : Reach serverClient keepsSession s) :
    SessionConsistent s ∧
      ∀ e s' r, keepsSession s e → s.step e = some (s', r) → RpcsInOrder s e r :=
  ⟨(SessionInv.of_reach h).consistent, fun _ _ _ hok hs => (SessionInv.of_reach h).rpcs hok hs⟩

/-- Two opens, a command through the second handle, and the first one closed. -/
def twoHandles : List Event :=
  [.callOpen 0 .normal false (some 7), .openLocked 0 0, .callOpen 1 .normal false none, .openLocked 1 0,
   .callUse 0 .sendCmd (some ⟨1, 1, 0, .normal, 0⟩), .useLocked 0 true, .rpcDone 0 0,
   .callClose 0 (some ⟨0, 0, 0, .normal, 0⟩), .closeLocked 0 0]

theorem session_consistent_twoHandles :
    ∃ s, serverClient.exec keepsSession .start twoHandles = some s ∧ s.g.gInitFlag = true ∧ s.g.gOpenedCount = 1 ∧
      SessionConsistent s := by
  refine ⟨_, rfl, rfl, by decide, ?_⟩
  exact (session_consistent (Reach.of_exec (M := serverClient) twoHandles (s := .start) rfl rfl)).1

/-- A first open whose `openXrpDevice` fails leaves fd 0 allocated. -/
def firstOpenFails : List Event :=
  [.callOpen 0 .normal false (some 7), .openLocked 0 1, .openError 0]

theorem failed_open_leaks_fd : ¬ ∀ s, Reach serverClient anyStep s → SessionConsistent s := by
  intro hall
  have hc := hall _ (Reach.of_exec (M := serverClient) firstOpenFails (s := .start) rfl rfl)
  exact absurd (hc rfl).1 (by decide)

end Vdsp
