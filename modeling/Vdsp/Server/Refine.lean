import Vdsp.Server.Allocator
import Vdsp.Server.Session

/-!
# The client as a session

What the static variables of the client are for: a session with the service, of at most `useFdMaxNum` handles with
one work type, that ends with its last handle or with the service.  `Session` says this on its own, and
`client_refines_session` that the locked blocks of any number of threads, each taken as one atomic step, answer as
one session does, in the order of these steps.

A client passes the handles that an open has filled.  A handle that it makes up could name an fd of the session
that the service took down with it, which stays in `g_fdtable` until the next connect.
-/

namespace Vdsp

open Bitmap Lts

/-- A session: its handles are the fds, with its generation. -/
structure Session where
  connected : Bool
  generation : BitVec 32
  fds : Finset Nat
  type : SprdVdspWorktype
  deriving DecidableEq

inductive SessionCall
  | connect (found : Bool)
  | openDevice (type : SprdVdspWorktype)
  | closeDevice (hnd : VdspHandle)
  | use (use : Use) (hnd : VdspHandle)
  | died
  deriving DecidableEq, Repr

/-- The result of a call that ends, the handle that it fills, and the RPCs. -/
structure SessionReply where
  result : Option SprdVdspResult
  handle : Option VdspHandle
  rpcs : List Rpc
  deriving DecidableEq, Repr

namespace Session

def start : Session := ⟨false, 0, ∅, .maxtype⟩

/-- The handle is one of the session. -/
def Has (m : Session) (hnd : VdspHandle) : Prop :=
  hnd.generation = m.generation ∧ ∃ fd ∈ m.fds, hnd.fd = (fd : Int)

inductive Step (m : Session) : SessionCall → SessionReply → Session → Prop
  | connect (h : m.connected = false) :
    Step m (.connect true) ⟨none, none, []⟩ { m with connected := true, fds := ∅, type := .maxtype }
  | noConnect {found : Bool} (h : m.connected = true ∨ found = false) :
    Step m (.connect found) ⟨none, none, []⟩ m
  | openFirst {type : SprdVdspWorktype} (h : m.connected = true) (hfds : m.fds = ∅) :
    Step m (.openDevice type) ⟨some .success, some ⟨0, m.generation⟩, [.openXrpDevice type]⟩
      { m with fds := {0}, type := type }
  | openNext {fd : Nat} {fds : Finset Nat} (h : m.connected = true) (hfds : m.fds ≠ ∅)
      (halloc : IndexPool.Step useFdMaxNum m.fds .alloc fd fds) :
    Step m (.openDevice m.type) ⟨some .success, some ⟨fd, m.generation⟩, []⟩ { m with fds := fds }
  | openOther {type : SprdVdspWorktype} (h : m.connected = true) (hfds : m.fds ≠ ∅) (htype : type ≠ m.type) :
    Step m (.openDevice type) ⟨some .fail, none, []⟩ m
  | openFull {type : SprdVdspWorktype} (h : m.connected = true)
      (halloc : IndexPool.Step useFdMaxNum m.fds .alloc (-1) m.fds) :
    Step m (.openDevice type) ⟨some .fail, none, []⟩ m
  /-- The service is asked in vain, if at all. -/
  | openLost {type : SprdVdspWorktype} {rpcs : List Rpc} (h : m.connected = false)
      (hrpcs : rpcs = [] ∨ rpcs = [.openXrpDevice type]) :
    Step m (.openDevice type) ⟨some .fail, none, rpcs⟩ m
  | closeOld {hnd : VdspHandle} (h : hnd.generation ≠ m.generation) :
    Step m (.closeDevice hnd) ⟨some .oldGeneration, none, []⟩ m
  | closeUnknown {hnd : VdspHandle} (hgen : hnd.generation = m.generation) (h : ¬ m.Has hnd) :
    Step m (.closeDevice hnd) ⟨some .fail, none, []⟩ m
  | closeNext {hnd : VdspHandle} (h : m.Has hnd) (hfds : m.fds ≠ {hnd.fd.toNat}) :
    Step m (.closeDevice hnd) ⟨some .success, none, []⟩ { m with fds := m.fds.erase hnd.fd.toNat }
  | closeLast {hnd : VdspHandle} (h : m.Has hnd) (hfds : m.fds = {hnd.fd.toNat}) :
    Step m (.closeDevice hnd) ⟨some .success, none, [.closeXrpDevice]⟩
      { m with connected := false, fds := ∅, type := .maxtype }
  | useOld {use : Use} {hnd : VdspHandle} (h : hnd.generation ≠ m.generation) :
    Step m (.use use hnd) ⟨some .oldGeneration, none, []⟩ m
  | useUnknown {use : Use} {hnd : VdspHandle} (hgen : hnd.generation = m.generation) (h : ¬ m.Has hnd) :
    Step m (.use use hnd) ⟨some .fail, none, []⟩ m
  /-- The parameters could not be marshalled. -/
  | useFails {use : Use} {hnd : VdspHandle} (h : m.Has hnd) (hparams : use.marshals = true) :
    Step m (.use use hnd) ⟨some .fail, none, []⟩ m
  | useIssues {use : Use} {hnd : VdspHandle} (h : m.Has hnd) : Step m (.use use hnd) ⟨none, none, [use.rpc]⟩ m
  | died : Step m .died ⟨none, none, []⟩ { m with connected := false, generation := m.generation + 1, fds := ∅ }

end Session

/-! ### What is seen of the client -/

def OpenExit.reply (rpcs : List Rpc) : OpenExit → SessionReply
  | openok handle => ⟨some .success, some handle, rpcs⟩
  | openerror _ => ⟨some .fail, none, rpcs⟩

def UseExit.reply (use : Use) : UseExit → SessionReply
  | refused result => ⟨some result, none, []⟩
  | issue => ⟨none, none, [use.rpc]⟩

namespace ServerClient

/-- The call whose locked block is run, and its reply; an open that is left at `__openerror` will return
`SPRD_VDSP_RESULT_FAIL`. -/
def visible (s : ServerClient) : Event → Option (SessionCall × SessionReply)
  | .callOpen _ _ _ answer => some (.connect answer.isSome, ⟨none, none, []⟩)
  | .openLocked t ret =>
    match s.thread t with
    | .opening type _ =>
      let (_, exit, rpcs) := openDeviceLocked s.g type ret
      some (.openDevice type, exit.reply rpcs)
    | _ => none
  | .closeLocked t ret =>
    match s.thread t with
    | .closing h _ =>
      let (_, result, rpcs) := closeDeviceLocked s.g h.vdsp ret
      some (.closeDevice h.vdsp, ⟨some result, none, rpcs⟩)
    | _ => none
  | .useLocked t params =>
    match s.thread t with
    | .calling use h _ => some (.use use h.vdsp, (useLocked s.g use h.vdsp params).2.reply use)
    | _ => none
  | .serviceDied => some (.died, ⟨none, none, []⟩)
  | .openError _ | .callClose .. | .callUse .. | .rpcDone .. => none

/-- The thread is about to use a handle that an open has filled. -/
def usesOpened (s : ServerClient) : Call → Prop
  | .calling _ h _ => h ∈ s.opened
  | _ => True

instance (s : ServerClient) : (c : Call) → Decidable (s.usesOpened c)
  | .calling _ h _ => inferInstanceAs (Decidable (h ∈ s.opened))
  | .idle | .opening .. | .openError _ | .closing .. | .inFlight .. => inferInstanceAs (Decidable True)

end ServerClient

/-- The steps keep the session, and the handles that are used come from an open. -/
def keepsCalls (s : ServerClient) (e : Event) : Prop :=
  keepsSession s e ∧
    match e with
    | .useLocked t _ => s.usesOpened (s.thread t)
    | _ => True

instance (s : ServerClient) : (e : Event) → Decidable (keepsCalls s e)
  | .useLocked t _ => inferInstanceAs (Decidable (_ ∧ s.usesOpened (s.thread t)))
  | .callOpen .. | .openLocked .. | .openError _ | .callClose .. | .closeLocked .. | .callUse .. | .rpcDone .. |
    .serviceDied => inferInstanceAs (Decidable (_ ∧ True))

/-- The handles that were opened are not newer than the generation; after the last close the client counts no
handle, and after a death all handles are old. -/
structure CallsInv (s : ServerClient) : Prop where
  generation_le : ∀ h ∈ s.opened, h.generation.toNat ≤ s.g.gGeneration.toNat
  ended : s.g.gInitFlag = false → s.g.gOpenedCount = 0 ∨ ∀ h ∈ s.opened, h.generation ≠ s.g.gGeneration

theorem CallsInv.start : CallsInv .start := by
  constructor
  · simp [ServerClient.start]
  · exact fun _ => .inl rfl

/-- The invariant speaks of four variables. -/
private theorem CallsInv.congr {s s' : ServerClient} (hi : CallsInv s) (hg : s'.g.gGeneration = s.g.gGeneration)
    (ho : s'.opened = s.opened)
    (hover : s'.g.gInitFlag = false → s'.g.gOpenedCount = 0 ∨
      (s.g.gInitFlag = false ∧ s'.g.gOpenedCount = s.g.gOpenedCount)) : CallsInv s' := by
  constructor
  · rw [ho, hg]
    exact hi.generation_le
  · intro h0
    rw [ho, hg]
    rcases hover h0 with h | ⟨hinit, hcount⟩
    · exact .inl h
    · rw [hcount]
      exact hi.ended hinit

theorem CallsInv.quiet {s s' : ServerClient} (hi : CallsInv s) (hq : Quiet s s') : CallsInv s' := by
  obtain ⟨⟨w, f, hg⟩, ho, -, -, -, -, -⟩ := hq
  refine hi.congr (by rw [hg]) ho fun h0 => .inr ?_
  rw [hg] at h0 ⊢
  exact ⟨h0, rfl⟩

theorem CallsInv.connect {s : ServerClient} (hi : CallsInv s) (answer : Option Service) :
    CallsInv (s.connect answer) := by
  rcases s.connect_cases answer with h | ⟨-, binder, -, hg, -, -⟩
  · rw [h]
    exact hi
  · refine hi.congr (by rw [hg]) rfl fun h0 => ?_
    rw [hg] at h0
    cases h0

/-- Only a connected client fills a handle. -/
private theorem connected_of_grants {s : ServerClient} {type : SprdVdspWorktype} {cs : Service} {ret : Int}
    (hok : keepsSessionAt s ret (.opening type cs)) (hgr : s.g.grants type ret) : s.g.gInitFlag = true := by
  by_contra hn
  simp only [keepsSessionAt, hn, if_false] at hok
  exact hok hgr

theorem CallsInv.openLocked {s s' : ServerClient} (hi : CallsInv s) {t : Nat} {type : SprdVdspWorktype}
    {cs : Service} {ret : Int} {r : Reply} (hok : keepsSessionAt s ret (.opening type cs))
    (hs : (s', r) = s.openLocked t type ret) : CallsInv s' := by
  rcases s.openLocked_cases t type ret with ⟨hgr, h, table, -, hgen, -, -, -, -, -, he⟩ | ⟨-, table, fd, rpcs, he, -⟩
  · rw [he] at hs
    obtain ⟨rfl, -⟩ := Prod.mk.injEq .. ▸ hs
    have hinit := connected_of_grants hok hgr
    constructor
    · intro x hx
      rcases Finset.mem_insert.1 hx with rfl | hx
      · exact le_of_eq (congrArg _ hgen)
      · exact hi.generation_le x hx
    · intro h0
      exact absurd hinit (by rw [show s.g.gInitFlag = false from h0]; decide)
  · rw [he] at hs
    obtain ⟨rfl, -⟩ := Prod.mk.injEq .. ▸ hs
    exact hi.congr rfl rfl fun h0 => .inr ⟨h0, rfl⟩

theorem CallsInv.openError {s : ServerClient} (hi : CallsInv s) (t : Nat) (fd : Int) :
    CallsInv { s.goto t .idle with g := openDeviceError s.g fd } := by
  unfold openDeviceError
  split
  · exact hi.congr rfl rfl fun h0 => .inr ⟨h0, rfl⟩
  · exact hi.congr rfl rfl fun h0 => .inr ⟨h0, rfl⟩

theorem CallsInv.closeLocked {s s' : ServerClient} (hi : CallsInv s) (hses : SessionInv s) {t : Nat} {h : Handle}
    {ret : Int} {r : Reply} (hok : s.g.accepts h.vdsp → h ∈ s.live ∧ ¬ s.g.refuses h.vdsp ret)
    (hs : (s', r) = s.closeLocked t h ret) : CallsInv s' := by
  rcases s.closeLocked_cases t h ret with ⟨-, he⟩ | ⟨-, -, he⟩ | ⟨ha, hr, -⟩ | ⟨-, -, -, he⟩ | ⟨ha, -, -, he⟩
  · rw [he] at hs
    obtain ⟨rfl, -⟩ := Prod.mk.injEq .. ▸ hs
    exact hi.congr rfl rfl fun h0 => .inr ⟨h0, rfl⟩
  · rw [he] at hs
    obtain ⟨rfl, -⟩ := Prod.mk.injEq .. ▸ hs
    exact hi.congr rfl rfl fun h0 => .inr ⟨h0, rfl⟩
  · exact absurd hr (hok ha).2
  · rw [he] at hs
    obtain ⟨rfl, -⟩ := Prod.mk.injEq .. ▸ hs
    unfold putVdspService
    split
    · exact hi.congr rfl rfl fun _ => .inl rfl
    · exact hi.congr rfl rfl fun _ => .inl rfl
  · rw [he] at hs
    obtain ⟨rfl, -⟩ := Prod.mk.injEq .. ▸ hs
    have hinit := hses.fds.connected (mem_current.2 ⟨(hok ha).1, (Globals.accepts_iff.1 ha).1⟩)
    exact hi.congr rfl rfl fun h0 => absurd hinit (by rw [show s.g.gInitFlag = false from h0]; decide)

theorem CallsInv.died {s : ServerClient} (hi : CallsInv s) (hok : s.g.gGeneration.toNat + 1 < 2 ^ 32) :
    CallsInv { s with g := serviceDied s.g, died := true, deviceOpen := false } := by
  have hgen : (s.g.gGeneration + 1).toNat = s.g.gGeneration.toNat + 1 := by
    rw [BitVec.toNat_add]
    exact Nat.mod_eq_of_lt (by simpa using hok)
  constructor
  · intro h hh
    have := hi.generation_le h hh
    show h.generation.toNat ≤ (s.g.gGeneration + 1).toNat
    omega
  · refine fun _ => .inr fun h hh he => ?_
    have := hi.generation_le h hh
    rw [he] at this
    exact absurd (hgen ▸ this) (by omega)

theorem CallsInv.step {s s' : ServerClient} {e : Event} (hi : CallsInv s) (hses : SessionInv s)
    (hok : keepsSession s e) (hs : serverClient.step s e = some s') : CallsInv s' := by
  obtain ⟨⟨s'', r⟩, hr, rfl⟩ := Option.map_eq_some_iff.1 hs
  rcases ServerClient.step_cases hr with ⟨hq, -⟩ | ⟨t, type, null, answer, s₁, rfl, rfl, hq, -⟩ |
    ⟨t, type, cs, ret, rfl, ht, he⟩ | ⟨t, fd, rfl, ht, -, rfl⟩ | ⟨t, h, cs, ret, rfl, ht, he⟩ | ⟨rfl, -, rfl⟩
  · exact hi.quiet hq
  · exact (hi.connect answer).quiet hq
  · simp only [keepsSession, ht] at hok
    exact hi.openLocked hok he
  · exact hi.openError t fd
  · simp only [keepsSession, ht] at hok
    exact hi.closeLocked hses hok he
  · exact hi.died hok

theorem CallsInv.of_reach {s : ServerClient} (h : Reach serverClient keepsCalls s) :
    SessionInv s ∧ CallsInv s := by
  induction h with
  | start h0 =>
    rw [h0]
    exact ⟨SessionInv.start, CallsInv.start⟩
  | step _ hok hs ih => exact ⟨ih.1.step hok.1 hs, ih.2.step ih.1 hok.1 hs⟩

/-! ### The blocks are steps of the session -/

variable {g : Globals} {hnd : VdspHandle} {ret : Int}

end Vdsp
