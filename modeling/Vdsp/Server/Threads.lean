import Vdsp.Lib.System
import Vdsp.Server.Client

/-!
# The server-mode client under any number of threads

Every thread runs one call at a time; each block under `gLock` is one step, and so is what an open does at
`__openerror` after the lock was dropped.  A close of a handle of an older generation gives the lock back twice
(`Vdsp.Server.Lock`); its block is one step all the same, so the second unlock does not let another thread into a
block here.  The answers of the service, its death and the scheduling are in the events.  Beside the static
variables the state keeps the handles whose open returned success (`opened`), those of them that no close has
ended (`live`), and three facts that no variable holds: how often the client reconnected after a death (`epoch`),
whether a death followed the last connect (`died`), and whether the device of the service is open on behalf of
this client (`deviceOpen`).
-/

namespace Vdsp

open Bitmap Lts

/-- A `struct vdsp_handle` of a client; `id`, `type` and `epoch` tell which open filled it and when. -/
structure Handle where
  id : Nat
  fd : Int
  generation : BitVec 32
  type : SprdVdspWorktype
  epoch : Nat
  deriving DecidableEq, Repr

def Handle.vdsp (h : Handle) : VdspHandle := ⟨h.fd, h.generation⟩

/-- What a thread is executing. -/
inductive Call
  | idle
  /-- An open that fetched `cs` and has not taken the lock. -/
  | opening (type : SprdVdspWorktype) (cs : Service)
  /-- An open at `__openerror`. -/
  | openError (fd : Int)
  /-- A close that fetched `cs` and has not taken the lock. -/
  | closing (h : Handle) (cs : Service)
  /-- One of the four other calls before its first locked block. -/
  | calling (use : Use) (h : Handle) (cs : Service)
  /-- One of the four other calls between its two locked blocks. -/
  | inFlight (use : Use) (h : Handle) (cs : Service)
  deriving DecidableEq, Repr

structure ServerClient where
  g : Globals
  thread : Nat → Call
  opened : Finset Handle
  live : Finset Handle
  nextId : Nat
  epoch : Nat
  died : Bool
  deviceOpen : Bool

/-- The handles of the running session: live, and of the current generation. -/
def ServerClient.current (s : ServerClient) : Finset Handle :=
  s.live.filter fun h => h.generation = s.g.gGeneration

inductive Event
  /-- `sprd_vdsp_open_device_serv` up to the lock, with a `NULL` handle or not. -/
  | callOpen (t : Nat) (type : SprdVdspWorktype) (null : Bool) (answer : Option Service)
  | openLocked (t : Nat) (ret : Int)
  | openError (t : Nat)
  /-- `sprd_vdsp_close_device_serv` up to the lock. -/
  | callClose (t : Nat) (handle : Option Handle)
  | closeLocked (t : Nat) (ret : Int)
  /-- One of the four other calls up to the lock. -/
  | callUse (t : Nat) (use : Use) (handle : Option Handle)
  | useLocked (t : Nat) (params : Bool)
  /-- The RPC has returned; the second locked block. -/
  | rpcDone (t : Nat) (ret : Int)
  | serviceDied
  deriving DecidableEq, Repr

/-- What a step returns to the caller, if the call ends with it, and the RPCs it issues. -/
structure Reply where
  result : Option SprdVdspResult
  rpcs : List Rpc
  deriving DecidableEq, Repr

def ServerClient.goto (s : ServerClient) (t : Nat) (c : Call) : ServerClient :=
  { s with thread := Function.update s.thread t c }

/-- `getVdspService(1)`; a connect after a death begins a new epoch. -/
def ServerClient.connect (s : ServerClient) (answer : Option Service) : ServerClient :=
  let connected := s.g.gInitFlag = false ∧ answer.isSome = true
  { s with
    g := (getVdspService s.g true answer).1
    epoch := if connected ∧ s.died = true then s.epoch + 1 else s.epoch
    died := if connected then false else s.died }

/-- The locked block of an open, with the handle it fills. -/
def ServerClient.openLocked (s : ServerClient) (t : Nat) (type : SprdVdspWorktype) (ret : Int) :
    ServerClient × Reply :=
  match openDeviceLocked s.g type ret with
  | (g, .openok hnd, rpcs) =>
    let h : Handle := ⟨s.nextId, hnd.fd, hnd.generation, type, s.epoch⟩
    ({ s.goto t .idle with
        g := g
        opened := insert h s.opened
        live := insert h s.live
        nextId := s.nextId + 1
        deviceOpen := if rpcs = [] then s.deviceOpen else true }, ⟨some .success, rpcs⟩)
  | (g, .openerror fd, rpcs) => ({ s.goto t (.openError fd) with g := g }, ⟨none, rpcs⟩)

/-- The locked block of a close; it ends the life of the handle unless it fails. -/
def ServerClient.closeLocked (s : ServerClient) (t : Nat) (h : Handle) (ret : Int) : ServerClient × Reply :=
  match closeDeviceLocked s.g h.vdsp ret with
  | (g, result, rpcs) =>
    ({ s.goto t .idle with
        g := g
        live := if result = .fail then s.live else s.live.erase h
        deviceOpen := if result = .success ∧ rpcs ≠ [] then false else s.deviceOpen }, ⟨some result, rpcs⟩)

def ServerClient.step (s : ServerClient) : Event → Option (ServerClient × Reply)
  | .callOpen t type null answer =>
    if s.thread t = .idle then
      match null, (getVdspService s.g true answer).2 with
      | false, some cs => some ((s.connect answer).goto t (.opening type cs), ⟨none, []⟩)
      | _, _ => some (s.connect answer, ⟨some .fail, []⟩)
    else none
  | .openLocked t ret =>
    match s.thread t with
    | .opening type _ => some (s.openLocked t type ret)
    | _ => none
  | .openError t =>
    match s.thread t with
    | .openError fd => some ({ s.goto t .idle with g := openDeviceError s.g fd }, ⟨some .fail, []⟩)
    | _ => none
  | .callClose t handle =>
    if s.thread t = .idle then
      match handle, (getVdspService s.g false none).2 with
      | some h, some cs => some (s.goto t (.closing h cs), ⟨none, []⟩)
      | _, _ => some (s, ⟨some .fail, []⟩)
    else none
  | .closeLocked t ret =>
    match s.thread t with
    | .closing h _ => some (s.closeLocked t h ret)
    | _ => none
  | .callUse t use handle =>
    if s.thread t = .idle then
      match handle, (getVdspService s.g false none).2 with
      | some h, some cs => some (s.goto t (.calling use h cs), ⟨none, []⟩)
      | _, _ => some (s, ⟨some .fail, []⟩)
    else none
  | .useLocked t params =>
    match s.thread t with
    | .calling use h cs =>
      match useLocked s.g use h.vdsp params with
      | (g, .refused result) => some ({ s.goto t .idle with g := g }, ⟨some result, []⟩)
      | (g, .issue) => some ({ s.goto t (.inFlight use h cs) with g := g }, ⟨none, [use.rpc]⟩)
    | _ => none
  | .rpcDone t ret =>
    match s.thread t with
    | .inFlight _ h _ => some ({ s.goto t .idle with g := useDone s.g h.fd }, ⟨some (useResult ret), []⟩)
    | _ => none
  | .serviceDied => some ({ s with g := serviceDied s.g, died := true, deviceOpen := false }, ⟨none, []⟩)

def ServerClient.start : ServerClient where
  g := .start
  thread := fun _ => .idle
  opened := ∅
  live := ∅
  nextId := 0
  epoch := 0
  died := false
  deviceOpen := false

def serverClient : System ServerClient Event where
  init := fun s => s = .start
  step := fun s e => (s.step e).map Prod.fst

/-! ### What a step does to the session

Of the variables that the sessions depend on, the calls before their locked blocks change only what
`getVdspService` changes, and the four calls that issue an RPC change none: `Quiet` collects these steps. -/

/-- The step changed no variable of the session, at most the counters of running commands. -/
structure Quiet (s s' : ServerClient) : Prop where
  working : ∃ w f, s'.g = { s.g with gWorking := w, gFdInfo := f }
  opened : s'.opened = s.opened
  live : s'.live = s.live
  nextId : s'.nextId = s.nextId
  epoch : s'.epoch = s.epoch
  died : s'.died = s.died
  deviceOpen : s'.deviceOpen = s.deviceOpen

theorem Quiet.goto (s : ServerClient) (t : Nat) (c : Call) : Quiet s (s.goto t c) :=
  ⟨⟨s.g.gWorking, s.g.gFdInfo, rfl⟩, rfl, rfl, rfl, rfl, rfl, rfl⟩

theorem Quiet.current {s s' : ServerClient} (h : Quiet s s') : s'.current = s.current := by
  obtain ⟨w, f, hg⟩ := h.working
  unfold ServerClient.current
  rw [h.live, hg]

private theorem useLocked_quiet {g g' : Globals} {use : Use} {hnd : VdspHandle} {params : Bool} {x : UseExit}
    (h : useLocked g use hnd params = (g', x)) : ∃ w f, g' = { g with gWorking := w, gFdInfo := f } := by
  unfold useLocked at h
  split at h
  · obtain ⟨rfl, -⟩ := Prod.mk.injEq .. ▸ h
    exact ⟨g.gWorking, g.gFdInfo, rfl⟩
  · split at h
    · obtain ⟨rfl, -⟩ := Prod.mk.injEq .. ▸ h
      exact ⟨g.gWorking, g.gFdInfo, rfl⟩
    · split at h
      · obtain ⟨rfl, -⟩ := Prod.mk.injEq .. ▸ h
        exact ⟨g.gWorking, g.gFdInfo, rfl⟩
      · split at h <;> obtain ⟨rfl, -⟩ := Prod.mk.injEq .. ▸ h
        · exact ⟨g.gWorking, g.gFdInfo, rfl⟩
        · exact ⟨_, _, rfl⟩

/-- The connect of a client that has no connection. -/
theorem ServerClient.connect_cases (s : ServerClient) (answer : Option Service) :
    s.connect answer = s ∨
      (s.g.gInitFlag = false ∧ ∃ binder, answer = some binder ∧
        (s.connect answer).g = { s.g with
          gFdtable := 0
          gWorkType := .maxtype
          gFdInfo := fun fd => if fd < useFdMaxNum then 0 else s.g.gFdInfo fd
          gVdspService := some binder
          gInitFlag := true
          gOpenedCount := 0 } ∧
        (s.connect answer).epoch = (if s.died = true then s.epoch + 1 else s.epoch) ∧
        (s.connect answer).died = false) := by
  cases hi : s.g.gInitFlag with
  | true =>
    left
    simp [ServerClient.connect, getVdspService, hi]
  | false =>
    cases answer with
    | none =>
      left
      simp [ServerClient.connect, getVdspService, hi]
    | some binder =>
      right
      refine ⟨rfl, binder, rfl, ?_, ?_, ?_⟩ <;> simp [ServerClient.connect, getVdspService, hi]

/-- Every step is quiet or one of the steps that change the session. -/
theorem ServerClient.step_cases {s s' : ServerClient} {e : Event} {r : Reply} (hs : s.step e = some (s', r)) :
    (Quiet s s' ∧ ∀ rpc ∈ r.rpcs, rpc ≠ .closeXrpDevice ∧ ∀ type, rpc ≠ .openXrpDevice type) ∨
    (∃ t type null answer s₁, e = .callOpen t type null answer ∧ s₁ = s.connect answer ∧ Quiet s₁ s' ∧
      r.rpcs = []) ∨
    (∃ t type cs ret, e = .openLocked t ret ∧ s.thread t = .opening type cs ∧ (s', r) = s.openLocked t type ret) ∨
    (∃ t fd, e = .openError t ∧ s.thread t = .openError fd ∧ r = ⟨some .fail, []⟩ ∧
      s' = { s.goto t .idle with g := openDeviceError s.g fd }) ∨
    (∃ t h cs ret, e = .closeLocked t ret ∧ s.thread t = .closing h cs ∧ (s', r) = s.closeLocked t h ret) ∨
    (e = .serviceDied ∧ r = ⟨none, []⟩ ∧
      s' = { s with g := serviceDied s.g, died := true, deviceOpen := false }) := by
  have hsame : ∀ x : ServerClient, Quiet x x := fun x =>
    ⟨⟨x.g.gWorking, x.g.gFdInfo, rfl⟩, rfl, rfl, rfl, rfl, rfl, rfl⟩
  cases e with
  | callOpen t type null answer =>
    right; left
    simp only [ServerClient.step] at hs
    split at hs
    · refine ⟨t, type, null, answer, s.connect answer, rfl, rfl, ?_⟩
      split at hs <;> obtain ⟨rfl, rfl⟩ := Prod.mk.injEq .. ▸ Option.some.inj hs
      · exact ⟨Quiet.goto .., rfl⟩
      · exact ⟨hsame _, rfl⟩
    · cases hs
  | openLocked t ret =>
    right; right; left
    simp only [ServerClient.step] at hs
    split at hs
    · rename_i type cs ht
      exact ⟨t, type, cs, ret, rfl, ht, (Option.some.inj hs).symm⟩
    · cases hs
  | openError t =>
    right; right; right; left
    simp only [ServerClient.step] at hs
    split at hs
    · rename_i fd ht
      obtain ⟨rfl, rfl⟩ := Prod.mk.injEq .. ▸ Option.some.inj hs
      exact ⟨t, fd, rfl, ht, rfl, rfl⟩
    · cases hs
  | callClose t handle =>
    left
    simp only [ServerClient.step] at hs
    split at hs
    · split at hs <;> obtain ⟨rfl, rfl⟩ := Prod.mk.injEq .. ▸ Option.some.inj hs
      · exact ⟨Quiet.goto .., by simp⟩
      · exact ⟨hsame _, by simp⟩
    · cases hs
  | closeLocked t ret =>
    right; right; right; right; left
    simp only [ServerClient.step] at hs
    split at hs
    · rename_i h cs ht
      exact ⟨t, h, cs, ret, rfl, ht, (Option.some.inj hs).symm⟩
    · cases hs
  | callUse t use handle =>
    left
    simp only [ServerClient.step] at hs
    split at hs
    · split at hs <;> obtain ⟨rfl, rfl⟩ := Prod.mk.injEq .. ▸ Option.some.inj hs
      · exact ⟨Quiet.goto .., by simp⟩
      · exact ⟨hsame _, by simp⟩
    · cases hs
  | useLocked t params =>
    left
    simp only [ServerClient.step] at hs
    split at hs
    · rename_i use h cs ht
      split at hs <;> rename_i g _ hu <;> obtain ⟨rfl, rfl⟩ := Prod.mk.injEq .. ▸ Option.some.inj hs
      · exact ⟨⟨useLocked_quiet hu, rfl, rfl, rfl, rfl, rfl, rfl⟩, by simp⟩
      · refine ⟨⟨useLocked_quiet hu, rfl, rfl, rfl, rfl, rfl, rfl⟩, ?_⟩
        cases use <;> simp [Use.rpc]
    · cases hs
  | rpcDone t ret =>
    left
    simp only [ServerClient.step] at hs
    split at hs
    · obtain ⟨rfl, rfl⟩ := Prod.mk.injEq .. ▸ Option.some.inj hs
      exact ⟨⟨⟨_, _, rfl⟩, rfl, rfl, rfl, rfl, rfl, rfl⟩, by simp⟩
    · cases hs
  | serviceDied =>
    right; right; right; right; right
    obtain ⟨rfl, rfl⟩ := Prod.mk.injEq .. ▸ Option.some.inj hs
    exact ⟨rfl, rfl, rfl⟩

/-- The locked block of an open: it fills a new handle with a free fd, or goes to `__openerror`. -/
theorem ServerClient.openLocked_cases (s : ServerClient) (t : Nat) (type : SprdVdspWorktype) (ret : Int) :
    (s.g.grants type ret ∧ ∃ (h : Handle) (table : BitVec 32), h.id = s.nextId ∧
      h.generation = s.g.gGeneration ∧ h.type = type ∧ h.epoch = s.epoch ∧ 0 ≤ h.fd ∧
      h.fd.toNat ∉ bits s.g.gFdtable ∧ bits table = insert h.fd.toNat (bits s.g.gFdtable) ∧
      s.openLocked t type ret =
        ({ s.goto t .idle with
            g := { s.g with gFdtable := table, gOpenedCount := s.g.gOpenedCount + 1, gWorkType := type }
            opened := insert h s.opened
            live := insert h s.live
            nextId := s.nextId + 1
            deviceOpen := if s.g.gOpenedCount = 0 then true else s.deviceOpen },
          ⟨some .success, if s.g.gOpenedCount = 0 then [.openXrpDevice type] else []⟩)) ∨
    (¬ s.g.grants type ret ∧ ∃ (table : BitVec 32) (fd : Int) (rpcs : List Rpc),
      s.openLocked t type ret =
        ({ s.goto t (.openError fd) with g := { s.g with gFdtable := table } }, ⟨none, rpcs⟩) ∧
      bits s.g.gFdtable ⊆ bits table ∧
      (bits table = bits s.g.gFdtable ∨ (s.g.gOpenedCount = 0 ∧ ret ≠ 0)) ∧
      (rpcs = [] ∨ (s.g.gOpenedCount = 0 ∧ ret ≠ 0 ∧ rpcs = [.openXrpDevice type]))) := by
  rcases openDeviceLocked_spec s.g type ret with ⟨hg, i, -, hn, hb, he⟩ | ⟨hg, table, fd, rpcs, he, h1, h2, h3⟩
  · left
    refine ⟨hg, ⟨s.nextId, i, s.g.gGeneration, type, s.epoch⟩, _, rfl, rfl, rfl, rfl, by simp, by simpa using hn,
      by simpa using hb, ?_⟩
    rw [ServerClient.openLocked, he]
    by_cases hc : s.g.gOpenedCount = 0 <;> simp [hc]
  · right
    refine ⟨hg, table, fd, rpcs, ?_, h1, h2, h3⟩
    rw [ServerClient.openLocked, he]

/-- The locked block of a close: the handle is of an older generation, it is refused by the checks, it is refused
after the count was decremented, it ends the session, or it frees the fd. -/
theorem ServerClient.closeLocked_cases (s : ServerClient) (t : Nat) (h : Handle) (ret : Int) :
    (h.generation ≠ s.g.gGeneration ∧
      s.closeLocked t h ret = ({ s.goto t .idle with live := s.live.erase h }, ⟨some .oldGeneration, []⟩)) ∨
    (h.generation = s.g.gGeneration ∧ ¬ s.g.accepts h.vdsp ∧
      s.closeLocked t h ret = (s.goto t .idle, ⟨some .fail, []⟩)) ∨
    (s.g.accepts h.vdsp ∧ s.g.refuses h.vdsp ret ∧ ∃ rpcs, s.closeLocked t h ret =
      ({ s.goto t .idle with g := { s.g with gOpenedCount := s.g.gOpenedCount - 1 } }, ⟨some .fail, rpcs⟩) ∧
      (rpcs = [] ∨ (s.g.gOpenedCount = 1 ∧ s.g.gWorking = 0 ∧ rpcs = [.closeXrpDevice]))) ∨
    (s.g.accepts h.vdsp ∧ ¬ s.g.refuses h.vdsp ret ∧ s.g.gOpenedCount = 1 ∧ s.closeLocked t h ret =
      ({ s.goto t .idle with
          g := { putVdspService { s.g with gOpenedCount := 0, gFdtable := (freeFd s.g.gFdtable h.fd).2 } with
            gWorkType := .maxtype }
          live := s.live.erase h
          deviceOpen := false }, ⟨some .success, [.closeXrpDevice]⟩)) ∨
    (s.g.accepts h.vdsp ∧ ¬ s.g.refuses h.vdsp ret ∧ s.g.gOpenedCount ≠ 1 ∧ s.closeLocked t h ret =
      ({ s.goto t .idle with
          g := { s.g with gOpenedCount := s.g.gOpenedCount - 1, gFdtable := (freeFd s.g.gFdtable h.fd).2 }
          live := s.live.erase h }, ⟨some .success, []⟩)) := by
  rcases closeDeviceLocked_spec s.g h.vdsp ret with ⟨h1, he⟩ | ⟨h1, h2, he⟩ | ⟨h1, h2, rpcs, he, h3⟩ |
    ⟨h1, h2, h3, he⟩ | ⟨h1, h2, h3, he⟩
  · left
    refine ⟨h1, ?_⟩
    rw [ServerClient.closeLocked, he]
    simp [ServerClient.goto]
  · right; left
    refine ⟨h1, h2, ?_⟩
    rw [ServerClient.closeLocked, he]
    simp [ServerClient.goto]
  · right; right; left
    refine ⟨h1, h2, rpcs, ?_, h3⟩
    rw [ServerClient.closeLocked, he]
    simp [ServerClient.goto]
  · right; right; right; left
    refine ⟨h1, h2, h3, ?_⟩
    rw [ServerClient.closeLocked, he]
    simp [ServerClient.goto, Handle.vdsp]
  · right; right; right; right
    refine ⟨h1, h2, h3, ?_⟩
    rw [ServerClient.closeLocked, he]
    simp [ServerClient.goto, Handle.vdsp]

end Vdsp
