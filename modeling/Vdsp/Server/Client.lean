import Vdsp.Types
import Vdsp.Server.Table
import Mathlib.Logic.Function.Basic

/-!
# The locked blocks of the server-mode client (`vdsp_server_interface.cpp`)

The static variables of the client, the two functions that connect to the service and drop the connection, and
the blocks that the calls execute under `gLock`.  A block is a function from the variables (and the answers of
the service) to the variables and the way it is left.  `openDeviceLocked_spec` and `closeDeviceLocked_spec` list
what the two blocks that change the session can do.
-/

namespace Vdsp

open Bitmap

/-- A strong pointer to a service. -/
abbrev Service := Nat

/-- The calls of the service. -/
inductive Rpc
  | openXrpDevice (type : SprdVdspWorktype)
  | closeXrpDevice
  | sendXrpCommand
  | loadXrpLibrary
  | unloadXrpLibrary
  | powerHint
  deriving DecidableEq, Repr

/-- The static variables of `vdsp_server_interface.cpp`. -/
structure Globals where
  gInitFlag : Bool
  gGeneration : BitVec 32
  gVdspService : Option Service
  gOpenedCount : Int
  gWorkType : SprdVdspWorktype
  gWorking : Int
  /-- `g_FdInfo[fd].working`. -/
  gFdInfo : Nat → Int
  gFdtable : BitVec 32

/-- The variables at load time. -/
def Globals.start : Globals where
  gInitFlag := false
  gGeneration := 0
  gVdspService := none
  gOpenedCount := 0
  gWorkType := .maxtype
  gWorking := 0
  gFdInfo := fun _ => 0
  gFdtable := 0

/-- `Check_GenrationValid`. -/
def checkGenrationValid (g : Globals) (generation : BitVec 32) : Int :=
  if generation = g.gGeneration then 0 else -1

/-- `VdspClientDeathRecipient::serviceDied`. -/
def serviceDied (g : Globals) : Globals :=
  { g with gInitFlag := false, gGeneration := g.gGeneration + 1 }

/-- `getVdspService`, where `IVdspService::getService` gives `answer` if it is called. -/
def getVdspService (g : Globals) (realget : Bool) (answer : Option Service) : Globals × Option Service :=
  if g.gInitFlag = false ∧ realget = true then
    match answer with
    | some binder =>
      ({ g with
        gFdtable := 0
        gWorkType := .maxtype
        gFdInfo := fun fd => if fd < useFdMaxNum then 0 else g.gFdInfo fd
        gVdspService := some binder
        gInitFlag := true
        gOpenedCount := 0 }, some binder)
    | none => (g, g.gVdspService)
  else (g, g.gVdspService)

/-- `putVdspService`. -/
def putVdspService (g : Globals) : Globals :=
  if g.gInitFlag then { g with gVdspService := none, gInitFlag := false, gOpenedCount := 0 } else g

/-- How the locked block of `sprd_vdsp_open_device_serv` is left. -/
inductive OpenExit
  | openok (handle : VdspHandle)
  | openerror (fd : Int)
  deriving DecidableEq, Repr

/-- The locked block of `sprd_vdsp_open_device_serv`; `ret` is what `openXrpDevice` returns if it is called. -/
def openDeviceLocked (g : Globals) (type : SprdVdspWorktype) (ret : Int) : Globals × OpenExit × List Rpc :=
  let fd := (allocFd g.gFdtable).1
  let g := { g with gFdtable := (allocFd g.gFdtable).2 }
  if fd < 0 then (g, .openerror fd, [])
  else if g.gOpenedCount = 0 then
    if ret = SprdVdspResult.success.toInt then
      ({ g with gOpenedCount := g.gOpenedCount + 1, gWorkType := type }, .openok ⟨fd, g.gGeneration⟩,
        [.openXrpDevice type])
    else (g, .openerror fd, [.openXrpDevice type])
  else if type = g.gWorkType then
    ({ g with gOpenedCount := g.gOpenedCount + 1 }, .openok ⟨fd, g.gGeneration⟩, [])
  else ({ g with gFdtable := (freeFd g.gFdtable fd).2 }, .openerror fd, [])

/-- What `sprd_vdsp_open_device_serv` does at `__openerror`, where the lock is no longer held. -/
def openDeviceError (g : Globals) (fd : Int) : Globals :=
  if fd > 0 then { g with gFdtable := (freeFd g.gFdtable fd).2 } else g

/-- The locked block of `sprd_vdsp_close_device_serv`; `ret` is what `closeXrpDevice` returns if it is called. -/
def closeDeviceLocked (g : Globals) (hnd : VdspHandle) (ret : Int) : Globals × SprdVdspResult × List Rpc :=
  if checkGenrationValid g hnd.generation ≠ 0 then (g, .oldGeneration, [])
  else if checkFdValid g.gFdtable hnd.fd ≠ 0 then (g, .fail, [])
  else
    let g := { g with gOpenedCount := g.gOpenedCount - 1 }
    if g.gOpenedCount = 0 then
      if g.gWorking ≠ 0 then (g, .fail, [])
      else if ret = SprdVdspResult.success.toInt then
        let g := { g with gFdtable := (freeFd g.gFdtable hnd.fd).2 }
        let g := putVdspService g
        ({ g with gWorkType := .maxtype }, .success, [.closeXrpDevice])
      else (g, .fail, [.closeXrpDevice])
    else if g.gFdInfo hnd.fd.toNat = 0 then
      ({ g with gFdtable := (freeFd g.gFdtable hnd.fd).2 }, .success, [])
    else (g, .fail, [])

/-- The four calls that issue one RPC outside the lock. -/
inductive Use
  | sendCmd
  | loadlibrary
  | unloadlibrary
  | powerHint
  deriving DecidableEq, Repr

def Use.rpc : Use → Rpc
  | sendCmd => .sendXrpCommand
  | loadlibrary => .loadXrpLibrary
  | unloadlibrary => .unloadXrpLibrary
  | powerHint => .powerHint

/-- Does the block call `create_hidl_params`? -/
def Use.marshals : Use → Bool
  | sendCmd | loadlibrary => true
  | unloadlibrary | powerHint => false

/-- How the first locked block of such a call is left: refused, or towards the RPC. -/
inductive UseExit
  | refused (result : SprdVdspResult)
  | issue
  deriving DecidableEq, Repr

/-- The first locked block of the four calls; `params` tells whether the calls of `create_hidl_params` succeed. -/
def useLocked (g : Globals) (use : Use) (hnd : VdspHandle) (params : Bool) : Globals × UseExit :=
  if checkGenrationValid g hnd.generation ≠ 0 then (g, .refused .oldGeneration)
  else if checkFdValid g.gFdtable hnd.fd ≠ 0 then (g, .refused .fail)
  else if g.gOpenedCount = 0 then (g, .refused .fail)
  else if use.marshals = true ∧ params = false then (g, .refused .fail)
  else
    ({ g with
      gWorking := g.gWorking + 1
      gFdInfo := Function.update g.gFdInfo hnd.fd.toNat (g.gFdInfo hnd.fd.toNat + 1) }, .issue)

def sprdVdspSendCmdServ (g : Globals) := useLocked g .sendCmd
def sprdVdspLoadlibraryServ (g : Globals) := useLocked g .loadlibrary
def sprdVdspUnloadlibraryServ (g : Globals) := useLocked g .unloadlibrary
def sprdVdspPowerHintServ (g : Globals) := useLocked g .powerHint

/-- The second locked block of the four calls, after the RPC. -/
def useDone (g : Globals) (fd : Int) : Globals :=
  { g with
    gWorking := g.gWorking - 1
    gFdInfo := Function.update g.gFdInfo fd.toNat (g.gFdInfo fd.toNat - 1) }

/-- What the four calls return after the RPC. -/
def useResult (ret : Int) : SprdVdspResult :=
  if ret = SprdVdspResult.success.toInt then .success else .fail

/-! ### What the blocks can do -/

/-- The handle passes `Check_GenrationValid` and `Check_FdValid`. -/
def Globals.accepts (g : Globals) (hnd : VdspHandle) : Prop :=
  checkGenrationValid g hnd.generation = 0 ∧ checkFdValid g.gFdtable hnd.fd = 0

instance (g : Globals) (hnd : VdspHandle) : Decidable (g.accepts hnd) :=
  inferInstanceAs (Decidable (_ ∧ _))

/-- An open would be granted: an fd is free, and the device opens or is open with the same work type. -/
def Globals.grants (g : Globals) (type : SprdVdspWorktype) (ret : Int) : Prop :=
  0 ≤ (allocFd g.gFdtable).1 ∧ (g.gOpenedCount = 0 → ret = 0) ∧ (g.gOpenedCount ≠ 0 → type = g.gWorkType)

instance (g : Globals) (type : SprdVdspWorktype) (ret : Int) : Decidable (g.grants type ret) :=
  inferInstanceAs (Decidable (_ ∧ _ ∧ _))

/-- A close that passed the two checks would be refused: commands are running, or `closeXrpDevice` fails. -/
def Globals.refuses (g : Globals) (hnd : VdspHandle) (ret : Int) : Prop :=
  (g.gOpenedCount = 1 ∧ (g.gWorking ≠ 0 ∨ ret ≠ 0)) ∨ (g.gOpenedCount ≠ 1 ∧ g.gFdInfo hnd.fd.toNat ≠ 0)

instance (g : Globals) (hnd : VdspHandle) (ret : Int) : Decidable (g.refuses hnd ret) :=
  inferInstanceAs (Decidable (_ ∨ _))

@[simp] theorem checkGenrationValid_eq_zero {g : Globals} {n : BitVec 32} :
    checkGenrationValid g n = 0 ↔ n = g.gGeneration := by
  unfold checkGenrationValid
  split <;> simp_all

theorem Globals.accepts_iff {g : Globals} {hnd : VdspHandle} :
    g.accepts hnd ↔ hnd.generation = g.gGeneration ∧ 0 ≤ hnd.fd ∧ hnd.fd.toNat ∈ bits g.gFdtable := by
  rw [Globals.accepts, checkGenrationValid_eq_zero, checkFdValid_eq_zero]

/-- An open takes a free fd and counts it, or is left at `__openerror` having changed at most the table. -/
theorem openDeviceLocked_spec (g : Globals) (type : SprdVdspWorktype) (ret : Int) :
    (g.grants type ret ∧ ∃ i : Nat, i < useFdMaxNum ∧ i ∉ bits g.gFdtable ∧
      bits (allocFd g.gFdtable).2 = insert i (bits g.gFdtable) ∧
      openDeviceLocked g type ret =
        ({ g with gFdtable := (allocFd g.gFdtable).2, gOpenedCount := g.gOpenedCount + 1, gWorkType := type },
          .openok ⟨i, g.gGeneration⟩, if g.gOpenedCount = 0 then [.openXrpDevice type] else [])) ∨
    (¬ g.grants type ret ∧ ∃ t fd rpcs, openDeviceLocked g type
      ret = ({ g with gFdtable := t }, .openerror fd, rpcs) ∧
      bits g.gFdtable ⊆ bits t ∧ (bits t = bits g.gFdtable ∨ (g.gOpenedCount = 0 ∧ ret ≠ 0)) ∧
      (rpcs = [] ∨ (g.gOpenedCount = 0 ∧ ret ≠ 0 ∧ rpcs = [.openXrpDevice type]))) := by
  rcases allocFd_spec g.gFdtable with ⟨i, hi, hn, -, hfd, hb⟩ | ⟨hfull, hfail⟩
  · have h0 : ¬ (allocFd g.gFdtable).1 < 0 := by omega
    by_cases hc : g.gOpenedCount = 0
    · by_cases hr : ret = 0
      · left
        refine ⟨⟨by omega, fun _ => hr, fun h => absurd hc h⟩, i, hi, hn, hb, ?_⟩
        simp [openDeviceLocked, hc, hr, SprdVdspResult.toInt, hfd]
      · right
        refine ⟨fun h => hr (h.2.1 hc), (allocFd g.gFdtable).2, i, [.openXrpDevice type], ?_, ?_, .inr ⟨hc, hr⟩,
          .inr ⟨hc, hr, rfl⟩⟩
        · simp [openDeviceLocked, hc, hr, SprdVdspResult.toInt, hfd]
        · rw [hb]
          exact Finset.subset_insert _ _
    · by_cases ht : type = g.gWorkType
      · left
        refine ⟨⟨by omega, fun h => absurd h hc, fun _ => ht⟩, i, hi, hn, hb, ?_⟩
        subst ht
        simp [openDeviceLocked, hc, hfd]
      · right
        have hback := bits_freeFd_allocFd (Int.not_lt.1 h0)
        refine ⟨fun h => ht (h.2.2 hc), (freeFd (allocFd g.gFdtable).2 (allocFd g.gFdtable).1).2, i, [], ?_, ?_,
          .inl hback, .inl rfl⟩
        · simp [openDeviceLocked, hc, ht, hfd]
        · rw [hback]
  · right
    refine ⟨fun h => ?_, g.gFdtable, -1, [], ?_, Finset.Subset.refl _, .inl rfl, .inl rfl⟩
    · have := h.1
      rw [hfail] at this
      simp at this
    · simp [openDeviceLocked, hfail]

/-- The five ways out of the locked block of a close. -/
theorem closeDeviceLocked_spec (g : Globals) (hnd : VdspHandle) (ret : Int) :
    (hnd.generation ≠ g.gGeneration ∧ closeDeviceLocked g hnd ret = (g, .oldGeneration, [])) ∨
    (hnd.generation = g.gGeneration ∧ ¬ g.accepts hnd ∧ closeDeviceLocked g hnd ret = (g, .fail, [])) ∨
    (g.accepts hnd ∧ g.refuses hnd ret ∧ ∃ rpcs,
      closeDeviceLocked g hnd ret = ({ g with gOpenedCount := g.gOpenedCount - 1 }, .fail, rpcs) ∧
      (rpcs = [] ∨ (g.gOpenedCount = 1 ∧ g.gWorking = 0 ∧ rpcs = [.closeXrpDevice]))) ∨
    (g.accepts hnd ∧ ¬ g.refuses hnd ret ∧ g.gOpenedCount = 1 ∧ closeDeviceLocked g hnd ret =
      ({ putVdspService { g with gOpenedCount := 0, gFdtable := (freeFd g.gFdtable hnd.fd).2 } with
        gWorkType := .maxtype }, .success, [.closeXrpDevice])) ∨
    (g.accepts hnd ∧ ¬ g.refuses hnd ret ∧ g.gOpenedCount ≠ 1 ∧ closeDeviceLocked g hnd ret =
      ({ g with gOpenedCount := g.gOpenedCount - 1, gFdtable := (freeFd g.gFdtable hnd.fd).2 },
      .success, [])) := by
  by_cases hg : hnd.generation = g.gGeneration
  · by_cases hf : checkFdValid g.gFdtable hnd.fd = 0
    · have ha : g.accepts hnd := ⟨checkGenrationValid_eq_zero.2 hg, hf⟩
      by_cases hc : g.gOpenedCount = 1
      · by_cases hw : g.gWorking = 0
        · by_cases hr : ret = 0
          · right; right; right; left
            refine ⟨ha, by simp [Globals.refuses, hc, hw, hr], hc, ?_⟩
            simp [closeDeviceLocked, hg, hf, hc, hw, hr, SprdVdspResult.toInt]
          · right; right; left
            refine ⟨ha, by simp [Globals.refuses, hc, hr], [.closeXrpDevice], ?_, .inr ⟨hc, hw, rfl⟩⟩
            simp [closeDeviceLocked, hg, hf, hc, hw, hr, SprdVdspResult.toInt]
        · right; right; left
          refine ⟨ha, by simp [Globals.refuses, hc, hw], [], ?_, .inl rfl⟩
          simp [closeDeviceLocked, hg, hf, hc, hw]
      · have hc' : ¬ g.gOpenedCount - 1 = 0 := by omega
        by_cases hw : g.gFdInfo hnd.fd.toNat = 0
        · right; right; right; right
          refine ⟨ha, by simp [Globals.refuses, hc, hw], hc, ?_⟩
          simp [closeDeviceLocked, hg, hf, hc', hw]
        · right; right; left
          refine ⟨ha, by simp [Globals.refuses, hc, hw], [], ?_, .inl rfl⟩
          simp [closeDeviceLocked, hg, hf, hc', hw]
    · right; left
      refine ⟨hg, fun h => hf h.2, ?_⟩
      simp [closeDeviceLocked, hg, hf]
  · left
    exact ⟨hg, by simp [closeDeviceLocked, hg]⟩

end Vdsp
