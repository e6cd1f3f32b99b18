import Vdsp.Lib.Monitor
import Vdsp.Server.Client

/-!
# The lock discipline of the server-mode client

The functions of `vdsp_server_interface.cpp` statement by statement, with what each does to `gLock` on each of
its exits: `AutoMutex` blocks, pairs of `gLock.lock` and `gLock.unlock`, and the exits through a label.  All of
them are balanced but the exit of a close whose handle is of an older generation, which unlocks in an
`AutoMutex` block.
-/

namespace Vdsp.GLock

open Lts Monitor

/-- What a statement may get from outside: a service, the return value of an RPC, the outcome of an allocation. -/
structure Answer where
  binder : Option Service
  ret : Int
  params : Bool
  deriving DecidableEq, Repr

/-- What a call returns. -/
inductive Returned
  | void
  | service (cs : Option Service)
  | result (r : SprdVdspResult)
  | opened (handle : VdspHandle)
  deriving DecidableEq, Repr

abbrev ServCode := Code Globals Answer Returned

def fail : ServCode := .ret (.result .fail)

def autoMutex (block : (ServCode → ServCode) → ServCode) : ServCode := guarded block

/-- An RPC to the service. -/
def rpc (_ : Rpc) (k : Int → ServCode) : ServCode := .ask fun a => k a.ret

/-- `gWorking` and `working` of the fd, `d` up. -/
def countUse (fd d : Int) (g : Globals) : Globals :=
  { g with
    gWorking := g.gWorking + d
    gFdInfo := Function.update g.gFdInfo fd.toNat (g.gFdInfo fd.toNat + d) }

/-- `getVdspService`, before the rest `k` of its caller. -/
def getVdspService (realget : Bool) (k : Option Service → ServCode) : ServCode :=
  autoMutex fun leave =>
    let done : ServCode := .read fun g => leave (k g.gVdspService)
    .read fun g =>
      if g.gInitFlag = false ∧ realget = true then
        .ask fun a =>
          match a.binder with
          | some binder =>
            .write (fun g => { g with gFdtable := 0 }) <|
            .write (fun g => { g with gWorkType := .maxtype }) <|
            .write (fun g => { g with gFdInfo := fun fd => if fd < useFdMaxNum then 0 else g.gFdInfo fd }) <|
            .write (fun g => { g with gVdspService := some binder }) <|
            .write (fun g => { g with gInitFlag := true }) <|
            .write (fun g => { g with gOpenedCount := 0 }) done
          | none => done
      else done

/-- `VdspClientDeathRecipient::serviceDied`. -/
def serviceDied : ServCode :=
  autoMutex fun leave =>
    .write (fun g => { g with gInitFlag := false }) <|
    .write (fun g => { g with gGeneration := g.gGeneration + 1 }) (leave (.ret .void))

/-- `__openerror`, behind the block. -/
def openError (fd : Int) : ServCode :=
  if fd > 0 then .write (fun g => { g with gFdtable := (freeFd g.gFdtable fd).2 }) fail else fail

/-- `sprd_vdsp_open_device_serv`, with a `NULL` handle or not. -/
def openDeviceServ (type : SprdVdspWorktype) (null : Bool) : ServCode :=
  getVdspService true fun cs =>
    if null = true ∨ cs = none then fail
    else autoMutex fun leave =>
      .read fun g =>
        let fd := (allocFd g.gFdtable).1
        .write (fun g => { g with gFdtable := (allocFd g.gFdtable).2 }) <|
        if fd < 0 then leave (openError fd)
        else .read fun g =>
          let ok : ServCode := .ret (.opened ⟨fd, g.gGeneration⟩)
          if g.gOpenedCount = 0 then
            rpc (.openXrpDevice type) fun ret =>
              if ret = SprdVdspResult.success.toInt then
                .write (fun g => { g with gOpenedCount := g.gOpenedCount + 1 }) <|
                .write (fun g => { g with gWorkType := type }) (leave ok)
              else leave (openError fd)
          else if type = g.gWorkType then
            .write (fun g => { g with gOpenedCount := g.gOpenedCount + 1 }) (leave ok)
          else
            .write (fun g => { g with gFdtable := (freeFd g.gFdtable fd).2 }) (leave (openError fd))

/-- A close behind its two checks. -/
def closeChecked (leave : ServCode → ServCode) (fd : Int) : ServCode :=
  .write (fun g => { g with gOpenedCount := g.gOpenedCount - 1 }) <|
  .read fun g =>
    if g.gOpenedCount = 0 then
      if g.gWorking ≠ 0 then leave fail
      else rpc .closeXrpDevice fun ret =>
        if ret = SprdVdspResult.success.toInt then
          .write (fun g => { g with gFdtable := (freeFd g.gFdtable fd).2 }) <|
          .write putVdspService <|
          .write (fun g => { g with gWorkType := .maxtype }) (leave (.ret (.result .success)))
        else leave fail
    else if g.gFdInfo fd.toNat = 0 then
      .write (fun g => { g with gFdtable := (freeFd g.gFdtable fd).2 }) (leave (.ret (.result .success)))
    else leave fail

/-- The two checks of a close; the first exit unlocks and then leaves the block. -/
def closeChecks (leave : ServCode → ServCode) (hnd : VdspHandle) (g : Globals) : ServCode :=
  if checkGenrationValid g hnd.generation ≠ 0 then .unlock (leave (.ret (.result .oldGeneration)))
  else .read fun g =>
    if checkFdValid g.gFdtable hnd.fd ≠ 0 then leave fail
    else closeChecked leave hnd.fd

/-- `sprd_vdsp_close_device_serv`. -/
def closeDeviceServ : Option VdspHandle → ServCode
  | none => fail
  | some hnd =>
    getVdspService false fun cs =>
      if cs = none then fail
      else autoMutex fun leave => .read (closeChecks leave hnd)

/-- `n` calls of `create_hidl_params`. -/
def createHidlParams : Nat → ServCode → ServCode → ServCode
  | 0, _, k => k
  | n + 1, err, k => .ask fun a => if a.params = false then err else createHidlParams n err k

/-- A call that issues an RPC outside the lock and marshals `params` parameters before. -/
def useServ (use : Use) (params : Nat) (handle : Option VdspHandle) : ServCode :=
  getVdspService false fun cs =>
    match cs, handle with
    | some _, some hnd =>
      .lock <| .read fun g =>
        if checkGenrationValid g hnd.generation ≠ 0 then .unlock (.ret (.result .oldGeneration))
        else .read fun g =>
          if checkFdValid g.gFdtable hnd.fd ≠ 0 then .unlock fail
          else .read fun g =>
            if g.gOpenedCount = 0 then .unlock fail
            else createHidlParams params (.unlock fail) <|
              .write (countUse hnd.fd 1) <| .unlock <|
              rpc use.rpc fun ret =>
                .lock <| .write (countUse hnd.fd (-1)) <| .unlock (.ret (.result (useResult ret)))
    | _, _ => fail

/-- `sprd_vdsp_send_cmd_serv`, with an input and an output or without, and `bufnum` buffers. -/
def sendCmdServ (handle : Option VdspHandle) (input output : Bool) (bufnum : Nat) : ServCode :=
  useServ .sendCmd (input.toNat + output.toNat + if bufnum ≠ 0 then 1 else 0) handle

/-- `sprd_vdsp_loadlibrary_serv`. -/
def loadlibraryServ (handle : Option VdspHandle) : ServCode := useServ .loadlibrary 1 handle

/-- `sprd_vdsp_unloadlibrary_serv`. -/
def unloadlibraryServ (handle : Option VdspHandle) : ServCode := useServ .unloadlibrary 0 handle

/-- `sprd_vdsp_power_hint_serv`. -/
def powerHintServ (handle : Option VdspHandle) : ServCode := useServ .powerHint 0 handle

inductive ServCall
  | getVdspService (realget : Bool)
  | serviceDied
  | openDevice (type : SprdVdspWorktype) (null : Bool)
  | closeDevice (handle : Option VdspHandle)
  | sendCmd (handle : Option VdspHandle) (input output : Bool) (bufnum : Nat)
  | loadlibrary (handle : Option VdspHandle)
  | unloadlibrary (handle : Option VdspHandle)
  | powerHint (handle : Option VdspHandle)
  deriving DecidableEq, Repr

def ServCall.code : ServCall → ServCode
  | .getVdspService realget => GLock.getVdspService realget fun cs => .ret (.service cs)
  | .serviceDied => GLock.serviceDied
  | .openDevice type null => openDeviceServ type null
  | .closeDevice handle => closeDeviceServ handle
  | .sendCmd handle input output bufnum => sendCmdServ handle input output bufnum
  | .loadlibrary handle => loadlibraryServ handle
  | .unloadlibrary handle => unloadlibraryServ handle
  | .powerHint handle => powerHintServ handle

/-- Any number of threads run the client from the static variables `g`. -/
def servThreads (g : Globals) : System (State Globals Answer Returned) (Event ServCall Answer) :=
      machine ServCall.code g

/-- The handle of a close that has the lock is of the current generation. -/
def closesCurrent (s : State Globals Answer Returned) : Event ServCall Answer → Prop
  | .run t _ => ∀ hnd, s.code t = some (.read (closeChecks .unlock hnd)) → hnd.generation = s.shared.gGeneration
  | _ => True

/-! ### All exits but one are balanced -/

/-- The test of a close whose first exit is not balanced. -/
def ClosesTest (k : Globals → ServCode) : Prop := ∃ hnd, k = closeChecks .unlock hnd

abbrev Even (held : Bool) (c : ServCode) : Prop := Monitor.Balanced ClosesTest held c

theorem even_fail : Even false fail := .ret _

theorem even_getVdspService {realget : Bool} {k : Option Service → ServCode} (hk : ∀ cs, Even false (k cs)) :
    Even false (getVdspService realget k) := by
  have hdone : Even true (.read fun g => .unlock (k g.gVdspService)) := .read fun g => .unlock (hk _)
  refine .lock (.read fun g => ?_)
  split
  · refine .ask fun a => ?_
    split
    · exact .write (.write (.write (.write (.write (.write hdone)))))
    · exact hdone
  · exact hdone

theorem even_serviceDied : Even false serviceDied := .lock (.write (.write (.unlock (.ret _))))

theorem even_openError (fd : Int) : Even false (openError fd) := by
  unfold openError
  split
  · exact .write even_fail
  · exact even_fail

theorem even_openDeviceServ (type : SprdVdspWorktype) (null : Bool) : Even false (openDeviceServ type null) := by
  refine even_getVdspService fun cs => ?_
  split
  · exact even_fail
  · refine .lock (.read fun g => .write ?_)
    split
    · exact .unlock (even_openError _)
    · refine .read fun g => ?_
      split
      · refine .ask fun a => ?_
        dsimp only
        split
        · exact .write (.write (.unlock (.ret _)))
        · exact .unlock (even_openError _)
      · split
        · exact .write (.unlock (.ret _))
        · exact .write (.unlock (even_openError _))

theorem even_closeChecked (fd : Int) : Even true (closeChecked .unlock fd) := by
  refine .write (.read fun g => ?_)
  split
  · split
    · exact .unlock even_fail
    · refine .ask fun a => ?_
      dsimp only
      split
      · exact .write (.write (.write (.unlock (.ret _))))
      · exact .unlock even_fail
  · split
    · exact .write (.unlock (.ret _))
    · exact .unlock even_fail

/-- The rest of a close of the current generation. -/
theorem even_closeChecks {hnd : VdspHandle} {g : Globals} (h : hnd.generation = g.gGeneration) :
    Even true (closeChecks .unlock hnd g) := by
  unfold closeChecks
  rw [if_neg (not_not.2 (checkGenrationValid_eq_zero.2 h))]
  refine .read fun g => ?_
  split
  · exact .unlock even_fail
  · exact even_closeChecked _

theorem even_closeDeviceServ (handle : Option VdspHandle) : Even false (closeDeviceServ handle) := by
  cases handle with
  | none => exact even_fail
  | some hnd =>
    unfold closeDeviceServ
    refine even_getVdspService fun cs => ?_
    split
    · exact even_fail
    · exact .lock (.marked ⟨hnd, rfl⟩)

theorem even_createHidlParams {n : Nat} {err k : ServCode} (herr : Even true err) (hk : Even true k) :
    Even true (createHidlParams n err k) := by
  induction n with
  | zero => exact hk
  | succ n ih =>
    refine .ask fun a => ?_
    split
    · exact herr
    · exact ih

theorem even_useServ (use : Use) (params : Nat) (handle : Option VdspHandle) :
    Even false (useServ use params handle) := by
  refine even_getVdspService fun cs => ?_
  split
  · refine .lock (.read fun g => ?_)
    split
    · exact .unlock (.ret _)
    · refine .read fun g => ?_
      split
      · exact .unlock even_fail
      · refine .read fun g => ?_
        split
        · exact .unlock even_fail
        · refine even_createHidlParams (.unlock even_fail) ?_
          exact .write (.unlock (.ask fun a => .lock (.write (.unlock (.ret _)))))
  · exact even_fail

theorem even_code (c : ServCall) : Even false c.code := by
  cases c with
  | getVdspService realget => exact even_getVdspService fun cs => .ret _
  | serviceDied => exact even_serviceDied
  | openDevice type null => exact even_openDeviceServ type null
  | closeDevice handle => exact even_closeDeviceServ handle
  | sendCmd handle | loadlibrary handle | unloadlibrary handle | powerHint handle => exact even_useServ _ _ handle

/-- A close of an older generation unlocks once too often. -/
theorem closeChecks_undisciplined {s : State Globals Answer Returned} {t : Nat} {hnd : VdspHandle}
    (hc : s.code t = some (.read (closeChecks .unlock hnd))) (hgen : hnd.generation ≠ s.shared.gGeneration)
    (a : Answer) (g : Globals) :
    ∃ s', (servThreads g).exec anyStep s [.run t a, .run t a] = some s' ∧ ¬ Disciplined s' := by
  have hk : closeChecks .unlock hnd s.shared = .unlock (.unlock (.ret (.result .oldGeneration))) := by
    unfold closeChecks
    rw [if_pos (fun h => hgen (checkGenrationValid_eq_zero.1 h))]
  refine ⟨_, by simp [System.exec, servThreads, machine, Monitor.step, hc, hk, State.goto, anyStep]; rfl,
    fun hd => ?_⟩
  have := hd.unlocks t (.ret (.result .oldGeneration)) (by simp)
  simp at this

/-- In the runs whose closes that have the lock are of the current generation, only the thread that holds
`gLock` unlocks it, no call returns with it, and at most one thread is in a block under it.  Any other close
breaks this. -/
theorem gLock_disciplined {g : Globals} {s : State Globals Answer Returned}
    (h : Reach (servThreads g) closesCurrent s) :
    Disciplined s ∧
      ∀ t a, ¬ closesCurrent s (.run t a) →
        ∃ s', (servThreads g).exec anyStep s [.run t a, .run t a] = some s' ∧ ¬ Disciplined s' := by
  refine ⟨Held.disciplined (held_of_reach even_code ?_ h), fun t a hn => ?_⟩
  · rintro s t a k hok hk ⟨hnd, rfl⟩
    exact even_closeChecks (hok hnd hk)
  · simp only [closesCurrent, not_forall] at hn
    obtain ⟨hnd, hc, hgen⟩ := hn
    exact closeChecks_undisciplined hc hgen a g

/-- Every RPC succeeds. -/
def granted : Answer := ⟨some 7, 0, true⟩

/-- The service has died and its notification has the lock; a close waits for it. -/
theorem gLock_disciplined_waiting :
    ∃ s, Reach (servThreads .start) closesCurrent s ∧ s.holder = some 0 ∧ s.inside 1 = false ∧
      (∃ k, s.code 1 = some (.lock k)) ∧ Disciplined s := by
  have h₀ : Reach (servThreads .start) closesCurrent (start .start) := .start rfl
  have h₁ := h₀.step (l := Event.enter 0 .serviceDied) trivial rfl
  have h₂ := h₁.step (l := Event.run 0 granted) (fun _ h => by cases h) rfl
  have h₃ := h₂.step (l := Event.enter 1 (.closeDevice (some ⟨0, 0⟩))) trivial rfl
  exact ⟨_, h₃, rfl, rfl, ⟨_, rfl⟩, (gLock_disciplined h₃).1⟩

/-- A client opens, the service dies, and the client closes the handle; between the two unlocks of that close
thread 1 takes the lock, and thread 2 takes it after them. -/
def unlocksTwice : List (Event ServCall Answer) :=
  .enter 0 (.openDevice .normal false) :: List.replicate 20 (.run 0 granted) ++
  .enter 1 .serviceDied :: List.replicate 5 (.run 1 granted) ++
  .enter 0 (.closeDevice (some ⟨0, 0⟩)) :: List.replicate 7 (.run 0 granted) ++
  [.enter 1 (.getVdspService false), .run 1 granted, .run 0 granted, .enter 2 (.getVdspService false),
    .run 2 granted]

theorem unlocksTwice_undisciplined : ¬ ∀ s, Reach (servThreads .start) anyStep s → Disciplined s := by
  intro hall
  obtain ⟨s, -, hr, hp⟩ := Reach.exists_exec (servThreads .start) anyStep (start .start) unlocksTwice
    (fun s => s.inside 1 && s.inside 2) rfl (by decide +kernel)
  rw [Bool.and_eq_true] at hp
  have := (hall s hr).exclusive 1 2 hp.1 hp.2
  omega

end Vdsp.GLock
