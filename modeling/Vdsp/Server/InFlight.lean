import Vdsp.Lib.Counting
import Vdsp.Server.Threads

/-!
# The calls in flight

The four calls that issue an RPC count themselves in `gWorking` and in `working` of their fd before they drop
the lock, and take themselves out of both when they have it again.  `gWorking` is the number of calls in flight
in every state; the counter of an fd is it only until a call comes back to another session than it left.
-/

namespace Vdsp

open Bitmap Counting Lts

/-- The handle of a call that is between its two locked blocks. -/
def Call.flight : Call → Option Handle
  | .inFlight _ h _ => some h
  | _ => none

def ServerClient.flight (s : ServerClient) (t : Nat) : Option Handle := (s.thread t).flight

/-- The thread `t` has a call in flight that was started through a handle with `fd` and the current generation.
-/
def ServerClient.flightOn (s : ServerClient) (fd t : Nat) : Prop :=
  ∃ h, s.flight t = some h ∧ h.fd = fd ∧ h.generation = s.g.gGeneration

variable {s s' : ServerClient} {e : Event} {r : Reply}

theorem flight_update (c : Call) (t u : Nat) :
    (Function.update s.thread t c u).flight = if u = t then c.flight else s.flight u := by
  by_cases h : u = t
  · subst h
    simp
  · simp [h, ServerClient.flight]

/-- The first locked block of the four calls refuses, or counts the call. -/
theorem useLocked_cases (g : Globals) (use : Use) (hnd : VdspHandle) (params : Bool) :
    (∃ result, useLocked g use hnd params = (g, .refused result)) ∨
      (g.accepts hnd ∧ useLocked g use hnd params =
        ({ g with
          gWorking := g.gWorking + 1
          gFdInfo := Function.update g.gFdInfo hnd.fd.toNat (g.gFdInfo hnd.fd.toNat + 1) }, .issue)) := by
  unfold useLocked
  by_cases h1 : checkGenrationValid g hnd.generation = 0
  · by_cases h2 : checkFdValid g.gFdtable hnd.fd = 0
    · by_cases h3 : g.gOpenedCount = 0
      · exact .inl ⟨.fail, by simp [h1, h2, h3]⟩
      · by_cases h4 : use.marshals = true ∧ params = false
        · exact .inl ⟨.fail, by rw [if_neg (not_not.2 h1), if_neg (not_not.2 h2), if_neg h3, if_pos h4]⟩
        · exact .inr ⟨⟨h1, h2⟩, by rw [if_neg (not_not.2 h1), if_neg (not_not.2 h2), if_neg h3, if_neg h4]⟩
    · exact .inl ⟨.fail, by rw [if_neg (not_not.2 h1), if_pos h2]⟩
  · exact .inl ⟨.oldGeneration, by rw [if_pos h1]⟩

/-- What a step does to the counters: a call starts its RPC or has it back, the counters of the fds are zeroed
in a connect, the service dies, or nothing of this. -/
inductive CountStep (s s' : ServerClient) : Event → Prop
  | issue {t : Nat} {params : Bool} {use : Use} {h : Handle} {cs : Service}
  (ht : s.thread t = .calling use h cs)
      (ha : s.g.accepts h.vdsp) (ht' : s'.thread = Function.update s.thread t (.inFlight use h cs))
      (hg : s'.g = { s.g with
        gWorking := s.g.gWorking + 1
        gFdInfo := Function.update s.g.gFdInfo h.fd.toNat (s.g.gFdInfo h.fd.toNat + 1) }) :
      CountStep s s' (.useLocked t params)
  | done {t : Nat} {ret : Int} {use : Use} {h : Handle} {cs : Service} (ht : s.thread t = .inFlight use h cs)
      (ht' : s'.thread = Function.update s.thread t .idle) (hg : s'.g = useDone s.g h.fd) :
      CountStep s s' (.rpcDone t ret)
  | connect {t : Nat} {type : SprdVdspWorktype} {null : Bool} {binder : Service} (ht : s.thread t = .idle)
      (hi : s.g.gInitFlag = false) (hf : ∀ u, s'.flight u = s.flight u) (hw : s'.g.gWorking = s.g.gWorking)
      (hgen : s'.g.gGeneration = s.g.gGeneration) (hi' : s'.g.gInitFlag = true)
      (hfd : ∀ fd < useFdMaxNum, s'.g.gFdInfo fd = 0) : CountStep s s' (.callOpen t type null (some binder))
  | died (hf : ∀ u, s'.flight u = s.flight u) (hw : s'.g.gWorking = s.g.gWorking)
    (hi : s'.g.gInitFlag = false) :
      CountStep s s' .serviceDied
  | other {e : Event} (hf : ∀ u, s'.flight u = s.flight u) (hw : s'.g.gWorking = s.g.gWorking)
      (hgen : s'.g.gGeneration = s.g.gGeneration) (hi : s'.g.gInitFlag = true → s.g.gInitFlag = true)
      (hfd : s'.g.gFdInfo = s.g.gFdInfo) (hconnect : ∀ t type null binder,
        e = .callOpen t type null (some binder) →
        s.thread t = .idle → s.g.gInitFlag = true) (hdone : ∀ t ret, e ≠ .rpcDone t ret) : CountStep s s' e

/-- A call that moves on without an RPC. -/
private theorem flight_goto {t : Nat} {c c' : Call} (ht : s.thread t = c) (hc : c.flight = none)
    (hc' : c'.flight = none) (u : Nat) : (s.goto t c').flight u = s.flight u := by
  show (Function.update s.thread t c' u).flight = _
  rw [flight_update]
  split
  · rename_i h
    rw [hc', h, ServerClient.flight, ht, hc]
  · rfl

private theorem ServerClient.countStep_callOpen {t : Nat} {type : SprdVdspWorktype} {null : Bool}
    {answer : Option Service}
    (hs : s.step (.callOpen t type null answer) = some (s', r)) :
    CountStep s s' (.callOpen t type null answer) := by
  simp only [ServerClient.step] at hs
  split at hs
  · rename_i ht
    have hgo : (∀ u, s'.flight u = (s.connect answer).flight u) ∧ s'.g = (s.connect answer).g := by
      split at hs <;> cases hs
      · exact ⟨flight_goto ht rfl rfl, rfl⟩
      · exact ⟨fun _ => rfl, rfl⟩
    obtain ⟨hf, hg⟩ := hgo
    rcases s.connect_cases answer with h | ⟨hi, binder, rfl, h, -⟩
    · have hg' : s'.g = s.g := by rw [hg, h]
      refine .other (fun u => by rw [hf, h]) (by rw [hg']) (by rw [hg']) (by rw [hg']; exact id)
        (by rw [hg']) ?_ (by simp)
      intro _ _ _ binder heq _
      cases heq
      by_contra hi
      simp only [Bool.not_eq_true] at hi
      have := congrArg (fun x => x.g.gInitFlag) h
      simp [ServerClient.connect, getVdspService, hi] at this
    · rw [h] at hg
      exact .connect ht hi hf (by rw [hg]) (by rw [hg]) (by rw [hg])
        fun fd hfd => by rw [hg]; exact if_pos hfd
  · cases hs

private theorem ServerClient.countStep_closeLocked {t : Nat} {ret : Int}
    (hs : s.step (.closeLocked t ret) = some (s', r)) :
    CountStep s s' (.closeLocked t ret) := by
  simp only [ServerClient.step] at hs
  split at hs
  · rename_i h cs ht
    have hs := (Option.some.inj hs).symm
    have hidle : ∀ u, (s.goto t .idle).flight u = s.flight u := flight_goto ht rfl rfl
    rcases s.closeLocked_cases t h ret with ⟨-, he⟩ | ⟨-, -, he⟩ | ⟨-, -, rpcs, he, -⟩ | ⟨-, -, -, he⟩ |
      ⟨-, -, -, he⟩ <;>
      rw [he] at hs <;> cases hs
    · exact .other hidle rfl rfl id rfl (by simp) (by simp)
    · exact .other hidle rfl rfl id rfl (by simp) (by simp)
    · exact .other hidle rfl rfl id rfl (by simp) (by simp)
    · refine .other hidle ?_ ?_ ?_ ?_ (by simp) (by simp) <;> simp only [putVdspService] <;> split <;> simp_all
    · exact .other hidle rfl rfl id rfl (by simp) (by simp)
  · cases hs

theorem ServerClient.countStep (hs : s.step e = some (s', r)) : CountStep s s' e := by
  cases e with
  | callOpen t type null answer => exact countStep_callOpen hs
  | openLocked t ret =>
    simp only [ServerClient.step] at hs
    split at hs
    · rename_i type cs ht
      have hs := (Option.some.inj hs).symm
      rcases s.openLocked_cases t type ret with ⟨-, h, table, -, -, -, -, -, -, -, he⟩ |
        ⟨-, table, fd, rpcs, he, -⟩ <;>
        rw [he] at hs <;> cases hs
      · exact .other (flight_goto ht rfl rfl) rfl rfl id rfl (by simp) (by simp)
      · exact .other (flight_goto ht rfl rfl) rfl rfl id rfl (by simp) (by simp)
    · cases hs
  | openError t =>
    simp only [ServerClient.step] at hs
    split at hs
    · rename_i fd ht
      cases hs
      refine .other (flight_goto ht rfl rfl) ?_ ?_ ?_ ?_ (by simp) (by simp) <;>
        simp only [openDeviceError] <;> split <;> first | rfl | exact id
    · cases hs
  | callClose t handle | callUse t use handle =>
    simp only [ServerClient.step] at hs
    split at hs
    · rename_i ht
      split at hs <;> cases hs
      · exact .other (flight_goto ht rfl rfl) rfl rfl id rfl (by simp) (by simp)
      · exact .other (fun _ => rfl) rfl rfl id rfl (by simp) (by simp)
    · cases hs
  | closeLocked t ret => exact countStep_closeLocked hs
  | useLocked t params =>
    simp only [ServerClient.step] at hs
    split at hs
    · rename_i use h cs ht
      rcases useLocked_cases s.g use h.vdsp params with ⟨result, he⟩ | ⟨ha, he⟩ <;> rw [he] at hs <;> cases hs
      · exact .other (flight_goto ht rfl rfl) rfl rfl id rfl (by simp) (by simp)
      · exact .issue ht ha rfl rfl
    · cases hs
  | rpcDone t ret =>
    simp only [ServerClient.step] at hs
    split at hs
    · rename_i use h cs ht
      cases hs
      exact .done ht rfl rfl
    · cases hs
  | serviceDied =>
    cases hs
    exact .died (fun _ => rfl) rfl rfl

/-! ### The counter of the process -/

/-- `gWorking` is the number of calls in flight. -/
def WorkingInv (s : ServerClient) : Prop := Counts (fun t => (s.flight t).isSome = true) s.g.gWorking

theorem flight_issue {t : Nat} {use : Use} {h : Handle} {cs : Service} (hs : s.thread t = .calling use h cs)
    (ht : s'.thread = Function.update s.thread t (.inFlight use h cs)) (u : Nat) :
    s.flight t = none ∧ s'.flight u = if u = t then some h else s.flight u := by
  refine ⟨by rw [ServerClient.flight, hs]; rfl, ?_⟩
  rw [ServerClient.flight, ht, flight_update]
  rfl

theorem flight_done {t : Nat} {use : Use} {h : Handle} {cs : Service} (hs : s.thread t = .inFlight use h cs)
    (ht : s'.thread = Function.update s.thread t .idle) (u : Nat) :
    s.flight t = some h ∧ s'.flight u = if u = t then none else s.flight u := by
  refine ⟨by rw [ServerClient.flight, hs]; rfl, ?_⟩
  rw [ServerClient.flight, ht, flight_update]
  rfl

theorem WorkingInv.step (hi : WorkingInv s) (hs : CountStep s s' e) : WorkingInv s' := by
  cases hs with
  | @issue t params use h cs ht ha ht' hg =>
    rw [WorkingInv, hg]
    refine hi.insert (a := t) ?_ fun u => ?_
    · simp [(flight_issue ht ht' t).1]
    · rw [(flight_issue ht ht' u).2]
      split <;> simp_all
  | @done t ret use h cs ht ht' hg =>
    rw [WorkingInv, hg]
    refine hi.erase (a := t) ?_ fun u => ?_
    · simp [(flight_done ht ht' t).1]
    · rw [(flight_done ht ht' u).2]
      split <;> simp_all
  | connect _ _ hf hw | died hf hw | other hf hw =>
    rw [WorkingInv, hw]
    exact hi.congr fun u => by rw [hf u]

theorem WorkingInv.of_reach {ok : ServerClient → Event → Prop} (h : Reach serverClient ok s) :
    WorkingInv s := by
  induction h with
  | start h0 =>
    cases h0
    exact counts_zero fun t => by simp [ServerClient.flight, ServerClient.start, Call.flight]
  | step _ _ hs ih =>
    obtain ⟨⟨s', r⟩, hstep, rfl⟩ := Option.map_eq_some_iff.1 hs
    exact ih.step (ServerClient.countStep hstep)

/-- The step closes the device, or drops the connection. -/
def Disconnects (s s' : ServerClient) (r : Reply) : Prop :=
  .closeXrpDevice ∈ r.rpcs ∨ (s.g.gVdspService ≠ none ∧ s'.g.gVdspService = none)

private theorem not_disconnects (hr : .closeXrpDevice ∉ r.rpcs) (hg : s'.g.gVdspService = s.g.gVdspService) :
    ¬ Disconnects s s' r := by
  rintro (h | ⟨h, h'⟩)
  · exact hr h
  · exact h (hg.symm.trans h')

theorem ServerClient.disconnect_cases (hs : s.step e = some (s', r)) (hd : Disconnects s s' r) :
    s.g.gWorking = 0 ∧ ∃ t ret h cs, e = .closeLocked t ret ∧ s.thread t = .closing h cs := by
  rcases ServerClient.step_cases hs with ⟨hq, hno⟩ | ⟨t, type, null, answer, s₁, rfl, rfl, hq, hno⟩ |
    ⟨t, type, cs, ret, rfl, ht, he⟩ | ⟨t, fd, rfl, ht, rfl, rfl⟩ | ⟨t, h, cs, ret, rfl, ht, he⟩ |
    ⟨rfl, rfl, rfl⟩
  · obtain ⟨w, f, hg⟩ := hq.working
    exact absurd hd (not_disconnects (fun h => (hno _ h).1 rfl) (by rw [hg]))
  · -- a connect sets the service
    obtain ⟨w, f, hg⟩ := hq.working
    rcases hd with hd | ⟨h, h'⟩
    · rw [hno] at hd
      cases hd
    · rw [hg] at h'
      rcases s.connect_cases answer with hc | ⟨-, binder, -, hc, -⟩
      · rw [hc] at h'
        exact absurd h' h
      · rw [hc] at h'
        cases h'
  · rcases s.openLocked_cases t type ret with ⟨-, h, table, -, -, -, -, -, -, -, he'⟩ |
      ⟨-, table, fd, rpcs, he', -, -, hr⟩ <;>
      rw [he'] at he <;> cases he
    · exact absurd hd (not_disconnects (by split <;> simp) rfl)
    · exact absurd hd (not_disconnects (by rcases hr with rfl | ⟨-, -, rfl⟩ <;> simp) rfl)
  · have hsame : (openDeviceError s.g fd).gVdspService = s.g.gVdspService := by
      unfold openDeviceError
      split <;> rfl
    exact absurd hd (not_disconnects (by simp) hsame)
  · refine ⟨?_, t, ret, h, cs, rfl, ht⟩
    rcases s.closeLocked_cases t h ret with ⟨-, he'⟩ | ⟨-, -, he'⟩ | ⟨-, -, rpcs, he', hr⟩ | ⟨-, hn, hc, -⟩ |
      ⟨-, -, -, he'⟩
    · rw [he'] at he
      cases he
      exact absurd hd (not_disconnects (by simp) rfl)
    · rw [he'] at he
      cases he
      exact absurd hd (not_disconnects (by simp) rfl)
    · rw [he'] at he
      cases he
      rcases hr with rfl | ⟨-, hw, -⟩
      · exact absurd hd (not_disconnects (by simp) rfl)
      · exact hw
    · -- the last handle: the close goes on only when nothing is in flight
      by_contra hw
      exact hn (.inl ⟨hc, .inl hw⟩)
    · rw [he'] at he
      cases he
      exact absurd hd (not_disconnects (by simp) rfl)
  · exact absurd hd (not_disconnects (by simp) rfl)

/-- In every state `gWorking` is the number of calls in flight, and while the device is closed, or the
connection dropped, no call is in flight and none starts. -/
theorem gWorking_counts_inFlight (h : Reach serverClient anyStep s) :
    Counts (fun t => (s.flight t).isSome = true) s.g.gWorking ∧
      ∀ e s' r, s.step e = some (s', r) → Disconnects s s' r → ∀ t, s.flight t = none ∧ s'.flight t = none := by
  have hw := WorkingInv.of_reach h
  refine ⟨hw, fun e s' r hs hd t => ?_⟩
  obtain ⟨h0, u, ret, hnd, cs, rfl, -⟩ := ServerClient.disconnect_cases hs hd
  have hnone : s.flight t = none := by
    have := (hw.eq_zero_iff.1 h0) t
    simpa using this
  refine ⟨hnone, ?_⟩
  cases ServerClient.countStep hs with
  | other hf => rw [hf, hnone]

/-- A handle of a client that opens once. -/
def firstHandle : Handle := ⟨0, 0, 0, .normal, 0⟩

/-- Thread 0 opens, and thread 1 sends a command. -/
def openAndSend : List Event :=
  [.callOpen 0 .normal false (some 7), .openLocked 0 0, .callUse 1 .sendCmd (some firstHandle),
    .useLocked 1 true]

theorem gWorking_openAndSend :
    ∃ s, serverClient.exec anyStep .start openAndSend = some s ∧ s.g.gWorking = 1 ∧
    s.flight 1 = some firstHandle ∧
      Counts (fun t => (s.flight t).isSome = true) s.g.gWorking := by
  obtain ⟨s, hs, hr, hp⟩ := Reach.exists_exec serverClient anyStep .start openAndSend
    (fun s => s.g.gWorking = 1 ∧ s.flight 1 = some firstHandle) rfl (by decide +kernel)
  exact ⟨s, hs, (of_decide_eq_true hp).1, (of_decide_eq_true hp).2, (gWorking_counts_inFlight hr).1⟩

/-! ### The counters of the fds -/

/-- While the client is connected, the counter of each fd is the number of calls in flight through handles with
the fd and the current generation. -/
def Accounted (s : ServerClient) : Prop :=
  s.g.gInitFlag = true → ∀ fd < useFdMaxNum, Counts (s.flightOn fd) (s.g.gFdInfo fd)

/-- No connect while a call of the current generation is in flight, and no call comes back to another session.
-/
def keepsCounts (s : ServerClient) : Event → Prop
  | .callOpen t _ _ answer => s.thread t = .idle → s.g.gInitFlag = false → answer.isSome = true →
      ∀ u h, s.flight u = some h → h.generation ≠ s.g.gGeneration
  | .rpcDone t _ => s.g.gInitFlag = true → ∀ h, s.flight t = some h → h.generation = s.g.gGeneration
  | _ => True

/-- A close of the last handle finds no call in flight on another fd or of another session, and the service
closes the device. -/
def keepsCloses (s : ServerClient) : Event → Prop
  | .closeLocked t ret => ∀ h cs, s.thread t = .closing h cs → s.g.accepts h.vdsp → s.g.gOpenedCount = 1 →
      s.g.gFdInfo h.fd.toNat = 0 → s.g.gWorking = 0 ∧ ret = 0
  | _ => True

/-- The fd of a call in flight is in the table's range. -/
def FlightFds (s : ServerClient) : Prop := ∀ u h, s.flight u = some h → 0 ≤ h.fd ∧ h.fd.toNat < useFdMaxNum

theorem FlightFds.step (hi : FlightFds s) (hs : CountStep s s' e) : FlightFds s' := by
  cases hs with
  | @issue t params use h cs ht ha ht' hg =>
    intro u h' hu
    rw [(flight_issue ht ht' u).2] at hu
    split at hu
    · cases hu
      obtain ⟨-, h0, hb⟩ := Globals.accepts_iff.1 ha
      exact ⟨h0, Finset.mem_range.1 (bits_subset_range _ hb)⟩
    · exact hi u h' hu
  | @done t ret use h cs ht ht' hg =>
    intro u h' hu
    rw [(flight_done ht ht' u).2] at hu
    split at hu
    · cases hu
    · exact hi u h' hu
  | connect _ _ hf | died hf | other hf =>
    intro u h' hu
    exact hi u h' (by rw [← hf u]; exact hu)

theorem flightOn_self {t : Nat} {h : Handle} (hh : s.flight t = some h) (fd : Nat) :
    s.flightOn fd t ↔ h.fd = fd ∧ h.generation = s.g.gGeneration := by
  constructor
  · rintro ⟨h', hh', hfd, hgen⟩
    cases hh.symm.trans hh'
    exact ⟨hfd, hgen⟩
  · rintro ⟨hfd, hgen⟩
    exact ⟨h, hh, hfd, hgen⟩

theorem not_flightOn {t : Nat} (hh : s.flight t = none) (fd : Nat) : ¬ s.flightOn fd t := by
  rintro ⟨h, hh', -⟩
  cases hh.symm.trans hh'

/-- The calls on an fd after a thread has started one through a handle of the current generation. -/
theorem flightOn_issue {t : Nat} {use : Use} {h : Handle} {cs : Service} (ht : s.thread t = .calling use h cs)
    (ht' : s'.thread = Function.update s.thread t (.inFlight use h cs))
    (hg : s'.g.gGeneration = s.g.gGeneration) (hgen : h.generation = s.g.gGeneration) (fd u : Nat) :
    s'.flightOn fd u ↔ (u = t ∧ h.fd = fd) ∨ s.flightOn fd u := by
  obtain ⟨hnone, hu⟩ := flight_issue ht ht' u
  by_cases hut : u = t
  · subst hut
    rw [if_pos rfl] at hu
    rw [flightOn_self hu, hg, or_iff_left (not_flightOn hnone fd), and_iff_left hgen, and_iff_right rfl]
  · rw [if_neg hut] at hu
    unfold ServerClient.flightOn
    rw [hu, hg, or_iff_right fun h => hut h.1]

/-- The calls on an fd after a thread has one back. -/
theorem flightOn_done {t : Nat} {use : Use} {h : Handle} {cs : Service} (ht : s.thread t = .inFlight use h cs)
    (ht' : s'.thread = Function.update s.thread t .idle) (hg : s'.g.gGeneration = s.g.gGeneration)
    (fd u : Nat) :
    s'.flightOn fd u ↔ u ≠ t ∧ s.flightOn fd u := by
  obtain ⟨-, hu⟩ := flight_done ht ht' u
  by_cases hut : u = t
  · rw [if_pos hut] at hu
    exact iff_of_false (not_flightOn hu fd) fun h => h.1 hut
  · rw [if_neg hut] at hu
    unfold ServerClient.flightOn
    rw [hu, hg, and_iff_right hut]

theorem Accounted.issue (hi : Accounted s) {t : Nat} {use : Use} {h : Handle} {cs : Service}
    (ht : s.thread t = .calling use h cs) (ha : s.g.accepts h.vdsp)
    (ht' : s'.thread = Function.update s.thread t (.inFlight use h cs))
    (hg : s'.g = { s.g with
      gWorking := s.g.gWorking + 1
      gFdInfo := Function.update s.g.gFdInfo h.fd.toNat (s.g.gFdInfo h.fd.toNat + 1) }) : Accounted s' := by
  intro hinit fd hfd
  obtain ⟨hgen, h0, -⟩ := Globals.accepts_iff.1 ha
  have h0 : 0 ≤ h.fd := h0
  have hold := hi (by rw [hg] at hinit; exact hinit) fd hfd
  have hon := flightOn_issue ht ht' (by rw [hg]) hgen fd
  by_cases hf : h.fd.toNat = fd
  · have hcount : s'.g.gFdInfo fd = s.g.gFdInfo fd + 1 := by
      rw [hg, ← hf]
      exact Function.update_self ..
    rw [hcount]
    refine hold.insert (not_flightOn (flight_issue ht ht' t).1 fd) fun u => ?_
    rw [hon u, and_iff_left (show h.fd = fd by omega)]
  · have hcount : s'.g.gFdInfo fd = s.g.gFdInfo fd := by
      rw [hg]
      exact Function.update_of_ne (Ne.symm hf) ..
    rw [hcount]
    refine hold.congr fun u => ?_
    rw [hon u, or_iff_right fun h => hf (by omega)]

/-- A call that comes back takes one off the counter of its fd, which is right for a call of the session only.
-/
theorem Accounted.done_iff (hi : Accounted s) (hfds : FlightFds s) {t : Nat} {use : Use} {h : Handle}
    {cs : Service} (ht : s.thread t = .inFlight use h cs) (ht' : s'.thread = Function.update s.thread t .idle)
    (hg : s'.g = useDone s.g h.fd) :
    Accounted s' ↔ (s.g.gInitFlag = true → h.generation = s.g.gGeneration) := by
  have hsome := (flight_done ht ht' t).1
  obtain ⟨h0, hlt⟩ := hfds t h hsome
  have hon := flightOn_done ht ht' (by rw [hg]; rfl)
  have hcount : ∀ fd, s'.g.gFdInfo fd = if fd = h.fd.toNat then s.g.gFdInfo fd - 1 else s.g.gFdInfo fd := by
    intro fd
    rw [hg, useDone]
    by_cases hf : fd = h.fd.toNat
    · rw [if_pos hf, hf]
      exact Function.update_self ..
    · rw [if_neg hf]
      exact Function.update_of_ne hf ..
  have hinit' : s'.g.gInitFlag = s.g.gInitFlag := by rw [hg]; rfl
  -- a call that is not on the fd leaves its number as it is
  have hstay : ∀ fd < useFdMaxNum, s.g.gInitFlag = true → ¬ s.flightOn fd t →
      Counts (s'.flightOn fd) (s.g.gFdInfo fd) := by
    intro fd hfd hinit hnot
    refine (hi hinit fd hfd).congr fun u => ?_
    rw [hon fd u]
    exact ⟨And.right, fun h => ⟨fun hu => hnot (hu ▸ h), h⟩⟩
  constructor
  · intro hi' hinit
    by_contra hgen
    have hnew := hi' (hinit'.trans hinit) h.fd.toNat hlt
    rw [hcount, if_pos rfl] at hnew
    have hsame := hstay h.fd.toNat hlt hinit fun h' => hgen ((flightOn_self hsome _).1 h').2
    have := hnew.unique hsame
    omega
  · intro hk hinit fd hfd
    have hinit := hinit'.symm.trans hinit
    rw [hcount]
    split
    · rename_i hf
      refine (hi hinit fd hfd).erase ((flightOn_self hsome fd).2 ⟨by omega, hk hinit⟩) (hon fd)
    · rename_i hf
      refine hstay fd hfd hinit fun h' => hf ?_
      have := ((flightOn_self hsome fd).1 h').1
      omega

/-- A connect zeroes the counters, which is right if no call of the generation is in flight. -/
theorem Accounted.connect_iff (hfds : FlightFds s) (hf : ∀ u, s'.flight u = s.flight u)
    (hgen : s'.g.gGeneration = s.g.gGeneration) (hi' : s'.g.gInitFlag = true)
    (hfd : ∀ fd < useFdMaxNum, s'.g.gFdInfo fd = 0) :
    Accounted s' ↔ ∀ u h, s.flight u = some h → h.generation ≠ s.g.gGeneration := by
  constructor
  · intro hacc u h hu hg
    obtain ⟨h0, hlt⟩ := hfds u h hu
    have hzero := hacc hi' h.fd.toNat hlt
    rw [hfd _ hlt] at hzero
    exact (hzero.eq_zero_iff.1 rfl) u ⟨h, (hf u).trans hu, by omega, hg.trans hgen.symm⟩
  · intro hk _ fd hlt
    rw [hfd fd hlt]
    refine counts_zero ?_
    rintro u ⟨h, hh, -, hg⟩
    exact hk u h ((hf u).symm.trans hh) (hg.trans hgen)

/-- The counters are right after a step if and only if the step meets the condition. -/
theorem Accounted.step_iff (hi : Accounted s) (hfds : FlightFds s) (hs : CountStep s s' e) :
    Accounted s' ↔ keepsCounts s e := by
  cases hs with
  | issue ht ha ht' hg => exact iff_of_true (hi.issue ht ha ht' hg) trivial
  | @done t ret use h cs ht ht' hg =>
    have hsome := (flight_done ht ht' t).1
    rw [hi.done_iff hfds ht ht' hg]
    constructor
    · intro hk hinit h' hh'
      cases hsome.symm.trans hh'
      exact hk hinit
    · exact fun hk hinit => hk hinit h hsome
  | connect ht hinit hf hw hgen hi' hfd =>
    rw [Accounted.connect_iff hfds hf hgen hi' hfd]
    exact ⟨fun hk _ _ _ => hk, fun hk => hk ht hinit rfl⟩
  | died hf hw hinit => exact iff_of_true (fun h => by rw [hinit] at h; cases h) trivial
  | @other e hf hw hgen hinit hfd hconnect hdone =>
    refine iff_of_true (fun h fd hlt => ?_) ?_
    · rw [hfd]
      refine (hi (hinit h) fd hlt).congr fun u => ?_
      unfold ServerClient.flightOn
      rw [hf, hgen]
    · cases e with
      | callOpen t type null answer =>
        intro ht hi₀ hsome
        obtain ⟨binder, rfl⟩ := Option.isSome_iff_exists.1 hsome
        rw [hconnect t type null binder rfl ht] at hi₀
        cases hi₀
      | rpcDone t ret => exact absurd rfl (hdone t ret)
      | _ => trivial

/-- The runs in which the counters of the fds are right. -/
def keepsAccounts (s : ServerClient) (e : Event) : Prop := keepsCounts s e ∧ keepsCloses s e

theorem accounted_of_reach (h : Reach serverClient keepsAccounts s) : Accounted s ∧ FlightFds s := by
  induction h with
  | start h0 =>
    cases h0
    refine ⟨fun hinit => ?_, fun u h hu => ?_⟩
    · simp [ServerClient.start, Globals.start] at hinit
    · simp [ServerClient.flight, ServerClient.start, Call.flight] at hu
  | step _ hok hs ih =>
    obtain ⟨⟨s', r⟩, hstep, rfl⟩ := Option.map_eq_some_iff.1 hs
    have hc := ServerClient.countStep hstep
    exact ⟨(ih.1.step_iff ih.2 hc).2 hok.1, ih.2.step hc⟩

/-- A close frees no fd with a call of the session in flight. -/
theorem Accounted.frees (hi : Accounted s) (hw : WorkingInv s) {t : Nat} {ret : Int} {h : Handle} {cs : Service}
    (ht : s.thread t = .closing h cs) (hs : s.step (.closeLocked t ret) = some (s', r))
    (hinit : s.g.gInitFlag = true)
    {fd : Nat} (hfd : fd ∈ bits s.g.gFdtable) (hfree : fd ∉ bits s'.g.gFdtable) (u : Nat) :
    ¬ s.flightOn fd u := by
  simp only [ServerClient.step, ht, Option.some.injEq] at hs
  rcases s.closeLocked_cases t h ret with ⟨-, he⟩ | ⟨-, -, he⟩ | ⟨-, -, rpcs, he, -⟩ | ⟨-, hok, hc, -⟩ |
    ⟨ha, hok, hc, he⟩
  · rw [he] at hs
    cases hs
    exact absurd hfd hfree
  · rw [he] at hs
    cases hs
    exact absurd hfd hfree
  · rw [he] at hs
    cases hs
    exact absurd hfd hfree
  · -- no call at all is in flight
    have hw0 : s.g.gWorking = 0 := by
      by_contra hw0
      exact hok (.inl ⟨hc, .inl hw0⟩)
    rintro ⟨h', hh', -⟩
    have := (hw.eq_zero_iff.1 hw0) u
    rw [hh'] at this
    exact this rfl
  · rw [he] at hs
    cases hs
    have h0 : 0 ≤ h.fd := (Globals.accepts_iff.1 ha).2.1
    have hself : fd = h.fd.toNat := by
      by_contra hne
      refine hfree ?_
      show fd ∈ bits (freeFd s.g.gFdtable h.fd).2
      rw [bits_freeFd, if_pos h0]
      exact Finset.mem_erase.2 ⟨hne, hfd⟩
    rw [hself] at hfd ⊢
    have hw0 : s.g.gFdInfo h.fd.toNat = 0 := by
      by_contra hw0
      exact hok (.inr ⟨hc, hw0⟩)
    exact ((hi hinit _ (lt_of_mem_bits hfd)).eq_zero_iff.1 hw0) u

/-- A close through an accepted handle frees its fd when no call of the session is in flight on it, if and only
if the step meets the condition. -/
theorem Accounted.frees_iff (hi : Accounted s) {t : Nat} {ret : Int} {h : Handle} {cs : Service}
    (ht : s.thread t = .closing h cs) (hs : s.step (.closeLocked t ret) = some (s', r))
    (hinit : s.g.gInitFlag = true)
    (ha : s.g.accepts h.vdsp) :
    ((∀ u, ¬ s.flightOn h.fd.toNat u) → h.fd.toNat ∉ bits s'.g.gFdtable) ↔
    keepsCloses s (.closeLocked t ret) := by
  obtain ⟨-, h0, hbit⟩ := Globals.accepts_iff.1 ha
  have h0 : 0 ≤ h.fd := h0
  have hbit : h.fd.toNat ∈ bits s.g.gFdtable := hbit
  rw [← (hi hinit h.fd.toNat (lt_of_mem_bits hbit)).eq_zero_iff]
  have hkeeps : keepsCloses s (.closeLocked t ret) ↔
      (s.g.gOpenedCount = 1 → s.g.gFdInfo h.fd.toNat = 0 → s.g.gWorking = 0 ∧ ret = 0) := by
    constructor
    · exact fun hk hc hz => hk h cs ht ha hc hz
    · intro hk h' cs' ht' _ hc hz
      rw [ht] at ht'
      cases ht'
      exact hk hc hz
  rw [hkeeps]
  simp only [ServerClient.step, ht, Option.some.injEq] at hs
  have hclear : h.fd.toNat ∉ bits (freeFd s.g.gFdtable h.fd).2 := by
    rw [bits_freeFd, if_pos h0]
    exact Finset.notMem_erase _ _
  rcases s.closeLocked_cases t h ret with ⟨hne, -⟩ | ⟨-, hne, -⟩ | ⟨-, hrefuse, rpcs, he, -⟩ |
    ⟨-, hok, hc, he⟩ |
    ⟨-, hok, hc, he⟩
  · exact absurd (Globals.accepts_iff.1 ha).1 hne
  · exact absurd ha hne
  · rw [he] at hs
    cases hs
    constructor
    · exact fun hfree _ hz => absurd hbit (hfree hz)
    · intro hk hz
      rcases hrefuse with ⟨hc, hbad⟩ | ⟨-, hbad⟩
      · obtain ⟨hw0, hr0⟩ := hk hc hz
        exact (hbad.elim (fun h => h hw0) fun h => h hr0).elim
      · exact absurd hz hbad
  · rw [he] at hs
    cases hs
    refine iff_of_true (fun _ => ?_) fun _ _ => ?_
    · simp only [putVdspService]
      split <;> exact hclear
    · constructor
      · by_contra hw0
        exact hok (.inl ⟨hc, .inl hw0⟩)
      · by_contra hr0
        exact hok (.inl ⟨hc, .inr hr0⟩)
  · rw [he] at hs
    cases hs
    exact iff_of_true (fun _ => hclear) fun h => absurd h hc

/-- In the runs that meet the condition the counter of each fd is the number of calls of the session in flight
on it, and a close frees an fd if and only if there is none.  Without the condition the next step breaks one of
the two. -/
theorem gFdInfo_counts_inFlight (h : Reach serverClient keepsAccounts s) :
    (s.g.gInitFlag = true → ∀ fd < useFdMaxNum, Counts (s.flightOn fd) (s.g.gFdInfo fd) ∧ 0 ≤ s.g.gFdInfo fd) ∧
    (∀ e s' r, s.step e = some (s', r) → (Accounted s' ↔ keepsCounts s e)) ∧
    (s.g.gInitFlag = true → ∀ t ret h cs s' r, s.thread t = .closing h cs →
      s.step (.closeLocked t ret) = some (s', r) →
      (∀ fd ∈ bits s.g.gFdtable, fd ∉ bits s'.g.gFdtable → ∀ u, ¬ s.flightOn fd u) ∧
      (s.g.accepts h.vdsp → (((∀ u, ¬ s.flightOn h.fd.toNat u) → h.fd.toNat ∉ bits s'.g.gFdtable) ↔
        keepsCloses s (.closeLocked t ret)))) := by
  obtain ⟨hi, hfds⟩ := accounted_of_reach h
  have hw := WorkingInv.of_reach h
  refine ⟨fun hinit fd hfd => ⟨hi hinit fd hfd, (hi hinit fd hfd).nonneg⟩, fun e s' r hs => ?_,
    fun hinit t ret h cs s' r ht hs => ⟨fun fd hfd hfree => ?_, fun ha => ?_⟩⟩
  · exact hi.step_iff hfds (ServerClient.countStep hs)
  · exact hi.frees hw ht hs hinit hfd hfree
  · exact hi.frees_iff ht hs hinit ha

theorem gFdInfo_openAndSend :
    ∃ s, Reach serverClient keepsAccounts s ∧ s.g.gInitFlag = true ∧ s.g.gFdInfo 0 = 1 ∧ s.flightOn 0 1 ∧
      Counts (s.flightOn 0) (s.g.gFdInfo 0) := by
  have h₀ : Reach serverClient keepsAccounts .start := .start rfl
  have h₁ := h₀.step (l := Event.callOpen 0 .normal false (some 7))
    ⟨fun _ _ _ u h hu => by simp [ServerClient.flight, ServerClient.start, Call.flight] at hu, trivial⟩ rfl
  have h₂ := h₁.step (l := Event.openLocked 0 0) ⟨trivial, trivial⟩ rfl
  have h₃ := h₂.step (l := Event.callUse 1 .sendCmd (some firstHandle)) ⟨trivial, trivial⟩ rfl
  have h₄ := h₃.step (l := Event.useLocked 1 true) ⟨trivial, trivial⟩ rfl
  exact ⟨_, h₄, rfl, rfl, ⟨firstHandle, rfl, rfl, rfl⟩, ((gFdInfo_counts_inFlight h₄).1 rfl 0 (by decide)).1⟩

/-- The service dies and the client connects again while the command is out; then the command comes back. -/
def lateReturn : List Event := openAndSend ++ [.serviceDied, .callOpen 0 .normal false (some 8), .rpcDone 1 0]

theorem lateReturn_not_accounted : ¬ ∀ s, Reach serverClient anyStep s → Accounted s := by
  intro hall
  obtain ⟨s, -, hr, hp⟩ := Reach.exists_exec serverClient anyStep .start lateReturn
    (fun s => s.g.gInitFlag = true ∧ s.g.gFdInfo 0 = -1) rfl (by decide +kernel)
  obtain ⟨hinit, hneg⟩ := of_decide_eq_true hp
  have := (hall s hr hinit 0 (by decide)).nonneg
  omega

end Vdsp
