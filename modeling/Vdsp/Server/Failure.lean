import Vdsp.Server.InFlight

/-!
# Failed calls of the server-mode client

What a close that returns `SPRD_VDSP_RESULT_FAIL` and an open that does leave behind.  A refused close has already
decremented `gOpenedCount`; a failed open keeps its fd if that is fd 0 and the device did not open.
-/

namespace Vdsp

open Bitmap Lts

/-! ### A refused close -/

/-- A close that fails leaves the variables as they were if and only if it is not refused behind the two checks;
then the count has gone down. -/
theorem close_refused_unchanged_iff {s s' : ServerClient} {e : Event} {r : Reply} (hs : s.step e = some (s', r)) :
    (∀ t handle, e = .callClose t handle → s'.g = s.g) ∧
    ∀ t ret h cs, e = .closeLocked t ret → s.thread t = .closing h cs →
      ((r.result = some .fail → s'.g = s.g) ↔ ¬ (s.g.accepts h.vdsp ∧ s.g.refuses h.vdsp ret)) ∧
      (s.g.accepts h.vdsp → s.g.refuses h.vdsp ret →
        r.result = some .fail ∧ s'.g = { s.g with gOpenedCount := s.g.gOpenedCount - 1 }) := by
  refine ⟨?_, ?_⟩
  · rintro t handle rfl
    simp only [ServerClient.step] at hs
    split at hs
    · split at hs <;> cases hs <;> rfl
    · cases hs
  · rintro t ret h cs rfl ht
    simp only [ServerClient.step, ht, Option.some.injEq] at hs
    rcases s.closeLocked_cases t h ret with ⟨hgen, he⟩ | ⟨-, hbad, he⟩ | ⟨ha, hr, rpcs, he, -⟩ | ⟨-, hr, -, he⟩ |
      ⟨-, hr, -, he⟩
    · rw [he] at hs
      cases hs
      have hbad : ¬ s.g.accepts h.vdsp := fun ha => hgen (Globals.accepts_iff.1 ha).1
      exact ⟨iff_of_true (fun hf => by cases hf) fun h => hbad h.1, fun ha => absurd ha hbad⟩
    · rw [he] at hs
      cases hs
      exact ⟨iff_of_true (fun _ => rfl) fun h => hbad h.1, fun ha => absurd ha hbad⟩
    · rw [he] at hs
      cases hs
      refine ⟨iff_of_false (fun hsame => ?_) fun hn => hn ⟨ha, hr⟩, fun _ _ => ⟨rfl, rfl⟩⟩
      have hcount := congrArg Globals.gOpenedCount (hsame rfl)
      simp only at hcount
      omega
    · rw [he] at hs
      cases hs
      exact ⟨iff_of_true (fun hf => by cases hf) fun h => hr h.2, fun _ h => absurd h hr⟩
    · rw [he] at hs
      cases hs
      exact ⟨iff_of_true (fun hf => by cases hf) fun h => hr h.2, fun _ h => absurd h hr⟩

/-- The client of `openAndSend` goes on to close the handle and has reached the lock. -/
def closeWhileSending : List Event := openAndSend ++ [.callClose 0 (some firstHandle)]

theorem close_refused_closeWhileSending :
    ∃ s, Reach serverClient anyStep s ∧ s.g.gOpenedCount = 1 ∧ ∃ s' r, s.step (.closeLocked 0 0) = some (s', r) ∧
      r.result = some .fail ∧ s'.g = { s.g with gOpenedCount := s.g.gOpenedCount - 1 } := by
  obtain ⟨s, -, hr, hp⟩ := Reach.exists_exec serverClient anyStep .start closeWhileSending
    (fun s => s.g.gOpenedCount = 1 ∧ s.thread 0 = .closing firstHandle 7 ∧ s.g.accepts firstHandle.vdsp ∧
      s.g.refuses firstHandle.vdsp 0) rfl (by decide +kernel)
  obtain ⟨hcount, ht, ha, hrefuse⟩ := of_decide_eq_true hp
  have hs : s.step (.closeLocked 0 0) = some (s.closeLocked 0 firstHandle 0) := by simp [ServerClient.step, ht]
  exact ⟨s, hr, hcount, _, _, hs, ((close_refused_unchanged_iff hs).2 0 0 _ _ rfl ht).2 ha hrefuse⟩

theorem refused_close_uncounts :
    ¬ ∀ s s' t ret r, Reach serverClient anyStep s → s.step (.closeLocked t ret) = some (s', r) →
      r.result = some .fail → s'.g = s.g := by
  intro hall
  obtain ⟨s, -, hr, hp⟩ := Reach.exists_exec serverClient anyStep .start closeWhileSending
    (fun s => (s.step (.closeLocked 0 0)).any fun x =>
      x.2.result = some .fail ∧ x.1.g.gOpenedCount ≠ s.g.gOpenedCount) rfl (by decide +kernel)
  obtain ⟨⟨s', r⟩, hs, hx⟩ := (Option.any_eq_true _ _).1 hp
  obtain ⟨hfail, hne⟩ := of_decide_eq_true hx
  exact hne (by rw [hall s s' 0 0 r hr hs hfail])

/-! ### A failed open -/

/-- The arguments of an open and what `openXrpDevice` returns if it is called. -/
structure Attempt where
  null : Bool
  type : SprdVdspWorktype
  ret : Int
  deriving DecidableEq, Repr

/-- `sprd_vdsp_open_device_serv` behind `getVdspService`, which has returned `gVdspService`, without
interference. -/
def sprdVdspOpenDeviceServ (g : Globals) (a : Attempt) : Globals × Option VdspHandle :=
  if a.null = true ∨ g.gVdspService = none then (g, none)
  else
    match openDeviceLocked g a.type a.ret with
    | (g, .openok hnd, _) => (g, some hnd)
    | (g, .openerror fd, _) => (openDeviceError g fd, none)

/-- `openXrpDevice` fails for an open that got fd 0. -/
def Globals.leaks (g : Globals) (a : Attempt) : Prop :=
  a.null = false ∧ g.gVdspService ≠ none ∧ 0 ∉ bits g.gFdtable ∧ g.gOpenedCount = 0 ∧ a.ret ≠ 0

instance (g : Globals) (a : Attempt) : Decidable (g.leaks a) := inferInstanceAs (Decidable (_ ∧ _ ∧ _ ∧ _ ∧ _))

/-- Opens one after the other that all fail. -/
def failedOpens : Globals → List Attempt → Option Globals
  | g, [] => some g
  | g, a :: l =>
    match sprdVdspOpenDeviceServ g a with
    | (g, none) => failedOpens g l
    | (_, some _) => none

/-- Do `n` opens one after the other succeed, when the device opens? -/
def opensAll (type : SprdVdspWorktype) : Globals → Nat → Bool
  | _, 0 => true
  | g, n + 1 =>
    match sprdVdspOpenDeviceServ g ⟨false, type, 0⟩ with
    | (g, some _) => opensAll type g n
    | (_, none) => false

private theorem freeFd_allocFd {t : BitVec 32} (h : 0 ≤ (allocFd t).1) :
    (freeFd (allocFd t).2 (allocFd t).1).2 = t :=
  bits_injective (bits_freeFd_allocFd h)

/-- An open takes a free fd and counts it, keeps fd 0 though it fails, or fails and changes nothing. -/
theorem sprdVdspOpenDeviceServ_cases (g : Globals) (a : Attempt) :
    (∃ (i : Nat) (table : BitVec 32), g.grants a.type a.ret ∧ i ∉ bits g.gFdtable ∧
      bits table = insert i (bits g.gFdtable) ∧ ¬ g.leaks a ∧ sprdVdspOpenDeviceServ g a =
        ({ g with gFdtable := table, gOpenedCount := g.gOpenedCount + 1, gWorkType := a.type },
          some ⟨i, g.gGeneration⟩)) ∨
    (g.leaks a ∧ ∃ table : BitVec 32, bits table = insert 0 (bits g.gFdtable) ∧
      sprdVdspOpenDeviceServ g a = ({ g with gFdtable := table }, none)) ∨
    (¬ g.leaks a ∧ (a.null = true ∨ g.gVdspService = none ∨ ¬ g.grants a.type a.ret) ∧
      sprdVdspOpenDeviceServ g a = (g, none)) := by
  unfold sprdVdspOpenDeviceServ
  by_cases hn : a.null = true ∨ g.gVdspService = none
  · right; right
    rw [if_pos hn]
    refine ⟨fun hl => ?_, hn.imp_right .inl, rfl⟩
    rcases hn with hn | hn
    · rw [hl.1] at hn
      cases hn
    · exact hl.2.1 hn
  · rw [if_neg hn]
    have hnull : a.null = false := by simpa using fun h => hn (.inl h)
    have hserv : g.gVdspService ≠ none := fun h => hn (.inr h)
    rcases allocFd_spec g.gFdtable with ⟨i, hi, hnot, hmin, hfd, hb⟩ | ⟨hfull, hfail⟩
    · have h0 : 0 ≤ (allocFd g.gFdtable).1 := by omega
      have hneg : ¬ (i : Int) < 0 := by omega
      have hback := freeFd_allocFd h0
      rw [hfd] at hback
      by_cases hc : g.gOpenedCount = 0
      · by_cases hr : a.ret = 0
        · left
          refine ⟨i, _, ⟨h0, fun _ => hr, fun h => absurd hc h⟩, hnot, hb, fun hl => hl.2.2.2.2 hr, ?_⟩
          simp [openDeviceLocked, hc, hr, SprdVdspResult.toInt, hfd, hneg]
        · by_cases hzero : i = 0
          · right; left
            subst hzero
            refine ⟨⟨hnull, hserv, hnot, hc, hr⟩, _, hb, ?_⟩
            simp [openDeviceLocked, openDeviceError, hc, hr, SprdVdspResult.toInt, hfd]
          · right; right
            refine ⟨fun hl => hl.2.2.1 (hmin 0 (by omega)), .inr (.inr fun hg => hr (hg.2.1 hc)), ?_⟩
            have he : openDeviceLocked g a.type a.ret =
                ({ g with gFdtable := (allocFd g.gFdtable).2 }, .openerror i, [.openXrpDevice a.type]) := by
              simp [openDeviceLocked, hc, hr, SprdVdspResult.toInt, hfd, hneg]
            have hpos : (i : Int) > 0 := by omega
            simp only [he, openDeviceError, if_pos hpos, hback]
      · by_cases ht : a.type = g.gWorkType
        · left
          refine ⟨i, _, ⟨h0, fun h => absurd h hc, fun _ => ht⟩, hnot, hb, fun hl => hc hl.2.2.2.1, ?_⟩
          rw [ht]
          simp [openDeviceLocked, hc, hfd, hneg]
        · right; right
          refine ⟨fun hl => hc hl.2.2.2.1, .inr (.inr fun hg => ht (hg.2.2 hc)), ?_⟩
          -- `__openerror` frees the fd once more
          have htwice : (freeFd g.gFdtable i).2 = g.gFdtable := by
            refine bits_injective ?_
            rw [bits_freeFd, if_pos (by omega), Int.toNat_natCast, Finset.erase_eq_of_notMem hnot]
          simp [openDeviceLocked, openDeviceError, hc, ht, hfd, hneg, hback, htwice]
    · right; right
      refine ⟨fun hl => hl.2.2.1 ?_, .inr (.inr fun hg => ?_), ?_⟩
      · rw [hfull]
        decide
      · have := hg.1
        rw [hfail] at this
        simp at this
      · simp [openDeviceLocked, openDeviceError, hfail]

/-- The open of a thread that nothing interferes with. -/
theorem ServerClient.openDevice_steps {s : ServerClient} {t : Nat} {type : SprdVdspWorktype} {cs : Service}
    (ht : s.thread t = .opening type cs) (hserv : s.g.gVdspService ≠ none) (ret : Int) :
    ∃ s', (serverClient.exec anyStep s [.openLocked t ret] = some s' ∨
        serverClient.exec anyStep s [.openLocked t ret, .openError t] = some s') ∧
      s'.thread t = .idle ∧ s'.g = (sprdVdspOpenDeviceServ s.g ⟨false, type, ret⟩).1 := by
  have hlocked : serverClient.step s (.openLocked t ret) = some (s.openLocked t type ret).1 := by
    simp [serverClient, ServerClient.step, ht]
  rcases hd : openDeviceLocked s.g type ret with ⟨g, hnd | fd, rpcs⟩
  · refine ⟨(s.openLocked t type ret).1, .inl ?_, ?_, ?_⟩
    · simp [System.exec, anyStep, hlocked]
    · simp [ServerClient.openLocked, hd, ServerClient.goto]
    · simp [ServerClient.openLocked, sprdVdspOpenDeviceServ, hd, hserv]
  · have herror : serverClient.step (s.openLocked t type ret).1 (.openError t) =
        some { (s.openLocked t type ret).1.goto t .idle with g := openDeviceError g fd } := by
      simp [serverClient, ServerClient.step, ServerClient.openLocked, hd, ServerClient.goto]
    refine ⟨{ (s.openLocked t type ret).1.goto t .idle with g := openDeviceError g fd }, .inr ?_, ?_, ?_⟩
    · simp [System.exec, anyStep, hlocked, herror]
    · simp [ServerClient.goto]
    · simp [sprdVdspOpenDeviceServ, hd, hserv]

/-- Failed opens change nothing, or keep fd 0 because one of them did not find the device. -/
theorem failedOpens_cases {l : List Attempt} {g g' : Globals} (h : failedOpens g l = some g') :
    (g' = g ∧ ∀ a ∈ l, ¬ g.leaks a) ∨
    ((∃ a ∈ l, g.leaks a) ∧ ∃ table : BitVec 32, bits table = insert 0 (bits g.gFdtable) ∧
      g' = { g with gFdtable := table }) := by
  induction l generalizing g with
  | nil =>
    cases h
    exact .inl ⟨rfl, by simp⟩
  | cons a l ih =>
    simp only [failedOpens] at h
    rcases sprdVdspOpenDeviceServ_cases g a with ⟨i, table, -, -, -, -, he⟩ | ⟨hl, table, hb, he⟩ | ⟨hl, -, he⟩
    · rw [he] at h
      cases h
    · rw [he] at h
      right
      refine ⟨⟨a, by simp, hl⟩, ?_⟩
      have hno : ∀ b : Attempt, ¬ Globals.leaks { g with gFdtable := table } b := by
        intro b hb'
        refine hb'.2.2.1 ?_
        show 0 ∈ bits table
        rw [hb]
        exact Finset.mem_insert_self _ _
      rcases ih h with ⟨rfl, -⟩ | ⟨⟨b, -, hb'⟩, -⟩
      · exact ⟨table, hb, rfl⟩
      · exact absurd hb' (hno b)
    · rw [he] at h
      rcases ih h with ⟨rfl, hall⟩ | ⟨⟨b, hb, hb'⟩, htable⟩
      · exact .inl ⟨rfl, by simpa using ⟨hl, hall⟩⟩
      · exact .inr ⟨⟨b, List.mem_cons_of_mem _ hb, hb'⟩, htable⟩

/-- As many opens succeed as fds are free. -/
theorem opensAll_iff {type : SprdVdspWorktype} {n : Nat} {g : Globals} (hserv : g.gVdspService ≠ none)
    (htype : g.gOpenedCount ≠ 0 → type = g.gWorkType) :
    opensAll type g n = true ↔ (bits g.gFdtable).card + n ≤ useFdMaxNum := by
  have hle : ∀ t : BitVec 32, (bits t).card ≤ useFdMaxNum := fun t => by
    have := Finset.card_le_card (bits_subset_range t)
    rwa [Finset.card_range] at this
  induction n generalizing g with
  | zero => simpa [opensAll] using hle g.gFdtable
  | succ n ih =>
    simp only [opensAll]
    rcases sprdVdspOpenDeviceServ_cases g ⟨false, type, 0⟩ with ⟨i, table, -, hi, hb, -, he⟩ | ⟨hl, -⟩ |
      ⟨-, hno, he⟩
    · rw [he]
      simp only
      refine (ih (g := { g with gFdtable := table, gOpenedCount := g.gOpenedCount + 1, gWorkType := type }) hserv
        fun _ => rfl).trans ?_
      show (bits table).card + n ≤ useFdMaxNum ↔ _
      rw [hb, Finset.card_insert_of_notMem hi]
      omega
    · exact absurd rfl hl.2.2.2.2
    · rw [he]
      refine iff_of_false (by simp) fun hle' => ?_
      rcases hno with hno | hno | hno
      · cases hno
      · exact hserv hno
      · refine hno ⟨?_, fun _ => rfl, htype⟩
        rcases allocFd_spec g.gFdtable with ⟨i, -, -, -, hfd, -⟩ | ⟨hfull, -⟩
        · omega
        · rw [hfull, Finset.card_range] at hle'
          omega

/-- A failed open leaves the table, the count and the work type as they were if and only if it does not leak.
Failed opens that do not leak change nothing, and after a connect all fds can be opened if and only if none of
the failed opens before leaked. -/
theorem open_failed_unchanged_iff (g : Globals) :
    (∀ a, ((sprdVdspOpenDeviceServ g a).2 = none →
      (sprdVdspOpenDeviceServ g a).1.gFdtable = g.gFdtable ∧
      (sprdVdspOpenDeviceServ g a).1.gOpenedCount = g.gOpenedCount ∧
      (sprdVdspOpenDeviceServ g a).1.gWorkType = g.gWorkType) ↔ ¬ g.leaks a) ∧
    ∀ l g', failedOpens g l = some g' →
      ((∀ a ∈ l, ¬ g.leaks a) → g' = g) ∧
      (g.gVdspService ≠ none → g.gOpenedCount = 0 → bits g.gFdtable = ∅ → ∀ type,
        (opensAll type g' useFdMaxNum = true ↔ ∀ a ∈ l, ¬ g.leaks a)) := by
  refine ⟨fun a => ?_, fun l g' h => ⟨fun hall => ?_, fun hserv hcount hempty type => ?_⟩⟩
  · rcases sprdVdspOpenDeviceServ_cases g a with ⟨i, table, -, -, -, hl, he⟩ | ⟨hl, table, hb, he⟩ | ⟨hl, -, he⟩
    · rw [he]
      exact iff_of_true (fun h => by cases h) hl
    · rw [he]
      refine iff_of_false (fun h => ?_) (not_not.2 hl)
      have hsame : table = g.gFdtable := (h rfl).1
      rw [hsame] at hb
      refine hl.2.2.1 ?_
      rw [hb]
      exact Finset.mem_insert_self _ _
    · rw [he]
      exact iff_of_true (fun _ => ⟨rfl, rfl, rfl⟩) hl
  · rcases failedOpens_cases h with ⟨rfl, -⟩ | ⟨⟨a, ha, hl⟩, -⟩
    · rfl
    · exact absurd hl (hall a ha)
  · rcases failedOpens_cases h with ⟨rfl, hall⟩ | ⟨⟨a, ha, hl⟩, table, hb, rfl⟩
    · refine iff_of_true ?_ hall
      rw [opensAll_iff hserv fun hc => absurd hcount hc, hempty]
      simp
    · refine iff_of_false (fun hopen => ?_) fun hall => hall a ha hl
      rw [opensAll_iff (by exact hserv) (by exact fun hc => absurd hcount hc)] at hopen
      have : (bits table).card + useFdMaxNum ≤ useFdMaxNum := hopen
      rw [hb, Finset.card_insert_of_notMem hl.2.2.1] at this
      omega

/-- The variables after the first connect. -/
def connected : Globals := (getVdspService .start true (some 7)).1

theorem open_failed_unchanged_iff_connected :
    failedOpens connected [⟨true, .normal, 0⟩] = some connected ∧
    opensAll .normal connected useFdMaxNum = true := by
  have hrun : failedOpens connected [⟨true, .normal, 0⟩] = some connected := rfl
  have hno : ∀ a ∈ [(⟨true, .normal, 0⟩ : Attempt)], ¬ connected.leaks a := by decide
  exact ⟨hrun, (((open_failed_unchanged_iff connected).2 _ _ hrun).2 (by decide) rfl (by decide) .normal).2 hno⟩

theorem failed_open_keeps_fd :
    ¬ ∀ (g : Globals) (a : Attempt), (sprdVdspOpenDeviceServ g a).2 = none →
      (sprdVdspOpenDeviceServ g a).1.gFdtable = g.gFdtable := by
  intro hall
  have := hall connected ⟨false, .normal, 1⟩ (by decide)
  revert this
  decide

end Vdsp
