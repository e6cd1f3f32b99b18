import Mathlib.Algebra.Group.Nat.Defs
import Vdsp.Server.Threads

/-!
# Handles from before a reconnect

A call through a handle whose open succeeded before the client reconnected after a death is answered with
`SPRD_VDSP_RESULT_OLD_GENERATION`: it issues no RPC and touches no variable of the new session.  The code keeps
this only for handles that were not opened between the death and the reconnect, because such an open is granted
by the tables of the old session and stamps the handle with the generation of the new one; and only while
`gVdspService` is set, because the calls give up before their checks when it is not.
-/

namespace Vdsp

open Lts

/-- The open of `h` succeeded before the last reconnect after a death. -/
def ServerClient.stale (s : ServerClient) (h : Handle) : Prop :=
  h ∈ s.opened ∧ h.epoch < s.epoch

instance (s : ServerClient) (h : Handle) : Decidable (s.stale h) :=
  inferInstanceAs (Decidable (_ ∧ _))

/-- What a call through `h` does from `s` on: it reaches its locked block without changing a variable of the
session, and there it is answered with `SPRD_VDSP_RESULT_OLD_GENERATION`. -/
structure AnsweredOld (s : ServerClient) (h : Handle) : Prop where
  callClose : ∀ t, s.thread t = .idle → s.g.gVdspService ≠ none →
    ∃ cs, s.step (.callClose t (some h)) = some (s.goto t (.closing h cs), ⟨none, []⟩)
  closeLocked : ∀ t cs ret, s.thread t = .closing h cs →
    ∃ s', s.step (.closeLocked t ret) = some (s', ⟨some .oldGeneration, []⟩) ∧ s'.g = s.g
  callUse : ∀ t use, s.thread t = .idle → s.g.gVdspService ≠ none →
    ∃ cs, s.step (.callUse t use (some h)) = some (s.goto t (.calling use h cs), ⟨none, []⟩)
  useLocked : ∀ t use cs params, s.thread t = .calling use h cs →
    ∃ s', s.step (.useLocked t params) = some (s', ⟨some .oldGeneration, []⟩) ∧ s'.g = s.g

/-- Would the locked block of the open in `call` be granted? -/
def ServerClient.grantsCall (s : ServerClient) (ret : Int) : Call → Prop
  | .opening type _ => s.g.grants type ret
  | _ => False

instance (s : ServerClient) (ret : Int) : ∀ c, Decidable (s.grantsCall ret c)
  | .opening type _ => inferInstanceAs (Decidable (s.g.grants type ret))
  | .idle | .openError _ | .closing .. | .calling .. | .inFlight .. => inferInstanceAs (Decidable False)

/-- No open is granted between a death and the next connect, and the generation does not wrap around. -/
def keepsGenerations (s : ServerClient) : Event → Prop
  | .openLocked t ret => s.died = true → ¬ s.grantsCall ret (s.thread t)
  | .serviceDied => s.g.gGeneration.toNat + 1 < 2 ^ 32
  | _ => True

instance (s : ServerClient) : ∀ e, Decidable (keepsGenerations s e)
  | .openLocked t ret => inferInstanceAs (Decidable (s.died = true → ¬ s.grantsCall ret (s.thread t)))
  | .serviceDied => inferInstanceAs (Decidable (s.g.gGeneration.toNat + 1 < 2 ^ 32))
  | .callOpen .. | .openError .. | .callClose .. | .closeLocked .. | .callUse .. | .useLocked .. | .rpcDone .. =>
    inferInstanceAs (Decidable True)

structure GenInv (s : ServerClient) : Prop where
  generation_le : ∀ h ∈ s.opened, h.generation.toNat ≤ s.g.gGeneration.toNat
  epoch_le : ∀ h ∈ s.opened, h.epoch ≤ s.epoch
  stale_lt : ∀ h ∈ s.opened, h.epoch < s.epoch → h.generation.toNat < s.g.gGeneration.toNat
  died_lt : s.died = true → ∀ h ∈ s.opened, h.generation.toNat < s.g.gGeneration.toNat

theorem GenInv.start : GenInv .start := by
  refine ⟨?_, ?_, ?_, ?_⟩ <;> simp [ServerClient.start]

/-- The invariant speaks of four variables. -/
private theorem GenInv.congr {s s' : ServerClient} (hi : GenInv s) (hg : s'.g.gGeneration = s.g.gGeneration)
    (ho : s'.opened = s.opened) (he : s'.epoch = s.epoch) (hd : s'.died = s.died) : GenInv s' := by
  refine ⟨?_, ?_, ?_, ?_⟩ <;> rw [ho]
  · rw [hg]
    exact hi.generation_le
  · rw [he]
    exact hi.epoch_le
  · rw [he, hg]
    exact hi.stale_lt
  · rw [hd, hg]
    exact hi.died_lt

theorem GenInv.quiet {s s' : ServerClient} (hi : GenInv s) (hq : Quiet s s') : GenInv s' := by
  obtain ⟨⟨w, f, hg⟩, ho, -, -, he, hd, -⟩ := hq
  exact hi.congr (by rw [hg]) ho he hd

/-- A reconnect after a death makes every handle stale; a connect without one does not begin an epoch. -/
theorem GenInv.connect {s : ServerClient} (hi : GenInv s) (answer : Option Service) :
    GenInv (s.connect answer) := by
  rcases s.connect_cases answer with h | ⟨-, binder, -, hg, he, hd⟩
  · rw [h]
    exact hi
  · have ho : (s.connect answer).opened = s.opened := rfl
    refine ⟨?_, ?_, ?_, ?_⟩
    · rw [ho, hg]
      exact hi.generation_le
    · rw [ho, he]
      intro h hh
      have := hi.epoch_le h hh
      split <;> omega
    · rw [ho, he, hg]
      intro h hh hlt
      by_cases hdied : s.died = true
      · exact hi.died_lt hdied h hh
      · rw [if_neg hdied] at hlt
        exact hi.stale_lt h hh hlt
    · rw [hd]
      intro h0
      cases h0

theorem GenInv.openLocked {s s' : ServerClient} (hi : GenInv s) {t : Nat} {type : SprdVdspWorktype} {ret : Int}
    {r : Reply} (hok : s.died = true → ¬ s.g.grants type ret) (hs : (s', r) = s.openLocked t type ret) :
    GenInv s' := by
  rcases s.openLocked_cases t type ret with
    ⟨hgr, h, table, -, hgen, -, hep, -, -, -, he⟩ | ⟨-, table, fd, rpcs, he, -, -, -⟩
  · rw [he] at hs
    obtain ⟨rfl, -⟩ := Prod.mk.injEq .. ▸ hs
    refine ⟨?_, ?_, ?_, ?_⟩
    · intro x hx
      rcases Finset.mem_insert.1 hx with hx | hx
      · rw [hx, hgen]
      · exact hi.generation_le x hx
    · intro x hx
      rcases Finset.mem_insert.1 hx with hx | hx
      · rw [hx, hep]
        exact le_refl s.epoch
      · exact hi.epoch_le x hx
    · intro x hx (hlt : x.epoch < s.epoch)
      rcases Finset.mem_insert.1 hx with hx | hx
      · rw [hx, hep] at hlt
        exact absurd hlt (lt_irrefl _)
      · exact hi.stale_lt x hx hlt
    · exact fun hdied => absurd hgr (hok hdied)
  · rw [he] at hs
    obtain ⟨rfl, -⟩ := Prod.mk.injEq .. ▸ hs
    exact hi.congr rfl rfl rfl rfl

theorem GenInv.closeLocked {s s' : ServerClient} (hi : GenInv s) {t : Nat} {h : Handle} {ret : Int} {r : Reply}
    (hs : (s', r) = s.closeLocked t h ret) : GenInv s' := by
  have hput : ∀ g, (putVdspService g).gGeneration = g.gGeneration := by
    intro g
    unfold putVdspService
    split <;> rfl
  rcases s.closeLocked_cases t h ret with ⟨-, he⟩ | ⟨-, -, he⟩ | ⟨-, -, _, he, -⟩ | ⟨-, -, -, he⟩ | ⟨-, -, -, he⟩
  all_goals
    rw [he] at hs
    obtain ⟨rfl, -⟩ := Prod.mk.injEq .. ▸ hs
  · exact hi.congr rfl rfl rfl rfl
  · exact hi.congr rfl rfl rfl rfl
  · exact hi.congr rfl rfl rfl rfl
  · exact hi.congr (hput _) rfl rfl rfl
  · exact hi.congr rfl rfl rfl rfl

/-- A death leaves every handle behind. -/
theorem GenInv.died {s : ServerClient} (hi : GenInv s) (hok : s.g.gGeneration.toNat + 1 < 2 ^ 32) :
    GenInv { s with g := serviceDied s.g, died := true, deviceOpen := false } := by
  have hgen : (s.g.gGeneration + 1).toNat = s.g.gGeneration.toNat + 1 := by
    rw [BitVec.toNat_add]
    exact Nat.mod_eq_of_lt (by simpa using hok)
  have hlt : ∀ h ∈ s.opened, h.generation.toNat < (s.g.gGeneration + 1).toNat := by
    intro h hh
    have := hi.generation_le h hh
    omega
  exact ⟨fun h hh => (hlt h hh).le, hi.epoch_le, fun h hh _ => hlt h hh, fun _ => hlt⟩

theorem GenInv.step {s s' : ServerClient} {e : Event} (hi : GenInv s) (hok : keepsGenerations s e)
    (hs : serverClient.step s e = some s') : GenInv s' := by
  obtain ⟨⟨s'', r⟩, hr, rfl⟩ := Option.map_eq_some_iff.1 hs
  rcases ServerClient.step_cases hr with ⟨hq, -⟩ | ⟨t, type, null, answer, s₁, rfl, rfl, hq, -⟩ |
    ⟨t, type, cs, ret, rfl, ht, he⟩ | ⟨t, fd, rfl, ht, -, rfl⟩ | ⟨t, h, cs, ret, rfl, ht, he⟩ | ⟨rfl, -, rfl⟩
  · exact hi.quiet hq
  · exact (hi.connect answer).quiet hq
  · simp only [keepsGenerations, ht] at hok
    exact hi.openLocked hok he
  · refine hi.congr ?_ rfl rfl rfl
    unfold openDeviceError
    split <;> rfl
  · exact hi.closeLocked he
  · exact hi.died hok

theorem GenInv.of_reach {s : ServerClient} (h : Reach serverClient keepsGenerations s) : GenInv s :=
  h.invariant (fun _ h0 => h0 ▸ GenInv.start) (fun _ _ _ hi hok hs => hi.step hok hs)

/-- A handle of another generation is refused by both locked blocks. -/
theorem answeredOld_of_generation {s : ServerClient} {h : Handle} (hg : h.generation ≠ s.g.gGeneration) :
    AnsweredOld s h := by
  have hchk : checkGenrationValid s.g h.vdsp.generation ≠ 0 := fun h0 => hg (checkGenrationValid_eq_zero.1 h0)
  have hget : (getVdspService s.g false none).2 = s.g.gVdspService := by simp [getVdspService]
  refine ⟨?_, ?_, ?_, ?_⟩
  · intro t ht hsv
    obtain ⟨cs, hcs⟩ := Option.ne_none_iff_exists'.1 hsv
    exact ⟨cs, by simp [ServerClient.step, ht, hget, hcs]⟩
  · intro t cs ret ht
    rcases s.closeLocked_cases t h ret with ⟨-, he⟩ | ⟨h1, -, -⟩ | ⟨h1, -⟩ | ⟨h1, -⟩ | ⟨h1, -⟩
    · refine ⟨{ s.goto t .idle with live := s.live.erase h }, ?_, rfl⟩
      simp only [ServerClient.step, ht, he]
    · exact absurd h1 hg
    all_goals exact absurd (Globals.accepts_iff.1 h1).1 hg
  · intro t use ht hsv
    obtain ⟨cs, hcs⟩ := Option.ne_none_iff_exists'.1 hsv
    exact ⟨cs, by simp [ServerClient.step, ht, hget, hcs]⟩
  · intro t use cs params ht
    refine ⟨s.goto t .idle, ?_, rfl⟩
    simp [ServerClient.step, ht, useLocked, hchk, ServerClient.goto]

/-- In every state of a run whose steps meet `keepsGenerations`, a call through a handle from before the last
reconnect is answered with `SPRD_VDSP_RESULT_OLD_GENERATION`. -/
theorem stale_handle_answeredOld {s : ServerClient} (hr : Reach serverClient keepsGenerations s) {h : Handle}
    (hs : s.stale h) : AnsweredOld s h := by
  refine answeredOld_of_generation fun he => ?_
  have := (GenInv.of_reach hr).stale_lt h hs.1 hs.2
  rw [he] at this
  exact lt_irrefl _ this

/-- A handle opened, the service dead and connected to again by a second open, and then a close of the handle. -/
def closeAfterReconnect : List Event :=
  [.callOpen 0 .normal false (some 7), .openLocked 0 0, .serviceDied, .callOpen 1 .normal false (some 8),
   .openLocked 1 0, .callClose 0 (some ⟨0, 0, 0, .normal, 0⟩)]

theorem stale_handle_answeredOld_closeAfterReconnect :
    ∃ s, serverClient.exec keepsGenerations .start closeAfterReconnect = some s ∧
      s.stale ⟨0, 0, 0, .normal, 0⟩ ∧ AnsweredOld s ⟨0, 0, 0, .normal, 0⟩ := by
  refine ⟨_, rfl, by decide, ?_⟩
  exact stale_handle_answeredOld (Reach.of_exec (M := serverClient) closeAfterReconnect (s := .start) rfl rfl)
    (by decide)

/-- Thread 1 opens between the death and the reconnect: `getService` fails and the old service pointer is used.
After the reconnect two more opens take the fds 0 and 1, and the handle of thread 1 is closed. -/
def openBeforeReconnect : List Event :=
  [.callOpen 0 .normal false (some 7), .openLocked 0 0, .serviceDied, .callOpen 1 .normal false none,
   .openLocked 1 0, .callOpen 2 .normal false (some 8), .openLocked 2 0, .callOpen 2 .normal false none,
   .openLocked 2 0, .callClose 1 (some ⟨1, 1, 1, .normal, 0⟩)]

theorem openBeforeReconnect_not_answeredOld :
    ¬ ∀ s, Reach serverClient anyStep s → ∀ h, s.stale h → AnsweredOld s h := by
  intro hall
  have ha := hall _ (Reach.of_exec (M := serverClient) openBeforeReconnect (s := .start) rfl rfl)
    ⟨1, 1, 1, .normal, 0⟩ (by decide)
  obtain ⟨s', hs, -⟩ := ha.closeLocked 1 8 0 rfl
  have hres := congrArg (Option.map fun p => p.2.result) hs
  change _ = some (some SprdVdspResult.oldGeneration) at hres
  exact absurd hres (by decide)

end Vdsp
