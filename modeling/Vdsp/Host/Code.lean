import Vdsp.Host.Machine
import Mathlib.Algebra.Order.Group.Multiset

/-!
# What the code of a thread needs

`Runs code held` says that a thread that holds the references `held` can execute `code`: each instruction finds
the references that it uses, whatever the outcomes of the steps before.  `needs` are these references, and `out`
is what is left at least when the instruction, and the code that it may put in front, is done.  The instructions
that close a dying object are followed by the `free` of the object, and the two that wait for a worker are not
put behind others.
-/

namespace Vdsp

/-- The references that an instruction uses. -/
def Instr.needs : Instr → List Id
  | .retain x | .release x | .openWrapper x | .newQueue x | .createThread x => [x]
  | .mapCheck x | .mapInc x | .mapDec x | .wait x | .asleep x _ | .eventStatus x | .complete x _ => [x]
  | .newBuffer device => device.toList
  | .attachDevice b d => [b, d]
  | .add g b _ | .swap g _ b _ => [g, b]
  | .get g _ => [g]
  | .newRequest q g _ _ | .newEvent q g _ => q :: g.toList
  | .attachQueue e q => [e, q]
  | .push q g e => q :: (g.toList ++ e.toList)
  | .snapshot rq | .ioctl rq => rq.refs
  | .setExit _ d | .join _ d | .closeQueue _ d => [d]
  | .ret | .free _ | .openNewmode | .openInner | .ionmem | .newGroup | .enter _ | .process _ | .asleepQueue _ _
  | .loop _ | .condDestroy _ => []

/-- The references that an instruction leaves of `h`. -/
def Instr.out (h : Multiset Id) : Instr → Multiset Id
  | .ret => 0
  | .retain x => x ::ₘ h
  | .release x | .openWrapper x | .newQueue x | .mapInc x | .swap _ _ x _ => h - {x}
  | .push _ g e => h - (g.toList ++ e.toList : List Id)
  | .snapshot rq | .ioctl rq => h - rq.refs
  | _ => h

/-- The dying object that an instruction works on. -/
def Instr.closes : Instr → Option Id
  | .setExit q _ | .join q _ | .closeQueue q _ => some q
  | .condDestroy e => some e
  | _ => none

/-- The instruction comes before the end of the join with a worker. -/
def Instr.joins : Instr → Bool
  | .setExit .. | .join .. => true
  | _ => false

def NoJoin (code : List Instr) : Prop := ∀ i ∈ code, i.joins = false

def Runs : List Instr → Multiset Id → Prop
  | [], _ => True
  | i :: c, h => (i.needs : Multiset Id) ≤ h ∧ (∀ x ∈ i.closes, .free x ∈ c) ∧ NoJoin c ∧ Runs c (i.out h)

theorem Instr.out_mono (i : Instr) {h h' : Multiset Id} (hle : h ≤ h') : i.out h ≤ i.out h' := by
  cases i with
  | retain x => exact (Multiset.cons_le_cons_iff x).2 hle
  | release | openWrapper | newQueue | mapInc | swap | push | snapshot | ioctl => exact tsub_le_tsub_right hle _
  | ret => exact le_refl _
  | _ => exact hle

theorem Runs.mono {c : List Instr} {h h' : Multiset Id} (hr : Runs c h) (hle : h ≤ h') : Runs c h' := by
  induction c generalizing h h' with
  | nil => trivial
  | cons i c ih =>
    obtain ⟨h1, h2, h3, h4⟩ := hr
    exact ⟨h1.trans hle, h2, h3, ih h4 (i.out_mono hle)⟩

@[simp] theorem noJoin_nil : NoJoin [] := by simp [NoJoin]

@[simp] theorem noJoin_cons {i : Instr} {c : List Instr} : NoJoin (i :: c) ↔ i.joins = false ∧ NoJoin c := by
  simp [NoJoin]

@[simp] theorem noJoin_append {c c' : List Instr} : NoJoin (c ++ c') ↔ NoJoin c ∧ NoJoin c' := by
  simp [NoJoin, or_imp, forall_and]

@[simp] theorem noJoin_releases (xs : List Id) : NoJoin (xs.map .release) := by
  simp [NoJoin, Instr.joins]

/-- The references of a list, released one by one. -/
theorem runs_releases {xs : List Id} {c : List Instr} {h : Multiset Id} (hj : NoJoin c) (hr : Runs c h) :
    Runs (xs.map .release ++ c) (xs + h) := by
  induction xs with
  | nil => simpa using hr
  | cons x xs ih =>
    refine ⟨?_, by simp [Instr.closes], by simp [hj], ?_⟩
    · refine Multiset.le_iff_count.2 fun y => ?_
      simp only [Instr.needs, ← Multiset.cons_coe, Multiset.count_cons, Multiset.count_add, Multiset.coe_nil,
        Multiset.count_zero]
      omega
    · have : (Instr.release x).out (((x :: xs : List Id) : Multiset Id) + h) = (xs : Multiset Id) + h := by
        simp only [Instr.out]
        rw [← Multiset.cons_coe, Multiset.cons_add, Multiset.sub_singleton, Multiset.erase_cons_head]
      rw [this]
      exact ih

/-- The last release of an object runs on what the object held. -/
theorem runs_destroyCode {x : Id} {body : Body} {c : List Instr} {h : Multiset Id} (hj : NoJoin c)
    (hr : Runs c h) :
    Runs (destroyCode x body ++ c) (body.refs + h) := by
  have hfree : Runs (.free x :: c) h := ⟨Multiset.zero_le _, by simp [Instr.closes], hj, hr⟩
  have hrel : Runs (body.refs.map .release ++ .free x :: c) (body.refs + h) :=
    runs_releases (by simp [Instr.joins, hj]) hfree
  have htail : NoJoin (body.refs.map .release ++ .free x :: c) := by simp [Instr.joins, hj]
  have hmem : Instr.free x ∈ body.refs.map .release ++ .free x :: c := by simp
  unfold destroyCode
  cases body with
  | device | buffer | group => simpa using hrel
  | queue b =>
    rw [List.singleton_append, List.cons_append]
    refine ⟨?_, by simp [Instr.closes], by simpa using htail, by simpa [Instr.out] using hrel⟩
    simp [Instr.needs, Body.refs]
  | event b =>
    rw [List.singleton_append, List.cons_append]
    refine ⟨Multiset.zero_le _, by simp [Instr.closes], by simpa using htail, by simpa [Instr.out] using hrel⟩

/-! ### Counting in code -/

theorem count_coe_nil (y : Id) : (([] : List Id) : Multiset Id).count y = 0 := Multiset.count_zero y

theorem count_coe_cons (y x : Id) (l : List Id) :
    ((x :: l : List Id) : Multiset Id).count y = (if y = x then 1 else 0) + (l : Multiset Id).count y := by
  rw [← Multiset.cons_coe, Multiset.count_cons, Nat.add_comm]

theorem count_coe_append (y : Id) (l l' : List Id) :
    ((l ++ l' : List Id) : Multiset Id).count y = (l : Multiset Id).count y + (l' : Multiset Id).count y := by
  rw [← Multiset.coe_add, Multiset.count_add]

theorem le_of_count {m h : Multiset Id} (hc : ∀ y, m.count y ≤ h.count y) : m ≤ h := Multiset.le_iff_count.2 hc

private theorem runs_retains {g : Option Id} {c : List Instr} {h : Multiset Id}
    (hg : (g.toList : Multiset Id) ≤ h)
    (hj : NoJoin c) (hr : Runs c (g.toList + h)) : Runs (g.toList.map .retain ++ c) h := by
  cases g with
  | none => simpa using hr
  | some g => exact ⟨hg, by simp [Instr.closes], hj, hr⟩

/-- The rest of an enqueue runs on the references of the call and the one to the new event. -/
theorem runs_enqueueCode {q : Id} {g e : Option Id} {sync : Bool} {c : List Instr} {h : Multiset Id}
    (hle : ((q :: g.toList : List Id) : Multiset Id) ≤ h) (hj : NoJoin c) (hr : Runs c h) :
    Runs (enqueueCode q g e sync ++ c) (e.toList + h) := by
  have hcount : ∀ y, (if y = q then 1 else 0) + (g.toList : Multiset Id).count y ≤ h.count y := fun y => by
    rw [← count_coe_cons]
    exact Multiset.count_le_of_le y hle
  -- what is left for `xrp_run_command_sync` uses and releases the client's reference to the event
  have htail : NoJoin ((if sync then e.toList.flatMap fun e => [.wait e, .eventStatus e, .release e] else []) ++
    c) ∧
      Runs ((if sync then e.toList.flatMap fun e => [.wait e, .eventStatus e, .release e] else []) ++ c)
        (e.toList + h) := by
    cases e with
    | none => cases sync <;> simpa using ⟨hj, hr⟩
    | some e =>
      have hmem : (([e] : List Id) : Multiset Id) ≤ ((some e).toList : Multiset Id) + h :=
        Multiset.le_add_right _ _
      cases sync with
      | false => exact ⟨by simpa using hj, hr.mono (Multiset.le_add_left _ _)⟩
      | true =>
        refine ⟨by simpa [Instr.joins] using hj, hmem, by simp [Instr.closes],
          by simpa [Instr.joins] using hj, hmem, by simp [Instr.closes], by simpa [Instr.joins] using hj, hmem,
          by simp [Instr.closes], by simpa using hj, hr.mono ?_⟩
        refine le_of_count fun y => ?_
        simp only [Instr.out, Option.toList_some, Multiset.count_sub, Multiset.count_add,
          Multiset.count_singleton, count_coe_cons, count_coe_nil]
        omega
  obtain ⟨hj', hr'⟩ := htail
  generalize hrest : (if sync then e.toList.flatMap fun e => [Instr.wait e, .eventStatus e, .release e]
    else []) ++ c = rest at hj' hr'
  have hpush : Runs (.push q g e :: rest) (g.toList + (e.toList + (e.toList + h))) := by
    refine ⟨le_of_count fun y => ?_, by simp [Instr.closes], hj', hr'.mono (le_of_count fun y => ?_)⟩
    · have := hcount y
      simp only [Instr.needs, Multiset.count_add, count_coe_cons, count_coe_append]
      omega
    · simp only [Instr.out, Multiset.count_sub, Multiset.count_add, count_coe_append]
      omega
  have hmid : Runs (g.toList.map .retain ++ .push q g e :: rest) (e.toList + (e.toList + h)) := by
    refine runs_retains (le_of_count fun y => ?_) (by simpa [Instr.joins] using hj') hpush
    have := hcount y
    simp only [Multiset.count_add]
    omega
  have hjmid : NoJoin (g.toList.map .retain ++ .push q g e :: rest) := by
    cases g <;> simpa [Instr.joins] using hj'
  have hcode : enqueueCode q g e sync ++ c = (e.toList.flatMap fun e => [.attachQueue e q, .retain e]) ++
      (g.toList.map .retain ++ .push q g e :: rest) := by
    rw [← hrest]
    simp [enqueueCode]
  rw [hcode]
  cases e with
  | none => simpa using hmid
  | some e =>
    refine ⟨le_of_count fun y => ?_, by simp [Instr.closes], by simpa [Instr.joins] using hjmid, ?_,
      by simp [Instr.closes], hjmid, hmid.mono (le_of_count fun y => ?_)⟩
    · have := hcount y
      simp only [Instr.needs, Option.toList_some, Multiset.count_add, count_coe_cons, count_coe_nil]
      omega
    · exact Multiset.le_add_right _ _
    · simp only [Instr.out, Option.toList_some, Multiset.count_add, Multiset.count_cons, count_coe_cons,
        count_coe_nil]
      omega

/-- The worker's code after the driver call runs on the references of the request. -/
theorem runs_finishCode {rq : Request} {status : XrpStatus} {c : List Instr} {h : Multiset Id} (hj : NoJoin c)
    (hr : Runs c h) : Runs (finishCode rq status ++ c) (rq.refs + h) := by
  have hcode : finishCode rq status ++ c =
      rq.group.toList.map .release ++ ((rq.event.toList.flatMap fun e => [.complete e status, .release e]) ++
      c) := by
    simp [finishCode]
  have hrefs : ((rq.refs : List Id) : Multiset Id) + h = rq.group.toList + (rq.event.toList + h) := by
    rw [Request.refs, ← Multiset.coe_add, add_assoc]
  rw [hcode, hrefs]
  cases rq.event with
  | none => exact runs_releases (by simpa using hj) (by simpa using hr)
  | some e =>
    have hmem : (([e] : List Id) : Multiset Id) ≤ ((some e).toList : Multiset Id) + h := Multiset.le_add_right _ _
    refine runs_releases (by simpa [Instr.joins] using hj)
      ⟨hmem, by simp [Instr.closes], by simpa [Instr.joins] using hj,
      hmem, by simp [Instr.closes], by simpa using hj, hr.mono (le_of_count fun y => ?_)⟩
    simp only [Instr.out, Option.toList_some, Multiset.count_sub, Multiset.count_add, Multiset.count_singleton,
      count_coe_cons, count_coe_nil]
    omega

end Vdsp
