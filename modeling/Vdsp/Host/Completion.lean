import Vdsp.Host.Effect
import Vdsp.Host.Requests
import Mathlib.Logic.Function.Basic

/-!
# The completion of commands

An event is created for one command.  The worker stores the status that `_xrp_run_command` has produced for it
under the lock of the event, broadcasts, and releases its reference; any number of threads wait for the event or
read its status.  A run is recorded with the requests pushed, the statuses produced, and for each thread the
call that it is in and the request that this call has pushed.
-/

namespace Vdsp

open Ledger Lts

variable {s s' : Host} {t : Nat} {f f' : Thread} {rest : List Instr}

/-- What is recorded of a run. -/
structure Journal where
  posted : List Request
  /-- The commands that `_xrp_run_command` has returned from, with the statuses. -/
  ran : List (Request × XrpStatus)
  call : Nat → Option ApiCall
  /-- The request that the current call of a thread has pushed. -/
  own : Nat → Option Request

def Journal.start : Journal := ⟨[], [], fun _ => none, fun _ => none⟩

/-- The status that `_xrp_run_command` produces. -/
def outcome (ok : Bool) : XrpStatus := if ok then .success else .failure

def Instr.journal (s : Host) (t : Nat) (ok : Bool) (j : Journal) (i : Instr) : Journal :=
  { j with
    posted := j.posted ++ (i.posts s).toList
    ran := j.ran ++ i.ends.toList.map fun rq => (rq, outcome ok)
    own := match i.posts s with
      | some rq => Function.update j.own t (some rq)
      | none => j.own }

def Host.journal (s : Host) (l : HostLabel) (j : Journal) : Journal :=
  match l with
  | .attach => j
  | .call t c => { j with call := Function.update j.call t (some c), own := Function.update j.own t none }
  | .run t ok =>
    match (s.threads[t]?).bind fun f => f.code.head? with
    | some i => i.journal s t ok j
    | none => j

/-- The runs of the host with their journals. -/
def journaled : System (Host × Journal) HostLabel := host.record .start Host.journal

/-- Is the event of a request `e`? -/
def Request.isFor (e : Id) (rq : Request) : Nat := if rq.event = some e then 1 else 0

/-- The instruction pushes the request of the event `e`. -/
def Instr.pushes (e : Id) : Instr → Nat
  | .push _ _ e' => if e' = some e then 1 else 0
  | _ => 0

/-- The instruction completes the event `e`. -/
def Instr.completes (e : Id) : Instr → Nat
  | .complete x _ => if x = e then 1 else 0
  | _ => 0

/-- The event has got a status. -/
def EventBody.resolved (b : EventBody) : Nat := if b.status = .pending then 0 else 1

structure EventInv (s : Host) (j : Journal) : Prop where
  conserved : ∀ w : Request → Nat, total w j.posted = s.pending w + total (fun r => w r.1) j.ran
  /-- The request of an event is pushed once. -/
  command : ∀ e, s.weigh (Instr.pushes e) + total (Request.isFor e) j.posted = if (s.eventBody e).isSome
    then 1 else 0
  /-- An event gets a status for each time that its request has run. -/
  statuses : ∀ e, s.weigh (Instr.completes e) + ((s.eventBody e).map EventBody.resolved).getD 0 =
    total (fun r : Request × XrpStatus => r.1.isFor e) j.ran
  final : ∀ r ∈ j.ran, r.2 ≠ .pending
  produced : ∀ f ∈ s.threads, ∀ e status, .complete e status ∈ f.code → ∃ rq, (rq, status) ∈ j.ran ∧
    rq.event = some e
  recorded : ∀ e b, s.eventBody e = some b → b.status ≠ .pending → ∃ rq, (rq, b.status) ∈ j.ran ∧
    rq.event = some e
  asleep : ∀ f ∈ s.threads, ∀ e n, .asleep e n ∈ f.code →
    ∃ b, s.eventBody e = some b ∧ n ≤ b.wakes ∧ (n = b.wakes → b.status = .pending)

/-! ### The code -/

theorem pushes_new (i : Instr) (ok : Bool) (e : Id) :
    total (Instr.pushes e) (i.new s f ok) = if i.makes = true ∧ ok = true ∧ e = s.heap.length then 1 else 0 := by
  rw [total_new fun j hj => by cases j <;> first | rfl | cases hj]
  cases i with
  | release x =>
    simp only [Instr.brings]
    split <;> rfl
  | newEvent q g sync => cases ok <;> simp [Instr.brings, Instr.pushes, Instr.makes, eq_comm]
  | newRequest q g evt sync => cases ok <;> cases evt <;> rfl
  | ioctl rq => cases h : rq.event <;> simp [Instr.brings, Instr.pushes, Instr.makes, h]
  | _ => rfl

theorem completes_new (i : Instr) (ok : Bool) (e : Id) :
    total (Instr.completes e) (i.new s f ok) = total (Request.isFor e) i.ends.toList := by
  rw [total_new fun j hj => by cases j <;> first | rfl | cases hj]
  cases i with
  | release x =>
    simp only [Instr.brings]
    split <;> rfl
  | newEvent q g sync => cases ok <;> rfl
  | newRequest q g evt sync => cases ok <;> cases evt <;> rfl
  | ioctl rq => cases h : rq.event <;> simp [Instr.brings, Instr.completes, Instr.ends, Request.isFor, h]
  | _ => rfl

/-- Only the return of a driver call brings a completion into the code. -/
theorem complete_new {i : Instr} {ok : Bool} {e : Id} {status : XrpStatus}
    (h : .complete e status ∈ i.new s f ok) :
    ∃ rq, i = .ioctl rq ∧ rq.event = some e ∧ status = outcome ok := by
  have hpos : 0 < total (fun j : Instr => if j = .complete e status then 1 else 0) (i.new s f ok) := by
    have := le_total (fun j : Instr => if j = .complete e status then 1 else 0) h
    rw [if_pos rfl] at this
    omega
  rw [total_new fun j hj => by cases j <;> first | rfl | cases hj] at hpos
  cases i with
  | release x =>
    simp only [Instr.brings] at hpos
    split at hpos <;> simp at hpos
  | newRequest | newEvent =>
    simp only [Instr.brings] at hpos
    split at hpos <;> simp at hpos
  | ioctl rq =>
    cases hev : rq.event with
    | none => simp [Instr.brings, hev] at hpos
    | some x =>
      simp only [Instr.brings, hev, Option.toList_some, total_cons, total_nil, Nat.add_zero] at hpos
      by_cases heq : Instr.complete x (if ok then .success else .failure) = .complete e status
      · cases heq
        exact ⟨rq, rfl, hev, rfl⟩
      · rw [if_neg heq] at hpos
        exact absurd hpos (lt_irrefl 0)
  | _ => simp [Instr.brings] at hpos

/-- Only a wait that finds the status pending goes to sleep. -/
theorem asleep_new {i : Instr} {ok : Bool} {e : Id} {n : Nat} (h : .asleep e n ∈ i.new s f ok) :
    i = .wait e ∧ ∃ b, s.eventBody e = some b ∧ b.status = .pending ∧ n = b.wakes := by
  cases i with
  | wait x =>
    simp only [Instr.new] at h
    split at h
    · rename_i b hb
      split at h
      · obtain ⟨rfl, rfl⟩ : e = x ∧ n = b.wakes := by simpa using h
        exact ⟨rfl, b, hb, ‹_›, rfl⟩
      · cases h
    · cases h
  | release x =>
    simp only [Instr.new] at h
    repeat' split at h
    · rcases List.mem_append.1 h with h | h
      · split at h <;> simp at h
      · simp at h
    all_goals cases h
  | newEvent q g sync =>
    simp only [Instr.new] at h
    split at h
    · cases g <;> cases sync <;> simp [enqueueCode] at h
    · cases h
  | newRequest q g evt sync =>
    simp only [Instr.new] at h
    repeat' split at h
    · simp at h
    · cases g <;> simp [enqueueCode] at h
    · cases h
  | ioctl rq =>
    simp only [Instr.new, finishCode] at h
    cases hg : rq.group <;> cases he : rq.event <;> simp [hg, he] at h
  | newBuffer d =>
    simp only [Instr.new] at h
    cases d <;> split at h <;> simp at h
  | _ =>
    simp only [Instr.new] at h
    repeat' split at h
    all_goals simp at h

/-! ### One step -/

theorem journal_of_instr (ht : s.threads[t]? = some f) {i : Instr} (hcode : f.code = i :: rest) (ok : Bool)
    (j : Journal) :
    s.journal (.run t ok) j = i.journal s t ok j := by
  simp [Host.journal, ht, hcode]

/-- Only the completion of an event changes its status, or wakes those who wait for it. -/
theorem completes_or (e : Id) (i : Instr) : (∃ status, i = .complete e status) ∨
    (Instr.completes e i = 0 ∧ ∀ b, (i.marks e b).status = b.status ∧ (i.marks e b).wakes = b.wakes) := by
  cases i with
  | complete x status =>
    by_cases hx : x = e
    · exact .inl ⟨status, by rw [hx]⟩
    · exact .inr ⟨if_neg hx, fun b => by simp [Instr.marks, hx]⟩
  | attachQueue x q =>
    refine .inr ⟨rfl, fun b => ?_⟩
    simp only [Instr.marks]
    split <;> exact ⟨rfl, rfl⟩
  | _ => exact .inr ⟨rfl, fun b => ⟨rfl, rfl⟩⟩

/-- An event stays in the heap, with the marks of the instruction. -/
theorem eventBody_stays {i : Instr} {ok : Bool} (he : s.exec t f rest ok i = some s') {e : Id} {b : EventBody}
    (hb : s.eventBody e = some b) : s'.eventBody e = some (i.marks e b) := by
  have hold : ¬ (i.makes = true ∧ ok = true ∧ e = s.heap.length) := by
    rintro ⟨-, -, rfl⟩
    rw [Host.eventBody, body_length] at hb
    cases hb
  rw [exec_eventBody he e, if_neg hold, hb]
  rfl

/-- The event of an executed command has been pushed with it. -/
theorem EventInv.ran_le {j : Journal} (hi : EventInv s j) (e : Id) :
    total (fun r : Request × XrpStatus => r.1.isFor e) j.ran ≤ 1 := by
  have h1 := hi.conserved (Request.isFor e)
  have h2 := hi.command e
  split at h2 <;> omega

/-- The event that a thread completes has no status yet: its request has run only once. -/
theorem EventInv.complete_pending {j : Journal} (hi : EventInv s j) (ht : s.threads[t]? = some f) {e : Id}
    {status : XrpStatus} (hcode : f.code = .complete e status :: rest) :
    ((s.eventBody e).map EventBody.resolved).getD 0 = 0 := by
  have h := hi.statuses e
  have hle := hi.ran_le e
  have hone : 1 ≤ s.weigh (Instr.completes e) := by
    have := le_total (fun f : Thread => total (Instr.completes e) f.code) (List.mem_of_getElem? ht)
    simp only [hcode, total_cons, Instr.completes, if_true] at this
    unfold Host.weigh
    omega
  omega

section

variable {j : Journal} {i : Instr} {ok : Bool} {spawned : List Thread}

private theorem total_outcomes (w : Request → Nat) (i : Instr) (ok : Bool) :
    total (fun r : Request × XrpStatus => w r.1) (i.ends.toList.map fun rq => (rq, outcome ok)) =
      total w i.ends.toList := by
  simp [total, Function.comp_def]

private theorem mem_ran_journal {e : Id} {status : XrpStatus}
    (h : ∃ rq, (rq, status) ∈ j.ran ∧ rq.event = some e) :
    ∃ rq, (rq, status) ∈ (i.journal s t ok j).ran ∧ rq.event = some e := by
  obtain ⟨rq, hmem, hev⟩ := h
  exact ⟨rq, List.mem_append_left _ hmem, hev⟩

private theorem EventInv.exec_command (hi : EventInv s j) (ht : s.threads[t]? = some f)
    (hcode : f.code = i :: rest) (he : s.exec t f rest ok i = some s')
    (hg : Goes s s' t f f' i rest ok spawned) (e : Id) :
    s'.weigh (Instr.pushes e) + total (Request.isFor e) (i.journal s t ok j).posted =
      if (s'.eventBody e).isSome then 1 else 0 := by
  have h1 := hi.command e
  have h2 := hg.weigh ht hcode (p := Instr.pushes e) fun _ => rfl
  have h3 : Instr.pushes e i = total (Request.isFor e) (i.posts s).toList := by
    cases i <;> simp [Instr.pushes, Instr.posts, Request.isFor]
  rw [pushes_new] at h2
  simp only [Instr.journal, total_append]
  rw [exec_eventBody he e]
  by_cases hnew : i.makes = true ∧ ok = true ∧ e = s.heap.length
  · -- the new event comes with the code that pushes its request
    have hnone : s.eventBody e = none := by rw [Host.eventBody, hnew.2.2, body_length]
    simp only [if_pos hnew, hnone, Option.isSome_none, Option.isSome_some, Bool.false_eq_true, if_true,
      if_false] at h1 h2 ⊢
    omega
  · rw [if_neg hnew] at h2 ⊢
    rw [Option.isSome_map]
    omega

private theorem EventInv.exec_statuses (hi : EventInv s j) (ht : s.threads[t]? = some f)
    (hcode : f.code = i :: rest) (he : s.exec t f rest ok i = some s')
    (hg : Goes s s' t f f' i rest ok spawned) (e : Id) :
    s'.weigh (Instr.completes e) + ((s'.eventBody e).map EventBody.resolved).getD 0 =
      total (fun r : Request × XrpStatus => r.1.isFor e) (i.journal s t ok j).ran := by
  have h1 := hi.statuses e
  have h2 := hg.weigh ht hcode (p := Instr.completes e) fun _ => rfl
  rw [completes_new] at h2
  simp only [Instr.journal, total_append, total_outcomes]
  rcases completes_or e i with ⟨status, rfl⟩ | ⟨hzero, hsame⟩
  · -- the weight of the instruction moves to the event, whose status was pending
    obtain ⟨b, hb⟩ : ∃ b, s.eventBody e = some b := by
      simp only [Host.exec] at he
      split at he
      · exact ⟨_, ‹_›⟩
      · cases he
    have hpend := hi.complete_pending ht hcode
    obtain ⟨rq, hmem, -⟩ := hi.produced f (List.mem_of_getElem? ht) e status (by simp [hcode])
    have hself : Instr.completes e (.complete e status) = 1 := if_pos rfl
    have hres : ((Instr.complete e status).marks e b).resolved = 1 := by
      simp only [Instr.marks, if_true, EventBody.resolved, if_neg (hi.final _ hmem)]
    rw [eventBody_stays he hb]
    simp only [hb, Option.map_some, Option.getD_some, hres, Instr.ends, Option.toList_none, total_nil]
      at h1 h2 hpend ⊢
    omega
  · have hres : ((s'.eventBody e).map EventBody.resolved).getD 0 =
        ((s.eventBody e).map EventBody.resolved).getD 0 := by
      rw [exec_eventBody he e]
      split
      · rename_i hnew
        rw [Host.eventBody, hnew.2.2, body_length]
        rfl
      · cases s.eventBody e with
        | none => rfl
        | some b => simp only [Option.map_some, Option.getD_some, EventBody.resolved, (hsame b).1]
    rw [hres]
    omega

private theorem EventInv.exec_produced (hi : EventInv s j) (ht : s.threads[t]? = some f)
    (hcode : f.code = i :: rest) (hg : Goes s s' t f f' i rest ok spawned) :
    ∀ u ∈ s'.threads, ∀ e status, .complete e status ∈ u.code →
      ∃ rq, (rq, status) ∈ (i.journal s t ok j).ran ∧ rq.event = some e := by
  intro u hu e status hmem
  rcases hg.mem ht hcode hu hmem with ⟨v, hv, hmem⟩ | hmem | ⟨q, h⟩
  · exact mem_ran_journal (hi.produced v hv e status hmem)
  · obtain ⟨rq, rfl, hev, rfl⟩ := complete_new hmem
    exact ⟨rq, List.mem_append_right _ (by simp [Instr.ends]), hev⟩
  · cases h

private theorem EventInv.exec_recorded (hi : EventInv s j) (ht : s.threads[t]? = some f)
    (hcode : f.code = i :: rest) (he : s.exec t f rest ok i = some s') {e : Id} {b : EventBody}
    (hb : s'.eventBody e = some b) (hstatus : b.status ≠ .pending) :
    ∃ rq, (rq, b.status) ∈ (i.journal s t ok j).ran ∧ rq.event = some e := by
  rw [exec_eventBody he e] at hb
  split at hb
  · cases hb
    exact absurd rfl hstatus
  · obtain ⟨b₀, hb₀, rfl⟩ := Option.map_eq_some_iff.1 hb
    rcases completes_or e i with ⟨status, rfl⟩ | ⟨-, hsame⟩
    · obtain ⟨rq, hmem, h⟩ := hi.produced f (List.mem_of_getElem? ht) e status (by simp [hcode])
      exact mem_ran_journal ⟨rq, by simpa [Instr.marks] using hmem, h⟩
    · rw [(hsame b₀).1] at hstatus ⊢
      exact mem_ran_journal (hi.recorded e b₀ hb₀ hstatus)

/-- A completion wakes all who have gone to sleep before. -/
private theorem exec_sleeper (he : s.exec t f rest ok i = some s') {e : Id} {n : Nat}
    (h : ∃ b, s.eventBody e = some b ∧ n ≤ b.wakes ∧ (n = b.wakes → b.status = .pending)) :
    ∃ b, s'.eventBody e = some b ∧ n ≤ b.wakes ∧ (n = b.wakes → b.status = .pending) := by
  obtain ⟨b, hb, hle, hpend⟩ := h
  refine ⟨i.marks e b, eventBody_stays he hb, ?_⟩
  rcases completes_or e i with ⟨status, rfl⟩ | ⟨-, hsame⟩
  · simp only [Instr.marks, if_true]
    omega
  · rw [(hsame b).1, (hsame b).2]
    exact ⟨hle, hpend⟩

private theorem EventInv.exec_asleep (hi : EventInv s j) (ht : s.threads[t]? = some f)
    (hcode : f.code = i :: rest) (he : s.exec t f rest ok i = some s')
    (hg : Goes s s' t f f' i rest ok spawned) :
    ∀ u ∈ s'.threads, ∀ e n, .asleep e n ∈ u.code →
      ∃ b, s'.eventBody e = some b ∧ n ≤ b.wakes ∧ (n = b.wakes → b.status = .pending) := by
  intro u hu e n hmem
  rcases hg.mem ht hcode hu hmem with ⟨v, hv, hmem⟩ | hmem | ⟨q, h⟩
  · exact exec_sleeper he (hi.asleep v hv e n hmem)
  · obtain ⟨rfl, b, hb, hpend, rfl⟩ := asleep_new hmem
    exact exec_sleeper he ⟨b, hb, le_refl _, fun _ => hpend⟩
  · cases h

theorem EventInv.exec (hi : EventInv s j) (hr : RefInv s) (hw : WorkerInv s) (ht : s.threads[t]? = some f)
    (hcode : f.code = i :: rest) (he : s.exec t f rest ok i = some s') : EventInv s' (i.journal s t ok j) := by
  have hp := exec_posted hr hw ht hcode he
  rcases exec_code hw he with ⟨rfl, -, hcrash⟩ | ⟨f', spawned, hg⟩
  · have hj : i.journal s t ok j = j := by
      rcases hcrash with rfl | ⟨q, d, rfl⟩ <;> simp [Instr.journal, Instr.posts, Instr.ends]
    rw [hj]
    exact ⟨hi.conserved, hi.command, hi.statuses, hi.final, hi.produced, hi.recorded, hi.asleep⟩
  refine ⟨fun w => ?_, hi.exec_command ht hcode he hg, hi.exec_statuses ht hcode he hg, ?_,
    hi.exec_produced ht hcode hg, fun e b hb hstatus => hi.exec_recorded ht hcode he hb hstatus,
    hi.exec_asleep ht hcode he hg⟩
  · have h1 := hi.conserved w
    have h2 := hp.pending w
    simp only [Instr.journal, total_append, total_outcomes]
    omega
  · intro r hr
    rcases List.mem_append.1 hr with hr | hr
    · exact hi.final r hr
    · obtain ⟨rq, -, rfl⟩ := List.mem_map.1 hr
      cases ok <;> simp [outcome]

end

/-! ### The result of an event -/

/-- The status `status` is what `_xrp_run_command` has produced for `rq`, and `rq` is the command of the event
`e`, which has no other command and no other status. -/
structure Journal.Result (j : Journal) (e : Id) (rq : Request) (status : XrpStatus) : Prop where
  ran : (rq, status) ∈ j.ran
  posted : rq ∈ j.posted
  event : rq.event = some e
  command : ∀ rq' ∈ j.posted, rq'.event = some e → rq' = rq
  once : ∀ r ∈ j.ran, r.1.event = some e → r = (rq, status)

theorem isFor_pos {e : Id} {rq : Request} (h : rq.event = some e) : 0 < rq.isFor e := by
  simp [Request.isFor, h]

/-- A command that has run has been pushed. -/
theorem EventInv.posted_of_ran {j : Journal} (hi : EventInv s j) {rq : Request} {status : XrpStatus}
    (hran : (rq, status) ∈ j.ran) : rq ∈ j.posted := by
  have h1 := hi.conserved fun r => if r = rq then 1 else 0
  have h2 := le_total (fun r : Request × XrpStatus => if r.1 = rq then 1 else 0) hran
  simp only [if_true] at h2
  obtain ⟨r, hr, hpos⟩ := exists_of_total_pos (show 0 < total (fun r => if r = rq then 1 else 0)
    j.posted by omega)
  split at hpos
  · rename_i h
    exact h ▸ hr
  · exact absurd hpos (lt_irrefl 0)

theorem EventInv.result {j : Journal} (hi : EventInv s j) {e : Id} {rq : Request} {status : XrpStatus}
    (hran : (rq, status) ∈ j.ran) (he : rq.event = some e) : j.Result e rq status := by
  have hposted : total (Request.isFor e) j.posted ≤ 1 := by
    have := hi.command e
    split at this <;> omega
  have hmem := hi.posted_of_ran hran
  exact ⟨hran, hmem, he, fun rq' h h' => eq_of_total_le_one hposted h hmem (isFor_pos h') (isFor_pos he),
    fun r h h' => eq_of_total_le_one (hi.ran_le e) h hran (isFor_pos h') (isFor_pos he)⟩

/-! ### `xrp_run_command_sync` -/

/-- The event `e` has got a status. -/
def Host.resolves (s : Host) (e : Id) : Prop := ∃ b, s.eventBody e = some b ∧ b.status ≠ .pending

/-- The instructions of an enqueue before the push. -/
def Instr.prepares : Instr → Bool
  | .attachQueue .. | .retain _ => true
  | _ => false

/-- The status that the call has got: that of the request that it has pushed, or a failure if it has pushed none. -/
def Reported (ran : List (Request × XrpStatus)) (own : Option Request) (result : Option XrpStatus) : Prop :=
  match own with
  | some rq => ∃ e status, rq.event = some e ∧ (rq, status) ∈ ran ∧ result = some status
  | none => result = some .failure

/-- Where `xrp_run_command_sync` is, the request that it has pushed, and the status that it has got. -/
inductive Syncing (s : Host) (ran : List (Request × XrpStatus)) (q : Id) (g : Option Id) :
    List Instr → Option Request → Option XrpStatus → Prop
  | request {r : Option XrpStatus} : Syncing s ran q g [.newRequest q g true true, .ret] none r
  | event {r : Option XrpStatus} : Syncing s ran q g [.newEvent q g true, .ret] none r
  | enqueue {c : List Instr} {e : Id} {r : Option XrpStatus} (h : ∀ j ∈ c, j.prepares = true) :
      Syncing s ran q g (c ++ [.push q g (some e), .wait e, .eventStatus e, .release e, .ret]) none r
  | wait {rq : Request} {e : Id} {r : Option XrpStatus} (h : rq.event = some e) :
      Syncing s ran q g [.wait e, .eventStatus e, .release e, .ret] (some rq) r
  | asleep {rq : Request} {e : Id} {r : Option XrpStatus} (n : Nat) (h : rq.event = some e) :
      Syncing s ran q g [.asleep e n, .eventStatus e, .release e, .ret] (some rq) r
  | status {rq : Request} {e : Id} {r : Option XrpStatus} (h : rq.event = some e) (hs : s.resolves e) :
      Syncing s ran q g [.eventStatus e, .release e, .ret] (some rq) r
  | done {c : List Instr} {own : Option Request} {r : Option XrpStatus} (h : ∀ j ∈ c, j.cleanup = true ∨ j = .ret)
      (hr : Reported ran own r) : Syncing s ran q g c own r

/-- The calls of the threads, and the progress of those to `xrp_run_command_sync`. -/
structure SyncInv (s : Host) (j : Journal) : Prop where
  callers : ∀ t c, j.call t = some c → ∃ f, s.threads[t]? = some f ∧ f.role = none
  own : ∀ t rq, j.own t = some rq → rq ∈ j.posted
  syncing : ∀ t f q g, s.threads[t]? = some f → j.call t = some (.runCommandSync q g) →
    Syncing s j.ran q g f.code (j.own t) f.result

variable {ran ran' : List (Request × XrpStatus)}

theorem Reported.mono {own : Option Request} {r : Option XrpStatus} (h : Reported ran own r) (hran : ran ⊆ ran') :
    Reported ran' own r := by
  cases own with
  | none => exact h
  | some rq =>
    obtain ⟨e, status, he, hmem, hr⟩ := h
    exact ⟨e, status, he, hran hmem, hr⟩

theorem Syncing.mono {q : Id} {g : Option Id} {c : List Instr} {own : Option Request} {r : Option XrpStatus}
    (h : Syncing s ran q g c own r) (hs : ∀ e, s.resolves e → s'.resolves e) (hran : ran ⊆ ran') :
    Syncing s' ran' q g c own r := by
  cases h with
  | request => exact .request
  | event => exact .event
  | enqueue h => exact .enqueue h
  | wait h => exact .wait h
  | asleep n h => exact .asleep n h
  | status h he => exact .status h (hs _ he)
  | done h hr => exact .done h (hr.mono hran)

/-- A status stays. -/
theorem EventInv.resolves {j : Journal} (hi : EventInv s j) (ht : s.threads[t]? = some f) {i : Instr} {ok : Bool}
    (hcode : f.code = i :: rest) (he : s.exec t f rest ok i = some s') {e : Id} (h : s.resolves e) :
    s'.resolves e := by
  obtain ⟨b, hb, hstatus⟩ := h
  refine ⟨i.marks e b, eventBody_stays he hb, ?_⟩
  rcases completes_or e i with ⟨status, rfl⟩ | ⟨-, hsame⟩
  · obtain ⟨rq, hmem, -⟩ := hi.produced f (List.mem_of_getElem? ht) e status (by simp [hcode])
    simpa [Instr.marks] using hi.final _ hmem
  · rw [(hsame b).1]
    exact hstatus

theorem cleanup_new {i : Instr} {ok : Bool} (hi : i.cleanup = true) : ∀ j ∈ i.new s f ok, j.cleanup = true := by
  cases i with
  | release x =>
    simp only [Instr.new]
    repeat' split
    · exact cleanup_destroyCode x _
    all_goals simp
  | free | complete | condDestroy | closeQueue => simp [Instr.new]
  | setExit | join => simp [Instr.new, Instr.cleanup]
  | _ => cases hi

/-- At its end a call pushes nothing, and its result stays. -/
private theorem posts_of_cleanup {i : Instr} (h : i.cleanup = true ∨ i = .ret) : i.posts s = none := by
  rcases h with h | rfl
  · cases i <;> first | rfl | cases h
  · rfl

private theorem report_of_cleanup {i : Instr} {ok : Bool} (h : i.cleanup = true ∨ i = .ret) :
    i.report s f ok = f.result := by
  rcases h with h | rfl
  · cases i <;> first | rfl | cases h
  · rfl

/-- The steps of the call.  `hstatus` says that the status that the event of its request has got is that of the
request. -/
theorem Syncing.step {q : Id} {g : Option Id} {own : Option Request} {i : Instr}
    (h : Syncing s ran q g (i :: rest) own f.result)
    {ok : Bool} (he : s.exec t f rest ok i = some s') (hs : ∀ e, s.resolves e → s'.resolves e) (hran : ran ⊆ ran')
    (hstatus : ∀ rq e b, own = some rq → rq.event = some e → s.eventBody e = some b → b.status ≠ .pending →
      (rq, b.status) ∈ ran) :
    Syncing s' ran' q g (i.new s f ok ++ rest) (match i.posts s with
      | some rq => some rq
      | none => own) (i.report s f ok) := by
  generalize hc : i :: rest = code at h
  cases h with
  | request =>
    cases hc
    cases ok
    · exact .done (by simp [Instr.new]) rfl
    · exact .event
  | event =>
    cases hc
    cases ok
    · exact .done (by simp [Instr.new]) rfl
    · have hcode : (Instr.newEvent q g true).new s f true ++ [.ret] =
          ([.attachQueue s.heap.length q, .retain s.heap.length] ++ g.toList.map .retain) ++
            [.push q g (some s.heap.length), .wait s.heap.length, .eventStatus s.heap.length,
            .release s.heap.length, .ret] := by
        simp [Instr.new, enqueueCode]
      rw [hcode]
      refine .enqueue fun j hj => ?_
      cases g <;> simp at hj <;> rcases hj with rfl | rfl | rfl <;> rfl
  | @enqueue c e _ h =>
    cases c with
    | nil =>
      cases hc
      exact .wait rfl
    | cons j c =>
      cases hc
      have hj := h i (List.mem_cons_self ..)
      have hrest : Syncing s' ran' q g (c ++ [.push q g (some e), .wait e, .eventStatus e, .release e, .ret]) none
          f.result :=
        .enqueue fun j hj => h j (List.mem_cons_of_mem _ hj)
      cases i <;> first | exact hrest | cases hj
  | @wait rq e _ h =>
    cases hc
    simp only [Host.exec] at he
    split at he
    · rename_i b hb
      simp only [Instr.new, hb, Instr.posts]
      split
      · exact .asleep _ h
      · rename_i hstatus
        exact .status h (hs e ⟨b, hb, hstatus⟩)
    · cases he
  | asleep n h =>
    cases hc
    exact .wait h
  | @status rq e _ h hst =>
    cases hc
    obtain ⟨b, hb, hne⟩ := hst
    refine .done (by simp [Instr.new, Instr.cleanup]) ⟨e, b.status, h, hran (hstatus rq e b rfl h hb hne), ?_⟩
    simp only [Instr.report, hb, Option.map_some]
  | done h hr =>
    subst hc
    have hi := h i (List.mem_cons_self ..)
    rw [posts_of_cleanup hi, report_of_cleanup hi]
    refine .done (fun j hj => ?_) (hr.mono hran)
    rcases List.mem_append.1 hj with hj | hj
    · rcases hi with hi | rfl
      · exact .inl (cleanup_new hi j hj)
      · cases hj
    · exact h j (List.mem_cons_of_mem _ hj)

theorem SyncInv.exec {j : Journal} (hi : SyncInv s j) (hev : EventInv s j) (hw : WorkerInv s)
    (ht : s.threads[t]? = some f) {i : Instr} {ok : Bool} (hcode : f.code = i :: rest)
    (he : s.exec t f rest ok i = some s') : SyncInv s' (i.journal s t ok j) := by
  rcases exec_code hw he with ⟨rfl, -, hcrash⟩ | ⟨f', spawned, hg⟩
  · have hj : i.journal s t ok j = j := by
      rcases hcrash with rfl | ⟨q, d, rfl⟩ <;> simp [Instr.journal, Instr.posts, Instr.ends]
    rw [hj]
    exact ⟨hi.callers, hi.own, fun w u q g hu hc =>
      (hi.syncing w u q g hu hc).mono (fun e h => h) (List.Subset.refl _)⟩
  have hres : ∀ e, s.resolves e → s'.resolves e := fun e => hev.resolves ht hcode he
  have hran : j.ran ⊆ (i.journal s t ok j).ran := List.subset_append_left ..
  refine ⟨fun w c hc => ?_, fun w rq h => ?_, fun w u q g hu hc => ?_⟩
  · obtain ⟨v, hv, hrole⟩ := hi.callers w c hc
    by_cases hwt : w = t
    · subst hwt
      rw [ht] at hv
      cases hv
      exact ⟨f', hg.self ht, hg.role.trans hrole⟩
    · exact ⟨v, hg.other hv hwt, hrole⟩
  · simp only [Instr.journal] at h ⊢
    cases hpost : i.posts s with
    | some rq' =>
      rw [hpost] at h
      by_cases hwt : w = t
      · subst hwt
        simp only [Function.update_self, Option.some.injEq] at h
        simp [h]
      · simp only [Function.update_of_ne hwt] at h
        exact List.mem_append_left _ (hi.own w rq h)
    | none =>
      rw [hpost] at h
      exact List.mem_append_left _ (hi.own w rq h)
  · obtain ⟨v, hv, -⟩ := hi.callers w _ hc
    have hsync := hi.syncing w v q g hv hc
    by_cases hwt : w = t
    · subst hwt
      rw [ht] at hv
      cases hv
      rw [hg.self ht] at hu
      cases hu
      rw [hcode] at hsync
      rw [hg.code]
      have hown : (i.journal s w ok j).own w = match i.posts s with
          | some rq => some rq
          | none => j.own w := by
        simp only [Instr.journal]
        cases i.posts s <;> simp
      rw [hown, hg.result]
      refine hsync.step he hres hran fun rq e b hrq hrqe hb hne => ?_
      obtain ⟨rq', hmem, hev'⟩ := hev.recorded e b hb hne
      rwa [(hev.result hmem hev').command rq (hi.own w rq hrq) hrqe]
    · rw [hg.other hv hwt] at hu
      cases hu
      have hown : (i.journal s t ok j).own w = j.own w := by
        simp only [Instr.journal]
        cases i.posts s <;> simp [Function.update_of_ne hwt]
      rw [hown]
      exact hsync.mono hres hran

/-! ### Runs -/

/-- Both invariants. -/
structure CompletionInv (s : Host) (j : Journal) : Prop where
  event : EventInv s j
  sync : SyncInv s j

theorem CompletionInv.start : CompletionInv .start .start := by
  refine ⟨⟨fun w => rfl, fun e => ?_, fun e => ?_, ?_, ?_, ?_, ?_⟩, ?_, ?_, ?_⟩ <;>
    simp [Host.start, Journal.start, Host.weigh, Host.eventBody, Host.body]

theorem events_code (c : ApiCall) (e : Id) :
    total (Instr.pushes e) c.code = 0 ∧ total (Instr.completes e) c.code = 0 ∧
      (∀ status, .complete e status ∉ c.code) ∧ ∀ n, .asleep e n ∉ c.code := by
  cases c <;> simp [ApiCall.code, Instr.pushes, Instr.completes]

private theorem EventInv.call {j : Journal} (hi : EventInv s j) (ht : s.threads[t]? = some f)
    (hcode : f.code = []) (c : ApiCall) (h pool maps : Multiset Id) :
    EventInv { s.frame t { f with code := c.code, held := h } with pool := pool, maps := maps }
      (s.journal (.call t c) j) := by
  have hmem : ∀ u ∈ (s.frame t { f with code := c.code, held := h }).threads, u.code = c.code ∨
    u ∈ s.threads := by
    intro u hu
    rcases mem_threads_set hu with rfl | hu
    · exact .inl rfl
    · exact .inr hu
  refine ⟨fun w => ?_, fun e => ?_, fun e => ?_, ?_, fun u hu e status hm => ?_, ?_, fun u hu e n hm => ?_⟩
  · have h1 : _ = s.pending w := pending_call ht hcode c (h := h)
    exact (hi.conserved w).trans (by rw [← h1]; rfl)
  · have h1 := weigh_call ht hcode c h (Instr.pushes e)
    rw [(events_code c e).1, Nat.add_zero] at h1
    exact (congrArg (· + _) h1).trans (hi.command e)
  · have h1 := weigh_call ht hcode c h (Instr.completes e)
    rw [(events_code c e).2.1, Nat.add_zero] at h1
    exact (congrArg (· + _) h1).trans (hi.statuses e)
  · exact hi.final
  · rcases hmem u hu with hc | hu
    · rw [hc] at hm
      exact absurd hm ((events_code c e).2.2.1 status)
    · exact hi.produced u hu e status hm
  · exact hi.recorded
  · rcases hmem u hu with hc | hu
    · rw [hc] at hm
      exact absurd hm ((events_code c e).2.2.2 n)
    · exact hi.asleep u hu e n hm

private theorem SyncInv.call {j : Journal} (hi : SyncInv s j) (ht : s.threads[t]? = some f)
    (hrole : f.role = none) (c : ApiCall) (h pool maps : Multiset Id) :
    SyncInv { s.frame t { f with code := c.code, held := h } with pool := pool, maps := maps }
      { j with call := Function.update j.call t (some c), own := Function.update j.own t none } := by
  have hself : (s.frame t { f with code := c.code, held := h }).threads[t]? =
    some { f with code := c.code, held := h } :=
    List.getElem?_set_self (List.getElem?_eq_some_iff.1 ht).1
  have hother : ∀ (w : Nat), w ≠ t → (s.frame t { f with code := c.code, held := h }).threads[w]? =
    s.threads[w]? :=
    fun w hne => List.getElem?_set_ne hne.symm
  refine ⟨fun w c' hc => ?_, fun w rq h => ?_, fun w u q g hu hc => ?_⟩
  · by_cases hwt : w = t
    · subst hwt
      exact ⟨_, hself, hrole⟩
    · rw [hother w hwt]
      exact hi.callers w c' (by simpa [Function.update_of_ne hwt] using hc)
  · by_cases hwt : w = t
    · subst hwt
      simp at h
    · exact hi.own w rq (by simpa [Function.update_of_ne hwt] using h)
  · by_cases hwt : w = t
    · subst hwt
      rw [hself] at hu
      cases hu
      simp only [Function.update_self, Option.some.injEq] at hc ⊢
      subst hc
      exact .request
    · rw [hother w hwt] at hu
      simp only [Function.update_of_ne hwt] at hc ⊢
      exact (hi.syncing w u q g hu hc).mono (fun e h => h) (List.Subset.refl _)

theorem CompletionInv.step {j : Journal} (hi : CompletionInv s j) (hr : RefInv s) (hw : WorkerInv s)
    {l : HostLabel} (hs : s.step l = some s') : CompletionInv s' (s.journal l j) := by
  rcases step_cases hs with ⟨rfl, rfl⟩ | ⟨t, c, f, rfl, ht, hrole, hcode, -, -, rfl⟩ |
    ⟨t, ok, f, i, rest, rfl, ht, hcode, ⟨hfault, rfl⟩ | he⟩
  · obtain ⟨hev, hsync⟩ := hi
    have hmem : ∀ u ∈ s.threads ++ [Thread.idle], ∀ j ∈ u.code, u ∈ s.threads := by
      intro u hu j hj
      rcases List.mem_append.1 hu with hu | hu
      · exact hu
      · rw [List.mem_singleton.1 hu] at hj
        cases hj
    refine ⟨⟨fun w => ?_, fun e => ?_, fun e => ?_, hev.final, fun u hu e status hm => ?_, hev.recorded,
      fun u hu e n hm => ?_⟩, fun w c hc => ?_, hsync.own, fun w u q g hu hc => ?_⟩
    · rw [pending_attach]
      exact hev.conserved w
    · rw [weigh_attach]
      exact hev.command e
    · rw [weigh_attach]
      exact hev.statuses e
    · exact hev.produced u (hmem u hu _ hm) e status hm
    · exact hev.asleep u (hmem u hu _ hm) e n hm
    · obtain ⟨v, hv, hrole⟩ := hsync.callers w c hc
      exact ⟨v, by rw [List.getElem?_append_left (List.getElem?_eq_some_iff.1 hv).1]; exact hv, hrole⟩
    · obtain ⟨v, hv, -⟩ := hsync.callers w _ hc
      rw [List.getElem?_append_left (List.getElem?_eq_some_iff.1 hv).1] at hu
      exact (hsync.syncing w u q g hu hc).mono (fun e h => h) (List.Subset.refl _)
  · exact ⟨hi.event.call ht hcode c _ _ _, hi.sync.call ht hrole c _ _ _⟩
  · obtain ⟨x, hx, hgone⟩ := hfault
    rw [hw.safe hr ht hcode x hx] at hgone
    cases hgone
  · rw [journal_of_instr ht hcode]
    exact ⟨hi.event.exec hr hw ht hcode he, hi.sync.exec hi.event hw ht hcode he⟩

theorem reach_of_journaled {p : Host × Journal} (h : Reach journaled anyStep p) : Reach host anyStep p.1 :=
  Reach.of_record h

theorem completionInv_of_reach {p : Host × Journal} (h : Reach journaled anyStep p) : CompletionInv p.1 p.2 := by
  induction h with
  | start h0 =>
    obtain ⟨h1, h2⟩ := h0
    rw [h1, h2]
    exact .start
  | step h _ hs ih =>
    obtain ⟨hs, hj⟩ := System.record_step hs
    have hi := hostInv_of_reach (reach_of_journaled h)
    rw [hj]
    exact ih.step hi.refs hi.worker (host_step hs)

/-- The completion protocol. -/
structure CompletionSafe (s : Host) (j : Journal) : Prop where
  /-- A step leaves the status of an event, or changes it from pending to the result of its command. -/
  status : ∀ l s', host.step s l = some s' → ∀ e b, s.eventBody e = some b →
    ∃ b', s'.eventBody e = some b' ∧ (b'.status = b.status ∨
      (b.status = .pending ∧ b'.status ≠ .pending ∧ ∃ rq, j.Result e rq b'.status))
  /-- `xrp_wait` goes to sleep, or returns after the command has run. -/
  wait : ∀ t f e rest ok s', s.threads[t]? = some f → f.code = .wait e :: rest →
    s.exec t f rest ok (.wait e) = some s' →
      (∃ n, s' = s.goOn t f (.asleep e n :: rest)) ∨ (s' = s.goOn t f rest ∧ ∃ rq status, j.Result e rq status)
  /-- A thread that sleeps and that no broadcast has reached waits for a pending status. -/
  asleep : ∀ f ∈ s.threads, ∀ e n, .asleep e n ∈ f.code →
    ∃ b, s.eventBody e = some b ∧ n ≤ b.wakes ∧ (n = b.wakes → b.status = .pending)
  /-- `xrp_run_command_sync` returns the result of the command that it has pushed. -/
  sync : ∀ t f q g e rest ok s', s.threads[t]? = some f → j.call t = some (.runCommandSync q g) →
    f.code = .eventStatus e :: rest → s.exec t f rest ok (.eventStatus e) = some s' →
      ∃ rq status, j.own t = some rq ∧ j.Result e rq status ∧
        s' = s.frame t { f with code := rest, result := some status }
  /-- At its return it has this result, or a failure if it has pushed no command. -/
  returned : ∀ t f q g, s.threads[t]? = some f → j.call t = some (.runCommandSync q g) →
    (∀ i ∈ f.code, i = .ret) →
      (∃ e rq status, j.own t = some rq ∧ j.Result e rq status ∧ f.result = some status) ∨
        (j.own t = none ∧ f.result = some .failure)
  /-- An event that a thread uses is not destroyed, and nobody is about to destroy it. -/
  used : ∀ (t : Nat) (f : Thread) (i : Instr) rest e b, s.threads[t]? = some f → f.code = i :: rest →
    e ∈ i.needs → s.eventBody e = some b →
    s.gone e = false ∧ ∀ u ∈ s.threads, .condDestroy e ∉ u.code ∧ .free e ∉ u.code
  noFault : s.fault = false

theorem CompletionInv.status {j : Journal} (hi : CompletionInv s j) {l : HostLabel}
    (hs : s.step l = some s') {e : Id} {b : EventBody} (hb : s.eventBody e = some b) :
    ∃ b', s'.eventBody e = some b' ∧ (b'.status = b.status ∨
      (b.status = .pending ∧ b'.status ≠ .pending ∧ ∃ rq, j.Result e rq b'.status)) := by
  rcases step_cases hs with ⟨-, rfl⟩ | ⟨t, c, f, -, -, -, -, -, -, rfl⟩ |
    ⟨t, ok, f, i, rest, -, ht, hcode, ⟨-, rfl⟩ | he⟩
  · exact ⟨b, hb, .inl rfl⟩
  · exact ⟨b, hb, .inl rfl⟩
  · exact ⟨b, hb, .inl rfl⟩
  · refine ⟨i.marks e b, eventBody_stays he hb, ?_⟩
    rcases completes_or e i with ⟨status, rfl⟩ | ⟨-, hsame⟩
    · obtain ⟨rq, hmem, h⟩ := hi.event.produced f (List.mem_of_getElem? ht) e status (by simp [hcode])
      have hst : ((Instr.complete e status).marks e b).status = status := by simp [Instr.marks]
      have hres := hi.event.result hmem h
      rw [hst]
      by_cases hpend : b.status = .pending
      · exact .inr ⟨hpend, hi.event.final _ hmem, rq, hres⟩
      · -- the event has a result already, which is the same one
        obtain ⟨rq', hmem', h'⟩ := hi.event.recorded e b hb hpend
        exact .inl (congrArg Prod.snd (hres.once _ hmem' h')).symm
    · exact .inl (hsame b).1

theorem HostInv.used (hi : HostInv s) (ht : s.threads[t]? = some f) {i : Instr}
    (hcode : f.code = i :: rest) {e : Id}
    (he : e ∈ i.needs) : s.gone e = false ∧ ∀ u ∈ s.threads, .condDestroy e ∉ u.code ∧ .free e ∉ u.code := by
  obtain ⟨c, hc, hpos, hfreed⟩ := hi.refs.of_needs ht hcode he
  have hnofree : ∀ u ∈ s.threads, .free e ∉ u.code := fun u hu hmem => by
    have := frees_pos hu hmem
    have := (hi.refs.live e c hc hpos).1
    omega
  refine ⟨gone_eq_false hc hfreed, fun u hu => ⟨fun hmem => ?_, hnofree u hu⟩⟩
  exact hnofree u hu ((hi.refs.runs u hu).free_of_closes hmem rfl)

/-- In every run the completion protocol is kept. -/
theorem completionSafe_of_reach {p : Host × Journal} (h : Reach journaled anyStep p) :
    CompletionSafe p.1 p.2 := by
  have hi := completionInv_of_reach h
  have hh := hostInv_of_reach (reach_of_journaled h)
  refine ⟨fun l s' hs e b hb => hi.status (host_step hs) hb, ?_, hi.event.asleep, ?_, ?_, ?_, hh.fault⟩
  · intro t f e rest ok s' ht hcode he
    simp only [Host.exec] at he
    split at he
    · rename_i b hb
      cases he
      split
      · exact .inl ⟨_, rfl⟩
      · rename_i hstatus
        obtain ⟨rq, hmem, hev⟩ := hi.event.recorded e b hb hstatus
        exact .inr ⟨rfl, rq, b.status, hi.event.result hmem hev⟩
    · cases he
  · intro t f q g e rest ok s' ht hcall hcode he
    have hsync := hi.sync.syncing t f q g ht hcall
    generalize hown : p.2.own t = own at hsync
    rw [hcode] at hsync
    generalize hc : Instr.eventStatus e :: rest = code at hsync
    cases hsync with
    | @status rq x _ hev hres =>
      cases hc
      obtain ⟨b, hb, hstatus⟩ := hres
      simp only [Host.exec, hb] at he
      cases he
      obtain ⟨rq', hmem, hev'⟩ := hi.event.recorded e b hb hstatus
      have hresult := hi.event.result hmem hev'
      -- the command of the event is the one that this call has pushed
      obtain rfl := hresult.command rq (hi.sync.own t rq hown) hev
      exact ⟨rq, b.status, rfl, hresult, rfl⟩
    | @enqueue c x _ hpre =>
      cases c with
      | nil => cases hc
      | cons i c =>
        cases hc
        cases hpre (.eventStatus e) (List.mem_cons_self ..)
    | done hdone _ =>
      subst hc
      rcases hdone (.eventStatus e) (List.mem_cons_self ..) with h | h <;> cases h
    | _ => cases hc
  · intro t f q g ht hcall hret
    have hsync := hi.sync.syncing t f q g ht hcall
    generalize hcode : f.code = code at hret hsync
    generalize hown : p.2.own t = own at hsync
    generalize hresult : f.result = result at hsync
    cases hsync with
    | done _ hreported =>
      cases own with
      | none => exact .inr ⟨rfl, hreported⟩
      | some rq =>
        obtain ⟨e, status, hev, hmem, rfl⟩ := hreported
        exact .inl ⟨e, rq, status, rfl, hi.event.result hmem hev, rfl⟩
    | @enqueue c e _ _ => cases hret (.push q g (some e)) (by simp)
    | request | event | wait | asleep | status => cases hret _ (List.mem_cons_self ..)
  · intro t f i rest e b ht hcode he _
    exact hh.used ht hcode he

/-- A client calls `xrp_run_command_sync` and sleeps; the worker runs the command, which fails, and wakes it. -/
def runSync : List HostLabel :=
  [.attach, .call 0 .openDeviceNewmode] ++ steps 0 2 ++ [.call 0 (.createQueue 0)] ++ steps 0 4 ++
    [.call 0 (.runCommandSync 1 none)] ++ steps 0 6 ++ steps 1 3 ++ [.run 1 false, .run 1 true] ++ steps 0 3

theorem completionSafe_runSync :
    ∃ p, journaled.exec anyStep (.start, .start) runSync = some p ∧
      p.1.threads.map Thread.result = [some .failure, none] ∧ p.2.ran = [(⟨0, 1, none, some 2⟩, .failure)] ∧
      CompletionSafe p.1 p.2 := by
  obtain ⟨p, hs, hr, hp⟩ := Reach.exists_exec journaled anyStep (.start, .start) runSync
    (fun p => p.1.threads.map Thread.result = [some .failure, none] ∧
      p.2.ran = [(⟨0, 1, none, some 2⟩, .failure)]) ⟨rfl, rfl⟩ (by decide +kernel)
  exact ⟨p, hs, (of_decide_eq_true hp).1, (of_decide_eq_true hp).2, completionSafe_of_reach hr⟩

end Vdsp
