import Vdsp.Host.Progress

/-!
# Every call returns

What the threads still have to do is bounded: an instruction stands for a number of steps, so does an object
that is still to be destroyed and a request that waits, and a thread that a broadcast has reached looks once more
at what it waits for.  Every step of a thread that is not blocked lowers the sum.  With the absence of deadlocks,
all calls return, in whatever order the threads are scheduled.
-/

namespace Vdsp

open Ledger Lts

variable {s s' : Host} {t : Nat} {f f' : Thread} {rest : List Instr}

/-! ### The measure -/

/-- The steps that an instruction stands for, what it puts into the code, the heap and the list included. -/
def Instr.work : Instr → Nat
  | .ret | .retain _ | .release _ | .free _ | .ionmem | .mapInc _ | .mapDec _ | .get .. => 1
  | .wait _ | .eventStatus _ | .complete .. | .condDestroy _ | .closeQueue .. | .asleepQueue .. => 1
  | .openNewmode | .newGroup | .attachDevice .. | .attachQueue .. | .add .. | .swap .. | .asleep .. => 2
  | .process _ | .join .. => 2
  | .openWrapper _ | .mapCheck _ | .enter _ => 3
  | .createThread _ | .loop _ | .ioctl _ => 4
  | .openInner | .newBuffer _ | .snapshot _ | .setExit .. => 5
  | .push .. => 11
  | .newQueue _ => 12
  | .newEvent .. => 23
  | .newRequest .. => 24

/-- The steps of the destruction of an object. -/
def Body.work (b : Body) : Nat :=
  (match b with
    | .queue _ => 5
    | .event _ => 1
    | _ => 0) + b.refs.length + 1

def Cell.work (c : Cell) : Nat := if c.count = 0 then 0 else c.body.work

/-- What a broadcast adds for a thread that waits: a wait for a pending event will go to sleep and wake up, and a
worker that a broadcast has reached looks at its list again. -/
def Host.due (s : Host) : Instr → Nat
  | .wait e => if (s.eventBody e).map EventBody.status = some .pending then 2 else 0
  | .asleepQueue q n => if (s.queueBody q).map QueueBody.wakes = some n then 0 else 2
  | _ => 0

/-- A bound of the steps that are left. -/
def Host.remaining (s : Host) : Nat :=
  s.weigh Instr.work + s.weigh s.due + 8 * s.requests.length + total Cell.work s.heap

/-! ### The code -/

theorem work_destroyCode (x : Id) (b : Body) : total Instr.work (destroyCode x b) = b.work := by
  have hrefs : total (fun y => Instr.work (.release y)) b.refs = b.refs.length := by
    simp [total, Instr.work]
  rw [total_destroyCode, hrefs]
  cases b <;> simp [Body.work, Instr.work]

theorem work_finishCode (rq : Request) (status : XrpStatus) : total Instr.work (finishCode rq status) ≤ 3 := by
  rw [total_finishCode]
  cases rq.group <;> cases rq.event <;> simp [Instr.work]

theorem work_enqueueCode (q : Id) (g e : Option Id) (sync : Bool) :
    total Instr.work (enqueueCode q g e sync) ≤ 18 := by
  rw [total_enqueueCode]
  cases g <;> cases e <;> cases sync <;> simp [Instr.work]

/-- The work that a new thread has. -/
def Instr.spawnWork : Instr → Nat
  | .createThread _ => 3
  | _ => 0

section

variable {i : Instr} {ok : Bool} {spawned : List Thread}

/-- The weight of the code after a step, for weights of which a new thread has some. -/
theorem Goes.weigh_spawned (hg : Goes s s' t f f' i rest ok spawned) (ht : s.threads[t]? = some f)
    (hcode : f.code = i :: rest) (p : Instr → Nat) :
    s'.weigh p + p i = s.weigh p + total p (i.new s f ok) + total (fun f : Thread => total p f.code) spawned := by
  have h := total_set (fun f : Thread => total p f.code) f' ht
  rw [hcode, hg.code, total_cons, total_append] at h
  unfold Host.weigh
  rw [hg.threads, total_append]
  omega

/-! ### Broadcasts -/

/-- The instruction is the sleep of the worker of `q`. -/
def Instr.sleepsOn (q : Id) : Instr → Nat
  | .asleepQueue x _ => if x = q then 1 else 0
  | _ => 0

/-- Who sleeps on a queue is its worker, and does nothing else. -/
theorem WorkerInv.of_asleepQueue (hw : WorkerInv s) (hf : f ∈ s.threads) {q : Id} {n : Nat}
    (hj : .asleepQueue q n ∈ f.code) : f.role = some q ∧ f.code = [.asleepQueue q n] := by
  cases hr : f.role with
  | none =>
    obtain ⟨hcalling, -⟩ := hw.calling f hf hr
    rcases hcalling with h | ⟨c, h, hc⟩
    · rw [h] at hj
      cases hj
    · rw [h] at hj
      rcases List.mem_append.1 hj with hj | hj
      · cases hc _ hj
      · cases List.mem_singleton.1 hj
  | some x =>
    have hserving := (hw.serving f hf x hr).1
    generalize f.code = code at hj hserving
    generalize f.exit = exit at hserving
    cases hserving with
    | asleep m =>
      cases List.mem_singleton.1 hj
      exact ⟨rfl, rfl⟩
    | finish hc =>
      rcases List.mem_append.1 hj with hj | hj
      · cases hc _ hj
      · cases List.mem_singleton.1 hj
    | done | enter | process | snapshot | ioctl => simp at hj

/-- Only the worker of a queue sleeps on it. -/
theorem WorkerInv.sleepers_le_one (hw : WorkerInv s) (q : Id) : s.weigh (Instr.sleepsOn q) ≤ 1 := by
  have hsleeps : ∀ f ∈ s.threads, 0 < total (Instr.sleepsOn q) f.code →
      ∃ n, f.role = some q ∧ f.code = [.asleepQueue q n] := by
    intro f hf hpos
    obtain ⟨j, hj, hj0⟩ := exists_of_total_pos hpos
    cases j with
    | asleepQueue x n =>
      have hx : x = q := by
        by_contra hne
        simp [Instr.sleepsOn, hne] at hj0
      subst hx
      exact ⟨n, hw.of_asleepQueue hf hj⟩
    | _ => exact absurd hj0 (lt_irrefl 0)
  apply total_le_of_unique
  · intro f hf
    by_cases hpos : 0 < total (Instr.sleepsOn q) f.code
    · obtain ⟨n, -, hcode⟩ := hsleeps f hf hpos
      simp [hcode, Instr.sleepsOn]
    · omega
  · intro u v f g hu hv hf hg
    obtain ⟨-, hrf, -⟩ := hsleeps f (List.mem_of_getElem? hu) hf
    obtain ⟨-, hrg, -⟩ := hsleeps g (List.mem_of_getElem? hv) hg
    obtain ⟨b, hb, hw', -⟩ := hw.worker v g q hv hrg
    exact hw.unique hb hw' hu hrf

/-- What the other instructions are due changes by a broadcast only. -/
theorem exec_due (hk : KindInv s) (hr : RefInv s) (hw : WorkerInv s) {j : Journal} (hev : EventInv s j)
    (ht : s.threads[t]? = some f) (hcode : f.code = i :: rest) (he : s.exec t f rest ok i = some s') :
    s.weigh s'.due ≤ s.weigh s.due + 2 * i.broadcasts.toList.length := by
  have hinstr : ∀ u ∈ s.threads, ∀ k ∈ u.code,
      s'.due k ≤ s.due k + 2 * total (fun q => Instr.sleepsOn q k) i.broadcasts.toList := by
    intro u hu k hk'
    have hops := hk.code u hu k hk'
    cases k with
    | wait e =>
      simp only [Instr.operands, typed_cons] at hops
      obtain ⟨b, hb⟩ := eventBody_of_type hops.1
      simp only [Host.due]
      by_cases hp : b.status = .pending
      · simp only [hb, Option.map_some, hp, if_true]
        split <;> omega
      · obtain ⟨b', hb', hp'⟩ := hev.resolves ht hcode he ⟨b, hb, hp⟩
        simp [hb', hp']
    | asleepQueue q n =>
      simp only [Instr.operands, typed_cons] at hops
      obtain ⟨b, hb⟩ := queueBody_of_type hops.1
      obtain ⟨b', hb', -, -, -, hsame⟩ := exec_wakes hr hw ht hcode he hb
      simp only [Host.due, hb, hb', Option.map_some]
      by_cases hq : i.broadcasts = some q
      · simp only [hq, Option.toList_some, total_cons, total_nil, Instr.sleepsOn, if_true]
        repeat' split
        all_goals omega
      · rw [hsame hq]
        omega
    | _ => exact Nat.zero_le _
  have hthreads : s.weigh s'.due ≤ s.weigh fun k => s.due k + 2 * total (fun q => Instr.sleepsOn q k)
      i.broadcasts.toList :=
    total_mono fun u hu => total_mono (hinstr u hu)
  have hsum : (s.weigh fun k => s.due k + 2 * total (fun q => Instr.sleepsOn q k) i.broadcasts.toList) ≤
      s.weigh s.due + 2 * i.broadcasts.toList.length := by
    cases hq : i.broadcasts with
    | none => simp
    | some q =>
      have hone := hw.sleepers_le_one q
      have heq : (s.weigh fun k => s.due k + 2 * total (fun q => Instr.sleepsOn q k) [q]) =
          s.weigh s.due + 2 * s.weigh (Instr.sleepsOn q) := by
        unfold Host.weigh
        rw [← total_mul, ← total_add]
        congr 1
        funext u
        rw [← total_mul, ← total_add]
        simp
      simp only [Option.toList_some, List.length_singleton]
      omega
  exact le_trans hthreads hsum

/-! ### The heap -/

def Host.heapWork (s : Host) : Nat := total Cell.work s.heap

/-- What an instruction adds to the work of the objects, at most. -/
def Instr.grows : Instr → Nat
  | .openNewmode | .openInner | .newBuffer _ | .newGroup | .attachDevice .. | .attachQueue .. | .add .. => 1
  | .openWrapper _ | .newEvent .. => 2
  | .newQueue _ => 7
  | _ => 0

/-- The work of the object that an instruction starts to destroy. -/
def Instr.destroys (s : Host) : Instr → Nat
  | .release x =>
    match s.heap[x]? with
    | some c => if c.count = 1 then c.body.work else 0
    | none => 0
  | _ => 0

theorem work_of_pos {c : Cell} (h : 0 < c.count) : c.work = c.body.work := if_neg (by omega)

theorem work_of_zero {c : Cell} (h : c.count = 0) : c.work = 0 := if_pos h

theorem heapWork_modify {x : Id} {g : Cell → Cell} {c : Cell} (hx : s.heap[x]? = some c) :
    (s.modify x g).heapWork + c.work = s.heapWork + (g c).work :=
  total_modify Cell.work g hx

/-- A store of another body. -/
theorem heapWork_setBody {x : Id} {b b₀ : Body} (hx : s.body x = some b₀) {k : Nat} (hb : b.work ≤ b₀.work + k) :
    (s.modify x (Cell.setBody b)).heapWork ≤ s.heapWork + k := by
  obtain ⟨c, hc, rfl⟩ := body_eq_some.1 hx
  have h := heapWork_modify (g := Cell.setBody b) hc
  have hwork : (Cell.setBody b c).work ≤ c.work + k := by
    by_cases h0 : c.count = 0
    · have hset : (Cell.setBody b c).work = 0 := work_of_zero h0
      omega
    · have hset : (Cell.setBody b c).work = b.work := work_of_pos (c := Cell.setBody b c) (Nat.pos_of_ne_zero h0)
      have hc0 := work_of_pos (Nat.pos_of_ne_zero h0)
      omega
  omega

/-- A live object gets another reference. -/
theorem heapWork_inc {x : Id} {c : Cell} (hx : s.heap[x]? = some c) (hc : 0 < c.count) :
    (s.modify x Cell.inc).heapWork = s.heapWork := by
  have h := heapWork_modify (g := Cell.inc) hx
  have hwork : (Cell.inc c).work = c.body.work := work_of_pos (c := Cell.inc c) (Nat.succ_pos _)
  have hc0 := work_of_pos hc
  omega

theorem heapWork_append (c : Cell) : ({ s with heap := s.heap ++ [c] } : Host).heapWork = s.heapWork + c.work := by
  simp [Host.heapWork]

/-- A reference is released; the last one leaves nothing of the object's work. -/
theorem heapWork_dec {x : Id} {c : Cell} (hx : s.heap[x]? = some c) (hc : 0 < c.count) :
    (s.modify x Cell.dec).heapWork + (if c.count = 1 then c.body.work else 0) = s.heapWork := by
  have h := heapWork_modify (g := Cell.dec) hx
  have hc0 := work_of_pos hc
  have hcount : (Cell.dec c).count = c.count - 1 := rfl
  by_cases h1 : c.count = 1
  · have hdec : (Cell.dec c).work = 0 := work_of_zero (by omega)
    rw [if_pos h1]
    omega
  · have hdec : (Cell.dec c).work = c.body.work := work_of_pos (c := Cell.dec c) (by omega)
    rw [if_neg h1]
    omega

theorem exec_heapWork (hr : RefInv s) (hw : WorkerInv s) (ht : s.threads[t]? = some f) (hcode : f.code = i :: rest)
    (he : s.exec t f rest ok i = some s') : s'.heapWork + i.destroys s ≤ s.heapWork + i.grows := by
  have hlive : ∀ x ∈ i.needs, ∃ c, s.heap[x]? = some c ∧ 0 < c.count := fun x hx => by
    obtain ⟨c, hc, hpos, -⟩ := hr.of_needs ht hcode hx
    exact ⟨c, hc, hpos⟩
  have halloc : ∀ (f : Thread) (body : Body) (code : Id → List Instr),
      (s.alloc t f body code).heapWork = s.heapWork + body.work := fun f body code => heapWork_append _
  have hqueue : ∀ {q : Id} {b b₀ : QueueBody}, s.queueBody q = some b₀ →
      (s.modify q (Cell.setBody (.queue b))).heapWork ≤ s.heapWork := fun hb =>
    heapWork_setBody (k := 0) (body_of_queueBody hb) (le_refl _)
  have hattach : ∀ {x y : Id} {b b₀ : Body} {k : Nat}, y ∈ i.needs → s.body x = some b₀ → b.work ≤ b₀.work + k →
      ((s.modify y Cell.inc).modify x (Cell.setBody b)).heapWork ≤ s.heapWork + k := by
    intro x y b b₀ k hy hb hwork
    obtain ⟨c, hc, hpos⟩ := hlive y hy
    have hinc := heapWork_inc hc hpos
    have hset := heapWork_setBody (s := s.modify y Cell.inc) ((body_inc y x).trans hb) hwork
    omega
  cases i with
  | release x =>
    obtain ⟨c, hc, hpos⟩ := hlive x (by simp [Instr.needs])
    have hdec := heapWork_dec hc hpos
    simp only [Host.exec, hc] at he
    simp only [Instr.destroys, hc, Instr.grows]
    split at he <;> cases he <;> exact le_of_eq hdec
  | retain x =>
    obtain ⟨c, hc, hpos⟩ := hlive x (by simp [Instr.needs])
    cases he
    exact le_of_eq (heapWork_inc hc hpos)
  | free x =>
    cases he
    exact Nat.add_le_add_right (le_of_eq (total_modify_same Cell.work s.heap x Cell.markFreed fun _ => rfl)) 0
  | attachDevice b d =>
    simp only [Host.exec] at he
    split at he <;> cases he
    rename_i hb
    exact hattach (by simp [Instr.needs]) hb (by simp [Body.work, Body.refs, Instr.grows])
  | attachQueue e q =>
    simp only [Host.exec] at he
    split at he
    · rename_i b hb
      split at he <;> cases he
      rename_i hq
      exact hattach (by simp [Instr.needs]) (body_of_eventBody hb) (by simp [Body.work, Body.refs, hq, Instr.grows])
    · cases he
  | add g b flags =>
    simp only [Host.exec] at he
    split at he
    · rename_i table htable
      split at he <;> cases he
      · rename_i table' n hadd
        exact hattach (by simp [Instr.needs]) (body_of_table htable)
          (by simp [Body.work, Body.refs, slots_add hadd, Instr.grows])
      · exact Nat.le_add_right _ _
    · cases he
  | swap g n b flags =>
    simp only [Host.exec] at he
    split at he
    · rename_i table htable
      split at he <;> cases he
      · rename_i table' old hset
        exact heapWork_setBody (body_of_table htable) (by simp [Body.work, Body.refs, (slots_set hset).2, Instr.grows])
      · exact Nat.le_add_right _ _
    · cases he
  | get g n =>
    simp only [Host.exec] at he
    split at he
    · rename_i table htable
      split at he <;> cases he
      · rename_i b hget
        -- the slot holds its buffer
        obtain ⟨cg, hg, hpos⟩ := hlive g (by simp [Instr.needs])
        have hbody : cg.body = .group table := by
          have h := body_of_table htable
          rw [Host.body, hg] at h
          exact Option.some.inj h
        obtain ⟨c, hc, hcpos, -⟩ := hr.of_body hg hpos (x := b) (by
          rw [hbody]
          exact slots_get hget)
        exact le_of_eq (heapWork_inc hc hcpos)
      · exact Nat.le_add_right _ _
    · cases he
  | mapInc b | mapDec b =>
    simp only [Host.exec] at he
    split at he <;> cases he
    rename_i hb
    exact heapWork_setBody hb (by simp [Body.work, Body.refs, Instr.grows])
  | complete e status =>
    simp only [Host.exec] at he
    split at he <;> cases he
    rename_i b hb
    exact heapWork_setBody (body_of_eventBody hb) (by simp [Body.work, Body.refs, Instr.grows])
  | createThread q =>
    simp only [Host.exec] at he
    split at he
    · rename_i b hb
      split at he <;> cases he
      · exact hqueue hb
      · exact Nat.le_add_right _ _
    · cases he
  | push | enter | setExit | closeQueue =>
    simp only [Host.exec] at he
    split at he <;> cases he
    rename_i b hb
    exact hqueue hb
  | join q d =>
    rcases hw.join_cases he with rfl | ⟨f', hj⟩
    · exact Nat.le_add_right _ _
    · simp [Host.heapWork, hj.heap, Instr.destroys]
  | openNewmode | openInner | openWrapper | newBuffer | newGroup | newQueue | newEvent =>
    simp only [Host.exec] at he
    split at he <;> cases he
    · rw [halloc]
      simp [Body.work, Body.refs, Instr.destroys, Instr.grows, XrpBufferGroup.slots, XrpBufferGroup.empty]
    · exact Nat.le_add_right _ _
  | _ =>
    simp only [Host.exec] at he
    repeat' split at he
    all_goals try cases he
    all_goals exact Nat.le_add_right _ _

/-! ### One step -/

/-- An event without a status has had no broadcast. -/
def QuietEvents (s : Host) : Prop := ∀ e b, s.eventBody e = some b → b.status = .pending → b.wakes = 0

theorem QuietEvents.exec (hi : QuietEvents s) {j : Journal} (hev : EventInv s j) (ht : s.threads[t]? = some f)
    (hcode : f.code = i :: rest) (he : s.exec t f rest ok i = some s') : QuietEvents s' := by
  intro e b hb hp
  rw [exec_eventBody he e] at hb
  split at hb
  · cases hb
    rfl
  · obtain ⟨b₀, hb₀, rfl⟩ := Option.map_eq_some_iff.1 hb
    rcases completes_or e i with ⟨status, rfl⟩ | ⟨-, hsame⟩
    · obtain ⟨rq, hmem, -⟩ := hev.produced f (List.mem_of_getElem? ht) e status (by simp [hcode])
      simp only [Instr.marks, if_true] at hp
      exact absurd hp (hev.final _ hmem)
    · rw [(hsame b₀).1] at hp
      rw [(hsame b₀).2]
      exact hi e b₀ hb₀ hp

theorem due_of_cleanup {j : Instr} (h : j.cleanup = true) : s.due j = 0 := by
  cases j <;> first | rfl | nomatch h

theorem due_enqueueCode (q : Id) (g e : Option Id) (sync : Bool) : total s.due (enqueueCode q g e sync) ≤ 2 := by
  rw [total_enqueueCode]
  cases g <;> cases e <;> cases sync <;> simp [Host.due]
  all_goals split <;> omega

/-- What an instruction puts into the code, adds to the heap and to the list, and may wake, is less than what it
stood for, if its thread is not blocked. -/
theorem exec_spends (hk : KindInv s) (hr : RefInv s) (hw : WorkerInv s) (hquiet : QuietEvents s) {j : Journal}
    (hev : EventInv s j) (ht : s.threads[t]? = some f) (hcode : f.code = i :: rest)
    (he : s.exec t f rest ok i = some s') (hb : ¬ s.blocked t f) :
    total Instr.work (i.new s f ok) + total s'.due (i.new s f ok) + i.spawnWork +
        2 * i.broadcasts.toList.length + i.grows + 8 * s'.requests.length <
      i.work + s'.due i + i.destroys s + 8 * s.requests.length := by
  have hmem := List.mem_of_getElem? ht
  have hops := hk.code f hmem i (by simp [hcode])
  have hreq := exec_requests hw he
  -- most instructions leave the list, wake nobody, and put nothing into the code that waits
  have hplain : i.posts s = none → (∀ q, i ≠ .process q) → s'.requests.length = s.requests.length := by
    intro h1 h2
    rw [hreq, h1]
    cases i with
    | process q => exact absurd rfl (h2 q)
    | _ => simp [Instr.spares]
  cases i with
  | release x =>
    have hlen := hplain rfl (by simp)
    have hdue : total s'.due ((Instr.release x).new s f ok) = 0 :=
      total_eq_zero.2 fun j hj => due_of_cleanup (cleanup_new rfl j hj)
    rw [hdue]
    obtain ⟨c, hc, -, -⟩ := hr.of_needs ht hcode (x := x) (by simp [Instr.needs])
    simp only [Instr.new, hc, Instr.destroys, Instr.work, Instr.spawnWork, Instr.broadcasts, Instr.grows,
      Option.toList_none, List.length_nil]
    split
    · rw [work_destroyCode]
      omega
    · rw [total_nil]
      omega
  | ioctl rq =>
    have hlen := hplain rfl (by simp)
    have hdue : total s'.due ((Instr.ioctl rq).new s f ok) = 0 :=
      total_eq_zero.2 fun j hj => due_of_cleanup (cleanup_finishCode _ _ j hj)
    have hwork : total Instr.work ((Instr.ioctl rq).new s f ok) ≤ 3 := work_finishCode rq _
    simp only [hdue, Instr.destroys, Instr.work, Instr.spawnWork, Instr.broadcasts, Instr.grows,
      Option.toList_none, List.length_nil]
    omega
  | newEvent q g sync =>
    have hlen := hplain rfl (by simp)
    simp only [Instr.new, Instr.destroys, Instr.work, Instr.spawnWork, Instr.broadcasts, Instr.grows,
      Option.toList_none, List.length_nil]
    split
    · have h1 := work_enqueueCode q g (some s.heap.length) sync
      have h2 := due_enqueueCode (s := s') q g (some s.heap.length) sync
      omega
    · simp only [total_nil]
      omega
  | newRequest q g evt sync =>
    have hlen := hplain rfl (by simp)
    simp only [Instr.new, Instr.destroys, Instr.work, Instr.spawnWork, Instr.broadcasts, Instr.grows,
      Option.toList_none, List.length_nil]
    repeat' split
    · simp only [total_cons, total_nil, Instr.work, Host.due]
      omega
    · have h1 := work_enqueueCode q g none false
      have h2 := due_enqueueCode (s := s') q g none false
      omega
    · simp only [total_nil]
      omega
  | newBuffer d =>
    have hlen := hplain rfl (by simp)
    simp only [Instr.new, Instr.destroys, Instr.work, Instr.spawnWork, Instr.broadcasts, Instr.grows,
      Option.toList_none, List.length_nil]
    cases d <;> split <;> simp [Instr.work, Host.due] <;> omega
  | wait e =>
    have hlen := hplain rfl (by simp)
    simp only [Instr.operands, typed_cons] at hops
    obtain ⟨b, hbody⟩ := eventBody_of_type hops.1
    have hbody' : s'.eventBody e = some b := eventBody_stays he hbody
    simp only [Instr.new, hbody, Host.due, hbody', Option.map_some, Option.some.injEq, Instr.destroys, Instr.work,
      Instr.spawnWork, Instr.broadcasts, Instr.grows, Option.toList_none, List.length_nil]
    split <;> simp [Instr.work, Host.due] <;> omega
  | asleep e n =>
    have hlen := hplain rfl (by simp)
    obtain ⟨b, hbody, hle, -⟩ := hev.asleep f hmem e n (by simp [hcode])
    -- the broadcast has come with the status
    have hresolved : b.status ≠ .pending := by
      intro hp
      have h0 := hquiet e b hbody hp
      apply hb
      simp only [Host.blocked, hcode, hbody, Option.map_some]
      congr 1
      omega
    obtain ⟨b', hbody', hp'⟩ := hev.resolves ht hcode he ⟨b, hbody, hresolved⟩
    simp only [Instr.new, total_cons, total_nil, Host.due, hbody', Option.map_some, Option.some.injEq, if_neg hp',
      Instr.destroys, Instr.work, Instr.spawnWork, Instr.broadcasts, Instr.grows, Option.toList_none,
      List.length_nil]
    omega
  | process q =>
    simp only [Instr.operands, typed_cons] at hops
    obtain ⟨b, hbody⟩ := queueBody_of_type hops.1
    obtain ⟨b', hbody', -, -, -, hsame⟩ := exec_wakes hr hw ht hcode he hbody
    have hwakes := hsame (by simp [Instr.broadcasts])
    simp only [Instr.posts, Instr.spares, Option.toList_none, List.append_nil] at hreq
    simp only [Instr.new, hbody, Instr.destroys, Instr.work, Instr.spawnWork, Instr.broadcasts, Instr.grows,
      Option.toList_none, List.length_nil, hreq]
    split
    · rename_i rq hfind
      have hlen : (s.requests.eraseP fun r => r.queue = q).length + 1 = s.requests.length := by
        have h := total_eraseP (fun _ : Request => 1) hfind
        simpa [total] using h
      simp only [total_cons, total_nil, Instr.work, Host.due]
      omega
    · have hle := List.length_eraseP_le (l := s.requests) (p := fun r => r.queue = q)
      split
      · simp only [total_nil]
        omega
      · simp only [total_cons, total_nil, Instr.work, Host.due, hbody', Option.map_some, hwakes, if_true]
        omega
  | asleepQueue q n =>
    have hlen := hplain rfl (by simp)
    simp only [Instr.operands, typed_cons] at hops
    obtain ⟨b, hbody⟩ := queueBody_of_type hops.1
    obtain ⟨b', hbody', -, -, -, hsame⟩ := exec_wakes hr hw ht hcode he hbody
    have hwakes := hsame (by simp [Instr.broadcasts])
    have hne : b.wakes ≠ n := by
      intro h
      apply hb
      simp [Host.blocked, hcode, hbody, h]
    simp only [Instr.new, total_cons, total_nil, Host.due, hbody', Option.map_some, Option.some.injEq, hwakes,
      if_neg hne, Instr.destroys, Instr.work, Instr.spawnWork, Instr.broadcasts, Instr.grows, Option.toList_none,
      List.length_nil]
    omega
  | push q g e =>
    have hlen : s'.requests.length = s.requests.length + 1 := by simp [hreq, Instr.posts, Instr.spares]
    simp only [Instr.new, total_nil, Host.due, Instr.destroys, Instr.work, Instr.spawnWork, Instr.broadcasts,
      Instr.grows, Option.toList_some, List.length_singleton]
    omega
  | setExit q d =>
    have hlen := hplain rfl (by simp)
    simp only [Instr.new, total_cons, total_nil, Host.due, Instr.destroys, Instr.work, Instr.spawnWork,
      Instr.broadcasts, Instr.grows, Option.toList_some, List.length_singleton]
    omega
  | _ =>
    have hlen := hplain rfl (by simp)
    simp only [Instr.new, Instr.destroys, Instr.work, Instr.spawnWork, Instr.broadcasts, Instr.grows,
      Option.toList_none, List.length_nil]
    repeat' split
    all_goals
      simp only [total_cons, total_nil, Instr.work, Host.due]
      omega

/-- Every step of a thread that is not blocked lowers what is left. -/
theorem exec_remaining (hk : KindInv s) (hr : RefInv s) (hw : WorkerInv s) (hquiet : QuietEvents s) {j : Journal}
    (hev : EventInv s j) (ht : s.threads[t]? = some f) (hcode : f.code = i :: rest)
    (he : s.exec t f rest ok i = some s') (hb : ¬ s.blocked t f) (hcrash : s'.crashed = false) :
    s'.remaining < s.remaining := by
  rcases exec_code hw he with ⟨rfl, -, -⟩ | ⟨f', spawned, hg⟩
  · cases hcrash
  have h1 := hg.weigh_spawned ht hcode Instr.work
  have h2 := hg.weigh ht hcode (p := s'.due) fun _ => rfl
  have h3 := exec_spends hk hr hw hquiet hev ht hcode he hb
  have h4 := exec_due hk hr hw hev ht hcode he
  have h5 : s'.heapWork + i.destroys s ≤ s.heapWork + i.grows := exec_heapWork hr hw ht hcode he
  have h6 : total (fun f : Thread => total Instr.work f.code) spawned ≤ i.spawnWork := by
    rcases hg.spawned with rfl | ⟨q, rfl, rfl⟩
    · exact Nat.zero_le _
    · exact le_refl 3
  unfold Host.remaining
  unfold Host.heapWork at h5
  omega

end

/-! ### Runs -/

theorem quietEvents_of_reach {p : Host × Journal} (h : Reach journaled anyStep p) : QuietEvents p.1 := by
  induction h with
  | start h0 =>
    have h1 : _ = Host.start := h0.1
    intro e b hb
    simp [h1, Host.start, Host.eventBody, Host.body] at hb
  | step h _ hs ih =>
    obtain ⟨hs, -⟩ := System.record_step hs
    have hi := hostInv_of_reach (reach_of_journaled h)
    rcases step_cases (host_step hs) with ⟨-, hs'⟩ | ⟨t, c, f, -, -, -, -, -, -, hs'⟩ |
      ⟨t, ok, f, i, rest, -, ht, hcode, ⟨-, hs'⟩ | he⟩
    · rw [hs']
      exact ih
    · rw [hs']
      exact ih
    · rw [hs']
      exact ih
    · exact ih.exec (completionInv_of_reach h).event ht hcode he

/-- A thread that is not blocked is scheduled; a thread that is created can be. -/
def goesOn (s : Host) : HostLabel → Prop
  | .run t ok => ((s.threads[t]?).any fun f => ! s.blocked t f) = true ∧ succeeds Instr.spawns s (.run t ok)
  | _ => False

instance (s : Host) : (l : HostLabel) → Decidable (goesOn s l)
  | .run _ _ => inferInstanceAs (Decidable (_ ∧ _))
  | .attach | .call _ _ => inferInstanceAs (Decidable False)

theorem runsWell_of_goesOn {l : HostLabel} (h : goesOn s l) : runsWell s l := by
  cases l with
  | run t ok => exact ⟨trivial, h.2⟩
  | attach | call => exact h.elim

theorem remaining_step (h : Reach host runsWell s) {l : HostLabel} (hl : goesOn s l)
    (hs : host.step s l = some s') (hcrash : s'.crashed = false) : s'.remaining < s.remaining := by
  have hi := progressInv_of_reach h
  have hh := hostInv_of_reach h
  obtain ⟨j, hj⟩ := (h.mono fun _ _ _ => trivial : Reach host anyStep s).to_record .start Host.journal
  cases l with
  | attach | call => exact hl.elim
  | run t ok =>
    rcases step_cases (host_step hs) with ⟨h', -⟩ | ⟨t', c, f, h', -⟩ |
      ⟨t', ok', f, i, rest, h', ht, hcode, ⟨⟨x, hx, hgone⟩, -⟩ | he⟩
    · cases h'
    · cases h'
    · rw [hh.worker.safe hh.refs ht hcode x hx] at hgone
      cases hgone
    · cases h'
      have hb : ¬ s.blocked t f := by simpa [ht] using hl.1
      exact exec_remaining hi.kinds hh.refs hh.worker (quietEvents_of_reach hj) (completionInv_of_reach hj).event ht
        hcode he hb hcrash

/-- After a crash nothing happens. -/
private theorem not_crashed {ls : List HostLabel} (h : host.exec goesOn s ls = some s')
    (hcrash : s'.crashed = false) : s.crashed = false := by
  cases ls with
  | nil =>
    cases h
    exact hcrash
  | cons l ls =>
    simp only [System.exec] at h
    split at h
    · obtain ⟨s₁, hs, -⟩ := Option.bind_eq_some_iff.1 h
      simp only [host] at hs
      split at hs
      · cases hs
      · rename_i hno
        simp only [not_or] at hno
        simpa using hno.2
    · cases h

theorem remaining_run (h : Reach host runsWell s) {ls : List HostLabel} (hrun : host.exec goesOn s ls = some s')
    (hcrash : s'.crashed = false) : Reach host runsWell s' ∧ ls.length + s'.remaining ≤ s.remaining := by
  induction ls generalizing s with
  | nil =>
    cases hrun
    exact ⟨h, by simp⟩
  | cons l ls ih =>
    simp only [System.exec] at hrun
    split at hrun
    · rename_i hl
      obtain ⟨s₁, hs, hrun⟩ := Option.bind_eq_some_iff.1 hrun
      have hstep := remaining_step h hl hs (not_crashed hrun hcrash)
      obtain ⟨hr, hlen⟩ := ih (.step h (runsWell_of_goesOn hl) hs) hrun
      refine ⟨hr, ?_⟩
      simp only [List.length_cons]
      omega
    · cases hrun

/-- However the threads are scheduled, the calls that have been made return: a run in which only threads that are
not blocked are scheduled has at most `remaining` steps, and when it cannot be continued no client is in a call. -/
theorem every_call_returns (h : Reach host runsWell s) {ls : List HostLabel}
    (hrun : host.exec goesOn s ls = some s') (hcrash : s'.crashed = false) :
    ls.length ≤ s.remaining ∧ ((∀ l, goesOn s' l → host.step s' l = none) →
      ∀ f ∈ s'.threads, f.role = none → f.code = []) := by
  obtain ⟨hr, hlen⟩ := remaining_run h hrun hcrash
  refine ⟨by omega, fun hend => idle_of_blocked hr fun t f ht => ?_⟩
  by_contra hb
  have hsome := (progressInv_of_reach hr).enabled (hostInv_of_reach hr).refs (hostInv_of_reach hr).fault hcrash ht hb
    true
  have hnone := hend (.run t true) ⟨by simp [ht, hb], fun _ => rfl⟩
  rw [hnone] at hsome
  cases hsome

/-- The worker finishes the command of the sleeping client, which returns. -/
theorem every_call_returns_syncSleeps :
    ∃ s s', host.exec runsWell .start syncSleeps = some s ∧
      host.exec goesOn s (steps 1 9 ++ steps 0 8) = some s' ∧ s.remaining = 27 ∧
      s'.threads.map Thread.code = [[], [.asleepQueue 1 1]] ∧ (steps 1 9 ++ steps 0 8).length ≤ s.remaining ∧
      ((∀ l, goesOn s' l → host.step s' l = none) → ∀ f ∈ s'.threads, f.role = none → f.code = []) := by
  obtain ⟨s, hs, hr, hp⟩ := Reach.exists_exec host runsWell .start syncSleeps
    (fun s => s.remaining = 27 ∧ (host.exec goesOn s (steps 1 9 ++ steps 0 8)).any fun s' =>
      s'.crashed = false ∧ s'.threads.map Thread.code = [[], [.asleepQueue 1 1]]) rfl (by decide +kernel)
  obtain ⟨hleft, hp⟩ := of_decide_eq_true hp
  obtain ⟨s', hs', hp⟩ := (Option.any_eq_true _ _).1 hp
  obtain ⟨hcrash, hcode⟩ := of_decide_eq_true hp
  obtain ⟨h1, h2⟩ := every_call_returns hr hs' hcrash
  exact ⟨s, s', hs, hs', hleft, hcode, h1, h2⟩

end Vdsp
