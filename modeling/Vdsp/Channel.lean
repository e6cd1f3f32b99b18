import Vdsp.Lib.System
import Vdsp.Lib.LinkedQueue

/-!
# The request queue as a channel (`xrp_threaded_queue.c`)

The list of `struct xrp_request_queue` with its two critical sections, and the system in which any number of
producers push while one worker runs `xrp_queue_thread`.  Every critical section is one step; the call of
`queue->fn` happens outside the lock and is a step of its own.  `pushed`, `dequeued` and `processed` record the
order in which items took the lock in `xrp_queue_push`, left the list, and were passed to `queue->fn`.

The list refines the sequence of items pushed but not yet dequeued (`Channel.Inv.represents`), and what reaches
`queue->fn` is a prefix of what was pushed (`channel_ordered`).
-/

namespace Vdsp

open LinkedQueue Lts

/-- The address of a `struct xrp_queue_item`. -/
abbrev Item := Nat

/-- The fields of `struct xrp_request_queue` that the critical sections use. -/
structure XrpRequestQueue where
  head : Option Item
  tail : Option Item
  exit : Bool
  deriving DecidableEq, Repr

/-- `_xrp_dequeue_request`. -/
def xrpDequeueRequest (next : Item → Option Item) (q : XrpRequestQueue) : Option Item × XrpRequestQueue :=
  match q.head with
  | none => (none, q)
  | some rq => (some rq, { q with tail := if some rq = q.tail then none else q.tail, head := next rq })

/-- The critical section of `xrp_queue_push`: the links, the queue, and whether the condition is broadcast. -/
def xrpQueuePush (next : Item → Option Item) (q : XrpRequestQueue) (rq : Item) :
    (Item → Option Item) × XrpRequestQueue × Bool :=
  let next := Function.update next rq none
  match q.tail with
  | some t => (Function.update next t (some rq), { q with tail := some rq }, false)
  | none => (next, { q with head := some rq, tail := some rq }, true)

/-- Where the worker thread is. -/
inductive Worker
  /-- At the lock of `xrp_queue_process`. -/
  | process
  /-- In `xrp_cond_wait`; `notified` tells that a broadcast reached it. -/
  | asleep (notified : Bool)
  /-- Past the unlock, with the item it dequeued. -/
  | call (rq : Item)
  /-- In `queue->fn`. -/
  | running (rq : Item)
  | finished
  deriving DecidableEq, Repr

/-- The locked loop of `xrp_queue_process`, up to the wait or to the unlock. -/
def xrpQueueProcess (next : Item → Option Item) (q : XrpRequestQueue) : Worker × XrpRequestQueue :=
  match xrpDequeueRequest next q with
  | (some rq, q') => (.call rq, q')
  | (none, q') => if q'.exit then (.finished, q') else (.asleep false, q')

/-- A broadcast on `request_queue_cond`. -/
def Worker.notify : Worker → Worker
  | .asleep _ => .asleep true
  | w => w

/-- The item the worker holds but has not passed to `queue->fn`. -/
def Worker.inHand : Worker → List Item
  | .call rq => [rq]
  | _ => []

structure Channel where
  next : Item → Option Item
  queue : XrpRequestQueue
  worker : Worker
  pushed : List Item
  dequeued : List Item
  processed : List Item

/-- The items pushed but not yet dequeued. -/
def Channel.queued (c : Channel) : List Item := c.pushed.drop c.dequeued.length

inductive ChannelStep
  /-- The critical section of a producer in `xrp_queue_push`. -/
  | push (rq : Item)
  /-- The critical section of the worker in `xrp_queue_process`. -/
  | scan
  /-- The worker returns from `xrp_cond_wait`, notified or not. -/
  | wake
  | call
  /-- `queue->fn` returns, having set the local `exit` or not. -/
  | ret (exit : Bool)
  /-- The first critical section of `xrp_queue_destroy`. -/
  | requestExit
  /-- The storage of an item is put to another use. -/
  | reuse (it : Item) (v : Option Item)
  deriving DecidableEq, Repr

def Channel.step (c : Channel) : ChannelStep → Option Channel
  | .push rq =>
    let r := xrpQueuePush c.next c.queue rq
    some { c with
      next := r.1
      queue := r.2.1
      worker := if r.2.2 then c.worker.notify else c.worker
      pushed := c.pushed ++ [rq] }
  | .scan =>
    if c.worker = .process then
      let r := xrpQueueProcess c.next c.queue
      some { c with queue := r.2, worker := r.1, dequeued := c.dequeued ++ r.1.inHand }
    else none
  | .wake =>
    match c.worker with
    | .asleep _ => some { c with worker := .process }
    | _ => none
  | .call =>
    match c.worker with
    | .call rq => some { c with worker := .running rq, processed := c.processed ++ [rq] }
    | _ => none
  | .ret exit =>
    match c.worker with
    | .running _ => some { c with worker := if exit then .finished else .process }
    | _ => none
  | .requestExit => some { c with queue := { c.queue with exit := true }, worker := c.worker.notify }
  | .reuse it v => some { c with next := Function.update c.next it v }

/-- A queue as `alloc_refcounted` and `xrp_queue_init` leave it. -/
def Channel.init (c : Channel) : Prop :=
  c.queue = ⟨none, none, false⟩ ∧ c.worker = .process ∧ c.pushed = [] ∧ c.dequeued = [] ∧ c.processed = []

def channel : System Channel ChannelStep := ⟨Channel.init, Channel.step⟩

/-- An item is pushed, or its storage reused, only while it is not in the list. -/
def notQueued (c : Channel) : ChannelStep → Prop
  | .push rq => rq ∉ c.queued
  | .reuse it _ => it ∉ c.queued
  | _ => True

instance (c : Channel) : ∀ l : ChannelStep, Decidable (notQueued c l)
  | .push rq => inferInstanceAs (Decidable (rq ∉ c.queued))
  | .reuse it _ => inferInstanceAs (Decidable (it ∉ c.queued))
  | .scan | .wake | .call | .ret _ | .requestExit => inferInstanceAs (Decidable True)

/-! ### The critical sections on the represented sequence -/

theorem xrpDequeueRequest_spec {next : Item → Option Item} {q : XrpRequestQueue} {xs : List Item}
    (h : Represents next q.head q.tail xs) :
    (xrpDequeueRequest next q).1 = xs.head? ∧ (xrpDequeueRequest next q).2.exit = q.exit ∧
      Represents next (xrpDequeueRequest next q).2.head (xrpDequeueRequest next q).2.tail xs.tail := by
  have hhead := h.head_eq
  unfold xrpDequeueRequest
  cases hq : q.head with
  | none =>
    obtain rfl : xs = [] := h.head_none.1 hq
    exact ⟨rfl, rfl, h⟩
  | some rq =>
    rw [hq] at h
    obtain ⟨ys, rfl, hys⟩ := h.pop
    exact ⟨rfl, rfl, hys⟩

theorem xrpQueuePush_spec {next : Item → Option Item} {q : XrpRequestQueue} {xs : List Item}
    (h : Represents next q.head q.tail xs) {rq : Item} (hrq : rq ∉ xs) :
    Represents (xrpQueuePush next q rq).1 (xrpQueuePush next q rq).2.1.head (xrpQueuePush next q rq).2.1.tail
      (xs ++ [rq]) ∧ (xrpQueuePush next q rq).2.1.exit = q.exit ∧
      ((xrpQueuePush next q rq).2.2 = true ↔ xs = []) := by
  unfold xrpQueuePush
  cases hq : q.tail with
  | none =>
    rw [hq] at h
    obtain ⟨rfl, h'⟩ := h.push_empty rq
    exact ⟨h', rfl, by simp⟩
  | some t =>
    rw [hq] at h
    have hne : xs ≠ [] := fun hxs => by
      have := h.tail_none.2 hxs
      cases this
    exact ⟨h.push hrq, rfl, by simp [hne]⟩

theorem xrpQueueProcess_spec {next : Item → Option Item} {q : XrpRequestQueue} {xs : List Item}
    (h : Represents next q.head q.tail xs) :
    (xrpQueueProcess next q).1.inHand = xs.head?.toList ∧ (xrpQueueProcess next q).2.exit = q.exit ∧
      Represents next (xrpQueueProcess next q).2.head (xrpQueueProcess next q).2.tail xs.tail := by
  obtain ⟨h1, h2, h3⟩ := xrpDequeueRequest_spec h
  unfold xrpQueueProcess
  rcases hd : xrpDequeueRequest next q with ⟨_ | rq, q'⟩ <;> rw [hd] at h1 h2 h3 <;> simp only at h1 h2 h3 ⊢
  · rw [← h1]
    split <;> exact ⟨rfl, h2, h3⟩
  · rw [← h1]
    exact ⟨rfl, h2, h3⟩

/-! ### The invariant -/

structure Channel.Inv (c : Channel) : Prop where
  /-- The linked list is the sequence of items pushed but not yet dequeued. -/
  represents : Represents c.next c.queue.head c.queue.tail c.queued
  pushed : c.pushed = c.dequeued ++ c.queued
  dequeued : c.dequeued = c.processed ++ c.worker.inHand

private theorem notify_inHand (w : Worker) : w.notify.inHand = w.inHand := by
  cases w <;> rfl

theorem Channel.Inv.init {c : Channel} (h : c.init) : c.Inv := by
  obtain ⟨hq, hw, hp, hd, hr⟩ := h
  have hqd : c.queued = [] := by rw [Channel.queued, hp, List.drop_nil]
  refine ⟨?_, ?_, ?_⟩
  · rw [hqd, hq]
    exact represents_nil _
  · rw [hp, hd, hqd]
    rfl
  · rw [hd, hr, hw]
    rfl

/-- `queued` after a push. -/
private theorem Channel.Inv.drop_push {c : Channel} (h : c.Inv) (rq : Item) :
    (c.pushed ++ [rq]).drop c.dequeued.length = c.queued ++ [rq] := by
  have hle : c.dequeued.length ≤ c.pushed.length := by
    rw [h.pushed, List.length_append]
    omega
  rw [List.drop_append_of_le_length hle]
  rfl

private theorem Channel.Inv.push {c : Channel} (h : c.Inv) {rq : Item} (hrq : rq ∉ c.queued) {c' : Channel}
    (hs : c.step (.push rq) = some c') : c'.Inv := by
  obtain rfl := Option.some.inj hs
  have hdrop := h.drop_push rq
  refine ⟨?_, ?_, ?_⟩
  · show Represents _ _ _ ((c.pushed ++ [rq]).drop c.dequeued.length)
    rw [hdrop]
    exact (xrpQueuePush_spec h.represents hrq).1
  · show c.pushed ++ [rq] = c.dequeued ++ (c.pushed ++ [rq]).drop c.dequeued.length
    rw [hdrop, ← List.append_assoc, ← h.pushed]
  · rw [h.dequeued]
    congr 1
    dsimp only
    split
    · exact (notify_inHand _).symm
    · rfl

private theorem Channel.Inv.scan {c c' : Channel} (h : c.Inv) (hs : c.step .scan = some c') : c'.Inv := by
  simp only [Channel.step] at hs
  split at hs
  · rename_i hw
    obtain rfl := Option.some.inj hs
    obtain ⟨h1, -, h3⟩ := xrpQueueProcess_spec h.represents
    have hd : c.dequeued = c.processed := by rw [h.dequeued, hw]; exact List.append_nil _
    -- what the worker takes is the head of the list, so the list it leaves is the tail
    have hsplit : c.queued = (xrpQueueProcess c.next c.queue).1.inHand ++ c.queued.tail := by
      rw [h1]
      cases c.queued <;> rfl
    have hp : c.pushed = (c.dequeued ++ (xrpQueueProcess c.next c.queue).1.inHand) ++ c.queued.tail := by
      rw [List.append_assoc, ← hsplit, ← h.pushed]
    have hdrop : c.pushed.drop (c.dequeued ++ (xrpQueueProcess c.next c.queue).1.inHand).length =
        c.queued.tail := by
      conv => lhs; rw [hp]
      exact List.drop_left
    refine ⟨?_, ?_, ?_⟩
    · show Represents _ _ _ (c.pushed.drop (c.dequeued ++ (xrpQueueProcess c.next c.queue).1.inHand).length)
      rw [hdrop]
      exact h3
    · show c.pushed = _ ++ c.pushed.drop (c.dequeued ++ (xrpQueueProcess c.next c.queue).1.inHand).length
      rw [hdrop]
      exact hp
    · show c.dequeued ++ _ = c.processed ++ _
      rw [hd]
  · cases hs

theorem Channel.Inv.step {c c' : Channel} (h : c.Inv) {l : ChannelStep} (hok : notQueued c l)
    (hs : c.step l = some c') : c'.Inv := by
  cases l with
  | push rq => exact h.push hok hs
  | scan => exact h.scan hs
  | wake =>
    simp only [Channel.step] at hs
    split at hs
    · rename_i n hw
      obtain rfl := Option.some.inj hs
      exact ⟨h.represents, h.pushed, by rw [h.dequeued, hw]; rfl⟩
    · cases hs
  | call =>
    simp only [Channel.step] at hs
    split at hs
    · rename_i rq hw
      obtain rfl := Option.some.inj hs
      refine ⟨h.represents, h.pushed, ?_⟩
      rw [h.dequeued, hw]
      simp [Worker.inHand]
    · cases hs
  | ret exit =>
    simp only [Channel.step] at hs
    split at hs
    · rename_i rq hw
      obtain rfl := Option.some.inj hs
      refine ⟨h.represents, h.pushed, ?_⟩
      rw [h.dequeued, hw]
      cases exit <;> rfl
    · cases hs
  | requestExit =>
    obtain rfl := Option.some.inj hs
    exact ⟨h.represents, h.pushed, by rw [h.dequeued]; exact congrArg _ (notify_inHand _).symm⟩
  | reuse it v =>
    obtain rfl := Option.some.inj hs
    refine ⟨h.represents.congr fun x hx => ?_, h.pushed, h.dequeued⟩
    have hne : x ≠ it := fun e => hok (e ▸ hx)
    simp only [Function.update_of_ne hne]

theorem Channel.Inv.of_reach {c : Channel} (h : Reach channel notQueued c) : c.Inv :=
  h.invariant (fun _ h0 => Channel.Inv.init h0) (fun _ _ _ hi hok hs => hi.step hok hs)

/-- A queue is an ordered channel: in every reachable state the list holds the items pushed but not yet
dequeued, and the items passed to `queue->fn` are a prefix of the items in the order of their pushes. -/
theorem channel_ordered {c : Channel} (h : Reach channel notQueued c) :
    (c.queue.head = none ↔ c.queue.tail = none) ∧
      Represents c.next c.queue.head c.queue.tail c.queued ∧
      (∀ t, c.queue.tail = some t → c.next t = none) ∧
      c.pushed = c.dequeued ++ c.queued ∧
      c.processed <+: c.pushed := by
  have hi := Channel.Inv.of_reach h
  refine ⟨hi.represents.head_none_iff_tail_none, hi.represents, fun t ht => hi.represents.next_tail ht,
    hi.pushed, ?_⟩
  rw [hi.pushed, hi.dequeued, List.append_assoc]
  exact List.prefix_append _ _

/-- A queue as it is created, with arbitrary links. -/
def emptyChannel : Channel := ⟨fun _ => some 9, ⟨none, none, false⟩, .process, [], [], []⟩

theorem channel_ordered_run :
    ∃ c, channel.exec notQueued emptyChannel [.push 5, .scan, .push 7, .call, .push 3, .ret false,
      .scan] = some c ∧
      c.queued = [3] ∧ c.processed = [5] ∧ c.processed <+: c.pushed := by
  refine ⟨_, rfl, rfl, rfl, ?_⟩
  refine (channel_ordered (Reach.of_exec
    [.push 5, .scan, .push 7, .call, .push 3, .ret false, .scan] (s := emptyChannel) ?_ rfl)).2.2.2.2
  exact ⟨rfl, rfl, rfl, rfl, rfl⟩

/-! ### Wake-ups -/

/-- Nothing is left to do for a worker that waits and that no broadcast has reached. -/
def Channel.Rested (c : Channel) : Prop := c.worker = .asleep false → c.queued = [] ∧ c.queue.exit = false

private theorem notify_ne (w : Worker) : w.notify ≠ .asleep false := by
  cases w <;> simp [Worker.notify]

/-- A push that finds the list empty reaches the worker; one that does not finds it awake or notified already. -/
private theorem Channel.Rested.push {c : Channel} (hr : c.Rested) (h : c.Inv) {rq : Item} (hrq : rq ∉ c.queued)
    {c' : Channel} (hs : c.step (.push rq) = some c') : c'.Rested := by
  obtain rfl := Option.some.inj hs
  obtain ⟨-, -, hwake⟩ := xrpQueuePush_spec h.represents hrq
  intro hw
  dsimp only at hw
  split at hw
  · exact absurd hw (notify_ne _)
  · rename_i hno
    exact absurd (hwake.2 (hr hw).1) hno

/-- The worker goes to wait only where the list is empty and no exit is requested. -/
private theorem Channel.Rested.scan {c c' : Channel} (h : c.Inv) (hs : c.step .scan = some c') : c'.Rested := by
  have hi := h.scan hs
  simp only [Channel.step] at hs
  split at hs
  · obtain rfl := Option.some.inj hs
    intro hw
    dsimp only at hw ⊢
    unfold xrpQueueProcess at hw
    split at hw
    · cases hw
    · rename_i q' hd
      obtain ⟨hhead, hexit, -⟩ := xrpDequeueRequest_spec h.represents
      split at hw
      · cases hw
      · rename_i hne
        have hq : (xrpQueueProcess c.next c.queue).2.exit = false := by
          simp [xrpQueueProcess, hd, hne]
        refine ⟨?_, hq⟩
        have hnil : c.queued = [] := by
          rw [hd] at hhead
          exact List.head?_eq_none_iff.1 hhead.symm
        show c.pushed.drop _ = []
        rw [List.drop_eq_nil_iff, h.pushed, hnil]
        simp
  · cases hs

theorem Channel.Rested.step {c c' : Channel} (hr : c.Rested) (h : c.Inv) {l : ChannelStep} (hok : notQueued c l)
    (hs : c.step l = some c') : c'.Rested := by
  cases l with
  | push rq => exact hr.push h hok hs
  | scan => exact .scan h hs
  | wake | call =>
    simp only [Channel.step] at hs
    split at hs <;> cases hs
    intro hw
    cases hw
  | ret exit =>
    simp only [Channel.step] at hs
    split at hs <;> cases hs
    intro hw
    cases exit <;> cases hw
  | requestExit =>
    obtain rfl := Option.some.inj hs
    exact fun hw => absurd hw (notify_ne _)
  | reuse it v =>
    obtain rfl := Option.some.inj hs
    exact hr

theorem Channel.Rested.of_reach {c : Channel} (h : Reach channel notQueued c) : c.Rested := by
  induction h with
  | start h0 =>
    intro hw
    rw [h0.2.1] at hw
    cases hw
  | step h hok hs ih => exact ih.step (.of_reach h) hok hs

/-- No wake-up is lost: while the worker waits and no broadcast has reached it, the list is empty and no exit is
requested. -/
theorem channel_rested {c : Channel} (h : Reach channel notQueued c) (hw : c.worker = .asleep false) :
    c.queue.head = none ∧ c.queue.tail = none ∧ c.queued = [] ∧ c.queue.exit = false := by
  have hi := Channel.Inv.of_reach h
  obtain ⟨hq, hexit⟩ := Channel.Rested.of_reach h hw
  exact ⟨hi.represents.head_none.2 hq, hi.represents.tail_none.2 hq, hq, hexit⟩

theorem channel_rested_run :
    ∃ c, channel.exec notQueued emptyChannel [.push 5, .scan, .call, .ret false, .scan, .wake, .scan] = some c ∧
      c.worker = .asleep false ∧ c.queue.head = none ∧ c.queue.exit = false := by
  refine ⟨_, rfl, rfl, ?_⟩
  obtain ⟨hhead, -, -, hexit⟩ := channel_rested (Reach.of_exec
    [.push 5, .scan, .call, .ret false, .scan, .wake, .scan] (s := emptyChannel) ⟨rfl, rfl, rfl, rfl, rfl⟩ rfl)
    rfl
  exact ⟨hhead, hexit⟩

end Vdsp
