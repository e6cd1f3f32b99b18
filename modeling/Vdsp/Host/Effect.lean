import Vdsp.Host.Safety

/-!
# The effect of one instruction

What an instruction stores in the objects (`Instr.stores`) and what it puts in front of the code of its thread
(`Instr.new`).  The invariants of the following modules are about bodies and code only, and are derived from
`exec_body` and `exec_code`.
-/

namespace Vdsp

open Ledger

variable {s s' : Host} {t : Nat} {f f' : Thread} {rest : List Instr}

/-! ### The objects -/

/-- The object that an instruction stores to, or allocates, and its body then. -/
def Instr.stores (s : Host) (t : Nat) (ok : Bool) : Instr → Option (Id × Body)
  | .openNewmode | .openInner => if ok then some (s.heap.length, .device none) else none
  | .openWrapper n => if ok then some (s.heap.length, .device (some n)) else none
  | .newBuffer _ => if ok then some (s.heap.length, .buffer none 0) else none
  | .newGroup => if ok then some (s.heap.length, .group .empty) else none
  | .newQueue d => if ok then some (s.heap.length, .queue ⟨d, false, none, 0, none, false⟩) else none
  | .newEvent .. => if ok then some (s.heap.length, .event ⟨none, .pending, 0⟩) else none
  | .attachDevice b d =>
    match s.body b with
    | some (.buffer none n) => some (b, .buffer (some d) n)
    | _ => none
  | .mapInc b =>
    match s.body b with
    | some (.buffer d n) => some (b, .buffer d (n + 1))
    | _ => none
  | .mapDec b =>
    match s.body b with
    | some (.buffer d n) => some (b, .buffer d (n - 1))
    | _ => none
  | .add g b flags => ((s.table g).bind fun table => xrpAddBufferToGroup table b flags ok).map fun r =>
    (g, .group r.1)
  | .swap g i b flags => ((s.table g).bind fun table => xrpSetBufferInGroup table i b flags).map fun r =>
    (g, .group r.1)
  | .createThread q =>
    if ok then (s.queueBody q).map fun b => (q, .queue { b with worker := some s.threads.length }) else none
  | .push q _ _ =>
    (s.queueBody q).map fun b => (q, .queue { b with wakes := if s.waiting q then b.wakes else b.wakes + 1 })
  | .enter q => (s.queueBody q).map fun b => (q, .queue { b with syncExit := some t })
  | .setExit q _ => (s.queueBody q).map fun b => (q, .queue { b with exit := true, wakes := b.wakes + 1 })
  | .closeQueue q _ => (s.queueBody q).map fun b => (q, .queue { b with destroyed := true })
  | .attachQueue e q => (s.eventBody e).map fun b => (e, .event { b with queue := some q })
  | .complete e status => (s.eventBody e).map fun b =>
    (e, .event { b with status := status, wakes := b.wakes + 1 })
  | _ => none

/-- The body of `x` after the store. -/
def Host.bodyAfter (s : Host) (store : Option (Id × Body)) (x : Id) : Option Body :=
  match store with
  | some (y, b) => if x = y then some b else s.body x
  | none => s.body x

/-- An update that keeps the body of the object. -/
theorem body_modify (h : Cell → Cell) (hb : ∀ c, (h c).body = c.body) (y x : Id) :
    (s.modify y h).body x = s.body x := by
  unfold Host.body Host.modify
  rw [List.getElem?_modify]
  by_cases hx : y = x
  · subst hx
    cases s.heap[y]? <;> simp [hb]
  · simp [hx]

theorem body_inc (y x : Id) : (s.modify y Cell.inc).body x = s.body x :=
  body_modify Cell.inc (fun _ => rfl) y x

theorem body_setBody {y : Id} {b₀ : Body} (b : Body) (hy : s.body y = some b₀) (x : Id) :
    (s.modify y (Cell.setBody b)).body x = if x = y then some b else s.body x := by
  obtain ⟨c, hc, -⟩ := body_eq_some.1 hy
  unfold Host.body Host.modify
  rw [List.getElem?_modify]
  by_cases h : y = x
  · subst h
    simp [hc, Cell.setBody]
  · simp [h, Ne.symm h]

theorem body_append (c : Cell) (x : Id) :
    ({ s with heap := s.heap ++ [c] } : Host).body x = if x = s.heap.length then some c.body else s.body x := by
  unfold Host.body
  rcases Nat.lt_trichotomy x s.heap.length with h | h | h
  · rw [List.getElem?_append_left h, if_neg (Nat.ne_of_lt h)]
  · rw [h, List.getElem?_concat_length, if_pos rfl]
    rfl
  · rw [List.getElem?_eq_none (by simp; omega), if_neg (Nat.ne_of_gt h), List.getElem?_eq_none (Nat.le_of_lt h)]

theorem body_of_queueBody {q : Id} {b : QueueBody} (h : s.queueBody q = some b) : s.body q = some (.queue b) := by
  obtain ⟨c, hc, hcb⟩ := queueBody_eq_some.1 h
  exact body_eq_some.2 ⟨c, hc, hcb⟩

theorem body_of_eventBody {e : Id} {b : EventBody} (h : s.eventBody e = some b) : s.body e = some (.event b) := by
  obtain ⟨c, hc, hcb⟩ := eventBody_eq_some.1 h
  exact body_eq_some.2 ⟨c, hc, hcb⟩

theorem body_of_table {g : Id} {table : XrpBufferGroup Id} (h : s.table g = some table) :
    s.body g = some (.group table) := by
  obtain ⟨c, hc, hcb⟩ := table_eq_some.1 h
  exact body_eq_some.2 ⟨c, hc, hcb⟩

theorem exec_body {i : Instr} {ok : Bool} (he : s.exec t f rest ok i = some s') (x : Id) :
    s'.body x = s.bodyAfter (i.stores s t ok) x := by
  cases i with
  | ret | asleep | asleepQueue | loop | condDestroy | ioctl =>
    cases he
    rfl
  | retain y =>
    cases he
    exact body_inc y x
  | free y =>
    cases he
    exact body_modify Cell.markFreed (fun _ => rfl) y x
  | release y =>
    have hdec : (s.modify y Cell.dec).body x = s.body x := body_modify Cell.dec (fun _ => rfl) y x
    simp only [Host.exec] at he
    split at he
    · split at he <;> cases he <;> exact hdec
    · cases he
  | openNewmode | openInner | openWrapper | newBuffer | newGroup | newQueue | newEvent =>
    simp only [Host.exec] at he
    split at he <;> cases he
    · rename_i hok
      simp only [Instr.stores, if_pos hok, Host.bodyAfter]
      exact body_append _ x
    · rename_i hok
      simp only [Instr.stores, if_neg hok]
      rfl
  | attachDevice b d =>
    simp only [Host.exec] at he
    split at he <;> cases he
    rename_i n hb
    simp only [Instr.stores, hb, Host.bodyAfter]
    exact (body_setBody _ ((body_inc d b).trans hb) x).trans (by rw [body_inc])
  | ionmem | mapCheck | newRequest =>
    simp only [Host.exec] at he
    split at he <;> cases he <;> rfl
  | createThread q =>
    simp only [Host.exec] at he
    split at he
    · rename_i b hb
      split at he <;> cases he
      · rename_i hok
        simp only [Instr.stores, if_pos hok, hb]
        exact body_setBody _ (body_of_queueBody hb) x
      · rename_i hok
        simp only [Instr.stores, if_neg hok]
        rfl
    · cases he
  | mapInc b | mapDec b =>
    simp only [Host.exec] at he
    split at he <;> cases he
    rename_i hb
    simp only [Instr.stores, hb]
    exact body_setBody _ hb x
  | add g b flags =>
    simp only [Host.exec] at he
    split at he
    · rename_i table htable
      split at he <;> cases he
      · rename_i table' n hadd
        simp only [Instr.stores, htable, Option.bind_some, hadd]
        exact (body_setBody _ ((body_inc b g).trans (body_of_table htable)) x).trans (by rw [body_inc]; rfl)
      · rename_i hadd
        simp only [Instr.stores, htable, Option.bind_some, hadd]
        rfl
    · cases he
  | swap g n b flags =>
    simp only [Host.exec] at he
    split at he
    · rename_i table htable
      split at he <;> cases he
      · rename_i table' old hset
        simp only [Instr.stores, htable, Option.bind_some, hset]
        exact body_setBody _ (body_of_table htable) x
      · rename_i hset
        simp only [Instr.stores, htable, Option.bind_some, hset]
        rfl
    · cases he
  | get g n =>
    simp only [Host.exec] at he
    split at he
    · split at he <;> cases he
      · exact body_inc _ x
      · rfl
    · cases he
  | attachQueue e q =>
    simp only [Host.exec] at he
    split at he
    · rename_i b hb
      split at he <;> cases he
      simp only [Instr.stores, hb]
      exact (body_setBody _ ((body_inc q e).trans (body_of_eventBody hb)) x).trans (by rw [body_inc]; rfl)
    · cases he
  | push q g e | enter q | setExit q d | closeQueue q d =>
    simp only [Host.exec] at he
    split at he <;> cases he
    rename_i b hb
    simp only [Instr.stores, hb]
    exact body_setBody _ (body_of_queueBody hb) x
  | complete e status =>
    simp only [Host.exec] at he
    split at he <;> cases he
    rename_i b hb
    simp only [Instr.stores, hb]
    exact body_setBody _ (body_of_eventBody hb) x
  | wait | eventStatus =>
    simp only [Host.exec] at he
    split at he <;> cases he
    rfl
  | process | snapshot =>
    simp only [Host.exec] at he
    repeat' split at he
    all_goals cases he
    all_goals rfl
  | join q d =>
    simp only [Host.exec] at he
    repeat' split at he
    all_goals cases he
    all_goals rfl

theorem body_length : s.body s.heap.length = none := by
  rw [Host.body, List.getElem?_eq_none (le_refl _)]
  rfl

theorem eventBody_of_body {e : Id} {b : EventBody} (h : s.body e = some (.event b)) : s.eventBody e = some b := by
  rw [Host.eventBody, h]

theorem queueBody_of_body {q : Id} {b : QueueBody} (h : s.body q = some (.queue b)) : s.queueBody q = some b := by
  rw [Host.queueBody, h]

theorem table_of_body {g : Id} {table : XrpBufferGroup Id} (h : s.body g = some (.group table)) :
    s.table g = some table := by
  rw [Host.table, h]

/-- The constructor of a body. -/
def Body.kind : Body → Nat
  | .device _ => 0
  | .buffer .. => 1
  | .group _ => 2
  | .queue _ => 3
  | .event _ => 4

/-- A store to an object that is there keeps its kind. -/
theorem stores_kind {i : Instr} {ok : Bool} {x : Id} {b b₀ : Body} (h : i.stores s t ok = some (x, b))
    (hx : s.body x = some b₀) : b.kind = b₀.kind := by
  have hlen : s.heap.length ≠ x := fun hl => by
    rw [← hl, body_length] at hx
    cases hx
  cases i with
  | openNewmode | openInner | openWrapper | newBuffer | newGroup | newQueue | newEvent =>
    simp only [Instr.stores] at h
    split at h <;> simp [hlen] at h
  | attachDevice | mapInc | mapDec =>
    simp only [Instr.stores] at h
    split at h <;> cases h
    rename_i hb
    rw [hb] at hx
    cases hx
    rfl
  | createThread q =>
    simp only [Instr.stores] at h
    split at h
    · obtain ⟨b₁, hb₁, hr⟩ := Option.map_eq_some_iff.1 h
      cases hr
      rw [body_of_queueBody hb₁] at hx
      cases hx
      rfl
    · cases h
  | push | enter | setExit | closeQueue =>
    obtain ⟨b₁, hb₁, hr⟩ := Option.map_eq_some_iff.1 h
    cases hr
    rw [body_of_queueBody hb₁] at hx
    cases hx
    rfl
  | attachQueue | complete =>
    obtain ⟨b₁, hb₁, hr⟩ := Option.map_eq_some_iff.1 h
    cases hr
    rw [body_of_eventBody hb₁] at hx
    cases hx
    rfl
  | add | swap =>
    obtain ⟨r, hr, hr'⟩ := Option.map_eq_some_iff.1 h
    obtain ⟨table, htable, -⟩ := Option.bind_eq_some_iff.1 hr
    cases hr'
    rw [body_of_table htable] at hx
    cases hx
    rfl
  | _ => cases h

/-- A group that is there gets another buffer, or one of its buffers is replaced. -/
theorem stores_group {i : Instr} {ok : Bool} {g : Id} {b : Body} {table : XrpBufferGroup Id}
    (h : i.stores s t ok = some (g, b)) (hg : s.table g = some table) :
    ∃ table', b = .group table' ∧ ((∃ x, table'.slots = table.slots ++ [x]) ∨
      ∃ n x flags, i = .swap g n x flags ∧ table'.slots = table.slots.set n x) := by
  have hkind := stores_kind h (body_of_table hg)
  have hnone := body_length (s := s)
  obtain ⟨table', rfl⟩ : ∃ table', b = .group table' := by cases b <;> simp_all [Body.kind]
  refine ⟨table', rfl, ?_⟩
  cases i with
  | add y x flags =>
    obtain ⟨⟨table', n⟩, hadd, hr⟩ := Option.map_eq_some_iff.1 h
    cases hr
    rw [hg, Option.bind_some] at hadd
    exact .inl ⟨x, slots_add hadd⟩
  | swap y n x flags =>
    obtain ⟨⟨table', old⟩, hset, hr⟩ := Option.map_eq_some_iff.1 h
    cases hr
    rw [hg, Option.bind_some] at hset
    exact .inr ⟨n, x, flags, rfl, (slots_set hset).2⟩
  | newGroup =>
    simp only [Instr.stores] at h
    split at h <;> cases h
    rw [body_of_table hg] at hnone
    cases hnone
  | _ =>
    simp only [Instr.stores] at h
    repeat' split at h
    all_goals simp at h

/-- An event that is there gets its queue, or its command completes. -/
theorem stores_event {i : Instr} {ok : Bool} {e : Id} {b : Body} {b₀ : EventBody}
    (h : i.stores s t ok = some (e, b)) (he : s.eventBody e = some b₀) :
    (∃ q, i = .attachQueue e q ∧ b = .event { b₀ with queue := some q }) ∨
      ∃ status, i = .complete e status ∧ b = .event { b₀ with status := status, wakes := b₀.wakes + 1 } := by
  have hkind := stores_kind h (body_of_eventBody he)
  have hnone := body_length (s := s)
  obtain ⟨b', rfl⟩ : ∃ b', b = .event b' := by cases b <;> simp_all [Body.kind]
  cases i with
  | attachQueue x q =>
    obtain ⟨b₁, hb₁, hr⟩ := Option.map_eq_some_iff.1 h
    cases hr
    rw [he] at hb₁
    cases hb₁
    exact .inl ⟨q, rfl, rfl⟩
  | complete x status =>
    obtain ⟨b₁, hb₁, hr⟩ := Option.map_eq_some_iff.1 h
    cases hr
    rw [he] at hb₁
    cases hb₁
    exact .inr ⟨status, rfl, rfl⟩
  | newEvent =>
    simp only [Instr.stores] at h
    split at h <;> cases h
    rw [body_of_eventBody he] at hnone
    cases hnone
  | add | swap =>
    obtain ⟨r, -, hr⟩ := Option.map_eq_some_iff.1 h
    cases hr
  | _ =>
    simp only [Instr.stores] at h
    repeat' split at h
    all_goals simp at h

/-- A queue that is there keeps its worker, unless that is created. -/
theorem stores_queue {i : Instr} {ok : Bool} {q : Id} {b : QueueBody} (h : i.stores s t ok = some (q, .queue b)) :
    (∃ d, i = .newQueue d ∧ ok = true ∧ q = s.heap.length ∧ b = ⟨d, false, none, 0, none, false⟩) ∨
      ∃ b₀, s.queueBody q = some b₀ ∧ ((i = .createThread q ∧ ok = true ∧
        b = { b₀ with worker := some s.threads.length }) ∨
        b.worker = b₀.worker ∧ ∀ x, i ≠ .createThread x) := by
  cases i with
  | newQueue d =>
    simp only [Instr.stores] at h
    split at h <;> cases h
    exact .inl ⟨d, rfl, ‹_›, rfl, rfl⟩
  | createThread x =>
    simp only [Instr.stores] at h
    split at h
    · obtain ⟨b₀, hb₀, hr⟩ := Option.map_eq_some_iff.1 h
      cases hr
      exact .inr ⟨b₀, hb₀, .inl ⟨rfl, ‹_›, rfl⟩⟩
    · cases h
  | push | enter | setExit | closeQueue =>
    obtain ⟨b₀, hb₀, hr⟩ := Option.map_eq_some_iff.1 h
    cases hr
    exact .inr ⟨b₀, hb₀, .inr ⟨rfl, by simp⟩⟩
  | add | swap =>
    obtain ⟨r, -, hr⟩ := Option.map_eq_some_iff.1 h
    cases hr
  | _ =>
    simp only [Instr.stores] at h
    repeat' split at h
    all_goals simp at h

/-- A queue after a step is new, or was there; its worker changes only when it is created. -/
theorem exec_queueBody {i : Instr} {ok : Bool} (he : s.exec t f rest ok i = some s') {q : Id} {b : QueueBody}
    (h : s'.queueBody q = some b) :
    (∃ d, i = .newQueue d ∧ ok = true ∧ q = s.heap.length ∧ b = ⟨d, false, none, 0, none, false⟩) ∨
      ∃ b₀, s.queueBody q = some b₀ ∧ ((i = .createThread q ∧ ok = true ∧
        b = { b₀ with worker := some s.threads.length }) ∨
        b.worker = b₀.worker ∧ ∀ x, i = .createThread x → ok = true → x ≠ q) := by
  have hbody := (exec_body he q).symm.trans (body_of_queueBody h)
  cases hst : i.stores s t ok with
  | none =>
    rw [hst] at hbody
    have hb : s.queueBody q = some b := queueBody_of_body hbody
    refine .inr ⟨b, hb, .inr ⟨rfl, ?_⟩⟩
    rintro x rfl hok rfl
    simp [Instr.stores, hok, hb] at hst
  | some r =>
    obtain ⟨x, b₁⟩ := r
    simp only [hst, Host.bodyAfter] at hbody
    split at hbody
    · rename_i hx
      cases hbody
      rcases stores_queue (hx ▸ hst) with h | ⟨b₀, hb₀, h | ⟨hw, hn⟩⟩
      · exact .inl h
      · exact .inr ⟨b₀, hb₀, .inl h⟩
      · exact .inr ⟨b₀, hb₀, .inr ⟨hw, fun y hy => absurd hy (hn y)⟩⟩
    · rename_i hx
      have hb : s.queueBody q = some b := queueBody_of_body hbody
      refine .inr ⟨b, hb, .inr ⟨rfl, ?_⟩⟩
      rintro y rfl hok rfl
      simp only [Instr.stores, hok, hb, if_true, Option.map_some, Option.some.injEq, Prod.mk.injEq] at hst
      exact hx hst.1

/-- A queue stays a queue. -/
theorem exec_queue_isSome {i : Instr} {ok : Bool} (he : s.exec t f rest ok i = some s') {q : Id} {b : QueueBody}
    (h : s.queueBody q = some b) : (s'.queueBody q).isSome = true := by
  have hbody := exec_body he q
  have hb := body_of_queueBody h
  cases hst : i.stores s t ok with
  | none =>
    rw [hst] at hbody
    simp [queueBody_of_body (hbody.trans hb)]
  | some r =>
    obtain ⟨x, b₁⟩ := r
    simp only [hst, Host.bodyAfter] at hbody
    split at hbody
    · rename_i hx
      have hkind := stores_kind (hx ▸ hst) hb
      obtain ⟨b', rfl⟩ : ∃ b', b₁ = .queue b' := by cases b₁ <;> simp_all [Body.kind]
      simp [queueBody_of_body hbody]
    · simp [queueBody_of_body (hbody.trans hb)]

/-- The instruction allocates an event. -/
def Instr.makes : Instr → Bool
  | .newEvent .. => true
  | _ => false

/-- What an instruction does to the event `e`. -/
def Instr.marks (e : Id) (b : EventBody) : Instr → EventBody
  | .attachQueue x q => if x = e then { b with queue := some q } else b
  | .complete x status => if x = e then { b with status := status, wakes := b.wakes + 1 } else b
  | _ => b

theorem bodyAfter_of_ne {store : Option (Id × Body)} {x : Id} (h : ∀ b, store ≠ some (x, b)) :
    s.bodyAfter store x = s.body x := by
  unfold Host.bodyAfter
  split
  · rename_i y b
    rw [if_neg]
    rintro rfl
    exact h b rfl
  · rfl

/-- An event after a step is new, or was there. -/
theorem exec_eventBody {i : Instr} {ok : Bool} (he : s.exec t f rest ok i = some s') (e : Id) :
    s'.eventBody e = if i.makes = true ∧ ok = true ∧ e = s.heap.length then some ⟨none, .pending, 0⟩
      else (s.eventBody e).map fun b => i.marks e b := by
  have hbody := exec_body he e
  have hkeep : (∀ b, i.stores s t ok ≠ some (e, b)) → s'.eventBody e = s.eventBody e := fun h => by
    rw [bodyAfter_of_ne h] at hbody
    rw [Host.eventBody, hbody, Host.eventBody]
  have hnew : i.makes = true ∧ ok = true ∧ e = s.heap.length →
      i.stores s t ok = some (e, .event ⟨none, .pending, 0⟩) := by
    rintro ⟨hi, rfl, rfl⟩
    cases i <;> first | rfl | cases hi
  have hset : ∀ b, i.stores s t ok = some (e, b) → s'.body e = some b := fun b hb => by
    simpa [hb, Host.bodyAfter] using hbody
  cases hev : s.eventBody e with
  | some b =>
    have hlen : e ≠ s.heap.length := by
      rintro rfl
      rw [Host.eventBody, body_length] at hev
      cases hev
    rw [if_neg fun h => hlen h.2.2, Option.map_some]
    by_cases hst : ∃ b₁, i.stores s t ok = some (e, b₁)
    · obtain ⟨b₁, hst⟩ := hst
      rcases stores_event hst hev with ⟨q, rfl, rfl⟩ | ⟨status, rfl, rfl⟩ <;>
        simp [eventBody_of_body (hset _ hst), Instr.marks]
    · rw [hkeep fun b₁ hb₁ => hst ⟨b₁, hb₁⟩, hev]
      have hsame : i.marks e b = b := by
        cases i with
        | attachQueue x q =>
          refine if_neg fun hx => hst ⟨.event { b with queue := some q }, ?_⟩
          simp [Instr.stores, hx, hev]
        | complete x status =>
          refine if_neg fun hx => hst ⟨.event { b with status := status, wakes := b.wakes + 1 }, ?_⟩
          simp [Instr.stores, hx, hev]
        | _ => rfl
      rw [hsame]
  | none =>
    by_cases hst : ∃ b₁, i.stores s t ok = some (e, b₁)
    · obtain ⟨b₁, hst⟩ := hst
      rw [Host.eventBody, hset b₁ hst]
      cases i with
      | newEvent =>
        simp only [Instr.stores] at hst
        split at hst <;> cases hst
        simp [Instr.makes, ‹ok = true›]
      | attachQueue x q | complete x q =>
        obtain ⟨b, hb, hr⟩ := Option.map_eq_some_iff.1 hst
        cases hr
        rw [hev] at hb
        cases hb
      | add | swap =>
        obtain ⟨r, -, hr⟩ := Option.map_eq_some_iff.1 hst
        cases hr
        rfl
      | createThread =>
        simp only [Instr.stores] at hst
        split at hst
        · obtain ⟨b, -, hr⟩ := Option.map_eq_some_iff.1 hst
          cases hr
          rfl
        · cases hst
      | push | enter | setExit | closeQueue =>
        obtain ⟨b, -, hr⟩ := Option.map_eq_some_iff.1 hst
        cases hr
        rfl
      | _ =>
        simp only [Instr.stores] at hst
        repeat' split at hst
        all_goals cases hst
        all_goals rfl
    · rw [hkeep fun b₁ hb₁ => hst ⟨b₁, hb₁⟩, hev, if_neg fun h => hst ⟨_, hnew h⟩]
      rfl

/-! ### The code -/

/-- What an instruction puts in front of the rest of the code. -/
def Instr.new (s : Host) (f : Thread) (ok : Bool) : Instr → List Instr
  | .release x =>
    match s.heap[x]? with
    | some c => if c.count = 1 then destroyCode x c.body else []
    | none => []
  | .openInner => if ok then [.openWrapper s.heap.length] else []
  | .newBuffer device =>
    if ok then device.toList.flatMap fun d => [.attachDevice s.heap.length d, .ionmem] else []
  | .newQueue d => if ok then [.createThread s.heap.length] else [.release d]
  | .mapCheck b => if ok then [.retain b, .mapInc b] else []
  | .swap g i b flags =>
    match (s.table g).bind fun table => xrpSetBufferInGroup table i b flags with
    | some (_, old) => [.release old]
    | none => [.release b]
  | .newRequest q g evt sync =>
    if ok then if evt then [.newEvent q g sync] else enqueueCode q g none false else []
  | .newEvent q g sync => if ok then enqueueCode q g (some s.heap.length) sync else []
  | .wait e =>
    match s.eventBody e with
    | some b => if b.status = .pending then [.asleep e b.wakes] else []
    | none => []
  | .asleep e _ => [.wait e]
  | .enter q | .asleepQueue q _ => [.process q]
  | .process q =>
    match s.requests.find? fun r => r.queue = q with
    | some rq => [.snapshot rq, .loop q]
    | none =>
      match s.queueBody q with
      | some b => if b.exit then [] else [.asleepQueue q b.wakes]
      | none => []
  | .snapshot rq => [.ioctl rq]
  | .ioctl rq => finishCode rq (if ok then .success else .failure)
  | .loop q => if f.exit then [] else [.enter q]
  | .setExit q d => [.join q d]
  | .join q d => [.closeQueue q d]
  | _ => []

/-- The status that the thread has got when the instruction is done. -/
def Instr.report (s : Host) (f : Thread) (ok : Bool) : Instr → Option XrpStatus
  | .newRequest .. | .newEvent .. => if ok then f.result else some .failure
  | .eventStatus e => (s.eventBody e).map EventBody.status
  | _ => f.result

/-- The thread goes on behind what the instruction has put in front; a thread may start. -/
structure Goes (s s' : Host) (t : Nat) (f f' : Thread) (i : Instr) (rest : List Instr) (ok : Bool)
    (spawned : List Thread) : Prop where
  threads : s'.threads = s.threads.set t f' ++ spawned
  code : f'.code = i.new s f ok ++ rest
  role : f'.role = f.role
  result : f'.result = i.report s f ok
  spawned : spawned = [] ∨ ∃ q, i = .createThread q ∧ spawned = [⟨some q, [.enter q], 0, false, none, none⟩]

private theorem Goes.of_set {i : Instr} {ok : Bool} (hthreads : s'.threads = s.threads.set t f')
    (hcode : f'.code = i.new s f ok ++ rest) (hrole : f'.role = f.role) (hresult : f'.result = i.report s f ok) :
    Goes s s' t f f' i rest ok [] :=
  ⟨hthreads.trans (List.append_nil _).symm, hcode, hrole, hresult, .inl rfl⟩

/-- The process ends, or the thread goes on. -/
theorem exec_code (hw : WorkerInv s) {i : Instr} {ok : Bool} (he : s.exec t f rest ok i = some s') :
    (s' = { s with crashed := true } ∧ i.stores s t ok = none ∧ (i = .ionmem ∨ ∃ q d, i = .join q d)) ∨
      ∃ f' spawned, Goes s s' t f f' i rest ok spawned := by
  cases i with
  | ret | retain | free | asleep | asleepQueue | condDestroy | ioctl =>
    cases he
    exact .inr ⟨_, _, .of_set rfl rfl rfl rfl⟩
  | release x =>
    simp only [Host.exec] at he
    split at he
    · rename_i c hc
      split at he <;> cases he <;> rename_i hcount
      · exact .inr ⟨_, _, .of_set rfl (by simp [Instr.new, hc, hcount]) rfl rfl⟩
      · exact .inr ⟨_, _, .of_set rfl (by simp [Instr.new, hc, hcount]) rfl rfl⟩
    · cases he
  | openNewmode | openInner | openWrapper | newBuffer | newGroup | newQueue | mapCheck =>
    simp only [Host.exec] at he
    split at he <;> cases he <;> rename_i hok <;>
      exact .inr ⟨_, _, .of_set rfl (by simp [Instr.new, hok]) rfl rfl⟩
  | newEvent q g sync =>
    simp only [Host.exec] at he
    split at he <;> cases he <;> rename_i hok <;>
      exact .inr ⟨_, _, .of_set rfl (by simp [Instr.new, hok]) rfl (by simp [Instr.report, hok])⟩
  | newRequest q g evt sync =>
    simp only [Host.exec] at he
    split at he <;> cases he <;> rename_i hok
    · exact .inr ⟨_, _, .of_set rfl (by cases evt <;> simp [Instr.new, hok]) rfl (by simp [Instr.report, hok])⟩
    · exact .inr ⟨_, _, .of_set rfl (by simp [Instr.new, hok]) rfl (by simp [Instr.report, hok])⟩
  | ionmem =>
    simp only [Host.exec] at he
    split at he <;> cases he
    · exact .inr ⟨_, _, .of_set rfl rfl rfl rfl⟩
    · exact .inl ⟨rfl, rfl, .inl rfl⟩
  | eventStatus e =>
    simp only [Host.exec] at he
    split at he <;> cases he
    rename_i b hb
    exact .inr ⟨_, _, .of_set rfl rfl rfl (by simp [Instr.report, hb])⟩
  | attachDevice | mapInc | mapDec | enter | complete | setExit | closeQueue | push =>
    simp only [Host.exec] at he
    split at he <;> cases he
    exact .inr ⟨_, _, .of_set rfl rfl rfl rfl⟩
  | createThread q =>
    simp only [Host.exec] at he
    split at he
    · split at he <;> cases he
      · exact .inr ⟨_, _, rfl, rfl, rfl, rfl, .inr ⟨q, rfl, rfl⟩⟩
      · exact .inr ⟨_, _, .of_set rfl rfl rfl rfl⟩
    · cases he
  | add g b flags | get g n =>
    simp only [Host.exec] at he
    split at he
    · split at he <;> cases he <;> exact .inr ⟨_, _, .of_set rfl rfl rfl rfl⟩
    · cases he
  | swap g n b flags =>
    simp only [Host.exec] at he
    split at he
    · rename_i table htable
      split at he <;> cases he <;> rename_i hset <;>
        exact .inr ⟨_, _, .of_set rfl (by simp [Instr.new, htable, hset]) rfl rfl⟩
    · cases he
  | attachQueue e q =>
    simp only [Host.exec] at he
    split at he
    · split at he <;> cases he
      exact .inr ⟨_, _, .of_set rfl rfl rfl rfl⟩
    · cases he
  | wait e =>
    simp only [Host.exec] at he
    split at he <;> cases he
    rename_i b hb
    exact .inr ⟨_, _, .of_set rfl (by simp only [Instr.new, hb]; split <;> rfl) rfl rfl⟩
  | process q =>
    simp only [Host.exec] at he
    split at he
    · rename_i b hb
      split at he <;> cases he <;> rename_i hrq
      · exact .inr ⟨_, _, .of_set rfl (by simp [Instr.new, hrq]) rfl rfl⟩
      · exact .inr ⟨_, _, .of_set rfl (by simp only [Instr.new, hrq, hb]; split <;> rfl) rfl rfl⟩
    · cases he
  | snapshot rq =>
    simp only [Host.exec] at he
    split at he
    · split at he <;> cases he
      exact .inr ⟨_, _, .of_set rfl rfl rfl rfl⟩
    · cases he
      exact .inr ⟨_, _, .of_set rfl rfl rfl rfl⟩
  | loop q =>
    cases he
    exact .inr ⟨_, _, .of_set rfl (by simp only [Instr.new]; split <;> rfl) rfl rfl⟩
  | join q d =>
    rcases hw.join_cases he with rfl | ⟨f', hj⟩
    · exact .inl ⟨rfl, rfl, .inr ⟨q, d, rfl⟩⟩
    · exact .inr ⟨f', [], .of_set hj.threads hj.code hj.role hj.result⟩

/-- The thread after the step. -/
theorem Goes.self {i : Instr} {ok : Bool} {spawned : List Thread} (hg : Goes s s' t f f' i rest ok spawned)
    (ht : s.threads[t]? = some f) : s'.threads[t]? = some f' := by
  have hlt := (List.getElem?_eq_some_iff.1 ht).1
  rw [hg.threads, List.getElem?_append_left (by simpa using hlt), List.getElem?_set_self hlt]

/-- The other threads do not see the step. -/
theorem Goes.other {i : Instr} {ok : Bool} {spawned : List Thread}
    (hg : Goes s s' t f f' i rest ok spawned) {w : Nat}
    {u : Thread} (hu : s.threads[w]? = some u) (hne : w ≠ t) : s'.threads[w]? = some u := by
  rw [hg.threads, List.getElem?_append_left (by simpa using (List.getElem?_eq_some_iff.1 hu).1),
    List.getElem?_set_ne (Ne.symm hne)]
  exact hu

/-- The instructions of the threads after the step. -/
theorem Goes.mem {i : Instr} {ok : Bool} {spawned : List Thread} (hg : Goes s s' t f f' i rest ok spawned)
    (ht : s.threads[t]? = some f) (hcode : f.code = i :: rest) {u : Thread} (hu : u ∈ s'.threads) {j : Instr}
    (hj : j ∈ u.code) : (∃ v ∈ s.threads, j ∈ v.code) ∨ j ∈ i.new s f ok ∨ ∃ q, j = .enter q := by
  rw [hg.threads] at hu
  rcases List.mem_append.1 hu with hu | hu
  · rcases mem_threads_set hu with rfl | hu
    · rw [hg.code] at hj
      rcases List.mem_append.1 hj with hj | hj
      · exact .inr (.inl hj)
      · exact .inl ⟨f, List.mem_of_getElem? ht, by rw [hcode]; exact List.mem_cons_of_mem _ hj⟩
    · exact .inl ⟨u, hu, hj⟩
  · rcases hg.spawned with h | ⟨q, -, h⟩
    · rw [h] at hu
      cases hu
    · rw [h, List.mem_singleton] at hu
      rw [hu, List.mem_singleton] at hj
      exact .inr (.inr ⟨q, hj⟩)

/-! ### Weights of the code -/

theorem total_map_releases (p : Instr → Nat) (xs : List Id) :
    total p (xs.map .release) = total (fun x => p (.release x)) xs := by
  simp [total, Function.comp_def]

theorem total_destroyCode (p : Instr → Nat) (x : Id) (body : Body) :
    total p (destroyCode x body) = (match body with
      | .queue b => p (.setExit x b.device)
      | .event _ => p (.condDestroy x)
      | _ => 0) + total (fun y => p (.release y)) body.refs + p (.free x) := by
  unfold destroyCode
  rw [total_append, total_append, total_map_releases]
  cases body <;> simp [Nat.add_assoc]

theorem total_finishCode (p : Instr → Nat) (rq : Request) (status : XrpStatus) :
    total p (finishCode rq status) = total (fun g => p (.release g)) rq.group.toList +
      total (fun e => p (.complete e status) + p (.release e)) rq.event.toList := by
  unfold finishCode
  rw [total_append, total_map_releases]
  cases rq.event <;> simp

theorem total_enqueueCode (p : Instr → Nat) (q : Id) (g e : Option Id) (sync : Bool) :
    total p (enqueueCode q g e sync) = total (fun e => p (.attachQueue e q) + p (.retain e)) e.toList +
      total (fun g => p (.retain g)) g.toList + p (.push q g e) +
        if sync then total (fun e => p (.wait e) + p (.eventStatus e) + p (.release e)) e.toList else 0 := by
  unfold enqueueCode
  cases g <;> cases e <;> cases sync <;> simp [Nat.add_assoc]

/-- The weight of the instructions that the threads still have to execute. -/
def Host.weigh (s : Host) (p : Instr → Nat) : Nat := total (fun f : Thread => total p f.code) s.threads

theorem Goes.weigh {i : Instr} {ok : Bool} {spawned : List Thread} (hg : Goes s s' t f f' i rest ok spawned)
    (ht : s.threads[t]? = some f) (hcode : f.code = i :: rest) {p : Instr → Nat} (hp : ∀ q, p (.enter q) = 0) :
    s'.weigh p + p i = s.weigh p + total p (i.new s f ok) := by
  have h := total_set (fun f : Thread => total p f.code) f' ht
  have hs : total (fun f : Thread => total p f.code) spawned = 0 := by
    rcases hg.spawned with h | ⟨q, -, h⟩ <;> simp [h, hp]
  rw [hcode, hg.code, total_cons, total_append] at h
  unfold Host.weigh
  rw [hg.threads, total_append, hs]
  omega

/-- The instructions that are counted: they push a request, complete an event, or start to destroy a queue. -/
def Instr.counted : Instr → Bool
  | .push .. | .complete .. | .setExit .. => true
  | _ => false

/-- The weight of the counted instructions that an instruction puts in front of the rest. -/
def Instr.brings (s : Host) (ok : Bool) (p : Instr → Nat) : Instr → Nat
  | .release x =>
    match s.heap[x]? with
    | some ⟨1, .queue b, _⟩ => p (.setExit x b.device)
    | _ => 0
  | .newEvent q g _ => if ok then p (.push q g (some s.heap.length)) else 0
  | .newRequest q g evt _ => if ok && !evt then p (.push q g none) else 0
  | .ioctl rq => total (fun e => p (.complete e (if ok then .success else .failure))) rq.event.toList
  | _ => 0

theorem total_new {p : Instr → Nat} (hp : ∀ j : Instr, j.counted = false → p j = 0) (i : Instr) (ok : Bool) :
    total p (i.new s f ok) = i.brings s ok p := by
  have hnone : ∀ c : List Instr, (∀ j ∈ c, j.counted = false) → total p c = 0 := fun c hc =>
    total_eq_zero.2 fun j hj => hp j (hc j hj)
  cases i with
  | release x =>
    have hrel : ∀ xs : List Id, total (fun y => p (.release y)) xs = 0 :=
      fun _ => total_eq_zero.2 fun _ _ => hp _ rfl
    simp only [Instr.new, Instr.brings]
    cases hx : s.heap[x]? with
    | none => rfl
    | some c =>
      obtain ⟨n, b, freed⟩ := c
      by_cases hn : n = 1
      · subst hn
        simp only [if_true, total_destroyCode, hrel, hp (.free x) rfl]
        cases b <;> simp [hp (.condDestroy x) rfl]
      · simp only [if_neg hn, total_nil]
        split
        · rename_i h
          cases h
          exact absurd rfl hn
        · rfl
  | newEvent q g sync =>
    simp only [Instr.new, Instr.brings]
    split
    · cases g <;> cases sync <;> simp [total_enqueueCode, hp _ (show Instr.counted (.retain _) = false from rfl),
        hp _ (show Instr.counted (.attachQueue _ _) = false from rfl),
        hp _ (show Instr.counted (.wait _) = false from rfl),
        hp _ (show Instr.counted (.eventStatus _) = false from rfl),
        hp _ (show Instr.counted (.release _) = false from rfl)]
    · rfl
  | newRequest q g evt sync =>
    simp only [Instr.new, Instr.brings]
    cases ok <;> cases evt
    · rfl
    · rfl
    · cases g <;> simp [total_enqueueCode, hp _ (show Instr.counted (.retain _) = false from rfl)]
    · exact hnone _ (by simp [Instr.counted])
  | ioctl rq =>
    simp only [Instr.new, Instr.brings, total_finishCode]
    cases rq.group <;> cases rq.event <;> simp [hp _ (show Instr.counted (.release _) = false from rfl)]
  | newBuffer d =>
    simp only [Instr.new, Instr.brings]
    refine hnone _ ?_
    cases d <;> split <;> simp [Instr.counted]
  | _ =>
    simp only [Instr.new, Instr.brings]
    refine hnone _ ?_
    repeat' split
    all_goals simp [Instr.counted]

theorem weigh_attach (p : Instr → Nat) : ({ s with threads := s.threads ++ [.idle] } : Host).weigh p =
      s.weigh p := by
  simp [Host.weigh, Thread.idle]

theorem weigh_call (ht : s.threads[t]? = some f) (hcode : f.code = []) (c : ApiCall) (h : Multiset Id)
    (p : Instr → Nat) :
    (s.frame t { f with code := c.code, held := h }).weigh p = s.weigh p + total p c.code := by
  have h := total_set (fun f : Thread => total p f.code) { f with code := c.code, held := h } ht
  simpa [hcode, Host.weigh, Host.frame] using h

end Vdsp
