import Vdsp.Host.Requests
import Vdsp.Host.Effect

/-!
# The buffers of a command at the driver

`_xrp_run_command` copies the descriptors and addresses of the buffers of a group under the group's lock, and
hands them to the driver when the lock is released.  The request keeps the group, and the group keeps its
buffers as long as they stay in a slot: until `xrp_set_buffer_in_group` gives the slot to another one.
-/

namespace Vdsp

open Ledger Lts

variable {s s' : Host} {t : Nat} {f f' : Thread} {rest : List Instr}

/-- The buffers that the worker's command was copied from are in slots of their group after a replacement. -/
def keepsCopied (s : Host) : HostLabel → Prop
  | .run t _ =>
    match (s.threads[t]?).bind fun f => f.code.head? with
    | some (.swap g i b _) =>
      ∀ f ∈ s.threads, ∀ p ∈ f.snap.toList, p.1 = g →
        ∀ x ∈ p.2, x ∈ (((s.table g).map XrpBufferGroup.slots).getD []).set i b
    | _ => True
  | _ => True

instance (s : Host) : ∀ l, Decidable (keepsCopied s l)
  | .run t ok => by
    dsimp only [keepsCopied]
    split <;> infer_instance
  | .attach | .call .. => inferInstanceAs (Decidable True)

/-- The buffers copied for a driver call are in slots of the group of the command. -/
structure SnapInv (s : Host) : Prop where
  code : ∀ f ∈ s.threads, ∀ g bs, f.snap = some (g, bs) → ∃ rq rest, f.code = .ioctl rq :: rest ∧
    rq.group = some g
  slots : ∀ f ∈ s.threads, ∀ g bs, f.snap = some (g, bs) → ∃ table, s.table g = some table ∧ ∀ x ∈ bs,
    x ∈ table.slots

/-! ### The tables of the groups -/

/-- The buffers of a group stay in it, unless one is replaced. -/
def TableStep (s' : Host) (i : Instr) (g : Id) (table : XrpBufferGroup Id) : Prop :=
  ∃ table', s'.table g = some table' ∧
    ((∀ x ∈ table.slots, x ∈ table'.slots) ∨ ∃ n b flags, i = .swap g n b flags ∧
    table'.slots = table.slots.set n b)

theorem exec_table {i : Instr} {ok : Bool} (he : s.exec t f rest ok i = some s') {g : Id}
    {table : XrpBufferGroup Id} (h : s.table g = some table) : TableStep s' i g table := by
  have hbody := exec_body he g
  cases hst : i.stores s t ok with
  | none =>
    rw [hst] at hbody
    exact ⟨table, table_of_body (hbody.trans (body_of_table h)), .inl fun _ => id⟩
  | some r =>
    obtain ⟨x, b⟩ := r
    simp only [hst, Host.bodyAfter] at hbody
    split at hbody
    · rename_i hx
      obtain ⟨table', rfl, ⟨y, hadd⟩ | hset⟩ := stores_group (hx ▸ hst) h
      · refine ⟨table', table_of_body hbody, .inl fun z hz => ?_⟩
        rw [hadd]
        exact List.mem_append_left _ hz
      · exact ⟨table', table_of_body hbody, .inr hset⟩
    · exact ⟨table, table_of_body (hbody.trans (body_of_table h)), .inl fun _ => id⟩

/-! ### What is copied -/

/-- What an instruction does to the copies: only the worker on its way to the driver gets one. -/
def SnapStep (s s' : Host) (t : Nat) (f : Thread) (i : Instr) (rest : List Instr) : Prop :=
  ∃ f' spawned, s'.threads = s.threads.set t f' ++ spawned ∧ (∀ u ∈ spawned, u.snap = none) ∧
    ((i.ends = none ∧ f'.snap = f.snap) ∨ f'.snap = none ∨
      ∃ rq g table, rq.group = some g ∧ s.table g = some table ∧ s'.table g = some table ∧
        f'.snap = some (g, table.slots) ∧ f'.code = .ioctl rq :: rest)

private theorem SnapStep.keep {i : Instr} (hi : i.ends = none) (hthreads : s'.threads = s.threads.set t f')
    (hsnap : f'.snap = f.snap) : SnapStep s s' t f i rest :=
  ⟨f', [], hthreads.trans (List.append_nil _).symm, by simp, .inl ⟨hi, hsnap⟩⟩

private theorem SnapStep.crash {i : Instr} (hi : i.ends = none) (ht : s.threads[t]? = some f) :
    SnapStep s { s with crashed := true } t f i rest := by
  refine .keep hi ?_ (rfl : f.snap = f.snap)
  obtain ⟨hlt, rfl⟩ := List.getElem?_eq_some_iff.1 ht
  exact (List.set_getElem_self hlt).symm

theorem exec_snap (hw : WorkerInv s) (ht : s.threads[t]? = some f) {i : Instr} {ok : Bool}
    (he : s.exec t f rest ok i = some s') : SnapStep s s' t f i rest := by
  cases i with
  | ret | retain | free | asleep | asleepQueue | loop | condDestroy =>
    cases he
    exact .keep rfl rfl rfl
  | release | get | newQueue | add | swap | attachQueue | process =>
    simp only [Host.exec] at he
    repeat' split at he
    all_goals cases he
    all_goals exact .keep rfl rfl rfl
  | openNewmode | openInner | openWrapper | newBuffer | newGroup | newEvent | mapCheck | newRequest =>
    simp only [Host.exec] at he
    split at he <;> cases he <;> exact .keep rfl rfl rfl
  | attachDevice | mapInc | mapDec | push | wait | eventStatus | enter | complete | setExit | closeQueue =>
    simp only [Host.exec] at he
    split at he <;> cases he
    exact .keep rfl rfl rfl
  | ionmem =>
    simp only [Host.exec] at he
    split at he <;> cases he
    · exact .keep rfl rfl rfl
    · exact .crash rfl ht
  | createThread q =>
    simp only [Host.exec] at he
    split at he
    · split at he <;> cases he
      · exact ⟨_, _, rfl, by simp, .inl ⟨rfl, rfl⟩⟩
      · exact .keep rfl rfl rfl
    · cases he
  | join q d =>
    rcases hw.join_cases he with rfl | ⟨f', hj⟩
    · exact .crash rfl ht
    · exact .keep rfl hj.threads hj.snap
  | snapshot rq =>
    simp only [Host.exec] at he
    split at he
    · rename_i g hg
      split at he <;> cases he
      rename_i table htable
      exact ⟨_, [], (List.append_nil _).symm, by simp, .inr (.inr ⟨rq, g, table, hg, htable, htable, rfl, rfl⟩)⟩
    · cases he
      exact ⟨_, [], (List.append_nil _).symm, by simp, .inr (.inl rfl)⟩
  | ioctl rq =>
    cases he
    exact ⟨_, [], (List.append_nil _).symm, by simp, .inr (.inl rfl)⟩

/-! ### Runs -/

/-- The buffers that a thread has copied for a driver call keep their references. -/
def CopiedLive (s : Host) : Prop :=
  ∀ f ∈ s.threads, ∀ g bs, f.snap = some (g, bs) →
    ∀ x ∈ bs, ∃ c, s.heap[x]? = some c ∧ 0 < c.count ∧ c.freed = false

/-- A worker holds the group of its command, and the group holds the buffers in its slots. -/
theorem SnapInv.copiedLive (hi : SnapInv s) (hr : RefInv s) : CopiedLive s := by
  intro f hf g bs hsnap x hx
  obtain ⟨t, ht⟩ := List.mem_iff_getElem?.1 hf
  obtain ⟨rq, rest, hcode, hgroup⟩ := hi.code f hf g bs hsnap
  obtain ⟨table, htable, hslots⟩ := hi.slots f hf g bs hsnap
  obtain ⟨c, hc, hcb⟩ := table_eq_some.1 htable
  obtain ⟨c', hc', hpos, -⟩ := hr.of_needs ht hcode (x := g) (by simp [Instr.needs, Request.refs, hgroup])
  rw [hc] at hc'
  cases hc'
  exact hr.of_body hc hpos (by simpa [hcb, Body.refs] using hslots x hx)

theorem SnapInv.exec (hi : SnapInv s) (hw : WorkerInv s) (ht : s.threads[t]? = some f) {i : Instr} {ok : Bool}
    (hcode : f.code = i :: rest) (he : s.exec t f rest ok i = some s') (hk : keepsCopied s (.run t ok)) :
    SnapInv s' := by
  obtain ⟨f', spawned, hthreads, hspawned, hsnap⟩ := exec_snap hw ht he
  -- the copies of the other threads stay in their groups
  have hslots : ∀ u ∈ s.threads, ∀ g bs, u.snap = some (g, bs) →
      ∃ table, s'.table g = some table ∧ ∀ x ∈ bs, x ∈ table.slots := by
    intro u hu g bs hus
    obtain ⟨table, htable, hin⟩ := hi.slots u hu g bs hus
    obtain ⟨table', htable', hkeep | ⟨n, b, flags, rfl, hset⟩⟩ := exec_table he htable
    · exact ⟨table', htable', fun x hx => hkeep x (hin x hx)⟩
    · refine ⟨table', htable', fun x hx => ?_⟩
      simp only [keepsCopied, ht, Option.bind_some, hcode, List.head?_cons] at hk
      have := hk u hu (g, bs) (by simp [hus]) rfl x hx
      simpa [htable, hset] using this
  -- and the thread itself keeps none, unless it has just made one
  have hnone : ∀ g bs, f'.snap = some (g, bs) → ∃ rq table, rq.group = some g ∧ s'.table g = some table ∧
      bs = table.slots ∧ f'.code = .ioctl rq :: rest := by
    intro g bs hs
    rcases hsnap with ⟨hends, hsnap⟩ | hsnap | ⟨rq, g', table, hg, -, htable, hsnap, hc⟩
    · obtain ⟨rq, r, hc, -⟩ := hi.code f (List.mem_of_getElem? ht) g bs (hsnap ▸ hs)
      rw [hcode] at hc
      cases hc
      cases hends
    · rw [hsnap] at hs
      cases hs
    · rw [hsnap] at hs
      cases hs
      exact ⟨rq, table, hg, htable, rfl, hc⟩
  have hmem : ∀ u ∈ s'.threads, u = f' ∨ u ∈ s.threads ∨ u.snap = none := by
    intro u hu
    rw [hthreads] at hu
    rcases List.mem_append.1 hu with hu | hu
    · exact (mem_threads_set hu).imp id .inl
    · exact .inr (.inr (hspawned u hu))
  refine ⟨fun u hu g bs hus => ?_, fun u hu g bs hus => ?_⟩
  · rcases hmem u hu with rfl | hu | hn
    · obtain ⟨rq, -, hg, -, -, hc⟩ := hnone g bs hus
      exact ⟨rq, rest, hc, hg⟩
    · exact hi.code u hu g bs hus
    · rw [hn] at hus
      cases hus
  · rcases hmem u hu with rfl | hu | hn
    · obtain ⟨-, table, -, htable, rfl, -⟩ := hnone g bs hus
      exact ⟨table, htable, fun _ => id⟩
    · exact hslots u hu g bs hus
    · rw [hn] at hus
      cases hus

theorem SnapInv.start : SnapInv .start := ⟨by simp [Host.start], by simp [Host.start]⟩

theorem SnapInv.step (hi : SnapInv s) (hw : WorkerInv s) {l : HostLabel} (hs : s.step l = some s')
    (hk : keepsCopied s l) : SnapInv s' := by
  rcases step_cases hs with ⟨-, rfl⟩ | ⟨t, c, f, -, ht, -, hcode, -, -, rfl⟩ |
    ⟨t, ok, f, i, rest, rfl, ht, hcode, ⟨-, rfl⟩ | he⟩
  · have hmem : ∀ u ∈ s.threads ++ [Thread.idle], ∀ g bs, u.snap = some (g, bs) → u ∈ s.threads := by
      intro u hu g bs hus
      rcases List.mem_append.1 hu with hu | hu
      · exact hu
      · rw [List.mem_singleton.1 hu] at hus
        cases hus
    exact ⟨fun u hu g bs hus => hi.code u (hmem u hu g bs hus) g bs hus,
      fun u hu g bs hus => hi.slots u (hmem u hu g bs hus) g bs hus⟩
  · -- between two calls a thread has no copy
    have hmem : ∀ u ∈ s.threads.set t { f with code := c.code, held := c.uses + c.unmaps }, ∀ g bs,
        u.snap = some (g, bs) → u ∈ s.threads := by
      intro u hu g bs hus
      rcases mem_threads_set hu with rfl | hu
      · obtain ⟨rq, r, h, -⟩ := hi.code f (List.mem_of_getElem? ht) g bs hus
        rw [hcode] at h
        cases h
      · exact hu
    exact ⟨fun u hu g bs hus => hi.code u (hmem u hu g bs hus) g bs hus,
      fun u hu g bs hus => hi.slots u (hmem u hu g bs hus) g bs hus⟩
  · exact ⟨hi.code, hi.slots⟩
  · exact hi.exec hw ht hcode he hk

theorem snapInv_of_reach (h : Reach host keepsCopied s) : SnapInv s := by
  induction h with
  | start h0 =>
    cases h0
    exact .start
  | step h hk hs ih => exact ih.step (hostInv_of_reach h).worker (host_step hs) hk

/-- In a run in which no buffer of the command at the driver is replaced in its group, the buffers that its
descriptors and addresses were copied from keep their references until the driver has returned. -/
theorem copiedLive_of_reach (h : Reach host keepsCopied s) : CopiedLive s :=
  (snapInv_of_reach h).copiedLive (hostInv_of_reach h).refs

/-- A client puts its only reference to a buffer in a group, and gives the group to a command; the worker copies
it. -/
def copyGroup : List HostLabel :=
  [.attach, .call 0 .openDeviceNewmode] ++ steps 0 2 ++ [.call 0 (.createQueue 0)] ++ steps 0 4 ++
    [.call 0 (.createBuffer none)] ++ steps 0 2 ++ [.call 0 .createBufferGroup] ++ steps 0 2 ++
    [.call 0 (.addBufferToGroup 3 2 .readWrite)] ++ steps 0 2 ++ [.call 0 (.release 2)] ++ steps 0 2 ++
    [.call 0 (.createBuffer none)] ++ steps 0 2 ++ [.call 0 (.enqueueCommand 1 (some 3) false)] ++
      steps 0 4 ++ steps 1 3

theorem copiedLive_copyGroup :
    ∃ s, host.exec keepsCopied .start copyGroup = some s ∧ s.threads.map Thread.snap = [none, some (3, [2])] ∧
      CopiedLive s := by
  obtain ⟨s, hs, hr, hp⟩ := Reach.exists_exec host keepsCopied .start copyGroup
    (fun s => s.threads.map Thread.snap = [none, some (3, [2])]) rfl (by decide +kernel)
  exact ⟨s, hs, of_decide_eq_true hp, copiedLive_of_reach hr⟩

/-- The client replaces the buffer before the driver returns: its last reference is released. -/
theorem replaced_buffer_not_live : ¬ ∀ s, Reach host anyStep s → CopiedLive s := by
  intro hall
  obtain ⟨s, -, hr, hp⟩ := Reach.exists_exec host anyStep .start
    (copyGroup ++ [.call 0 (.setBufferInGroup 3 0 4 .readWrite)] ++ steps 0 3)
    (fun s => s.threads.map Thread.snap = [none, some (3, [2])] ∧ s.dying 2) rfl (by decide +kernel)
  obtain ⟨hsnap, hdying⟩ := of_decide_eq_true hp
  obtain ⟨f, hf, hfs⟩ := List.mem_map.1 (show some (3, [2]) ∈ s.threads.map Thread.snap by simp [hsnap])
  obtain ⟨c, hc, hpos, -⟩ := hall s hr f hf 3 [2] hfs 2 (by simp)
  have := (dying_iff hc).1 hdying
  omega

end Vdsp
