import Vdsp.Host.Effect
import Vdsp.Host.Teardown

/-!
# The destruction of a queue

The last reference to a queue may be released by a client or, with the reference of an event, by the worker of
the queue itself.  A run is recorded with the calls of `xrp_queue_process` and the beginnings of
`xrp_queue_destroy`.
-/

namespace Vdsp

open Ledger Lts

variable {s s' : Host} {t : Nat} {f f' : Thread} {rest : List Instr}

/-- What is recorded of a run. -/
inductive Note
  /-- The thread `t` starts `xrp_queue_process` on `q`. -/
  | entered (t : Nat) (q : Id)
  /-- A thread starts `xrp_queue_destroy` on `q`. -/
  | begun (q : Id)
  deriving DecidableEq

/-- The thread that a label runs, and its next instruction. -/
def Host.current (s : Host) : HostLabel → Option (Nat × Instr)
  | .run t _ => ((s.threads[t]?).bind fun f => f.code.head?).map fun i => (t, i)
  | _ => none

/-- The note of an instruction. -/
def Instr.notes (t : Nat) : Instr → List Note
  | .enter q => [.entered t q]
  | .setExit q _ => [.begun q]
  | _ => []

def Host.note (s : Host) (l : HostLabel) (notes : List Note) : List Note :=
  notes ++ (s.current l).toList.flatMap fun c => c.2.notes c.1

/-- The runs of the host with their notes. -/
def noted : System (Host × List Note) HostLabel := host.record [] Host.note

/-- The instruction starts to destroy `q`. -/
def Instr.starts (q : Id) : Instr → Nat
  | .setExit x _ => if x = q then 1 else 0
  | _ => 0

structure DestroyInv (s : Host) (notes : List Note) : Prop where
  once : ∀ q, notes.count (.begun q) + s.weigh (Instr.starts q) =
    if (s.queueBody q).isSome ∧ s.dying q then 1 else 0
  entered : ∀ w q, .entered w q ∈ notes → ∃ f, s.threads[w]? = some f ∧ f.role = some q
  /-- The thread of a queue is created, or is the next thing that a thread does. -/
  created : ∀ q b, s.queueBody q = some b → b.worker = none → ∃ f ∈ s.threads, ∃ rest,
    f.code = .createThread q :: rest

/-- Only the last release of a queue brings a destruction into the code. -/
theorem starts_new {i : Instr} {ok : Bool} (q : Id) :
    total (Instr.starts q) (i.new s f ok) =
      if i = .release q ∧ s.count q = 1 ∧ (s.queueBody q).isSome then 1 else 0 := by
  rw [total_new fun j hj => by cases j <;> first | rfl | cases hj]
  cases i with
  | release x =>
    simp only [Instr.brings, Instr.release.injEq]
    cases hx : s.heap[x]? with
    | none =>
      rw [if_neg]
      rintro ⟨rfl, hc, -⟩
      simp [Host.count, hx] at hc
    | some c =>
      obtain ⟨n, b, freed⟩ := c
      by_cases hq : x = q
      · subst hq
        rw [Host.count_eq hx]
        simp only [Host.queueBody, Host.body, hx, Option.map_some]
        by_cases hn : n = 1 <;> cases b <;> simp [hn, Instr.starts]
      · rw [if_neg fun h => hq h.1]
        split <;> simp [Instr.starts, hq]
  | newEvent x g sync => cases ok <;> rfl
  | newRequest x g evt sync => cases ok <;> cases evt <;> rfl
  | ioctl rq => cases h : rq.event <;> simp [Instr.brings, Instr.starts, h]
  | _ => rfl

theorem DestroyInv.exec {notes : List Note} (hi : DestroyInv s notes) (hr : RefInv s) (hw : WorkerInv s)
    (ht : s.threads[t]? = some f) {i : Instr} {ok : Bool} (hcode : f.code = i :: rest)
    (he : s.exec t f rest ok i = some s') (hok : ∀ q, i = .createThread q → ok = true) :
    DestroyInv s' (notes ++ i.notes t) := by
  rcases exec_code hw he with ⟨rfl, -, hcrash⟩ | ⟨f', spawned, hg⟩
  · have hn : i.notes t = [] := by
      rcases hcrash with rfl | ⟨q, d, rfl⟩ <;> rfl
    rw [hn, List.append_nil]
    exact ⟨hi.once, hi.entered, hi.created⟩
  have hself := hg.self ht
  refine ⟨fun q => ?_, fun w q hmem => ?_, fun q b hb hnone => ?_⟩
  · have hold := hi.once q
    have hweigh := hg.weigh ht hcode (p := Instr.starts q) fun _ => rfl
    have hdying := hr.exec_dying ht hcode he q
    have hcount : (i.notes t).count (.begun q) = Instr.starts q i := by
      cases i with
      | setExit x d => by_cases hx : x = q <;> simp [Instr.notes, Instr.starts, hx]
      | enter x => simp [Instr.notes, Instr.starts]
      | _ => rfl
    rw [starts_new] at hweigh
    rw [List.count_append, hcount]
    -- the queue was there, or is a new one, which is not dying
    cases hb : s.queueBody q with
    | some b =>
      have hsome := exec_queue_isSome he hb
      simp only [hb, hsome, Option.isSome_some, true_and, and_true] at hold hweigh ⊢
      by_cases hlast : i = .release q ∧ s.count q = 1
      · have hnot : ¬ s.dying q := by
          obtain ⟨c, hc, -⟩ := queueBody_eq_some.1 hb
          rw [dying_iff hc]
          rw [Host.count_eq hc] at hlast
          omega
        rw [if_neg hnot] at hold
        rw [if_pos hlast] at hweigh
        rw [if_pos (hdying.2 (.inr hlast))]
        omega
      · have hsame : s'.dying q ↔ s.dying q := hdying.trans ⟨fun h => h.resolve_right hlast, .inl⟩
        rw [if_neg hlast] at hweigh
        simp only [hsame]
        omega
    | none =>
      simp only [hb, Option.isSome_none, Bool.false_eq_true, false_and, and_false, if_false] at hold hweigh
      have hnew : ¬ ((s'.queueBody q).isSome = true ∧ s'.dying q) := by
        rintro ⟨hsome, hd⟩
        obtain ⟨b', hb'⟩ := Option.isSome_iff_exists.1 hsome
        rcases exec_queueBody he hb' with ⟨d, rfl, -, rfl, -⟩ | ⟨b₀, hb₀, -⟩
        · have hd' := (hdying.1 hd).resolve_right (by simp)
          simp [Host.dying] at hd'
        · rw [hb] at hb₀
          cases hb₀
      rw [if_neg hnew]
      omega
  · -- roles do not change
    rcases List.mem_append.1 hmem with hmem | hmem
    · obtain ⟨u, hu, hrole⟩ := hi.entered w q hmem
      by_cases hwt : w = t
      · subst hwt
        rw [ht] at hu
        cases hu
        exact ⟨f', hself, hg.role.trans hrole⟩
      · exact ⟨u, hg.other hu hwt, hrole⟩
    · cases i with
      | enter x =>
        obtain ⟨rfl, rfl⟩ : w = t ∧ q = x := by simpa [Instr.notes] using hmem
        obtain ⟨hrole, -⟩ := hw.at_service (List.mem_of_getElem? ht) hcode rfl
        exact ⟨f', hself, hg.role.trans hrole⟩
      | setExit => simp [Instr.notes] at hmem
      | _ => cases hmem
  · rcases exec_queueBody he hb with ⟨d, rfl, hok, rfl, -⟩ | ⟨b₀, hb₀, ⟨rfl, -, rfl⟩ | ⟨hsame, hne⟩⟩
    · exact ⟨f', List.mem_of_getElem? hself, rest, by rw [hg.code]; simp [Instr.new, hok]⟩
    · cases hnone
    · obtain ⟨u, hu, r, hc⟩ := hi.created q b₀ hb₀ (hsame.symm.trans hnone)
      obtain ⟨w, hw'⟩ := List.mem_iff_getElem?.1 hu
      by_cases hwt : w = t
      · subst hwt
        rw [ht] at hw'
        cases hw'
        rw [hcode] at hc
        cases hc
        exact absurd rfl (hne q rfl (hok q rfl))
      · exact ⟨u, List.mem_of_getElem? (hg.other hw' hwt), r, hc⟩

theorem DestroyInv.start : DestroyInv .start [] :=
  ⟨by simp [Host.start, Host.weigh, Host.dying], by simp, by simp [Host.start, Host.queueBody, Host.body]⟩

theorem starts_code (c : ApiCall) (q : Id) : total (Instr.starts q) c.code = 0 := by
  cases c <;> rfl

theorem DestroyInv.step {notes : List Note} (hi : DestroyInv s notes) (hr : RefInv s) (hw : WorkerInv s)
    {l : HostLabel}
    (hs : s.step l = some s') (hok : succeeds Instr.spawns s l) : DestroyInv s' (s.note l notes) := by
  rcases step_cases hs with ⟨rfl, rfl⟩ | ⟨t, c, f, rfl, ht, hrole, hcode, -, -, rfl⟩ |
    ⟨t, ok, f, i, rest, rfl, ht, hcode, ⟨hfault, rfl⟩ | he⟩
  · rw [show s.note .attach notes = notes from List.append_nil _]
    refine ⟨fun q => ?_, fun w q hmem => ?_, fun q b hb hnone => ?_⟩
    · rw [weigh_attach]
      exact hi.once q
    · obtain ⟨u, hu, hrole⟩ := hi.entered w q hmem
      exact ⟨u, by rw [List.getElem?_append_left (List.getElem?_eq_some_iff.1 hu).1]; exact hu, hrole⟩
    · obtain ⟨u, hu, h⟩ := hi.created q b hb hnone
      exact ⟨u, List.mem_append_left _ hu, h⟩
  · rw [show s.note (.call t c) notes = notes from List.append_nil _]
    refine ⟨fun q => ?_, fun w q hmem => ?_, fun q b hb hnone => ?_⟩
    · have h := weigh_call ht hcode c (c.uses + c.unmaps) (Instr.starts q)
      rw [starts_code, Nat.add_zero] at h
      have := hi.once q
      rw [← h] at this
      exact this
    · obtain ⟨u, hu, hrole'⟩ := hi.entered w q hmem
      have hne : w ≠ t := by
        rintro rfl
        rw [ht] at hu
        cases hu
        rw [hrole] at hrole'
        cases hrole'
      exact ⟨u, by rw [← hu]; exact List.getElem?_set_ne hne.symm, hrole'⟩
    · obtain ⟨u, hu, r, hc⟩ := hi.created q b hb hnone
      obtain ⟨w, hw'⟩ := List.mem_iff_getElem?.1 hu
      have hne : w ≠ t := by
        rintro rfl
        rw [ht] at hw'
        cases hw'
        rw [hcode] at hc
        cases hc
      exact ⟨u, List.mem_of_getElem? (i := w) (by rw [← hw']; exact List.getElem?_set_ne hne.symm), r, hc⟩
  · obtain ⟨x, hx, hgone⟩ := hfault
    rw [hw.safe hr ht hcode x hx] at hgone
    cases hgone
  · have hn : s.note (.run t ok) notes = notes ++ i.notes t := by
      simp [Host.note, Host.current, ht, hcode]
    rw [hn]
    refine hi.exec hr hw ht hcode he ?_
    rintro q rfl
    simpa [succeeds, ht, hcode, Instr.spawns] using hok

/-- The runs in which threads can be created. -/
def spawning (p : Host × List Note) : HostLabel → Prop := succeeds Instr.spawns p.1

instance (p : Host × List Note) (l : HostLabel) : Decidable (spawning p l) :=
  inferInstanceAs (Decidable (succeeds Instr.spawns p.1 l))

theorem reach_of_noted {p : Host × List Note} (h : Reach noted spawning p) :
    Reach host (succeeds Instr.spawns) p.1 :=
  h.of_record

theorem destroyInv_of_reach {p : Host × List Note} (h : Reach noted spawning p) : DestroyInv p.1 p.2 := by
  induction h with
  | start h0 =>
    obtain ⟨h1, h2⟩ := h0
    rw [h1, h2]
    exact .start
  | step h hok hs ih =>
    obtain ⟨hs, hn⟩ := System.record_step hs
    have hi := hostInv_of_reach (reach_of_noted h)
    rw [hn]
    exact ih.step hi.refs hi.worker (host_step hs) hok

/-- The teardown of queues goes wrong in no respect. -/
structure DestroySafe (s : Host) (notes : List Note) : Prop where
  /-- `xrp_queue_destroy` runs once. -/
  once : ∀ q, notes.count (.begun q) ≤ 1
  /-- Its store through `sync_exit` is executed by the worker of the queue only, and hits the `exit` of that
  thread, which is in a call that it has made on the queue, before the return of that call. -/
  store : ∀ t f q d rest ok s', s.threads[t]? = some f → f.code = .join q d :: rest →
    s.exec t f rest ok (.join q d) = some s' →
      s' = s.goOn t f (.closeQueue q d :: rest) ∨
      (s' = (s.goOn t f (.closeQueue q d :: rest)).raiseExit t ∧ f.role = some q ∧
        (∃ b, s.queueBody q = some b ∧ b.worker = some t ∧ b.syncExit = some t) ∧
        (∃ c, f.code = c ++ [.loop q] ∧ ∀ j ∈ c, j.cleanup = true) ∧ ∀ w x, .entered w x ∈ notes →
          (w = t ↔ x = q))
  noFault : s.fault = false
  /-- No thread is about to access a freed queue. -/
  untouched : ∀ q, s.gone q = true → ∀ f ∈ s.threads, ∀ i rest, f.code = i :: rest → q ∉ i.accesses s
  /-- The worker of a freed queue is out of its loop, or leaves it next. -/
  leaves : ∀ f ∈ s.threads, ∀ q, f.role = some q → s.gone q = true →
    f.code = [] ∨ (f.exit = true ∧ ∃ c, f.code = c ++ [.loop q] ∧ ∀ j ∈ c, j.cleanup = true)

/-- A queue that is torn down has a worker. -/
theorem DestroyInv.worker_isSome {notes : List Note} (hi : DestroyInv s notes) (hr : RefInv s)
    (ht : s.threads[t]? = some f) {q d : Id} (hcode : f.code = .join q d :: rest) {b : QueueBody}
    (hb : s.queueBody q = some b) : b.worker ≠ none := by
  intro hnone
  obtain ⟨u, hu, r, hc⟩ := hi.created q b hb hnone
  obtain ⟨w, hw⟩ := List.mem_iff_getElem?.1 hu
  -- the thread that is going to create the worker holds the queue, which is dying
  obtain ⟨c, hx, hpos, -⟩ := hr.of_needs hw hc (x := q) (by simp [Instr.needs])
  have hf := List.mem_of_getElem? ht
  obtain ⟨c', hx', h0, -⟩ := hr.of_free (frees_pos hf ((hr.runs f hf).free_of_closes (j := .join q d)
    (by simp [hcode]) rfl))
  rw [hx] at hx'
  cases hx'
  omega

theorem DestroyInv.store {notes : List Note} (hi : DestroyInv s notes) (hr : RefInv s) (hw : WorkerInv s)
    (ht : s.threads[t]? = some f) {q d : Id} (hcode : f.code = .join q d :: rest) {ok : Bool}
    (he : s.exec t f rest ok (.join q d) = some s') :
    s' = s.goOn t f (.closeQueue q d :: rest) ∨
      (s' = (s.goOn t f (.closeQueue q d :: rest)).raiseExit t ∧ f.role = some q ∧
        (∃ b, s.queueBody q = some b ∧ b.worker = some t ∧ b.syncExit = some t) ∧
        (∃ c, f.code = c ++ [.loop q] ∧ ∀ j ∈ c, j.cleanup = true) ∧
        ∀ w x, .entered w x ∈ notes → (w = t ↔ x = q)) := by
  simp only [Host.exec] at he
  split at he
  · rename_i b hb
    have hsome := hi.worker_isSome hr ht hcode hb
    split at he
    · rename_i w hbw
      obtain ⟨u, hu, hrole⟩ := hw.thread q b w hb hbw
      split at he
      · rename_i hwt
        subst hwt
        rw [ht] at hu
        cases hu
        obtain ⟨b', hb', -, hsync⟩ := hw.worker w f q ht hrole
        rw [hb] at hb'
        cases hb'
        have hsync := hsync.resolve_left (by simp [hcode])
        simp only [hsync] at he
        cases he
        refine .inr ⟨rfl, hrole, ⟨b, hb, hbw, hsync⟩, ?_, fun u x hmem => ?_⟩
        · have hserving := (hw.serving f (List.mem_of_getElem? ht) q hrole).1
          generalize f.code = code at hcode hserving
          generalize f.exit = ex at hserving
          cases hserving with
          | @finish c ex h => exact ⟨c, rfl, h⟩
          | _ => cases hcode
        · obtain ⟨v, hv, hx⟩ := hi.entered u x hmem
          constructor
          · rintro rfl
            rw [ht] at hv
            cases hv
            rw [hrole] at hx
            cases hx
            rfl
          · rintro rfl
            exact hw.unique hb hbw hv hx
      · split at he <;> cases he
        exact .inl rfl
    · exact absurd ‹_› hsome
  · cases he

/-- In a run in which threads can be created, the teardown of queues is safe. -/
theorem destroySafe_of_reach {p : Host × List Note} (h : Reach noted spawning p) : DestroySafe p.1 p.2 := by
  have hd := destroyInv_of_reach h
  have hi := hostInv_of_reach (reach_of_noted h)
  refine ⟨fun q => ?_, ?_, hi.fault, fun q hq f hf i rest hcode hmem => ?_, fun f hf q hrole hq => ?_⟩
  · have := hd.once q
    split at this <;> omega
  · intro t f q d rest ok s' ht hcode he
    exact hd.store hi.refs hi.worker ht hcode he
  · obtain ⟨t, ht⟩ := List.mem_iff_getElem?.1 hf
    rw [hi.worker.safe hi.refs ht hcode q hmem] at hq
    cases hq
  · obtain ⟨t, ht⟩ := List.mem_iff_getElem?.1 hf
    cases hex : f.exit with
    | false =>
      refine .inl (by_contra fun hne => ?_)
      rw [(hi.worker.there hi.refs ht hrole hne hex).1] at hq
      cases hq
    | true =>
      have hserving := (hi.worker.serving f hf q hrole).1
      rw [hex] at hserving
      generalize f.code = code at hserving
      cases hserving with
      | done => exact .inl rfl
      | @finish c ex h => exact .inr ⟨rfl, c, rfl, h⟩

/-- A client drops a queue and the event of its command; the worker destroys the event, and with it its own
queue. -/
def selfDestroy : List HostLabel :=
  [.attach, .call 0 .openDeviceNewmode] ++ steps 0 2 ++ [.call 0 (.createQueue 0)] ++ steps 0 4 ++
    [.call 0 (.enqueueCommand 1 none true)] ++ steps 0 6 ++ [.call 0 (.release 1)] ++ steps 0 2 ++
    [.call 0 (.release 2)] ++ steps 0 2 ++ steps 1 15

theorem destroySafe_selfDestroy :
    ∃ p, noted.exec spawning (.start, []) selfDestroy = some p ∧ p.1.gone 1 = true ∧
      p.1.threads.map Thread.code = [[], []] ∧ DestroySafe p.1 p.2 := by
  obtain ⟨p, hs, hr, hp⟩ := Reach.exists_exec noted spawning (.start, []) selfDestroy
    (fun p => p.1.gone 1 = true ∧ p.1.threads.map Thread.code = [[], []]) ⟨rfl, rfl⟩ (by decide +kernel)
  exact ⟨p, hs, (of_decide_eq_true hp).1, (of_decide_eq_true hp).2, destroySafe_of_reach hr⟩

end Vdsp
