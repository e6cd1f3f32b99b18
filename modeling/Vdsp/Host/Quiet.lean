import Vdsp.Host.Step

/-!
# Instructions that no queue sees

Most instructions leave every queue's body, the request list and the other threads as they are, and no object
dies by them: `exec_quiet` says so once, and what code they may put in front of the rest.  What remains is
treated where the workers are.
-/

namespace Vdsp

variable {s : Host} {t : Nat} {f : Thread} {rest : List Instr}

/-- An object without references. -/
def Host.dying (s : Host) (x : Id) : Prop := (s.heap[x]?).map Cell.count = some 0

theorem dying_iff {x : Id} {c : Cell} (h : s.heap[x]? = some c) : s.dying x ↔ c.count = 0 := by
  simp [Host.dying, h]

/-- The instructions of a worker between two commands, and around the driver call. -/
def Instr.service : Instr → Bool
  | .enter _ | .process _ | .asleepQueue .. | .snapshot _ | .ioctl _ | .loop _ => true
  | _ => false

/-- The instructions that finish a command or destroy an object. -/
def Instr.cleanup : Instr → Bool
  | .release _ | .free _ | .complete .. | .condDestroy _ | .setExit .. | .join .. | .closeQueue .. => true
  | _ => false

/-- The instruction tears down the queue. -/
def Instr.tears (q : Id) : Instr → Bool
  | .setExit x _ | .join x _ | .closeQueue x _ => x = q
  | _ => false

/-- The instructions that neither a queue nor its worker sees. -/
def Instr.quiet : Instr → Bool
  | .release _ | .newQueue _ | .createThread _ | .push .. => false
  | .setExit .. | .join .. | .closeQueue .. => false
  | .enter _ | .process _ | .asleepQueue .. | .snapshot _ | .ioctl _ | .loop _ => false
  | _ => true

/-- What a quiet instruction may put in front of the rest. -/
def Instr.inner : Instr → Bool
  | .ret => false
  | .release _ | .push .. => true
  | i => i.quiet

/-- No queue and no object's life changes. -/
structure Keeps (s s' : Host) : Prop where
  queueBody : ∀ q, s'.queueBody q = s.queueBody q
  dying : ∀ x, s'.dying x ↔ s.dying x

/-- What a quiet step leaves as it is. -/
structure QuietStep (s s' : Host) (t : Nat) (f f' : Thread) (new rest : List Instr) :
    Prop extends Keeps s s' where
  threads : s'.threads = s.threads.set t f'
  role : f'.role = f.role
  exit : f'.exit = f.exit
  code : f'.code = new ++ rest
  new : ∀ j ∈ new, j.inner = true
  requests : s'.requests = s.requests
  accepted : s'.accepted = s.accepted
  executed : s'.executed = s.executed
  nextRequest : s'.nextRequest = s.nextRequest

theorem Keeps.of_heap {s s' : Host} (h : s'.heap = s.heap) : Keeps s s' := by
  constructor <;> intro x <;> simp only [Host.queueBody, Host.body, Host.dying, h]

theorem Keeps.trans {s s' s'' : Host} (h : Keeps s s') (h' : Keeps s' s'') : Keeps s s'' :=
  ⟨fun q => (h'.queueBody q).trans (h.queueBody q), fun x => (h'.dying x).trans (h.dying x)⟩

/-- An object changes, and stays as live or dying as it was. -/
theorem Keeps.modify {x : Id} {g : Cell → Cell} {c : Cell} (hx : s.heap[x]? = some c)
    (hb : (g c).body = c.body ∨ ((∀ b, c.body ≠ .queue b) ∧ ∀ b, (g c).body ≠ .queue b))
    (h0 : (g c).count = 0 ↔ c.count = 0) : Keeps s (s.modify x g) := by
  constructor
  · intro q
    unfold Host.queueBody Host.body Host.modify
    rw [List.getElem?_modify]
    by_cases h : x = q
    · subst h
      rw [hx]
      rcases hb with hb | ⟨hb, hb'⟩
      · simp [hb]
      · cases hc : c.body with
        | queue b => exact absurd hc (hb b)
        | _ =>
          cases hgc : (g c).body with
          | queue b => exact absurd hgc (hb' b)
          | _ => simp [hgc, hc]
    · simp [h]
  · intro y
    unfold Host.dying Host.modify
    rw [List.getElem?_modify]
    by_cases h : x = y
    · subst h
      simp [hx, h0]
    · simp [h]

/-- A new object is live, and not a queue. -/
theorem Keeps.alloc {body : Body} {code : Id → List Instr} (hb : ∀ b, body ≠ .queue b) :
    Keeps s (s.alloc t f body code) := by
  constructor
  · intro q
    have hheap : (s.alloc t f body code).heap = s.heap ++ [⟨1, body, false⟩] := rfl
    rw [Host.queueBody, Host.body, hheap]
    rcases Nat.lt_trichotomy q s.heap.length with h | h | h
    · rw [List.getElem?_append_left h]
      rfl
    · subst h
      rw [List.getElem?_concat_length]
      have : s.queueBody s.heap.length = none := by simp [Host.queueBody, Host.body]
      rw [this]
      cases body with
      | queue b => exact absurd rfl (hb b)
      | _ => rfl
    · have : s.queueBody q = none := by simp [Host.queueBody, Host.body, List.getElem?_eq_none (Nat.le_of_lt h)]
      rw [this, List.getElem?_eq_none (by simp; omega)]
      rfl
  · intro x
    show ((s.heap ++ [⟨1, body, false⟩])[x]?).map Cell.count = some 0 ↔ _
    unfold Host.dying
    rcases Nat.lt_trichotomy x s.heap.length with h | h | h
    · rw [List.getElem?_append_left h]
    · subst h
      rw [List.getElem?_concat_length]
      simp
    · rw [List.getElem?_eq_none (by simp; omega), List.getElem?_eq_none (Nat.le_of_lt h)]

/-! ### The quiet instructions -/

theorem Keeps.inc {x : Id} {c : Cell} (hx : s.heap[x]? = some c) (hc : 0 < c.count) :
    Keeps s (s.modify x Cell.inc) :=
  Keeps.modify hx (.inl rfl) (by simp only [Cell.inc]; omega)

/-- A body that is not a queue's is exchanged for another one. -/
theorem Keeps.setBody {x : Id} {c : Cell} {b : Body} (hx : s.heap[x]? = some c) (hc : ∀ b, c.body ≠ .queue b)
    (hb : ∀ b', b ≠ .queue b') : Keeps s (s.modify x (Cell.setBody b)) :=
  Keeps.modify hx (.inr ⟨hc, hb⟩) Iff.rfl

/-- A live object is retained for another object, whose body changes. -/
theorem Keeps.attach {x z : Id} {c d : Cell} {b : Body} (hx : s.heap[x]? = some c) (hc : 0 < c.count)
    (hz : s.heap[z]? = some d) (hd : ∀ b, d.body ≠ .queue b) (hb : ∀ b', b ≠ .queue b') :
    Keeps s ((s.modify x Cell.inc).modify z (Cell.setBody b)) := by
  refine (Keeps.inc hx hc).trans ?_
  by_cases h : x = z
  · subst h
    rw [hx] at hz
    cases hz
    exact Keeps.setBody (c := Cell.inc c) (by simp [Host.modify, hx]) hd hb
  · exact Keeps.setBody (c := d) (by simp [Host.modify, h, hz]) hd hb

theorem inner_enqueueCode (q : Id) (g e : Option Id) (sync : Bool) : ∀ j ∈ enqueueCode q g e sync,
      j.inner = true := by
  cases g <;> cases e <;> cases sync <;> simp [enqueueCode, Instr.inner, Instr.quiet]

/-- What a quiet instruction does, unless the process ends in it. -/
def QuietTo (s : Host) (t : Nat) (f : Thread) (i : Instr) (rest : List Instr) (s' : Host) : Prop :=
  s' = { s with crashed := true } ∨ ∃ f' new, QuietStep s s' t f f' new rest ∧
    (i.cleanup = true → new = [] ∧ f'.held = f.held) ∧ (i = .ret → new = [] ∧ f'.held = 0)

private theorem quietTo_nil {i : Instr} {s' : Host} {f' : Thread} (hk : Keeps s s')
    (hthreads : s'.threads = s.threads.set t f') (hf : (f'.role, f'.exit, f'.code) = (f.role, f.exit, rest))
    (hs : (s'.requests, s'.accepted, s'.executed, s'.nextRequest) =
      (s.requests, s.accepted, s.executed, s.nextRequest))
    (hheld : (i.cleanup = true → f'.held = f.held) ∧ (i = .ret → f'.held = 0) := by simp [Instr.cleanup]) :
    QuietTo s t f i rest s' := by
  simp only [Prod.mk.injEq] at hf hs
  obtain ⟨h1, h2, h3⟩ := hf
  obtain ⟨h4, h5, h6, h7⟩ := hs
  exact .inr ⟨f', [], ⟨hk, hthreads, h1, h2, h3, by simp, h4, h5, h6, h7⟩, fun h => ⟨rfl, hheld.1 h⟩,
    fun h => ⟨rfl, hheld.2 h⟩⟩

private theorem quietTo_code {i : Instr} {s' : Host} {f' : Thread} (new : List Instr)
    (hi : i.cleanup = false ∧ i ≠ .ret)
    (hk : Keeps s s') (hthreads : s'.threads = s.threads.set t f')
    (hf : (f'.role, f'.exit, f'.code) = (f.role, f.exit, new ++ rest)) (hnew : ∀ j ∈ new, j.inner = true)
    (hs : (s'.requests, s'.accepted, s'.executed, s'.nextRequest) =
      (s.requests, s.accepted, s.executed, s.nextRequest)) : QuietTo s t f i rest s' := by
  simp only [Prod.mk.injEq] at hf hs
  obtain ⟨h1, h2, h3⟩ := hf
  obtain ⟨h4, h5, h6, h7⟩ := hs
  exact .inr ⟨f', new, ⟨hk, hthreads, h1, h2, h3, hnew, h4, h5, h6, h7⟩, by simp [hi.1], fun h => absurd h hi.2⟩

theorem RefInv.exec_quiet (hi : RefInv s) (ht : s.threads[t]? = some f) {i : Instr} {ok : Bool} {s' : Host}
    (hcode : f.code = i :: rest) (hq : i.quiet = true) (he : s.exec t f rest ok i = some s') :
    QuietTo s t f i rest s' := by
  have hlive : ∀ x ∈ i.needs, ∃ c, s.heap[x]? = some c ∧ 0 < c.count := fun x hx => by
    obtain ⟨c, hc, hpos, -⟩ := hi.of_needs ht hcode hx
    exact ⟨c, hc, hpos⟩
  cases i with
  | ret | condDestroy =>
    cases he
    exact quietTo_nil (.of_heap rfl) rfl rfl rfl
  | asleep e =>
    cases he
    exact quietTo_code [.wait e] ⟨rfl, by simp⟩ (.of_heap rfl) rfl rfl (by simp [Instr.inner, Instr.quiet]) rfl
  | retain x =>
    obtain ⟨c, hx, hc⟩ := hlive x (by simp [Instr.needs])
    cases he
    exact quietTo_nil ((Keeps.inc hx hc).trans (.of_heap rfl)) rfl rfl rfl
  | free x =>
    cases he
    have hk : Keeps s (s.modify x Cell.markFreed) := by
      cases hx : s.heap[x]? with
      | none => exact .of_heap (List.modify_eq_self (by simpa using hx))
      | some c => exact .modify hx (.inl rfl) Iff.rfl
    exact quietTo_nil (hk.trans (.of_heap rfl)) rfl rfl rfl
  | openNewmode | newGroup =>
    simp only [Host.exec] at he
    split at he <;> cases he
    · exact quietTo_nil (.alloc (by simp)) rfl rfl rfl
    · exact quietTo_nil (.of_heap rfl) rfl rfl rfl
  | openInner =>
    simp only [Host.exec] at he
    split at he <;> cases he
    · exact quietTo_code [.openWrapper _] ⟨rfl, by simp⟩ (.alloc (by simp)) rfl rfl
        (by simp [Instr.inner, Instr.quiet])
        rfl
    · exact quietTo_nil (.of_heap rfl) rfl rfl rfl
  | openWrapper n =>
    simp only [Host.exec] at he
    split at he <;> cases he
    · exact quietTo_nil (.alloc (by simp)) rfl rfl rfl
    · exact quietTo_nil (.of_heap rfl) rfl rfl rfl
  | newBuffer device =>
    simp only [Host.exec] at he
    split at he <;> cases he
    · refine quietTo_code (device.toList.flatMap fun d => [.attachDevice s.heap.length d, .ionmem]) ⟨rfl, by simp⟩
        (.alloc (by simp)) rfl rfl ?_ rfl
      cases device <;> simp [Instr.inner, Instr.quiet]
    · exact quietTo_nil (.of_heap rfl) rfl rfl rfl
  | attachDevice b d =>
    obtain ⟨c, hc, hpos⟩ := hlive d (by simp [Instr.needs])
    simp only [Host.exec] at he
    split at he
    · rename_i n hbody
      cases he
      obtain ⟨cb, hcb, hbody⟩ := body_eq_some.1 hbody
      exact quietTo_nil ((Keeps.attach hc hpos hcb (by simp [hbody]) (by simp)).trans (.of_heap rfl)) rfl rfl rfl
    · cases he
  | ionmem =>
    simp only [Host.exec] at he
    split at he <;> cases he
    · exact quietTo_nil (.of_heap rfl) rfl rfl rfl
    · exact .inl rfl
  | mapCheck b =>
    cases he
    split
    · exact quietTo_code [.retain b, .mapInc b] ⟨rfl, by simp⟩ (.of_heap rfl) rfl rfl
        (by simp [Instr.inner, Instr.quiet])
        rfl
    · exact quietTo_nil (.of_heap rfl) rfl rfl rfl
  | mapInc b | mapDec b =>
    simp only [Host.exec] at he
    split at he
    · rename_i d n hbody
      cases he
      obtain ⟨c, hc, hbody⟩ := body_eq_some.1 hbody
      exact quietTo_nil ((Keeps.setBody hc (by simp [hbody]) (by simp)).trans (.of_heap rfl)) rfl rfl rfl
    · cases he
  | add g b flags =>
    obtain ⟨c, hc, hpos⟩ := hlive b (by simp [Instr.needs])
    simp only [Host.exec] at he
    split at he
    · rename_i table htable
      obtain ⟨cg, hcg, hbody⟩ := table_eq_some.1 htable
      split at he <;> cases he
      · exact quietTo_nil ((Keeps.attach hc hpos hcg (by simp [hbody]) (by simp)).trans (.of_heap rfl))
          rfl rfl rfl
      · exact quietTo_nil (.of_heap rfl) rfl rfl rfl
    · cases he
  | swap g i b flags =>
    simp only [Host.exec] at he
    split at he
    · rename_i table htable
      obtain ⟨cg, hcg, hbody⟩ := table_eq_some.1 htable
      split at he <;> cases he
      · exact quietTo_code [.release _] ⟨rfl, by simp⟩ ((Keeps.setBody hcg (by simp [hbody]) (by simp)).trans
          (.of_heap rfl)) rfl rfl (by simp [Instr.inner]) rfl
      · exact quietTo_code [.release b] ⟨rfl, by simp⟩ (.of_heap rfl) rfl rfl (by simp [Instr.inner]) rfl
    · cases he
  | get g i =>
    obtain ⟨c, hc, hpos⟩ := hlive g (by simp [Instr.needs])
    simp only [Host.exec] at he
    split at he
    · rename_i table htable
      obtain ⟨cg, hcg, hbody⟩ := table_eq_some.1 htable
      rw [hc] at hcg
      cases hcg
      split at he <;> cases he
      · rename_i b hb
        obtain ⟨cb, hcb, hposb, -⟩ := hi.of_body hc hpos (x := b) (by rw [hbody]; exact slots_get hb)
        exact quietTo_nil ((Keeps.inc hcb hposb).trans (.of_heap rfl)) rfl rfl rfl
      · exact quietTo_nil (.of_heap rfl) rfl rfl rfl
    · cases he
  | newRequest q g evt sync =>
    simp only [Host.exec] at he
    split at he <;> cases he
    · split
      · exact quietTo_code [.newEvent q g sync] ⟨rfl, by simp⟩ (.of_heap rfl) rfl rfl
          (by simp [Instr.inner, Instr.quiet])
          rfl
      · exact quietTo_code _ ⟨rfl, by simp⟩ (.of_heap rfl) rfl rfl (inner_enqueueCode q g none false) rfl
    · exact quietTo_nil (.of_heap rfl) rfl rfl rfl
  | newEvent q g sync =>
    simp only [Host.exec] at he
    split at he <;> cases he
    · exact quietTo_code _ ⟨rfl, by simp⟩ (.alloc (by simp)) rfl rfl
        (inner_enqueueCode q g (some s.heap.length) sync)
        rfl
    · exact quietTo_nil (.of_heap rfl) rfl rfl rfl
  | attachQueue e q =>
    obtain ⟨c, hc, hpos⟩ := hlive q (by simp [Instr.needs])
    simp only [Host.exec] at he
    split at he
    · rename_i b hb
      obtain ⟨ce, hce, hbody⟩ := eventBody_eq_some.1 hb
      split at he <;> cases he
      exact quietTo_nil ((Keeps.attach hc hpos hce (by simp [hbody]) (by simp)).trans (.of_heap rfl)) rfl rfl rfl
    · cases he
  | wait e =>
    simp only [Host.exec] at he
    split at he
    · cases he
      split
      · exact quietTo_code [.asleep e _] ⟨rfl, by simp⟩ (.of_heap rfl) rfl rfl
          (by simp [Instr.inner, Instr.quiet]) rfl
      · exact quietTo_nil (.of_heap rfl) rfl rfl rfl
    · cases he
  | eventStatus e =>
    simp only [Host.exec] at he
    split at he
    · cases he
      exact quietTo_nil (.of_heap rfl) rfl rfl rfl
    · cases he
  | complete e status =>
    simp only [Host.exec] at he
    split at he
    · rename_i b hb
      cases he
      obtain ⟨c, hc, hbody⟩ := eventBody_eq_some.1 hb
      exact quietTo_nil ((Keeps.setBody hc (by simp [hbody]) (by simp)).trans (.of_heap rfl)) rfl rfl rfl
    · cases he
  | release | newQueue | createThread | push | setExit | join | closeQueue | enter | process |
    asleepQueue | snapshot
  | ioctl | loop => simp [Instr.quiet] at hq

end Vdsp
