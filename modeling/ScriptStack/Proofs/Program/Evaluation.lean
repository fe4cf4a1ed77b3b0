import ScriptStack.Program.Call
import ScriptStack.Proofs.Program.Reference
import ScriptStack.Proofs.Stack.Change

/-! Evaluating terms: what there is stays as it is, and the values refer to what exists. -/
namespace ScriptStack

namespace Machine

/-- From one machine to a wider one, in which the values at hand refer to what exists. -/
structure Leads (m m' : Machine) (rs : List Reference) : Prop where
  widens : m.Widens m'
  closed : m.Sound → m'.heap.Closed
  has : m.Sound → ∀ r ∈ rs, m'.store.Has r

variable {m n o : Machine} {rs qs : List Reference}

theorem Leads.sound (hl : m.Leads n rs) (hm : m.Sound) : n.Sound :=
  ⟨hl.closed hm, fun r hr => hl.widens.persists.has (hm.has r (hl.widens.reaches.mp hr))⟩

theorem Leads.trans (hn : m.Leads n rs) (ho : n.Leads o qs) : m.Leads o (rs ++ qs) where
  widens := hn.widens.trans ho.widens
  closed hm := ho.closed (hn.sound hm)
  has hm r hr := by
    obtain hr | hr := List.mem_append.mp hr
    · exact ho.widens.persists.has (hn.has hm r hr)
    · exact ho.has (hn.sound hm) r hr

theorem Leads.mono (hl : m.Leads n rs) (h : ∀ r ∈ qs, r ∈ rs) : m.Leads n qs :=
  ⟨hl.widens, hl.closed, fun hm r hr => hl.has hm r (h r hr)⟩

theorem leads_self (h : ∀ r ∈ rs, m.Reaches r) : m.Leads m rs :=
  ⟨.refl m, fun hm => hm.closed, fun hm r hr => hm.has r (h r hr)⟩

theorem leads_nil (m : Machine) : m.Leads m [] := leads_self fun r hr => by cases hr

theorem leads_newBuffer (m : Machine) (data : Bytes) :
    m.Leads (m.withHeap (m.heap.alloc data)) [.buffer m.heap.next] where
  widens := widens_withHeap (m.heap.grows_alloc data)
  closed hm := hm.closed.alloc data
  has _ r hr := by
    rw [List.mem_singleton.mp hr]
    exact m.heap.holds_alloc_next data

theorem leads_newEntry {made : Heap × Entry} (hg : m.heap.Grows made.1)
    (hc : m.Sound → made.1.Closed) (he : made.1.HasEntry made.2) :
    m.Leads (m.withHeap made.1) [.entry made.2] where
  widens := widens_withHeap hg
  closed := hc
  has _ r hr := by
    rw [List.mem_singleton.mp hr]
    exact he

theorem leads_ofNumber (m : Machine) (v : Int) :
    m.Leads (m.withHeap (Entry.ofNumber m.heap v).1) [.entry (Entry.ofNumber m.heap v).2] :=
  leads_newEntry (Entry.grows_make _ _) (fun hm => Entry.closed_ofNumber hm.closed v)
    (Entry.hasEntry_make _ _)

theorem leads_ofBytes (m : Machine) (data : Bytes) :
    m.Leads (m.withHeap (Entry.ofBytes m.heap data).1) [.entry (Entry.ofBytes m.heap data).2] :=
  leads_newEntry (Entry.grows_ofBytes _ _) (fun hm => Entry.closed_ofBytes hm.closed data)
    (Entry.hasEntry_ofBytes _ _)

theorem leads_ofBuffer {b : BufferId} (hb : m.Sound → m.heap.Holds b) :
    m.Leads (m.withHeap (Entry.ofBuffer m.heap b).1) [.entry (Entry.ofBuffer m.heap b).2] :=
  leads_newEntry (Entry.grows_make _ _) (fun hm => Entry.closed_ofBuffer hm.closed (hb hm))
    (Entry.hasEntry_make _ _)

theorem result_known_eq_ok {α : Type} {found : Option α} {a : α} :
    (known found).result = .ok a ↔ found = some a := by
  cases found <;> simp [known]

end Machine

namespace Term

open Machine

theorem newNumberEntry_leads {m n : Machine} {v w : Value}
    (h : (newNumberEntry m v).result = .ok (n, w)) : m.Leads n w.references := by
  unfold newNumberEntry at h
  split at h
  · rename_i i hi
    cases h
    exact leads_ofNumber m i
  · cases h

mutual

theorem eval_leads (m n : Machine) (v : Value) :
    (t : Term) → (eval m t).result = .ok (n, v) → m.Leads n v.references
  | malformed _, h => by cases h
  | nothing, h => by cases h; exact leads_nil m
  | flag _, h => by cases h; exact leads_nil m
  | integer _, h => by cases h; exact leads_nil m
  | text _, h => by cases h; exact leads_nil m
  | bytes _, h => by cases h; exact leads_nil m
  | memory _, h => by cases h; exact leads_nil m
  | real x, h => by
    cases h
    exact ⟨⟨.refl _, rfl, rfl, rfl, rfl⟩, fun hm => hm.closed, fun _ r hr => by cases hr⟩
  | byteArray data, h => by
    cases h
    exact leads_newBuffer m data
  | list items, h => by
    obtain ⟨⟨k, vs⟩, hvs, hk⟩ := Attempt.result_bind_eq_ok.mp h
    cases hk
    exact evalAll_leads m n vs items hvs
  | scriptNumber value, h => by
    obtain ⟨⟨k, w⟩, hw, hk⟩ := Attempt.result_bind_eq_ok.mp h
    obtain ⟨number, _, hn⟩ := Attempt.result_bind_eq_ok.mp hk
    cases hn
    exact (eval_leads m n w value hw).mono fun r hr => by cases hr
  | numberEntry value, h => by
    obtain ⟨⟨k, w⟩, hw, hk⟩ := Attempt.result_bind_eq_ok.mp h
    exact ((eval_leads m k w value hw).trans (newNumberEntry_leads hk)).mono fun r hr =>
      List.mem_append_right _ hr
  | bytesEntry contents, h => by
    obtain ⟨⟨k, w⟩, hw, hk⟩ := Attempt.result_bind_eq_ok.mp h
    obtain ⟨data, _, hn⟩ := Attempt.result_bind_eq_ok.mp hk
    cases hn
    exact ((eval_leads m k w contents hw).trans (leads_ofBytes k data)).mono fun r hr =>
      List.mem_append_right _ hr
  | peek offset name, h => by
    obtain ⟨id, _, hid⟩ := Attempt.result_bind_eq_ok.mp h
    obtain ⟨⟨k, w⟩, hw, hk⟩ := Attempt.result_bind_eq_ok.mp hid
    obtain ⟨e, he, hn⟩ := Attempt.result_bind_eq_ok.mp hk
    cases hn
    have htop : n.Leads n [.entry e] := leads_self fun r hr => by
      rw [List.mem_singleton.mp hr]
      exact .slot (Stack.mem_of_top he)
    exact ((eval_leads m n w offset hw).trans htop).mono fun r hr => List.mem_append_right _ hr
  | register name, h => by
    obtain ⟨w, hw, hk⟩ := Attempt.result_bind_eq_ok.mp h
    cases hk
    exact leads_self fun r hr => .held (result_known_eq_ok.mp hw) hr
  | bufferOf entry, h => by
    obtain ⟨⟨k, w⟩, hw, hk⟩ := Attempt.result_bind_eq_ok.mp h
    obtain ⟨b, hb, hn⟩ := Attempt.result_bind_eq_ok.mp hk
    cases hn
    obtain ⟨e, rfl, he⟩ := Value.asBuffer_eq_ok.mp (Attempt.result_ofGiven_eq_ok.mp hb)
    have hentry := eval_leads m n (.entry e) entry hw
    refine ⟨hentry.widens, hentry.closed, fun hm r hr => ?_⟩
    rw [List.mem_singleton.mp hr]
    exact hentry.closed hm e b he
  | stack name, h => by
    obtain ⟨id, hid, hk⟩ := Attempt.result_bind_eq_ok.mp h
    cases hk
    exact leads_self fun r hr => by
      rw [List.mem_singleton.mp hr]
      exact .named (result_known_eq_ok.mp hid)

theorem evalAll_leads (m n : Machine) (vs : List Value) :
    (ts : List Term) → (evalAll m ts).result = .ok (n, vs) → m.Leads n (Value.allReferences vs)
  | [], h => by
    cases h
    exact leads_nil m
  | t :: rest, h => by
    obtain ⟨⟨k, w⟩, hw, hk⟩ := Attempt.result_bind_eq_ok.mp h
    obtain ⟨⟨l, ws⟩, hws, hn⟩ := Attempt.result_bind_eq_ok.mp hk
    cases hn
    exact (eval_leads m k w t hw).trans (evalAll_leads k n ws rest hws)

end

end Term

theorem Value.position_integer (σ : Store) (i : Int) : (integer i).position σ = .ofInt i := by
  simp [position, shown?, display?, index?, Position.ofInt]

def StackOp.references : StackOp → List Reference
  | .push (.ok e) => [.entry e]
  | _ => []

namespace StackCall

open Machine

theorem withArgument_leads {m n : Machine} {t : Term} {op : Machine → Value → StackOp} {o : StackOp}
    (h : (withArgument m t op).result = .ok (n, o)) :
    ∃ v, (t.eval m).result = .ok (n, v) ∧ o = op n v ∧ m.Leads n v.references := by
  obtain ⟨⟨k, v⟩, hv, hk⟩ := Attempt.result_bind_eq_ok.mp h
  cases hk
  exact ⟨v, hv, rfl, Term.eval_leads m n v t hv⟩

theorem resolve_at_integer (m : Machine) (i : Int) (op : Position → StackOp) :
    atPosition m (.integer i) op = .done (m, op (.ofInt i)) := by
  rw [← Value.position_integer m.store]
  rfl

theorem references_push {h : Heap} {v : Value} {r : Reference}
    (hr : r ∈ (StackOp.push (v.entry? h)).references) : r ∈ v.references := by
  cases v <;> simp_all [Value.entry?, StackOp.references, Value.references]

theorem resolve_leads {m n : Machine} {op : StackOp} (call : StackCall)
    (h : (call.resolve m).result = .ok (n, op)) : m.Leads n op.references := by
  cases call with
  | push entry =>
    obtain ⟨v, _, rfl, hl⟩ := withArgument_leads h
    exact hl.mono fun r hr => references_push hr
  | top | topBytes | topNumber | bytesAt | needAtLeast | pushNumber | pushBytes | popN
  | removeAt =>
    obtain ⟨v, _, rfl, hl⟩ := withArgument_leads h
    exact hl.mono fun r hr => by cases hr
  | height | isEmpty | hasEntries | last | pop | popBytes | popNumber | commit | display | json
  | table =>
    cases h
    exact leads_nil m

end StackCall

namespace EditCall

open Machine

theorem withArgument_leads {m n : Machine} {t : Term} {edit : Machine → Value → Edit} {x : Edit}
    (h : (withArgument m t edit).result = .ok (n, x)) : m.Leads n [] := by
  obtain ⟨⟨k, v⟩, hv, hk⟩ := Attempt.result_bind_eq_ok.mp h
  cases hk
  exact (Term.eval_leads m n v t hv).mono fun r hr => by cases hr

theorem resolve_leads {m n : Machine} {edit : Edit} (call : EditCall)
    (h : (call.resolve m).result = .ok (n, edit)) : m.Leads n [] := by
  cases call with
  | append | pop | extend | assign => exact withArgument_leads h
  | set | insert | delete =>
    obtain ⟨⟨k, v⟩, hv, hk⟩ := Attempt.result_bind_eq_ok.mp h
    exact ((Term.eval_leads m k v _ hv).trans (withArgument_leads hk)).mono fun r hr => by cases hr
  | clear =>
    cases h
    exact leads_nil m

end EditCall

end ScriptStack
