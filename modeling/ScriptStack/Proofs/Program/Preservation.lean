import ScriptStack.Proofs.Program.Success

/-! What an instruction leaves alone: all but the heap for most instructions, and a view for every one
that does not take another view of its name. -/
namespace ScriptStack

def Instruction.leavesTables : Instruction → Bool
  | .create _ => false
  | .seed _ _ => false
  | .onStack _ _ => false
  | .takeView _ _ => false
  | .entryCommit _ => false
  | _ => true

namespace Machine

variable {α β γ : Type} {m : Machine} {f : Machine → γ}

/-- An observation that neither the heap nor the count of real numbers has a part in. -/
def BesideHeap (f : Machine → γ) : Prop :=
  ∀ m n : Machine, n.store.stackCells = m.store.stackCells → n.stackNames = m.stackNames →
    n.views = m.views → n.registers = m.registers → f n = f m

def Preserves (f : Machine → γ) (m : Machine) (x : Attempt (Machine × α)) : Prop :=
  ∀ n a, x.result = .ok (n, a) → f n = f m

theorem besideHeap_cells : BesideHeap fun m => m.store.stackCells := fun _ _ hcells _ _ _ => hcells

theorem besideHeap_views : BesideHeap views := fun _ _ _ _ hviews _ => hviews

theorem besideHeap_view (name : String) : BesideHeap fun m => m.views.get? name :=
  fun _ _ _ _ hviews _ => congrArg (·.get? name) hviews

theorem BesideHeap.widens (hf : BesideHeap f) {n : Machine} (hw : m.Widens n) : f n = f m :=
  hf m n hw.cells hw.names hw.views hw.registers

theorem BesideHeap.withHeap (hf : BesideHeap f) (m : Machine) (h : Heap) : f (m.withHeap h) = f m :=
  hf m (m.withHeap h) rfl rfl rfl rfl

namespace Preserves

theorem done {n : Machine} (h : f n = f m) (a : α) : m.Preserves f (.done (n, a)) := by
  intro k b hk
  cases hk
  exact h

theorem fail (fault : Fault) : m.Preserves f (.fail fault : Attempt (Machine × α)) := by
  intro k b hk
  cases hk

theorem bind {x : Attempt (Machine × α)} {g : Machine × α → Attempt (Machine × β)}
    (hx : m.Preserves f x) (hg : ∀ (n : Machine) a, n.Preserves f (g (n, a))) :
    m.Preserves f (x.bind g) := by
  intro k b hk
  obtain ⟨⟨n, a⟩, hn, hk⟩ := Attempt.result_bind_eq_ok.mp hk
  exact (hg n a k b hk).trans (hx n a hn)

theorem after {x : Attempt α} {g : α → Attempt (Machine × β)} (hg : ∀ a, m.Preserves f (g a)) :
    m.Preserves f (x.bind g) := by
  intro k b hk
  obtain ⟨a, _, hk⟩ := Attempt.result_bind_eq_ok.mp hk
  exact hg a k b hk

theorem settle {x : Attempt (Machine × Value)} (hx : m.Preserves f x) : f (m.settle x).1 = f m := by
  cases hr : x.result with
  | ok y => exact (congrArg f (settle_ok hr).1).trans (hx y.1 y.2 hr)
  | error fault => exact congrArg f (settle_error hr).1

theorem eval (hf : BesideHeap f) (t : Term) : m.Preserves f (t.eval m) :=
  fun n v h => hf.widens (Term.eval_leads m n v t h).widens

theorem newEntry (hf : BesideHeap f) (made : Heap × Entry) : m.Preserves f (Term.newEntry m made) :=
  done (hf.withHeap m made.1) _

theorem withBuffer (hf : BesideHeap f) {t : Term}
    {g : Machine → BufferId → Attempt (Machine × Value)}
    (hg : ∀ (n : Machine) b, n.Preserves f (g n b)) : m.Preserves f (m.withBuffer t g) :=
  (eval hf t).bind fun n _ => after fun b => hg n b

theorem ask (hf : BesideHeap f) {t : Term} {question : Machine → Value → Except Misuse α}
    {answer : α → Value} : m.Preserves f (m.ask t question answer) :=
  (eval hf t).bind fun _ _ => after fun _ => done rfl _

theorem readView (hf : BesideHeap f) {name : String} {query : ViewQuery} :
    m.Preserves f (m.readView name query) := by
  refine after fun view => ?_
  cases query with
  | items | itemsReversed | size => exact done rfl _
  | item index =>
    refine (eval hf index).bind fun n v => after fun i => ?_
    split
    · exact done rfl _
    · exact fail _

theorem editBuffer (hf : BesideHeap f) {t : Term} {call : EditCall} :
    f (m.editBuffer t call).1 = f m := by
  cases hr : (m.editBuffer t call).2.result with
  | error fault => rw [editBuffer_error hr]
  | ok v =>
    obtain ⟨k, e, b, l, edit, effect, he, _, hl, _, hn, _⟩ := editBuffer_eq_ok.mp ⟨rfl, hr⟩
    have hw := (Term.eval_leads m k _ t he).widens.trans (call.resolve_leads hl).widens
    rw [hn, hf.withHeap, hf.widens hw]

end Preserves

theorem preserves_runInstruction (hf : BesideHeap f) {i : Instruction} (hi : i.leavesTables = true) :
    f (m.runInstruction i).1 = f m := by
  cases i with
  | create | seed | onStack | takeView | entryCommit => cases hi
  | readView view query => exact Preserves.settle (.readView hf)
  | evaluate value => exact Preserves.settle (.bind (.eval hf value) fun _ _ => .done rfl _)
  | wrap buffer =>
    refine Preserves.settle (.bind (.eval hf buffer) fun n v => ?_)
    cases v with
    | byteArray b => exact .newEntry hf _
    | _ => exact .fail _
  | share entry => exact Preserves.settle (.withBuffer hf fun _ _ => .newEntry hf _)
  | makeUnique entry => exact Preserves.settle (.withBuffer hf fun _ _ => .newEntry hf _)
  | isShared entry other =>
    exact Preserves.settle (.withBuffer hf fun _ _ => .withBuffer hf fun _ _ => .done rfl _)
  | entryBytes entry => exact Preserves.settle (.ask hf)
  | entryNumber entry minimal =>
    exact Preserves.settle (.bind (.eval hf entry) fun _ _ => .after fun _ => .after fun _ =>
      .done rfl _)
  | entryValue entry => exact Preserves.settle (.ask hf)
  | entryDisplay entry =>
    exact Preserves.settle (.bind (.eval hf entry) fun _ _ => .after fun _ => .done rfl _)
  | equal left right =>
    exact Preserves.settle (.bind (.eval hf left) fun _ _ => .bind (.eval hf right) fun _ _ =>
      .after fun _ => .done rfl _)
  | setSize items =>
    exact Preserves.settle (.bind (.eval hf items) fun _ _ => .after fun _ => .after fun _ =>
      .done rfl _)
  | readBuffer entry => exact Preserves.settle (.withBuffer hf fun _ _ => .done rfl _)
  | edit entry call => exact Preserves.editBuffer hf

theorem views_after {given : Attempt (Machine × α)} {act : Machine → α → Machine × Attempt Value}
    (hgiven : m.Preserves views given) (hact : ∀ k a, (act k a).1.views = k.views) :
    (m.after given act).1.views = m.views := by
  cases hg : given.result with
  | error fault => rw [(after_error hg).1]
  | ok y =>
    obtain ⟨k, a⟩ := y
    cases hx : (act k a).2.result with
    | ok v => rw [(after_ok hg hx).1, hact, hgiven k a hg]
    | error fault => rw [(after_fault hg hx).1, dropNewer, hact, hgiven k a hg]

theorem views_runStackOp (m : Machine) (id : StackId) (call : StackCall) :
    (m.runStackOp id (call.resolve m)).1.views = m.views :=
  views_after (fun _ _ hcall => (call.resolve_leads hcall).widens.views) fun _ _ => rfl

theorem views_seedNamed (m : Machine) (name : String) (items : List Value) :
    (m.seedNamed name items).1.views = m.views := by
  simp only [seedNamed]
  split <;> rfl

theorem views_commitValue (m : Machine) (v : Value) : (m.commitValue v).1.views = m.views := by
  cases v <;> rfl

theorem view_runInstruction (m : Machine) {i : Instruction} {name : String}
    (hi : ∀ stack, i ≠ .takeView stack name) :
    (m.runInstruction i).1.views.get? name = m.views.get? name := by
  have hf := besideHeap_view name
  cases i with
  | create stack => rfl
  | seed stack buffers =>
    have hgiven : m.Preserves views (m.seedItems buffers) :=
      .bind (.eval besideHeap_views buffers) fun _ _ => .after fun _ => .done rfl _
    exact congrArg (·.get? name) (views_after hgiven fun k items => views_seedNamed k stack items)
  | onStack stack call =>
    simp only [runInstruction, runOnStack]
    split
    · rw [views_runStackOp]
    · rfl
  | takeView stack view =>
    have hview : name ≠ view := fun he => hi stack (he ▸ rfl)
    have htaken : m.Preserves (fun m => m.views.get? name) (m.takeView stack view) :=
      .after fun id => .done (Table.get?_set_of_ne _ hview _) _
    exact htaken.settle
  | entryCommit t =>
    exact congrArg (·.get? name) (views_after (.eval besideHeap_views t) views_commitValue)
  | _ => exact preserves_runInstruction hf rfl

theorem view_step (m : Machine) {s : Step} {name : String}
    (hs : ∀ stack, s.instruction ≠ .takeView stack name) :
    (m.step s).1.views.get? name = m.views.get? name := by
  rw [← view_runInstruction m hs]
  obtain hk | ⟨_, _, _, _, hk⟩ := keep_cases (if s.instruction.hasResult then s.into else none)
    (m.runInstruction s.instruction)
  · rw [step, hk]
  · rw [step, hk]
    rfl

theorem view_run (m : Machine) {steps : List Step} {name : String}
    (hsteps : ∀ s ∈ steps, ∀ stack, s.instruction ≠ .takeView stack name) :
    (m.run steps).views.get? name = m.views.get? name := by
  induction steps generalizing m with
  | nil => rfl
  | cons s rest ih =>
    have hrest := ih (m.step s).1 fun t ht => hsteps t (List.mem_cons_of_mem s ht)
    rw [run, hrest, view_step m (hsteps s List.mem_cons_self)]

end Machine

end ScriptStack
