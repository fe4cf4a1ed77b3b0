import ScriptStack.Proofs.Program.Sequence
import ScriptStack.Proofs.Stack.Lifo

/-! Last in, first out over the runs of a program: what is below the lowest height that a run comes to
stays, and above it is what was pushed since and not taken off again. -/
namespace ScriptStack

namespace Machine

variable {m : Machine} {id : StackId} {s : Step} {e : Entry}

/-- A step that removes at a place of the stack, or commits it. -/
def Rearranges (m : Machine) (id : StackId) (s : Step) : Prop :=
  (∃ name t, s.instruction = .onStack name (.removeAt t) ∧ m.stackNames.get? name = some id) ∨
    m.Commits id s

def KeepsOrder (m : Machine) (id : StackId) : List Step → Prop
  | [] => True
  | s :: rest => ¬ m.Rearranges id s ∧ (m.step s).1.KeepsOrder id rest

def pushed? (m : Machine) (id : StackId) : Instruction → Option Entry
  | .onStack name call =>
    match m.stackNames.get? name, (call.resolve m).result with
    | some other, .ok (k, op) => if other = id then op.pushed? k.heap else none
    | _, _ => none
  | _ => none

theorem rearranges_of_not_atTop {name : String} {call : StackCall} {k : Machine} {op : StackOp}
    {into : Option String} (hid : m.stackNames.get? name = some id)
    (hcall : (call.resolve m).result = .ok (k, op)) (hop : ¬ op.AtTop) :
    m.Rearranges id ⟨.onStack name call, into⟩ := by
  cases call with
  | removeAt t => exact .inl ⟨name, t, rfl, hid⟩
  | commit => exact .inr (.inl ⟨name, rfl, hid⟩)
  | top | topBytes | topNumber | bytesAt | needAtLeast | push | pushNumber | pushBytes | popN =>
    obtain ⟨v, _, hv, _⟩ := StackCall.withArgument_leads hcall
    rw [hv] at hop
    exact absurd trivial hop
  | height | isEmpty | hasEntries | last | pop | popBytes | popNumber | display | json | table =>
    cases hcall
    exact absurd trivial hop

theorem advance_of_pushed {i : Instruction} (hp : m.pushed? id i = some e)
    (ρ : StackId → List Entry) : m.advance ρ i id = ρ id ++ [e] := by
  cases i with
  | onStack name call =>
    rw [pushed?] at hp
    rw [advance]
    cases hname : m.stackNames.get? name with
    | none =>
      rw [hname] at hp
      cases hp
    | some other =>
      cases hcall : (call.resolve m).result with
      | error fault =>
        rw [hname, hcall] at hp
        cases hp
      | ok y =>
        obtain ⟨k, op⟩ := y
        simp only [hname, hcall] at hp ⊢
        by_cases hother : other = id
        · rw [if_pos hother] at hp
          rw [hother, Function.update_self]
          exact StackOp.onSequence_of_pushed hp _
        · rw [if_neg hother] at hp
          cases hp
  | _ => cases hp

theorem advance_prefix (hlt : id.index < m.store.stackCells.length) (hs : ¬ m.Rearranges id s)
    (hp : m.pushed? id s.instruction = none) (ρ : StackId → List Entry) :
    m.advance ρ s.instruction id <+: ρ id := by
  have hnew : id ≠ m.store.next := by
    intro hid
    rw [hid] at hlt
    exact absurd hlt (Nat.lt_irrefl _)
  obtain ⟨i, into⟩ := s
  cases i with
  | create name =>
    simp only [advance, Function.update_of_ne hnew]
    exact List.prefix_refl _
  | seed name buffers =>
    simp only [advance]
    cases m.seeded? buffers with
    | none => exact List.prefix_refl _
    | some slots =>
      simp only [Option.elim_some, Function.update_of_ne hnew]
      exact List.prefix_refl _
  | onStack name call =>
    simp only [pushed?] at hp
    simp only [advance]
    cases hname : m.stackNames.get? name with
    | none => exact List.prefix_refl _
    | some other =>
      cases hcall : (call.resolve m).result with
      | error fault => exact List.prefix_refl _
      | ok y =>
        obtain ⟨k, op⟩ := y
        simp only [hname, hcall] at hp
        by_cases hother : other = id
        · rw [if_pos hother] at hp
          have hop : op.AtTop := Classical.byContradiction fun hop =>
            hs (rearranges_of_not_atTop (hother ▸ hname) hcall hop)
          simp only [hother, Function.update_self]
          exact StackOp.onSequence_prefix hp hop _
        · simp only [Function.update_of_ne (Ne.symm hother)]
          exact List.prefix_refl _
  | entryCommit t =>
    simp only [advance]
    cases ht : (t.eval m).result with
    | error fault => exact List.prefix_refl _
    | ok y =>
      obtain ⟨k, v⟩ := y
      cases v with
      | stack other =>
        have hother : id ≠ other := by
          intro hid
          exact hs (.inr (.inr ⟨t, k, rfl, hid ▸ ht⟩))
        simp only [Function.update_of_ne hother]
        exact List.prefix_refl _
      | _ => exact List.prefix_refl _
  | _ => exact List.prefix_refl _

def lowest (m : Machine) (id : StackId) : List Step → Nat
  | [] => (m.sequences id).length
  | s :: rest => min (m.sequences id).length ((m.step s).1.lowest id rest)

/-- What a run pushed: the entry, its place counted from the bottom, and the lowest height from then to
the end of the run. -/
structure Push where
  entry : Entry
  place : Nat
  lowest : Nat

/-- It is still there, as the stack was never as low as its place again. -/
def Push.Lasts (p : Push) : Prop := p.place < p.lowest

instance (p : Push) : Decidable p.Lasts := Nat.decLt _ _

def pushes (m : Machine) (id : StackId) : List Step → List Push
  | [] => []
  | s :: rest =>
    let n := (m.step s).1
    match m.pushed? id s.instruction with
    | some e => ⟨e, (m.sequences id).length, n.lowest id rest⟩ :: n.pushes id rest
    | none => n.pushes id rest

/-- The entries that a run pushed and did not take off again, in the order of their pushes. -/
def survivors (m : Machine) (id : StackId) (steps : List Step) : List Entry :=
  ((m.pushes id steps).filter (·.Lasts)).map Push.entry

def taken (m : Machine) (id : StackId) : List Step → List Entry
  | [] => []
  | s :: rest =>
    let n := (m.step s).1
    (m.sequences id).drop (n.sequences id).length ++ n.taken id rest

theorem lowest_le (m : Machine) (id : StackId) (steps : List Step) :
    m.lowest id steps ≤ (m.sequences id).length := by
  cases steps with
  | nil => exact Nat.le_refl _
  | cons s rest => exact Nat.min_le_left _ _

theorem lowest_le_of_prefix {before steps : List Step} (hbefore : before <+: steps) :
    m.lowest id steps ≤ ((m.run before).sequences id).length := by
  induction steps generalizing m before with
  | nil =>
    rw [List.prefix_nil.mp hbefore]
    exact lowest_le m id []
  | cons s rest ih =>
    cases before with
    | nil => exact lowest_le m id _
    | cons first others =>
      obtain ⟨hfirst, hothers⟩ := List.cons_prefix_cons.mp hbefore
      rw [hfirst, run]
      exact Nat.le_trans (Nat.min_le_right _ _) (ih hothers)

theorem exists_lowest (m : Machine) (id : StackId) (steps : List Step) :
    ∃ before, before <+: steps ∧ ((m.run before).sequences id).length = m.lowest id steps := by
  induction steps generalizing m with
  | nil => exact ⟨[], List.prefix_refl _, rfl⟩
  | cons s rest ih =>
    obtain ⟨before, hbefore, hlowest⟩ := ih (m.step s).1
    obtain hstart | hlater := Nat.le_total (m.sequences id).length ((m.step s).1.lowest id rest)
    · exact ⟨[], List.nil_prefix, (Nat.min_eq_left hstart).symm⟩
    · refine ⟨s :: before, List.cons_prefix_cons.mpr ⟨rfl, hbefore⟩, ?_⟩
      rw [run, lowest, Nat.min_eq_right hlater, hlowest]

theorem step_lt (hm : m.Sound) (hlt : id.index < m.store.stackCells.length) (s : Step) :
    id.index < (m.step s).1.store.stackCells.length :=
  (step_continues hm s).store.has (r := .stack id) hlt

theorem sequences_step_of_pushed (hm : m.Sound) (hp : m.pushed? id s.instruction = some e) :
    (m.step s).1.sequences id = m.sequences id ++ [e] := by
  rw [sequences_step hm]
  exact advance_of_pushed hp _

theorem sequences_step_prefix (hm : m.Sound) (hlt : id.index < m.store.stackCells.length)
    (hs : ¬ m.Rearranges id s) (hp : m.pushed? id s.instruction = none) :
    (m.step s).1.sequences id <+: m.sequences id := by
  rw [sequences_step hm]
  exact advance_prefix hlt hs hp _

theorem survivors_of_pushed {rest : List Step} (hp : m.pushed? id s.instruction = some e) :
    m.survivors id (s :: rest) =
      if (m.sequences id).length < (m.step s).1.lowest id rest
      then e :: (m.step s).1.survivors id rest else (m.step s).1.survivors id rest := by
  rw [survivors, pushes, hp]
  by_cases hlasts : (m.sequences id).length < (m.step s).1.lowest id rest
  · simp [hlasts, Push.Lasts, survivors]
  · simp [hlasts, Push.Lasts, survivors]

theorem survivors_of_none {rest : List Step} (hp : m.pushed? id s.instruction = none) :
    m.survivors id (s :: rest) = (m.step s).1.survivors id rest := by
  rw [survivors, pushes, hp]
  rfl

/-- A step keeps the slots up to the lowest height from then on, and its own push if that lasts. -/
theorem take_lowest_step (hm : m.Sound) (hlt : id.index < m.store.stackCells.length)
    (hs : ¬ m.Rearranges id s) (rest : List Step) :
    ((m.step s).1.sequences id).take ((m.step s).1.lowest id rest) ++
        (m.step s).1.survivors id rest =
      (m.sequences id).take (m.lowest id (s :: rest)) ++ m.survivors id (s :: rest) := by
  have hle := lowest_le (m.step s).1 id rest
  rw [lowest]
  cases hp : m.pushed? id s.instruction with
  | some e =>
    rw [sequences_step_of_pushed hm hp] at hle ⊢
    rw [List.length_append, List.length_singleton] at hle
    rw [survivors_of_pushed hp]
    -- the lowest height from then on is at most one more than that before the push
    by_cases hlasts : (m.sequences id).length < (m.step s).1.lowest id rest
    · have hall : (m.sequences id ++ [e]).length ≤ (m.step s).1.lowest id rest := by
        rw [List.length_append, List.length_singleton]
        omega
      rw [if_pos hlasts, Nat.min_eq_left (Nat.le_of_lt hlasts), List.take_length,
        List.take_of_length_le hall, List.append_assoc]
      rfl
    · have hlow : (m.step s).1.lowest id rest ≤ (m.sequences id).length := Nat.not_lt.mp hlasts
      rw [if_neg hlasts, Nat.min_eq_right hlow, List.take_append_of_le_length hlow]
  | none =>
    have hprefix := sequences_step_prefix hm hlt hs hp
    have hlow := Nat.le_trans hle hprefix.length_le
    rw [survivors_of_none hp, Nat.min_eq_right hlow, List.prefix_iff_eq_take.mp hprefix,
      List.take_take, Nat.min_eq_left hle]

theorem sequences_run_lifo (hm : m.Sound) (hlt : id.index < m.store.stackCells.length)
    {steps : List Step} (hsteps : m.KeepsOrder id steps) :
    (m.run steps).sequences id =
      (m.sequences id).take (m.lowest id steps) ++ m.survivors id steps := by
  induction steps generalizing m with
  | nil => simp [run, lowest, survivors, pushes]
  | cons s rest ih =>
    -- the invariant is the lowest height from here to the end, so the first step comes off in front
    obtain ⟨hs, hrest⟩ := hsteps
    rw [run, ih (step_continues hm s).sound (step_lt hm hlt s) hrest]
    exact take_lowest_step hm hlt hs rest

theorem perm_append_insert {α : Type} {base later last gone : List α} (dropped : List α)
    (h : (base ++ later).Perm (last ++ gone)) :
    (base ++ dropped ++ later).Perm (last ++ (dropped ++ gone)) := by
  have hout : (base ++ dropped ++ later).Perm (dropped ++ (base ++ later)) := by
    rw [← List.append_assoc]
    exact List.perm_append_comm.append_right later
  have hback : (dropped ++ (last ++ gone)).Perm (last ++ (dropped ++ gone)) := by
    rw [← List.append_assoc, ← List.append_assoc]
    exact List.perm_append_comm.append_right gone
  exact (hout.trans (h.append_left dropped)).trans hback

theorem perm_run_lifo (hm : m.Sound) (hlt : id.index < m.store.stackCells.length)
    {steps : List Step} (hsteps : m.KeepsOrder id steps) :
    (m.sequences id ++ (m.pushes id steps).map Push.entry).Perm
      ((m.run steps).sequences id ++ m.taken id steps) := by
  induction steps generalizing m with
  | nil => exact List.Perm.refl _
  | cons s rest ih =>
    obtain ⟨hs, hrest⟩ := hsteps
    have hlater := ih (step_continues hm s).sound (step_lt hm hlt s) hrest
    rw [run, taken, pushes]
    cases hp : m.pushed? id s.instruction with
    | some e =>
      have hslots := sequences_step_of_pushed hm hp
      have hnone : (m.sequences id).drop ((m.step s).1.sequences id).length = [] := by
        rw [hslots]
        simp
      rw [hslots, List.append_assoc] at hlater
      rw [hnone]
      exact hlater
    | none =>
      have hprefix := sequences_step_prefix hm hlt hs hp
      have hsplit := List.take_append_drop ((m.step s).1.sequences id).length (m.sequences id)
      rw [← List.prefix_iff_eq_take.mp hprefix] at hsplit
      have hperm := perm_append_insert
        ((m.sequences id).drop ((m.step s).1.sequences id).length) hlater
      rw [hsplit] at hperm
      exact hperm

/-- The last in is the first out. Over a run that neither removes at a place of a stack nor commits it,
whatever else it does and whatever of it fails, the slots below the lowest height stay, and those above
are what was pushed and not taken off again, in the order of the pushes. Nothing is lost or doubled, and
a run that ends as high as it started and is never lower leaves the stack as it was. -/
theorem run_lifo (program steps : List Step) (id : StackId)
    (hid : (start.run program).store.Has (.stack id))
    (hsteps : (start.run program).KeepsOrder id steps) :
    let m := start.run program
    let low := m.lowest id steps
    let first := m.sequences id
    let last := (m.run steps).sequences id
    (∀ before, before <+: steps → low ≤ ((m.run before).sequences id).length) ∧
    (∃ before, before <+: steps ∧ ((m.run before).sequences id).length = low) ∧
    last.take low = first.take low ∧
    last.drop low = m.survivors id steps ∧
    (first ++ (m.pushes id steps).map Push.entry).Perm (last ++ m.taken id steps) ∧
    ((∀ before, before <+: steps → first.length ≤ ((m.run before).sequences id).length) →
      last.length = first.length → last = first) := by
  intro m low first last
  have hm : m.Sound := sound_run program
  have hlast : last = first.take low ++ m.survivors id steps := sequences_run_lifo hm hid hsteps
  have hlow : low ≤ first.length := lowest_le m id steps
  have hlength : (first.take low).length = low := List.length_take_of_le hlow
  refine ⟨fun before => lowest_le_of_prefix, exists_lowest m id steps, ?_, ?_,
    perm_run_lifo hm hid hsteps, fun habove hheight => ?_⟩
  · rw [hlast, List.take_left' hlength]
  · rw [hlast, List.drop_left' hlength]
  · obtain ⟨before, hbefore, hlowest⟩ := exists_lowest m id steps
    have hfirst : first.length ≤ low := Nat.le_trans (habove before hbefore) (Nat.le_of_eq hlowest)
    have hfull : low = first.length := Nat.le_antisymm hlow hfirst
    have hsame : first.take low = first := List.take_of_length_le (Nat.le_of_eq hfull.symm)
    have hnone : (m.survivors id steps).length = 0 := by
      rw [hlast, hsame, List.length_append] at hheight
      omega
    rw [hlast, hsame, List.length_eq_zero_iff.mp hnone, List.append_nil]

/-- The top entry is taken off and pushed twice, more than there is is refused, five bytes are popped as
a number and lost, and two entries go at once: the two lower entries stay, and the last push is there. -/
theorem run_lifo_of_three :
    let m := start.run [⟨.onStack "s" (.pushNumber (.integer 1)), none⟩,
      ⟨.onStack "s" (.pushNumber (.integer 2)), none⟩,
      ⟨.onStack "s" (.pushNumber (.integer 3)), none⟩]
    let again : Step := ⟨.onStack "s" (.push (.register "x")), none⟩
    let steps : List Step := [⟨.onStack "s" .pop, some "x"⟩, again, again,
      ⟨.onStack "s" (.popN (.integer 9)), none⟩,
      ⟨.onStack "s" (.pushBytes (.bytes [1, 2, 3, 4, 5])), none⟩,
      ⟨.onStack "s" (.popNumber false), none⟩, ⟨.onStack "s" (.popN (.integer 2)), none⟩, again]
    m.KeepsOrder ⟨0⟩ steps ∧ m.lowest ⟨0⟩ steps = 2 ∧
      ((m.run steps).sequences ⟨0⟩).take 2 = [⟨0⟩, ⟨1⟩] ∧
      ((m.run steps).sequences ⟨0⟩).drop 2 = [⟨2⟩] ∧
      m.taken ⟨0⟩ steps = [⟨2⟩, ⟨3⟩, ⟨2⟩, ⟨2⟩] := by
  intro m again steps
  have hsteps : m.KeepsOrder ⟨0⟩ steps := by
    simp [steps, again, KeepsOrder, Rearranges, Commits]
  have hlow : m.lowest ⟨0⟩ steps = 2 := by decide +kernel
  have hmade : m.store.Has (.stack ⟨0⟩) := Nat.zero_lt_one
  obtain ⟨_, _, hbelow, habove, _⟩ := run_lifo _ steps ⟨0⟩ hmade hsteps
  rw [hlow] at hbelow habove
  exact ⟨hsteps, hlow, hbelow, habove.trans (by decide +kernel), by decide +kernel⟩

end Machine

end ScriptStack
