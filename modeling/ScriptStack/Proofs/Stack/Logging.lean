import ScriptStack.Proofs.Fault
import ScriptStack.Proofs.Stack.Sequence

/-! What operations log: one record for a violation of their contract, made where it is noticed, and
nothing for any other fault or for a success. -/
namespace ScriptStack

namespace Fault

def records (fault : Fault) : List Log.Record :=
  match fault with
  | .offsetNotNegative _ => [⟨Stack.logger, .error, fault.text?.getD ""⟩]
  | .indexOutOfRange _ _ => [⟨Stack.logger, .error, fault.text?.getD ""⟩]
  | .numberTooWide v => [⟨Content.logger, .error, (Content.tooWideNumberText? v).getD ""⟩]
  | .itemTooWide data => [⟨Content.logger, .error, Content.tooWideBytesText data.length⟩]
  | _ => []

def isPlacement : Fault → Bool
  | .offsetNotNegative _ => true
  | .indexOutOfRange _ _ => true
  | _ => false

variable {fault : Fault}

theorem records_of_contract (h : fault.family? = some .contract) :
    ∃ logger text, fault.records = [⟨logger, .error, text⟩] := by
  cases fault <;> simp [family?] at h
  all_goals exact ⟨_, _, rfl⟩

theorem records_of_not_contract (h : fault.family? ≠ some .contract) : fault.records = [] := by
  cases fault <;> simp [family?] at h
  all_goals rfl

/-- Whether the log is what a fault leaves, and the fault is one that could be put into words. -/
structure Recorded (fault : Fault) (log : List Log.Record) : Prop where
  log : log = fault.records
  written : fault.isPlacement = true → fault.text?.isSome = true

theorem recorded_of_not_contract (h : fault.family? ≠ some .contract) : fault.Recorded [] where
  log := (records_of_not_contract h).symm
  written hplace := by
    cases fault with
    | offsetNotNegative | indexOutOfRange => exact absurd rfl h
    | _ => cases hplace

end Fault

namespace Attempt

variable {α β : Type} {x : Attempt α}

/-- An attempt logs what its fault says, and nothing if it succeeds. -/
structure Accounts (x : Attempt α) : Prop where
  ok : ∀ a, x.result = .ok a → x.log = []
  error : ∀ fault, x.result = .error fault → fault.Recorded x.log

theorem log_bind_of_ok {f : α → Attempt β} {a : α} (hx : x.result = .ok a) :
    (x.bind f).log = x.log ++ (f a).log := by
  simp only [bind, hx]

theorem log_bind_of_error {f : α → Attempt β} {fault : Fault} (hx : x.result = .error fault) :
    (x.bind f).log = x.log := by
  simp only [bind, hx]

theorem accounts_done (a : α) : (done a).Accounts := ⟨fun _ _ => rfl, nofun⟩

theorem accounts_ofExcept {given : Except Fault α} (h : ¬ Family.contract.Stops given) :
    (ofExcept given).Accounts := by
  cases given with
  | ok a => exact accounts_done a
  | error fault =>
    refine ⟨nofun, fun other hother => ?_⟩
    cases hother
    exact Fault.recorded_of_not_contract (mt Family.stops_error.mpr h)

theorem accounts_fail {fault : Fault} (h : fault.family? ≠ some .contract) :
    (fail fault : Attempt α).Accounts :=
  accounts_ofExcept (mt Family.stops_error.mp h : ¬ Family.contract.Stops (.error fault))

theorem accounts_misuse (cause : Misuse) : (fail (.misuse cause) : Attempt α).Accounts := by
  refine accounts_fail fun h => ?_
  cases h

theorem accounts_refuse {logger : String} {message : Option String} {fault : Fault}
    (hsome : fault.text?.isSome = message.isSome)
    (h : ∀ text, message = some text → fault.records = [⟨logger, .error, text⟩]) :
    (refuse logger message fault : Attempt α).Accounts := by
  cases message with
  | none => exact accounts_misuse _
  | some text =>
    refine ⟨nofun, fun other hother => ?_⟩
    have hraised : fault.raised = other := Except.error.inj hother
    rw [Fault.raised_of_isSome hsome] at hraised
    rw [← hraised]
    exact ⟨(h text rfl).symm, fun _ => hsome⟩

theorem accounts_raise {fault : Fault} (h : fault.family? ≠ some .contract) :
    (raise fault : Attempt α).Accounts :=
  accounts_fail (Fault.family?_raised_ne h)

theorem accounts_ofText (text : Option String) : (ofText text).Accounts := by
  cases text with
  | none => exact accounts_misuse _
  | some shown => exact accounts_done _

theorem accounts_ofGiven (given : Except Misuse α) : (ofGiven given).Accounts := by
  cases given with
  | ok a => exact accounts_done a
  | error cause => exact accounts_misuse cause

theorem Accounts.error_bind {f : α → Attempt β} (hx : x.Accounts)
    (hf : ∀ a fault, (f a).result = .error fault → fault.Recorded (f a).log) :
    ∀ fault, (x.bind f).result = .error fault → fault.Recorded (x.bind f).log := by
  intro fault hfault
  obtain hfirst | ⟨a, ha, hsecond⟩ := result_bind_eq_error.mp hfault
  · rw [log_bind_of_error hfirst]
    exact hx.error fault hfirst
  · rw [log_bind_of_ok ha, hx.ok a ha]
    exact hf a fault hsecond

theorem Accounts.bind {f : α → Attempt β} (hx : x.Accounts) (hf : ∀ a, (f a).Accounts) :
    (x.bind f).Accounts := by
  refine ⟨fun b hb => ?_, hx.error_bind fun a => (hf a).error⟩
  obtain ⟨a, ha, hb⟩ := result_bind_eq_ok.mp hb
  rw [log_bind_of_ok ha, hx.ok a ha, (hf a).ok b hb]
  rfl

theorem Accounts.map (hx : x.Accounts) (f : α → β) : (x.map f).Accounts := by
  refine ⟨fun b hb => ?_, fun other hother => ?_⟩
  · rw [result_map] at hb
    cases hr : x.result with
    | ok a => exact hx.ok a hr
    | error fault =>
      rw [hr] at hb
      cases hb
  · rw [result_map] at hother
    cases hr : x.result with
    | ok a =>
      rw [hr] at hother
      cases hother
    | error fault =>
      rw [hr] at hother
      cases hother
      exact hx.error _ hr

end Attempt

open Attempt

theorem Number.not_contract_read (data : Bytes) (limit : Quantity) (minimal : Bool) :
    ¬ Family.contract.Stops (read data limit minimal) := by
  cases hlong : limit.below data.length with
  | true =>
    rw [read_of_below hlong, Family.stops_error]
    exact Fault.family?_raised_ne (by simp [Fault.family?])
  | false =>
    rw [read_of_fits hlong]
    split
    · simp [Family.stops_error, Fault.family?]
    · exact Family.not_stops_ok

theorem Content.not_contract_toNumber (c : Content) (minimal : Bool) :
    ¬ Family.contract.Stops (c.toNumber minimal) := by
  cases c with
  | number v =>
    rw [toNumber]
    split
    · rw [Family.stops_error]
      exact Fault.family?_raised_ne (by simp [Fault.family?])
    · exact Family.not_stops_ok
  | bytes data => exact Number.not_contract_read _ _ _

theorem Entry.accounts_toNumber (h : Heap) (minimal : Bool) (e : Entry) :
    (ofExcept (e.toNumber h minimal)).Accounts :=
  accounts_ofExcept ((e.content h).not_contract_toNumber minimal)

theorem Content.accounts_commit (c : Content) : c.commit.Accounts := by
  cases c with
  | number v =>
    rw [commit]
    split
    · refine accounts_refuse ?_ fun text htext => ?_
      · rw [Fault.text?, tooWideNumberText?, Option.isSome_map, Option.isSome_map]
      · rw [Fault.records, htext]
        rfl
    · exact accounts_done _
  | bytes data =>
    rw [commit]
    split
    · exact accounts_refuse rfl fun text htext => by cases htext; rfl
    · exact accounts_done _

namespace Stack

variable (h : Heap) (s : Stack)

theorem accounts_placement {α : Type} {fault : Fault} (h : fault.isPlacement = true) :
    (refuse fault : Attempt α).Accounts := by
  refine Attempt.accounts_refuse rfl fun text htext => ?_
  have hrecords : fault.records = [⟨logger, .error, fault.text?.getD ""⟩] := by
    cases fault with
    | offsetNotNegative | indexOutOfRange => rfl
    | _ => cases h
  rw [hrecords, htext]
  rfl

theorem accounts_top (offset : Position) : (s.top offset).Accounts := by
  unfold top
  split
  · exact accounts_placement rfl
  · split
    · exact accounts_placement rfl
    · split
      · exact accounts_done _
      · exact accounts_raise nofun

theorem accounts_entryAt (index : Position) : (s.entryAt index).Accounts := by
  unfold entryAt
  split
  · exact accounts_done _
  · exact accounts_placement rfl

theorem accounts_depthOf (index : Position) : (s.depthOf index).Accounts := by
  unfold depthOf
  split
  · exact accounts_done _
  · exact accounts_placement rfl

theorem accounts_needAtLeast (n : Quantity) : (s.needAtLeast n).Accounts := by
  unfold needAtLeast
  split
  · exact accounts_raise nofun
  · exact accounts_done _

theorem accounts_removal (n : Quantity) : (s.removal n).Accounts := by
  refine (s.accounts_needAtLeast n).bind fun _ => ?_
  split
  · exact accounts_ofGiven _
  · exact accounts_done _

theorem accounts_commitEntries (slots : List Entry) : (commitEntries h slots).Accounts := by
  induction slots with
  | nil => exact accounts_done _
  | cons e rest ih =>
    exact (Content.accounts_commit _).bind fun _ => ih.bind fun _ => accounts_done _

theorem log_seed {items : List (Except Misuse Bytes)} {s : Stack}
    (hs : (seed h items).2.result = .ok s) :
    (seed h items).2.log = [⟨logger, .debug, seededText items.length⟩] := by
  have hfrom := seed_eq_ok.mp hs
  have hslots := (slots_of_seedFrom hfrom).2
  have hheight : s.height = items.length := by
    rw [← length_slots, hslots]
    simp [empty, slots, Heap.newEntries]
  simp only [seed, hfrom, ← hheight]
  rfl

theorem error_seed (items : List (Except Misuse Bytes)) (fault : Fault)
    (hfault : (seed h items).2.result = .error fault) : fault.Recorded (seed h items).2.log :=
  (accounts_ofGiven _).error_bind (fun _ _ hnoted => by cases hnoted) fault hfault

end Stack

namespace Outcome

variable {α : Type} {h : Heap} {s : Stack}

theorem accounts_read {x : Attempt α} (hx : x.Accounts) (answer : α → Answer) :
    (read h s x answer).attempt.Accounts :=
  hx.bind fun _ => accounts_done _

theorem accounts_after {check : Attempt α} {act : α → Outcome} (hcheck : check.Accounts)
    (hact : ∀ a, (act a).attempt.Accounts) : (after h s check act).attempt.Accounts := by
  have hattempt : (after h s check act).attempt = check.bind fun a => (act a).attempt := by
    rw [after, Attempt.bind]
    cases check.result <;> rfl
  rw [hattempt]
  exact hcheck.bind hact

end Outcome

namespace StackOp

variable (h : Heap) (s : Stack)

theorem accounts_consume {α : Type} {read : Entry → Except Fault α} (answer : α → Answer)
    (hread : ∀ e, ¬ Family.contract.Stops (read e)) :
    (consume h s read answer).attempt.Accounts := by
  unfold consume
  split
  · exact accounts_fail nofun
  · exact Outcome.accounts_read (accounts_ofExcept (hread _)) answer

/-- No operation notices a violation of its contract twice, and none notices one that is none. -/
theorem accounts_run (op : StackOp) : (op.run h s).attempt.Accounts := by
  cases op with
  | height | isEmpty | hasEntries | table => exact Outcome.accounts_read (accounts_done _) _
  | display | json => exact Outcome.accounts_read (accounts_ofText _) _
  | top | topBytes | last => exact Outcome.accounts_read (s.accounts_top _) _
  | topNumber offset minimal =>
    exact Outcome.accounts_read ((s.accounts_top offset).bind fun e =>
      e.accounts_toNumber h minimal) _
  | bytesAt index => exact Outcome.accounts_read (s.accounts_entryAt index) _
  | needAtLeast n =>
    exact Outcome.accounts_read ((accounts_ofGiven n).bind s.accounts_needAtLeast) _
  | push given | pushNumber given =>
    cases given with
    | ok _ => exact accounts_done _
    | error kind => exact accounts_fail nofun
  | pushBytes data =>
    cases data with
    | ok data => exact accounts_done _
    | error cause => exact accounts_misuse cause
  | pop =>
    rw [run, popTop]
    split <;> exact accounts_done _
  | popN n =>
    exact Outcome.accounts_after ((accounts_ofGiven n).bind s.accounts_removal) fun _ =>
      accounts_done _
  | popBytes => exact accounts_consume h s _ fun _ => Family.not_stops_ok
  | popNumber minimal =>
    exact accounts_consume h s _ fun e => (e.content h).not_contract_toNumber minimal
  | removeAt index =>
    exact Outcome.accounts_after (s.accounts_depthOf index) fun _ => accounts_done _
  | commit =>
    exact Outcome.accounts_after (Stack.accounts_commitEntries h s.slots) fun _ => accounts_done _

end StackOp

end ScriptStack
