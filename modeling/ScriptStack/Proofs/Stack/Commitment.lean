import Mathlib.Algebra.Group.Int.Defs
import ScriptStack.Proofs.Bytes.LittleEndian
import ScriptStack.Proofs.Fault
import ScriptStack.Stack.Operation

/-! The commitment of a stack: four bytes for each slot, or the fault of the lowest slot that does
not fit. -/
namespace ScriptStack

namespace Content

/-- Whether a slot fits into four bytes. Numbers are held to no lower bound. -/
def Fits : Content → Prop
  | number v => v ≤ 2 ^ 32 - 1
  | bytes data => data.length ≤ 4

instance : DecidablePred Fits
  | number v => inferInstanceAs (Decidable (v ≤ 2 ^ 32 - 1))
  | bytes data => inferInstanceAs (Decidable (data.length ≤ 4))

/-- Whether these are the four bytes of a slot: the number modulo 2^32, the lowest byte first, or
the bytes and zeros after them. -/
def HasForm (word : Bytes) : Content → Prop
  | number v => word.length = 4 ∧ (word.value : Int) = v % 2 ^ 32
  | bytes data => word = data ++ List.replicate (4 - data.length) 0

def refusal : Content → String
  | number v => "Stack number " ++ Decimal.integerText v ++ " is wider than 32 bits"
  | bytes data => "Stack item " ++ data.hex ++ " is wider than 4 bytes"

/-- Whether this is the fault of a slot that does not fit: a violation of the contract in these words,
or, where they hold a number that cannot be written, a misuse. -/
def Refuses (fault : Fault) (c : Content) : Prop :=
  if c.isWritable then fault.family? = some .contract ∧ fault.text? = some c.refusal
  else fault = .misuse .badValue

def word : Content → Bytes
  | number v => Bytes.word Limits.commitmentWidth (v % 2 ^ 32).toNat
  | bytes data => data.padTo Limits.commitmentWidth

theorem hasForm_word (c : Content) : c.HasForm c.word := by
  cases c with
  | number v =>
    refine ⟨Bytes.length_word _ _, ?_⟩
    have hlow : (v % 2 ^ 32).toNat < 256 ^ Limits.commitmentWidth := by
      rw [Limits.commitmentWidth]
      omega
    rw [word, Bytes.value_word, Nat.mod_eq_of_lt hlow]
    omega
  | bytes data => rfl

theorem length_word {c : Content} (h : c.Fits) : c.word.length = 4 := by
  cases c with
  | number v => exact Bytes.length_word _ _
  | bytes data =>
    have hsize : data.length ≤ 4 := h
    rw [word, Bytes.padTo, List.length_append, List.length_replicate, Limits.commitmentWidth]
    omega

theorem commit_of_fits {c : Content} (h : c.Fits) : c.commit = .done c.word := by
  cases c with
  | number v =>
    have hv : v ≤ 2 ^ 32 - 1 := h
    exact if_neg (by rw [Limits.maxUnsigned]; omega)
  | bytes data => exact if_neg (Nat.not_lt.mpr h)

theorem commit_number_of_wide {v : Int} (hv : ¬ v ≤ 2 ^ 32 - 1) :
    (number v).commit.result = .error (Fault.numberTooWide v).raised := by
  have hwide : Limits.maxUnsigned < v := by
    rw [Limits.maxUnsigned]
    omega
  rw [commit, if_pos hwide, tooWideNumberText?, Fault.raised_numberTooWide, Decimal.text?]
  cases hw : Decimal.isWritable v with
  | true =>
    have hraised := Fault.raised_numberTooWide v
    rw [hw] at hraised
    exact congrArg Except.error hraised
  | false => rfl

theorem commit_of_not_fits {c : Content} (h : ¬ c.Fits) :
    ∃ fault, c.commit.result = .error fault ∧ c.Refuses fault := by
  cases c with
  | number v =>
    refine ⟨_, commit_number_of_wide h, ?_⟩
    rw [Refuses, isWritable, Fault.raised_numberTooWide]
    cases hw : Decimal.isWritable v with
    | true =>
      refine ⟨rfl, ?_⟩
      rw [if_pos rfl, Fault.text?, Decimal.text?_of_isWritable hw]
      rfl
    | false => rfl
  | bytes data =>
    refine ⟨.itemTooWide data, ?_, rfl, ?_⟩
    · have hwide : Limits.commitmentWidth < data.length := Nat.lt_of_not_le h
      rw [commit, if_pos hwide]
      rfl
    · have hwidth : " is wider than " ++ Decimal.natText Limits.commitmentWidth ++ " bytes" =
          " is wider than 4 bytes" := by decide +kernel
      rw [Fault.text?, refusal, ← hwidth, String.append_assoc, String.append_assoc,
        String.append_assoc, String.append_assoc, String.append_assoc]

end Content

section Pieces

variable {α : Type} {f : α → Bytes} {w : Nat} {l : List α}

theorem length_flatMap_of_length (hw : ∀ a ∈ l, (f a).length = w) :
    (l.flatMap f).length = w * l.length := by
  induction l with
  | nil => rfl
  | cons a rest ih =>
    have hrest := ih fun b hb => hw b (List.mem_cons_of_mem a hb)
    rw [List.flatMap_cons, List.length_append, hrest, hw a List.mem_cons_self, List.length_cons,
      Nat.mul_succ, Nat.add_comm]

theorem take_drop_flatMap (hw : ∀ a ∈ l, (f a).length = w) {i : Nat} {a : α} (ha : l[i]? = some a) :
    ((l.flatMap f).drop (w * i)).take w = f a := by
  induction l generalizing i with
  | nil => cases ha
  | cons b rest ih =>
    have hb := hw b List.mem_cons_self
    rw [List.flatMap_cons]
    cases i with
    | zero =>
      cases ha
      rw [Nat.mul_zero, List.drop_zero, ← hb, List.take_left]
    | succ i =>
      have hrest := ih (fun c hc => hw c (List.mem_cons_of_mem b hc)) (by simpa using ha)
      rw [Nat.mul_succ, Nat.add_comm, ← hb, List.drop_length_add_append, hb, hrest]

end Pieces

namespace Stack

variable {h : Heap}

theorem commitEntries_of_fits {entries : List Entry} (hfit : ∀ e ∈ entries, (e.content h).Fits) :
    (commitEntries h entries).result = .ok (entries.flatMap fun e => (e.content h).word) := by
  induction entries with
  | nil => rfl
  | cons e rest ih =>
    have hrest := ih fun f hf => hfit f (List.mem_cons_of_mem e hf)
    have he := Content.commit_of_fits (hfit e List.mem_cons_self)
    rw [commitEntries, Entry.commit, he, Attempt.done_bind]
    exact Attempt.result_bind_eq_ok.mpr ⟨_, hrest, rfl⟩

theorem commitEntries_of_not_fits {below above : List Entry} {e : Entry} {fault : Fault}
    (hbelow : ∀ f ∈ below, (f.content h).Fits) (he : (e.content h).commit.result = .error fault) :
    (commitEntries h (below ++ e :: above)).result = .error fault := by
  induction below with
  | nil => rw [List.nil_append, commitEntries, Attempt.bind, Entry.commit, he]
  | cons f rest ih =>
    have hrest := ih fun g hg => hbelow g (List.mem_cons_of_mem f hg)
    have hf := Content.commit_of_fits (hbelow f List.mem_cons_self)
    rw [List.cons_append, commitEntries, Entry.commit, hf, Attempt.done_bind, Attempt.bind, hrest]

/-- Either all entries fit, or there is a first one that does not. -/
theorem fits_or_first (h : Heap) (entries : List Entry) :
    (∀ e ∈ entries, (e.content h).Fits) ∨ ∃ below e above, entries = below ++ e :: above ∧
      (∀ f ∈ below, (f.content h).Fits) ∧ ¬ (e.content h).Fits := by
  induction entries with
  | nil => exact .inl nofun
  | cons e rest ih =>
    by_cases he : (e.content h).Fits
    · obtain hall | ⟨below, f, above, rfl, hbelow, hf⟩ := ih
      · exact .inl (List.forall_mem_cons.mpr ⟨he, hall⟩)
      · exact .inr ⟨e :: below, f, above, rfl, List.forall_mem_cons.mpr ⟨he, hbelow⟩, hf⟩
    · exact .inr ⟨[], e, rest, rfl, nofun, he⟩

end Stack

namespace StackOp

variable {h : Heap} {s : Stack}

theorem run_commit_ok {data : Bytes} (hdata : (s.commitment h).result = .ok data) :
    commit.run h s = ⟨h, .empty, ⟨(s.commitment h).log ++ [], .ok (.bytes data)⟩⟩ :=
  Outcome.after_ok hdata

theorem run_commit_error {fault : Fault} (hfault : (s.commitment h).result = .error fault) :
    commit.run h s = ⟨h, s, ⟨(s.commitment h).log, .error fault⟩⟩ :=
  Outcome.after_error hfault

end StackOp

end ScriptStack
