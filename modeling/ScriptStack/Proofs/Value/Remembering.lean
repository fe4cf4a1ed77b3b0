import ScriptStack.Proofs.Fault
import ScriptStack.Proofs.Number.Encodings
import ScriptStack.Proofs.Value.Comparison

/-! What script numbers remember: nothing, or the encoding of their value, wherever they come from and
whatever they have been asked. -/
namespace ScriptStack

namespace Number

variable {data : Bytes} {limit : Quantity} {minimal : Bool} {v : Int}

theorem decode_of_read (h : read data limit minimal = .ok v) : v = decode data := by
  cases hlong : limit.below data.length with
  | true =>
    rw [read_of_below hlong] at h
    cases h
  | false =>
    rw [read_of_fits hlong] at h
    split at h
    · cases h
    · exact (Except.ok.inj h).symm

theorem length_encode_decode_lt (h : isMinimal data = false) :
    (encode (decode data)).length < data.length := by
  have hdata : data ∈ encodings (decode data) data.length := mem_encodings.mpr ⟨rfl, rfl⟩
  obtain hwritten | hlonger := eq_encode_or_longer hdata
  · rw [(isMinimal_iff_eq_encode hdata).mpr hwritten] at h
    cases h
  · exact hlonger

end Number

namespace ScriptNumber

/-- A number is faithful if it remembers nothing but its own encoding. -/
def Faithful (n : ScriptNumber) : Prop := n.cache = none ∨ n.cache = some (Number.encode n.value)

inductive Query where
  | bytes | text | value
  | relation (r : Relation) (x : Comparand)

def ask (n : ScriptNumber) : Query → ScriptNumber
  | .bytes => n.toBytes.2
  | .text => n.toBytes.2
  | .value => n
  | .relation _ _ => n

def asked (n : ScriptNumber) : List Query → ScriptNumber
  | [] => n
  | query :: rest => (n.ask query).asked rest

variable {m n : ScriptNumber} {v : Int} {data : Bytes}

theorem faithful_ofInt (v : Int) : (ofInt v).Faithful := .inl rfl

theorem faithful_remember (data : Bytes) : (remember (Number.decode data) data).Faithful := by
  rw [Faithful, remember]
  cases hm : Number.isMinimal data with
  | true => exact .inr (congrArg some (Number.encode_decode hm).symm)
  | false => exact .inl rfl

theorem Faithful.toBytes (hn : n.Faithful) : n.toBytes =
    (Number.encode n.value, ⟨n.value, some (Number.encode n.value)⟩) := by
  rw [ScriptNumber.toBytes]
  obtain hcache | hcache := hn <;> rw [hcache] <;> rfl

theorem Faithful.ask (hn : n.Faithful) (query : Query) :
    (n.ask query).Faithful ∧ (n.ask query).value = n.value := by
  cases query with
  | bytes | text =>
    rw [ScriptNumber.ask, hn.toBytes]
    exact ⟨.inr rfl, rfl⟩
  | value => exact ⟨hn, rfl⟩
  | relation r x => exact ⟨hn, rfl⟩

theorem Faithful.asked (hn : n.Faithful) (queries : List Query) :
    (n.asked queries).Faithful ∧ (n.asked queries).value = n.value := by
  induction queries generalizing n with
  | nil => exact ⟨hn, rfl⟩
  | cons query rest ih =>
    obtain ⟨hnext, hvalue⟩ := hn.ask query
    obtain ⟨hrest, hsame⟩ := ih hnext
    exact ⟨hrest, hsame.trans hvalue⟩

/-- Where a number comes from: an integer, or a value that is read as an encoding. -/
inductive Made : ScriptNumber → Prop
  | built {v : Value} {n : ScriptNumber} : v.newNumber = .ok n → Made n
  | read {h : Heap} {v limit : Value} {minimal : Bool} {n : ScriptNumber} :
    v.decodeNumber h limit minimal = .ok n → Made n

end ScriptNumber

namespace Value

open ScriptNumber

variable {σ : Store} {h : Heap} {v limit : Value} {q : Quantity} {minimal : Bool} {i : Int}
  {m n : ScriptNumber} {data : Bytes} {items : List Value}

theorem decode_of_readList (hread : readList q minimal items = .ok i)
    (hdata : byteList items = .ok data) : i = Number.decode data := by
  rw [readList, hdata] at hread
  obtain ⟨_, _, hread⟩ := exists_of_bind_eq_ok hread
  obtain ⟨least, _, hread⟩ := exists_of_bind_eq_ok hread
  split at hread
  · cases hread
  · exact (Except.ok.inj hread).symm

theorem decode_of_readNumber (hread : v.readNumber h q minimal = .ok i)
    (hdata : v.replacementBytes h = .ok data) : i = Number.decode data := by
  unfold readNumber at hread
  unfold replacementBytes at hdata
  cases hv : v.octets? h with
  | some octets =>
    rw [hv] at hread hdata
    cases hdata
    exact Number.decode_of_read hread
  | none =>
    rw [hv] at hread hdata
    cases v with
    | list items => exact decode_of_readList hread hdata
    | _ => cases hdata

theorem decodeNumber_eq_ok (hn : v.decodeNumber h limit minimal = .ok n) :
    ∃ data, v.replacementBytes h = .ok data ∧ n = .remember (Number.decode data) data := by
  obtain ⟨i, hi, hn⟩ := exists_of_bind_eq_ok hn
  obtain ⟨data, hdata, hn⟩ := exists_of_bind_eq_ok hn
  obtain ⟨q, _, hread⟩ := exists_of_bind_eq_ok hi
  have hbytes := Misuse.lift_eq_ok.mp hdata
  cases hn
  exact ⟨data, hbytes, by rw [decode_of_readNumber hread hbytes]⟩

theorem decodeNumber_octets (hv : v.octets? h = some data) (hlimit : limit.quantity = .ok q)
    (minimal : Bool) : v.decodeNumber h limit minimal = ScriptNumber.read data q minimal := by
  have hread : v.readNumber h q minimal = Number.read data q minimal := by
    unfold readNumber
    rw [hv]
  have hbytes : v.replacementBytes h = .ok data := by
    unfold replacementBytes
    rw [hv]
  have hnumber : v.decode h limit minimal = Number.read data q minimal := by
    rw [decode, hlimit, ← hread]
    rfl
  rw [decodeNumber, hnumber, hbytes, ScriptNumber.read]
  cases Number.read data q minimal <;> rfl

end Value

namespace ScriptNumber

variable {m n : ScriptNumber} {h : Heap} {v limit : Value} {minimal : Bool}

theorem Made.faithful (hn : n.Made) : n.Faithful := by
  cases hn with
  | @built v _ hn =>
    cases v with
    | integer i =>
      cases hn
      exact faithful_ofInt i
    | _ => cases hn
  | read hn =>
    obtain ⟨data, _, rfl⟩ := Value.decodeNumber_eq_ok hn
    exact faithful_remember data

theorem toBytes_of_decodeNumber (hn : v.decodeNumber h limit minimal = .ok n) :
    ∃ data, v.replacementBytes h = .ok data ∧
      (n.toBytes.1 = data ↔ Number.isMinimal data = true) ∧
      (Number.isMinimal data = false → n.toBytes.1.length < data.length) := by
  obtain ⟨data, hdata, rfl⟩ := Value.decodeNumber_eq_ok hn
  refine ⟨data, hdata, ?_⟩
  rw [(faithful_remember data).toBytes]
  exact ⟨(Number.isMinimal_iff_encode_decode data).symm, Number.length_encode_decode_lt⟩

theorem Faithful.relate_eq_iff (hm : m.Faithful) (hn : n.Faithful) (σ : Store) :
    Value.relate σ .eq (.number m) (.number n) = .ok true ↔ m.toBytes.1 = n.toBytes.1 := by
  rw [Value.relate_number_of_worth (.number n), hm.toBytes, hn.toBytes, Except.ok.injEq]
  refine decide_eq_true_iff.trans ⟨congrArg Number.encode, fun hbytes => ?_⟩
  have hsame := congrArg Number.decode hbytes
  rwa [Number.decode_encode, Number.decode_encode] at hsame

theorem Faithful.read_toBytes (hn : n.Faithful) {i : Int} (hsize : n.toBytes.1.length ≤ i) (h : Heap) :
    ∃ m, Value.decodeNumber (.bytes n.toBytes.1) h (.integer i) true = .ok m ∧
      ∀ σ, Value.relate σ .eq (.number m) (.number n) = .ok true := by
  rw [hn.toBytes] at hsize ⊢
  have hread := Number.read_eq_ok_iff.mpr
    ⟨hsize, fun _ : true = true => Number.isMinimal_encode n.value, Number.decode_encode n.value⟩
  refine ⟨.remember n.value (Number.encode n.value), ?_, fun σ => ?_⟩
  · rw [Value.decodeNumber_octets rfl rfl, ScriptNumber.read, hread]
    rfl
  · exact Value.relate_eq_number_iff.mpr (.number n)

/-- What a script number remembers is its own encoding, wherever it comes from and whatever it is asked.
So it gives back minimal bytes as they were and others shortened, equal numbers have equal bytes, and
each is read back from its bytes. -/
theorem remembers_own_encoding :
    (∀ n : ScriptNumber, n.Made → ∀ queries,
      (n.asked queries).Faithful ∧ (n.asked queries).value = n.value ∧
      (n.asked queries).toBytes.1 = Number.encode n.value) ∧
    (∀ (v limit : Value) h minimal n, v.decodeNumber h limit minimal = .ok n →
      ∃ data, v.replacementBytes h = .ok data ∧
        (n.toBytes.1 = data ↔ Number.isMinimal data = true) ∧
        (Number.isMinimal data = false → n.toBytes.1.length < data.length)) ∧
    (∀ m n : ScriptNumber, m.Made → n.Made → ∀ queries others σ,
      Value.relate σ .eq (.number (m.asked queries)) (.number (n.asked others)) = .ok true ↔
        (m.asked queries).toBytes.1 = (n.asked others).toBytes.1) ∧
    ∀ n : ScriptNumber, n.Made → ∀ queries h (i : Int),
      let kept := n.asked queries
      kept.toBytes.1.length ≤ i →
        ∃ m, Value.decodeNumber (.bytes kept.toBytes.1) h (.integer i) true = .ok m ∧
          ∀ σ, Value.relate σ .eq (.number m) (.number kept) = .ok true := by
  refine ⟨fun n hn queries => ?_, fun v limit h minimal n => toBytes_of_decodeNumber,
    fun m n hm hn queries others σ => ?_, fun n hn queries h i => ?_⟩
  · obtain ⟨hfaithful, hvalue⟩ := hn.faithful.asked queries
    refine ⟨hfaithful, hvalue, ?_⟩
    rw [hfaithful.toBytes, hvalue]
  · exact (hm.faithful.asked queries).1.relate_eq_iff (hn.faithful.asked others).1 σ
  · intro kept hsize
    exact (hn.faithful.asked queries).1.read_toBytes hsize h

/-- Five, read from two bytes and asked for its text, gives one byte, which it is read back from; and it
is equal to five read from that byte. -/
theorem remembers_five :
    let padded := remember 5 [5, 0]
    (padded.asked [.text]).toBytes.1 = [5] ∧
    (Value.relate .empty .eq (.number (padded.asked [.text])) (.number (remember 5 [5])) = .ok true) ∧
    ∃ m, Value.decodeNumber (.bytes [5]) .empty (.integer 1) true = .ok m ∧
      Value.relate .empty .eq (.number m) (.number (padded.asked [.text])) = .ok true := by
  intro padded
  obtain ⟨hkept, _, hequal, hback⟩ := remembers_own_encoding
  have hlonger : Value.decodeNumber (.bytes [5, 0]) .empty (.integer 4) false = .ok padded := rfl
  have hshorter : Value.decodeNumber (.bytes [5]) .empty (.integer 4) true = .ok (remember 5 [5]) := rfl
  have hpadded : padded.Made := .read hlonger
  have hfive : (remember 5 [5]).Made := .read hshorter
  have hbytes : (padded.asked [.text]).toBytes.1 = [5] := by
    rw [(hkept padded hpadded [.text]).2.2]
    decide +kernel
  refine ⟨hbytes, (hequal padded _ hpadded hfive [.text] [] .empty).mpr hbytes, ?_⟩
  obtain ⟨m, hm, hsame⟩ := hback padded hpadded [.text] .empty 1 (by rw [hbytes]; decide)
  rw [hbytes] at hm
  exact ⟨m, hm, hsame .empty⟩

end ScriptNumber

end ScriptStack
