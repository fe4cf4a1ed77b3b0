import ScriptStack.Proofs.Fault
import ScriptStack.Proofs.Value.Comparison

/-! Sets of values with script numbers among them: a script number is looked up where every equal number
is, but not where the bytes are that encode it. -/
namespace ScriptStack.Value

/-- Bytes that are not empty. The empty ones are looked up where zero is. -/
def IsEncoded (x : Value) : Prop := ∃ data, data ≠ [] ∧ x = bytes data

variable {σ : Store} {a : ScriptNumber} {x v : Value} {n : Int} {k : Key} {data : Bytes}
  {rows kept : List (Key × Value)} {items : List Value}

theorem same_number (σ : Store) (a : ScriptNumber) (x : Value) :
    same σ (number a) x = relate σ .eq (number a) x := by
  rw [relate_number]
  cases x <;> simp [same, samePlain]

theorem same_before_number (σ : Store) (x : Value) (a : ScriptNumber) :
    same σ x (number a) = relate σ .eq x (number a) := by
  cases x <;> simp [same, samePlain, relate, Relation.converse]

theorem same_number_iff : same σ (number a) x = .ok true ↔ x.Worth σ.heap a.value := by
  rw [same_number, relate_eq_number_iff]

theorem same_before_number_iff : same σ x (number a) = .ok true ↔ x.Worth σ.heap a.value := by
  have hmirrored : relate σ .eq x (number a) = relate σ .eq (number a) x := by
    rw [relate_before_number, relate_number, Relation.converse]
  rw [same_before_number, hmirrored, relate_eq_number_iff]

theorem key_of_worth {h : Heap} (hx : x.Worth h n) (hk : x.key h = .ok k) :
    (k = .worth n ∧ ¬ x.IsEncoded) ∨ ∃ data, data ≠ [] ∧ x = bytes data ∧ k = .octets data := by
  have hnumber : ∀ y : Value, (∀ data, y ≠ bytes data) → y.key h = .ok (.worth n) →
      y.key h = .ok k → k = .worth n ∧ ¬ y.IsEncoded := by
    intro y hy hworth hkey
    rw [hworth] at hkey
    exact ⟨(Except.ok.inj hkey).symm, fun ⟨data, _, hdata⟩ => hy data hdata⟩
  cases hx with
  | number m => exact .inl (hnumber _ nofun rfl hk)
  | integer v => exact .inl (hnumber _ nofun rfl hk)
  | flag b => exact .inl (hnumber _ nofun rfl hk)
  | @encoded _ data hdata hsize =>
    cases x with
    | bytes given =>
      cases hdata
      cases data with
      | nil =>
        cases hk
        refine .inl ⟨rfl, fun ⟨other, hne, hother⟩ => hne ?_⟩
        cases hother
        rfl
      | cons b rest =>
        cases hk
        exact .inr ⟨b :: rest, nofun, rfl, rfl⟩
    | byteArray b => cases hk
    | _ => cases hdata

theorem same_ne_of_isKept (h : isKept σ k v rows = .ok false) {row : Key × Value} (hrow : row ∈ rows)
    (hplace : row.1 = k) : same σ row.2 v ≠ .ok true := by
  induction rows with
  | nil => cases hrow
  | cons first rest ih =>
    rw [isKept] at h
    split at h
    · split at h
      · cases h
      · obtain ⟨equal, hsame, hfound⟩ := exists_of_bind_eq_ok h
        cases equal with
        | true => cases hfound
        | false =>
          obtain rfl | hlater := List.mem_cons.mp hrow
          · rw [hsame]
            nofun
          · exact ih hfound hlater
    · rename_i hother
      obtain rfl | hlater := List.mem_cons.mp hrow
      · exact absurd hplace hother
      · exact ih h hlater

theorem keptValues_cons (h : keptValues σ rows (v :: items) = .ok kept) :
    ∃ k, v.key σ.heap = .ok k ∧
      (isKept σ k v rows = .ok true ∧ keptValues σ rows items = .ok kept ∨
        isKept σ k v rows = .ok false ∧ keptValues σ (rows ++ [(k, v)]) items = .ok kept) := by
  rw [keptValues] at h
  obtain ⟨k, hk, h⟩ := exists_of_bind_eq_ok h
  obtain ⟨found, hfound, h⟩ := exists_of_bind_eq_ok h
  refine ⟨k, Misuse.lift_eq_ok.mp hk, ?_⟩
  cases found with
  | true => exact .inl ⟨hfound, h⟩
  | false => exact .inr ⟨hfound, h⟩

/-- What a set keeps: each value where it is looked up, and no two equal ones in one place. -/
structure Distinct (σ : Store) (rows : List (Key × Value)) : Prop where
  place : ∀ row ∈ rows, row.2.key σ.heap = .ok row.1
  unequal : rows.Pairwise fun p q => p.1 = q.1 → same σ p.2 q.2 ≠ .ok true

theorem Distinct.join (hrows : Distinct σ rows) (hk : v.key σ.heap = .ok k)
    (hnew : isKept σ k v rows = .ok false) : Distinct σ (rows ++ [(k, v)]) where
  place row hrow := by
    obtain hold | hlast := List.mem_append.mp hrow
    · exact hrows.place row hold
    · rw [List.mem_singleton.mp hlast]
      exact hk
  unequal := by
    refine List.pairwise_append.mpr ⟨hrows.unequal, List.pairwise_singleton _ _, ?_⟩
    intro p hp q hq hplace
    rw [List.mem_singleton.mp hq] at hplace ⊢
    exact same_ne_of_isKept hnew hp hplace

theorem Distinct.keptValues (hrows : Distinct σ rows) (h : keptValues σ rows items = .ok kept) :
    Distinct σ kept ∧ ∀ row ∈ kept, row ∈ rows ∨ row.2 ∈ items := by
  induction items generalizing rows with
  | nil =>
    cases h
    exact ⟨hrows, fun row hrow => .inl hrow⟩
  | cons v rest ih =>
    obtain ⟨k, hk, ⟨_, hrest⟩ | ⟨hnew, hrest⟩⟩ := keptValues_cons h
    · obtain ⟨hkept, hmem⟩ := ih hrows hrest
      exact ⟨hkept, fun row hrow => (hmem row hrow).imp_right (List.mem_cons_of_mem v)⟩
    · obtain ⟨hkept, hmem⟩ := ih (hrows.join hk hnew) hrest
      refine ⟨hkept, fun row hrow => ?_⟩
      obtain hjoined | hlater := hmem row hrow
      · obtain hold | hlast := List.mem_append.mp hjoined
        · exact .inl hold
        · rw [List.mem_singleton.mp hlast]
          exact .inr (List.mem_cons_self ..)
      · exact .inr (List.mem_cons_of_mem v hlater)

theorem Distinct.encoded_of_same (hrows : Distinct σ rows) :
    rows.Pairwise fun p q => (∃ a, p.2 = number a ∨ q.2 = number a) →
      same σ p.2 q.2 = .ok true → p.2.IsEncoded ∨ q.2.IsEncoded := by
  refine hrows.unequal.imp_of_mem fun {p q} hp hq hunequal hnumber hsame => ?_
  have hpkey := hrows.place p hp
  have hqkey := hrows.place q hq
  obtain ⟨a, ha | ha⟩ := hnumber
  · have hworth : q.2.Worth σ.heap a.value := same_number_iff.mp (ha ▸ hsame)
    obtain ⟨hplace, _⟩ | ⟨data, hdata, hbytes, _⟩ := key_of_worth hworth hqkey
    · rw [ha] at hpkey
      exact absurd hsame (hunequal ((Except.ok.inj hpkey).symm.trans hplace.symm))
    · exact .inr ⟨data, hdata, hbytes⟩
  · have hworth : p.2.Worth σ.heap a.value := same_before_number_iff.mp (ha ▸ hsame)
    obtain ⟨hplace, _⟩ | ⟨data, hdata, hbytes, _⟩ := key_of_worth hworth hpkey
    · rw [ha] at hqkey
      exact absurd hsame (hunequal (hplace.trans (Except.ok.inj hqkey)))
    · exact .inl ⟨data, hdata, hbytes⟩

theorem setSize_of_encoded (hx : x.IsEncoded) :
    setSize σ [number a, x] = .ok 2 ∧ setSize σ [x, number a] = .ok 2 := by
  obtain ⟨data, hdata, rfl⟩ := hx
  obtain ⟨b, rest, rfl⟩ := List.exists_cons_of_ne_nil hdata
  constructor <;>
    simp [setSize, keptValues, isKept, key, Misuse.lift, bind, Except.bind, Except.map]

/-- What is equal to a script number is looked up in its place, but for bytes that are not empty. So a
set keeps a script number beside an equal value only if that is such bytes, and beside such bytes it
does keep it. -/
theorem looked_up_apart_from_encodings (σ : Store) :
    (∀ a x k, x.key σ.heap = .ok k → same σ (number a) x = .ok true →
      ((number a).key σ.heap = .ok k ↔ ¬ x.IsEncoded)) ∧
    (∀ items kept, keptValues σ [] items = .ok kept →
      (∀ row ∈ kept, row.2 ∈ items) ∧
      kept.Pairwise fun p q => (∃ a, p.2 = number a ∨ q.2 = number a) →
        same σ p.2 q.2 = .ok true → p.2.IsEncoded ∨ q.2.IsEncoded) ∧
    ∀ a x, x.IsEncoded → x.Worth σ.heap a.value →
      same σ (number a) x = .ok true ∧ same σ x (number a) = .ok true ∧
      setSize σ [number a, x] = .ok 2 ∧ setSize σ [x, number a] = .ok 2 := by
  refine ⟨fun a x k hk hsame => ?_, fun items kept hkept => ?_, fun a x hx hworth => ?_⟩
  · obtain ⟨rfl, hother⟩ | ⟨data, hdata, rfl, rfl⟩ := key_of_worth (same_number_iff.mp hsame) hk
    · exact ⟨fun _ => hother, fun _ => rfl⟩
    · exact ⟨nofun, fun h => absurd ⟨data, hdata, rfl⟩ h⟩
  · have hnone : Distinct σ [] := ⟨nofun, .nil⟩
    obtain ⟨hdistinct, hmem⟩ := hnone.keptValues hkept
    exact ⟨fun row hrow => (hmem row hrow).resolve_left nofun, hdistinct.encoded_of_same⟩
  · exact ⟨same_number_iff.mpr hworth, same_before_number_iff.mpr hworth, setSize_of_encoded hx⟩

/-- The integer 2 is looked up where the script number is; the padded bytes are equal to it, and kept
beside it. -/
theorem looked_up_apart_from_padded_2 :
    (number (.ofInt 2)).key .empty = .ok (.worth 2) ∧
    same .empty (number (.ofInt 2)) (bytes [2, 0]) = .ok true ∧
    setSize .empty [number (.ofInt 2), bytes [2, 0]] = .ok 2 := by
  obtain ⟨hplace, _, hkept⟩ := looked_up_apart_from_encodings .empty
  have hbytes : (bytes [2, 0]).encoding? .empty = some [2, 0] := rfl
  have hworth : Worth .empty (bytes [2, 0]) 2 := .encoded hbytes (by decide)
  obtain ⟨hsame, _, hsize, _⟩ := hkept (.ofInt 2) (bytes [2, 0]) ⟨[2, 0], nofun, rfl⟩ hworth
  refine ⟨(hplace (.ofInt 2) (integer 2) _ rfl (same_number_iff.mpr (.integer 2))).mpr ?_, hsame, hsize⟩
  rintro ⟨data, _, hdata⟩
  cases hdata

/-- Equal values are not always looked up in one place: 1 is equal to the byte 01, and a set keeps
both. -/
theorem equal_one_looked_up_apart :
    same .empty (number (.ofInt 1)) (bytes [1]) = .ok true ∧
    (∃ k, (bytes [1]).key .empty = .ok k ∧ (number (.ofInt 1)).key .empty ≠ .ok k) ∧
    setSize .empty [number (.ofInt 1), bytes [1]] = .ok 2 := by
  have hbytes : (bytes [1]).encoding? .empty = some [1] := rfl
  refine ⟨same_number_iff.mpr (.encoded hbytes (by decide)), ⟨_, rfl, nofun⟩, ?_⟩
  exact (setSize_of_encoded ⟨[1], nofun, rfl⟩).1

end ScriptStack.Value
