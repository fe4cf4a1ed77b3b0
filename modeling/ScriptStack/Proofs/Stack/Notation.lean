import Mathlib.Data.List.Basic
import ScriptStack.Proofs.Stack.Equality
import ScriptStack.Proofs.Text.Json
import ScriptStack.Value.Equality

/-! What stacks are shown as: a dictionary, JSON and text. Each of the three tells stacks apart exactly
where they are unequal. -/
namespace ScriptStack

/-! Texts that are joined by a separator come apart again at it. -/

section Joined

variable {α : Type} {c : α} {sep : List α}

theorem intercalate_cons_eq (c : α) (sep x : List α) (xs : List (List α)) :
    List.intercalate (c :: sep) (x :: xs) = List.intercalate [c] (x :: xs.map (sep ++ ·)) := by
  induction xs generalizing x with
  | nil => rfl
  | cons y ys ih =>
    rw [List.intercalate_cons_cons, ih, List.map_cons, List.intercalate_cons_cons]
    cases ys <;> simp [List.intercalate_cons_cons]

theorem splitOn_intercalate_cons [DecidableEq α] (hsep : c ∉ sep) {x : List α} {xs : List (List α)}
    (h : ∀ y ∈ x :: xs, c ∉ y) :
    (List.intercalate (c :: sep) (x :: xs)).splitOn c = x :: xs.map (sep ++ ·) := by
  rw [intercalate_cons_eq]
  refine List.splitOn_intercalate c (fun y hy => ?_) (List.cons_ne_nil _ _)
  obtain rfl | hy := List.mem_cons.mp hy
  · exact h y List.mem_cons_self
  · obtain ⟨z, hz, rfl⟩ := List.mem_map.mp hy
    exact fun hc => (List.mem_append.mp hc).elim hsep (h z (List.mem_cons_of_mem x hz))

theorem intercalate_cons_ne_nil {sep x : List α} (hx : x ≠ []) (xs : List (List α)) :
    List.intercalate sep (x :: xs) ≠ [] := by
  cases xs with
  | nil => simpa using hx
  | cons y ys => simp [List.intercalate_cons_cons, hx]

/-- Lists of texts are joined alike only if they are the same, if no text is empty or has in it what
the separator begins with. -/
theorem intercalate_inj [DecidableEq α] (hsep : c ∉ sep) {xs ys : List (List α)}
    (hx : ∀ x ∈ xs, x ≠ [] ∧ c ∉ x) (hy : ∀ y ∈ ys, y ≠ [] ∧ c ∉ y) :
    List.intercalate (c :: sep) xs = List.intercalate (c :: sep) ys ↔ xs = ys := by
  refine ⟨fun h => ?_, fun h => by rw [h]⟩
  match xs, ys with
  | [], [] => rfl
  | [], y :: ys => exact absurd h.symm (intercalate_cons_ne_nil (hy y List.mem_cons_self).1 ys)
  | x :: xs, [] => exact absurd h (intercalate_cons_ne_nil (hx x List.mem_cons_self).1 xs)
  | x :: xs, y :: ys =>
    have hsplit := congrArg (List.splitOn c) h
    rw [splitOn_intercalate_cons hsep fun z hz => (hx z hz).2,
      splitOn_intercalate_cons hsep fun z hz => (hy z hz).2] at hsplit
    obtain ⟨rfl, hrest⟩ := List.cons.inj hsplit
    rw [List.map_injective_iff.mpr (List.append_right_injective sep) hrest]

end Joined

namespace Content

def item : Content → Json.Item
  | number v => .integer v
  | bytes data => .text data.hex

variable {c d : Content}

theorem item_inj : c.item = d.item ↔ c = d := by
  cases c <;> cases d <;> simp [item, Bytes.hex_inj]

theorem plain_item (c : Content) : c.item.Plain := by
  cases c with
  | number v => trivial
  | bytes data =>
    intro d hd
    rw [Bytes.toList_hex] at hd
    exact Bytes.of_mem_hexDigits (P := fun d => Json.isPlain d = true) (by decide) hd

theorem written_item (c : Content) : c.item.written = Stack.jsonValue c := by
  cases c <;> rfl

theorem toList_display (c : Content) : c.display.toList = match c with
    | number v => "NumEntry(".toList ++ (Decimal.integerDigits v ++ [')'])
    | bytes data => "BytesEntry(".toList ++ (data.hexDigits ++ [')']) := by
  cases c <;> simp [display, Decimal.toList_integerText, Bytes.toList_hex]

theorem display_inj : c.display = d.display ↔ c = d := by
  rw [← String.toList_inj, toList_display, toList_display]
  cases c <;> cases d <;> simp [Decimal.integerDigits_inj, Bytes.hexDigits_inj]

theorem display_ne_nil (c : Content) : c.display.toList ≠ [] := by
  rw [toList_display]
  cases c <;> simp

theorem comma_not_mem_display (c : Content) : ',' ∉ c.display.toList := by
  rw [toList_display]
  cases c with
  | number v =>
    have hdigits : ',' ∉ Decimal.integerDigits v := fun h =>
      Decimal.of_mem_integerDigits (P := (· ≠ ',')) (by decide) (by rintro c hc rfl; cases hc) h rfl
    simp [hdigits]
  | bytes data =>
    have hdigits : ',' ∉ data.hexDigits := fun h =>
      Bytes.of_mem_hexDigits (P := (· ≠ ',')) (by decide) h rfl
    simp [hdigits]

end Content

namespace Stack

variable {h k : Heap} {s t : Stack} {key : Nat}

def dictionary (h : Heap) (s : Stack) : List (Nat × Json.Item) :=
  (s.table h).map fun (i, c) => (i, c.item)

theorem dictionary_eq (h : Heap) (s : Stack) :
    s.dictionary h = (s.contents h).zipIdx.map fun (c, i) => (i, c.item) := by
  rw [dictionary, table, List.map_map]
  rfl

theorem keys_dictionary (h : Heap) (s : Stack) :
    (s.dictionary h).map Prod.fst = List.range s.height := by
  calc (s.dictionary h).map Prod.fst
    _ = (s.contents h).zipIdx.map Prod.snd := by
      rw [dictionary_eq, List.map_map]
      rfl
    _ = List.range s.height := by
      rw [List.zipIdx_map_snd, contents, List.length_map, length_slots, List.range_eq_range']

theorem lookup_zipIdx (contents : List Content) (first key : Nat) :
    ((contents.zipIdx first).map fun (c, i) => (i, c.item)).lookup (first + key) =
      contents[key]?.map Content.item := by
  induction contents generalizing first key with
  | nil => rfl
  | cons c rest ih =>
    cases key with
    | zero => simp
    | succ key =>
      have hkey : first + (key + 1) = first + 1 + key := by omega
      have hne : (first + 1 + key == first) = false := by
        rw [beq_eq_false_iff_ne]
        omega
      rw [hkey, List.zipIdx_cons, List.map_cons, List.lookup_cons, hne, List.getElem?_cons_succ]
      exact ih (first + 1) key

theorem lookup_dictionary (h : Heap) (s : Stack) (key : Nat) :
    (s.dictionary h).lookup key = (s.contents h)[key]?.map Content.item := by
  have hlookup := lookup_zipIdx (s.contents h) 0 key
  rwa [Nat.zero_add, ← dictionary_eq] at hlookup

theorem dictionary_eq_iff : (∀ key, (s.dictionary h).lookup key = (t.dictionary k).lookup key) ↔
    s.contents h = t.contents k := by
  simp only [lookup_dictionary]
  refine ⟨fun hkeys => List.ext_getElem? fun key => ?_, fun hst key => by rw [hst]⟩
  exact Option.map_injective (fun c d => Content.item_inj.mp) (hkeys key)

def members (h : Heap) (s : Stack) : List Json.Member :=
  (s.dictionary h).map fun (i, item) => (Decimal.natText i, item)

theorem jsonMember_eq (row : Nat × Content) :
    jsonMember row = Json.member (Decimal.natText row.1, row.2.item) := by
  rw [jsonMember, Json.member, Content.written_item]

theorem json_eq_object (h : Heap) (s : Stack) : s.json h = Json.object (s.members h) := by
  have hmembers : (s.members h).map Json.member = (s.table h).map jsonMember := by
    rw [members, dictionary, List.map_map, List.map_map]
    exact List.map_congr_left fun row _ => (jsonMember_eq row).symm
  unfold json
  cases htable : s.table h with
  | nil => rw [members, dictionary, htable]; rfl
  | cons row rows =>
    rw [htable] at hmembers
    cases hrows : s.members h with
    | nil => rw [hrows] at hmembers; cases hmembers
    | cons first rest =>
      rw [Json.object, ← hrows, hmembers]
      exact List.cons_ne_nil first rest

theorem plain_members {row : Json.Member} (hrow : row ∈ s.members h) : Json.Plain row := by
  rw [members, dictionary, List.map_map] at hrow
  obtain ⟨⟨i, c⟩, _, rfl⟩ := List.mem_map.mp hrow
  refine ⟨fun d hd => ?_, c.plain_item⟩
  have hdigits : d ∈ Decimal.integerDigits i := by rwa [← Decimal.toList_integerText]
  exact Decimal.of_mem_integerDigits (P := fun d => Json.isPlain d = true) (by decide)
    (fun d hd => Json.isPlain_of_isDigit hd) hdigits

theorem read?_json (h : Heap) (s : Stack) : Json.read? (s.json h) = some (s.members h) := by
  rw [json_eq_object]
  exact Json.read?_object fun row => plain_members

theorem items_members (h : Heap) (s : Stack) :
    (s.members h).map Prod.snd = (s.contents h).map Content.item := by
  calc (s.members h).map Prod.snd
    _ = (s.contents h).zipIdx.map (Content.item ∘ Prod.fst) := by
      rw [members, dictionary_eq, List.map_map, List.map_map]
      rfl
    _ = (s.contents h).map Content.item := by rw [← List.map_map, List.zipIdx_map_fst]

theorem members_eq_iff : s.members h = t.members k ↔ s.contents h = t.contents k := by
  refine ⟨fun hst => ?_, fun hst => by rw [members, members, dictionary_eq, dictionary_eq, hst]⟩
  have hitems := congrArg (List.map Prod.snd) hst
  rw [items_members, items_members] at hitems
  exact List.map_injective_iff.mpr (fun c d => Content.item_inj.mp) hitems

theorem json_eq_iff : s.json h = t.json k ↔ s.contents h = t.contents k := by
  rw [← members_eq_iff]
  refine ⟨fun hst => ?_, fun hst => by rw [json_eq_object, json_eq_object, hst]⟩
  have hread := read?_json h s
  rw [hst, read?_json] at hread
  exact (Option.some.inj hread).symm

theorem toList_display (h : Heap) (s : Stack) : (s.display h).toList = "Stack([".toList ++
    (List.intercalate [',', ' '] ((s.contents h).map fun c => c.display.toList) ++ [']', ')']) := by
  rw [display_eq]
  simp [String.toList_intercalate, Function.comp_def]

theorem display_eq_iff : s.display h = t.display k ↔ s.contents h = t.contents k := by
  have hslots : ∀ (contents : List Content), ∀ x ∈ contents.map fun c => c.display.toList,
      x ≠ [] ∧ ',' ∉ x := by
    intro contents x hx
    obtain ⟨c, _, rfl⟩ := List.mem_map.mp hx
    exact ⟨c.display_ne_nil, c.comma_not_mem_display⟩
  have hdisplay : Function.Injective fun c : Content => c.display.toList :=
    fun c d hcd => Content.display_inj.mp (String.toList_inj.mp hcd)
  rw [← String.toList_inj, toList_display, toList_display, List.append_cancel_left_eq,
    List.append_cancel_right_eq, intercalate_inj (by decide) (hslots _) (hslots _)]
  exact (List.map_injective_iff.mpr hdisplay).eq_iff

/-- Digits of bytes are in quotes, also where they would read as the digits of a number. -/
theorem jsonValue_number_ne_bytes (v : Int) (data : Bytes) :
    jsonValue (.number v) ≠ jsonValue (.bytes data) := by
  intro hshown
  obtain ⟨c, rest, hv, hc, _⟩ := Decimal.integerDigits_eq_cons v
  have hnumber : (jsonValue (.number v)).toList = c :: rest := by
    rw [jsonValue, Decimal.toList_integerText, hv]
  have hbytes : (jsonValue (.bytes data)).toList = '"' :: (data.hexDigits ++ ['"']) := by
    simp [jsonValue, Bytes.toList_hex]
  rw [hshown, hbytes] at hnumber
  obtain ⟨rfl, _⟩ := List.cons.inj hnumber
  obtain hc | hc := hc <;> cases hc

/-- Two stacks are equal exactly where their dictionaries agree, where their JSON texts are the same,
and where the texts that show them are the same. Bytes and numbers are shown apart in all three, and
the JSON text reads back as the dictionary, its keys being the places from the bottom up. -/
theorem notations_identify (σ : Store) (i j : StackId) :
    let equal := Value.same σ (.stack i) (.stack j) = .ok true
    let s := σ.stack i
    let t := σ.stack j
    (equal ↔ ∀ key, (s.dictionary σ.heap).lookup key = (t.dictionary σ.heap).lookup key) ∧
    (equal ↔ s.json σ.heap = t.json σ.heap) ∧
    (equal ↔ s.display σ.heap = t.display σ.heap) ∧
    (∀ v data, Content.item (.number v) ≠ Content.item (.bytes data) ∧
      jsonValue (.number v) ≠ jsonValue (.bytes data) ∧
      Content.display (.number v) ≠ Content.display (.bytes data)) ∧
    (s.dictionary σ.heap).map Prod.fst = List.range s.height ∧
    Json.read? (s.json σ.heap) =
      some ((s.dictionary σ.heap).map fun (key, item) => (Decimal.natText key, item)) := by
  intro equal s t
  have hequal : equal ↔ s.contents σ.heap = t.contents σ.heap :=
    (Value.same_stack σ i j).trans same_iff
  refine ⟨hequal.trans dictionary_eq_iff.symm, hequal.trans json_eq_iff.symm,
    hequal.trans display_eq_iff.symm, fun v data => ⟨nofun, jsonValue_number_ne_bytes v data, ?_⟩,
    keys_dictionary _ _, read?_json _ _⟩
  exact fun hshown => nomatch Content.display_inj.mp hshown

end Stack

end ScriptStack
