import ScriptStack.Entry

/-! What lasts when a heap grows, and what a new entry shares. -/
namespace ScriptStack

theorem Operand.kind_eq_bytesEntry {o : Operand} : o.kind = .bytesEntry ↔ ∃ b, o = .buffer b := by
  cases o <;> simp [Operand.kind]

namespace Heap

/-- Buffers and entries last, and an entry stays made of what it was made of. -/
structure Persists (h h' : Heap) : Prop where
  room : h.cells.length ≤ h'.cells.length
  operands : h.operands <+: h'.operands

/-- Moreover, every buffer that there was keeps its bytes. -/
structure Grows (h h' : Heap) : Prop extends Persists h h' where
  reads : ∀ b, h.Holds b → h'.read b = h.read b

def Closed (h : Heap) : Prop := ∀ e b, h.operand e = .buffer b → h.Holds b

theorem Persists.refl (h : Heap) : h.Persists h := ⟨Nat.le_refl _, List.prefix_refl _⟩

theorem Persists.trans {h k l : Heap} (hk : h.Persists k) (hl : k.Persists l) : h.Persists l :=
  ⟨Nat.le_trans hk.room hl.room, hk.operands.trans hl.operands⟩

theorem Persists.holds {h h' : Heap} (hp : h.Persists h') {b : BufferId} (hb : h.Holds b) :
    h'.Holds b :=
  Nat.lt_of_lt_of_le hb hp.room

theorem Persists.hasEntry {h h' : Heap} (hp : h.Persists h') {e : Entry} (he : h.HasEntry e) :
    h'.HasEntry e :=
  Nat.lt_of_lt_of_le he hp.operands.length_le

theorem Persists.operand {h h' : Heap} (hp : h.Persists h') {e : Entry} (he : h.HasEntry e) :
    h'.operand e = h.operand e := by
  obtain ⟨more, hmore⟩ := hp.operands
  rw [Heap.operand, Heap.operand, ← hmore, List.getElem?_append_left he]

theorem Grows.refl (h : Heap) : h.Grows h := ⟨.refl h, fun _ _ => rfl⟩

theorem Grows.trans {h k l : Heap} (hk : h.Grows k) (hl : k.Grows l) : h.Grows l := by
  refine ⟨hk.toPersists.trans hl.toPersists, fun b hb => ?_⟩
  rw [hl.reads b (hk.holds hb), hk.reads b hb]

theorem Grows.dropNewer {h k : Heap} (hg : h.Grows k) : k.dropNewer h = h := by
  have hcells : k.cells.take h.cells.length = h.cells := by
    refine List.ext_getElem? fun i => ?_
    by_cases hi : i < h.cells.length
    · have hroom : i < k.cells.length := Nat.lt_of_lt_of_le hi hg.room
      have hread := hg.reads ⟨i⟩ hi
      rw [read, read, List.getElem?_eq_getElem hi, List.getElem?_eq_getElem hroom] at hread
      rw [List.getElem?_take_of_lt hi, List.getElem?_eq_getElem hi, List.getElem?_eq_getElem hroom]
      exact congrArg some hread
    · rw [List.getElem?_eq_none (Nat.not_lt.mp hi), List.getElem?_eq_none]
      rw [List.length_take]
      omega
  rw [Heap.dropNewer, hcells, ← List.prefix_iff_eq_take.mp hg.operands]

theorem grows_alloc (h : Heap) (data : Bytes) : h.Grows (h.alloc data) := by
  refine ⟨⟨?_, List.prefix_refl _⟩, fun b hb => read_alloc_of_holds hb data⟩
  rw [alloc, List.length_append]
  exact Nat.le_add_right _ _

theorem grows_addEntry (h : Heap) (o : Operand) : h.Grows (h.addEntry o) :=
  ⟨⟨Nat.le_refl _, List.prefix_append _ _⟩, fun _ _ => rfl⟩

theorem persists_write (h : Heap) (b : BufferId) (data : Bytes) : h.Persists (h.write b data) := by
  have hroom : (h.write b data).cells.length = h.cells.length := List.length_set
  exact ⟨Nat.le_of_eq hroom.symm, List.prefix_refl _⟩

theorem hasEntry_of_operand {h : Heap} {e : Entry} {b : BufferId} (he : h.operand e = .buffer b) :
    h.HasEntry e := by
  refine Nat.lt_of_not_le fun hn => ?_
  rw [operand, List.getElem?_eq_none hn] at he
  cases he

theorem operand_addEntry (h : Heap) (o : Operand) (e : Entry) :
    (h.addEntry o).operand e = if e = h.nextEntry then o else h.operand e := by
  by_cases he : e = h.nextEntry
  · rw [if_pos he, he]
    simp [operand, addEntry, nextEntry]
  · rw [if_neg he]
    by_cases hlt : h.HasEntry e
    · exact (h.grows_addEntry o).operand hlt
    · have hne : e.index ≠ h.operands.length := fun hi => he (by cases e; simp_all [nextEntry])
      simp only [HasEntry] at hlt
      rw [operand, operand, addEntry, List.getElem?_eq_none (by simp; omega),
        List.getElem?_eq_none (by omega)]

theorem not_hasEntry_nextEntry (h : Heap) : ¬ h.HasEntry h.nextEntry := Nat.lt_irrefl _

theorem hasEntry_addEntry {h : Heap} {o : Operand} {e : Entry} :
    (h.addEntry o).HasEntry e ↔ h.HasEntry e ∨ e = h.nextEntry := by
  cases e
  simp only [HasEntry, addEntry, nextEntry, List.length_append, List.length_singleton,
    Entry.mk.injEq]
  omega

theorem Closed.alloc {h : Heap} (hc : h.Closed) (data : Bytes) : (h.alloc data).Closed :=
  fun e b he => holds_alloc data (hc e b he)

theorem Closed.write {h : Heap} (hc : h.Closed) (b : BufferId) (data : Bytes) :
    (h.write b data).Closed :=
  fun e c he => (holds_write data).mpr (hc e c he)

theorem Closed.addEntry {h : Heap} (hc : h.Closed) {o : Operand}
    (ho : ∀ b, o = .buffer b → h.Holds b) : (h.addEntry o).Closed := by
  intro e b he
  rw [operand_addEntry] at he
  split at he
  · exact ho b he
  · exact hc e b he

theorem holds_alloc_next (h : Heap) (data : Bytes) : (h.alloc data).Holds h.next := by
  simp [Holds, Heap.alloc, next]

end Heap

namespace Entry

def Shares (h : Heap) (e f : Entry) : Prop := ∃ b, h.operand e = .buffer b ∧ h.operand f = .buffer b

variable {h h' : Heap} {e f g : Entry}

theorem Shares.symm (hs : e.Shares h f) : f.Shares h e := by
  obtain ⟨b, he, hf⟩ := hs
  exact ⟨b, hf, he⟩

theorem Shares.trans (hef : e.Shares h f) (hfg : f.Shares h g) : e.Shares h g := by
  obtain ⟨b, he, hf⟩ := hef
  obtain ⟨c, hf', hg⟩ := hfg
  rw [hf] at hf'
  cases hf'
  exact ⟨b, he, hg⟩

theorem shares_of_persists (hp : h.Persists h') (he : h.HasEntry e) (hf : h.HasEntry f) :
    e.Shares h' f ↔ e.Shares h f := by
  rw [Shares, Shares, hp.operand he, hp.operand hf]

theorem grows_make (h : Heap) (o : Operand) : h.Grows (make h o).1 := h.grows_addEntry o

theorem grows_ofBytes (h : Heap) (data : Bytes) : h.Grows (ofBytes h data).1 :=
  (h.grows_alloc data).trans (grows_make _ _)

theorem closed_ofNumber (hc : h.Closed) (v : Int) : (ofNumber h v).1.Closed :=
  hc.addEntry fun _ hb => by cases hb

theorem closed_ofBuffer (hc : h.Closed) {b : BufferId} (hb : h.Holds b) :
    (ofBuffer h b).1.Closed :=
  hc.addEntry fun _ ho => by cases ho; exact hb

theorem closed_ofBytes (hc : h.Closed) (data : Bytes) : (ofBytes h data).1.Closed :=
  closed_ofBuffer (hc.alloc data) (h.holds_alloc_next data)

theorem hasEntry_make (h : Heap) (o : Operand) : (make h o).1.HasEntry (make h o).2 :=
  Heap.hasEntry_addEntry.mpr (.inr rfl)

theorem hasEntry_ofBytes (h : Heap) (data : Bytes) :
    (ofBytes h data).1.HasEntry (ofBytes h data).2 :=
  hasEntry_make _ _

end Entry

namespace Heap

/-- An entry whose buffer is newer than an earlier heap, and which no other entry refers to. -/
def Fresh (h k : Heap) (e : Entry) : Prop :=
  ∃ b, k.operand e = .buffer b ∧ ¬ h.Holds b ∧ ∀ f, k.operand f = .buffer b → f = e

variable {h k l : Heap} {e : Entry}

theorem fresh_ofBytes (hc : h.Closed) (data : Bytes) :
    h.Fresh (Entry.ofBytes h data).1 (Entry.ofBytes h data).2 := by
  have hop := operand_addEntry (h.alloc data) (.buffer h.next)
  refine ⟨h.next, ?_, h.not_holds_next, fun f hf => ?_⟩
  · exact (hop _).trans (if_pos rfl)
  · by_cases hnew : f = (h.alloc data).nextEntry
    · exact hnew
    · have hold : h.operand f = .buffer h.next := ((hop f).trans (if_neg hnew)).symm.trans hf
      exact absurd (hc f h.next hold) h.not_holds_next

theorem Fresh.hasEntry (hf : h.Fresh k e) : k.HasEntry e := by
  obtain ⟨b, he, _⟩ := hf
  exact hasEntry_of_operand he

theorem Fresh.since (hp : h.Persists k) (hf : k.Fresh l e) : h.Fresh l e := by
  obtain ⟨b, he, hb, hsole⟩ := hf
  exact ⟨b, he, fun hh => hb (hp.holds hh), hsole⟩

/-- It stays so for as long as later entries refer to buffers of their own. -/
theorem Fresh.persists (hf : h.Fresh k e) (hc : k.Closed) (hp : k.Persists l)
    (hl : ∀ f c, ¬ k.HasEntry f → l.operand f = .buffer c → ¬ k.Holds c) : h.Fresh l e := by
  obtain ⟨b, he, hb, hsole⟩ := hf
  refine ⟨b, ?_, hb, fun f hf => ?_⟩
  · rw [hp.operand (hasEntry_of_operand he), he]
  · by_cases hk : k.HasEntry f
    · exact hsole f (by rw [← hp.operand hk, hf])
    · exact absurd (hc e b he) (hl f b hk hf)

end Heap

end ScriptStack
