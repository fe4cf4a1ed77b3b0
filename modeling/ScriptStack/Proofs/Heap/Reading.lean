import ScriptStack.Proofs.Heap.Growth

/-! What entries show after a heap has grown, and after a buffer was written. -/
namespace ScriptStack.Entry

variable {h k : Heap} {e f : Entry} {b : BufferId}

theorem content_of_number {v : Int} (he : h.operand e = .number v) : e.content h = .number v := by
  rw [content, he]
  rfl

theorem content_of_buffer (he : h.operand e = .buffer b) : e.content h = .bytes (h.read b) := by
  rw [content, he]
  rfl

theorem toBytes_of_buffer (he : h.operand e = .buffer b) : e.toBytes h = h.read b := by
  rw [toBytes, content_of_buffer he]
  rfl

theorem content_ofNumber (h : Heap) (v : Int) :
    (ofNumber h v).2.content (ofNumber h v).1 = .number v :=
  content_of_number ((Heap.operand_addEntry _ _ _).trans (if_pos rfl))

theorem operand_ofBytes (h : Heap) (data : Bytes) :
    (ofBytes h data).1.operand (ofBytes h data).2 = .buffer h.next :=
  (Heap.operand_addEntry _ _ _).trans (if_pos rfl)

theorem content_ofBytes (h : Heap) (data : Bytes) :
    (ofBytes h data).2.content (ofBytes h data).1 = .bytes data := by
  have hread : (ofBytes h data).1.read h.next = data := Heap.read_alloc_next h data
  rw [content_of_buffer (operand_ofBytes h data), hread]

theorem content_of_grows (hg : h.Grows k) (hc : h.Closed) (he : h.HasEntry e) :
    e.content k = e.content h := by
  cases ho : h.operand e with
  | number v => rw [content_of_number ho, content_of_number ((hg.operand he).trans ho)]
  | buffer b =>
    rw [content_of_buffer ho, content_of_buffer ((hg.operand he).trans ho), hg.reads b (hc e b ho)]

theorem toBytes_of_grows (hg : h.Grows k) (hc : h.Closed) (he : h.HasEntry e) :
    e.toBytes k = e.toBytes h := by
  rw [toBytes, toBytes, content_of_grows hg hc he]

theorem content_write_of_shares (hb : h.Holds b) (he : h.operand e = .buffer b)
    (hs : f.Shares h e) (data : Bytes) : f.content (h.write b data) = .bytes data := by
  obtain ⟨c, hf, he'⟩ := hs
  have hcb : c = b := by
    rw [he] at he'
    cases he'
    rfl
  have hf' : (h.write b data).operand f = .buffer b := by
    rw [← hcb]
    exact hf
  rw [content_of_buffer hf', Heap.read_write_self hb]

theorem content_write_of_not_shares (he : h.operand e = .buffer b) (hs : ¬ f.Shares h e)
    (data : Bytes) : f.content (h.write b data) = f.content h := by
  cases ho : h.operand f with
  | number v =>
    have ho' : (h.write b data).operand f = .number v := ho
    rw [content_of_number ho', content_of_number ho]
  | buffer c =>
    have hne : c ≠ b := by
      intro hcb
      rw [hcb] at ho
      exact hs ⟨b, ho, he⟩
    have ho' : (h.write b data).operand f = .buffer c := ho
    rw [content_of_buffer ho', content_of_buffer ho, Heap.read_write_of_ne h hne]

end ScriptStack.Entry
