import ScriptStack.Proofs.Heap.Reading
import ScriptStack.Proofs.Stack.Seeding

/-! What the slots of a stack show: after a push, in a heap that has grown, and after seeding. -/
namespace ScriptStack.Stack

variable {h k : Heap} {s : Stack}

theorem contents_push (h : Heap) (s : Stack) (e : Entry) :
    (s.push e).contents h = s.contents h ++ [e.content h] := by
  simp [contents, slots_push]

theorem contents_of_grows (hg : h.Grows k) (hc : h.Closed) (hs : ∀ e ∈ s.entries, h.HasEntry e) :
    s.contents k = s.contents h := by
  refine List.map_congr_left fun e he => ?_
  exact Entry.content_of_grows hg hc (hs e (List.mem_reverse.mp he))

theorem exists_seedFrom (hc : h.Closed) (hs : ∀ e ∈ s.entries, h.HasEntry e) (items : List Bytes) :
    ∃ t, (seedFrom h s (items.map .ok)).2 = .ok t ∧
      t.contents (seedFrom h s (items.map .ok)).1 = s.contents h ++ items.map .bytes := by
  induction items generalizing h s with
  | nil => exact ⟨s, rfl, (List.append_nil _).symm⟩
  | cons data rest ih =>
    have hg := Entry.grows_ofBytes h data
    have hpushed : ∀ e ∈ (s.push (Entry.ofBytes h data).2).entries,
        (Entry.ofBytes h data).1.HasEntry e := by
      intro e he
      obtain rfl | he := List.mem_cons.mp he
      · exact Entry.hasEntry_ofBytes h data
      · exact hg.hasEntry (hs e he)
    obtain ⟨t, hseed, hcontents⟩ := ih (Entry.closed_ofBytes hc data) hpushed
    refine ⟨t, hseed, hcontents.trans ?_⟩
    rw [contents_push, contents_of_grows hg hc hs, Entry.content_ofBytes]
    simp

theorem exists_seed (hc : h.Closed) (items : List Bytes) :
    ∃ s, (seed h (items.map .ok)).2.result = .ok s ∧
      s.contents (seed h (items.map .ok)).1 = items.map .bytes := by
  have hempty : ∀ e ∈ empty.entries, h.HasEntry e := fun e he => absurd he List.not_mem_nil
  obtain ⟨s, hseed, hcontents⟩ := exists_seedFrom hc hempty items
  exact ⟨s, seed_eq_ok.mpr hseed, hcontents⟩

end ScriptStack.Stack
