import ScriptStack.Proofs.Heap.Growth
import ScriptStack.Stack.Basic

/-! Seeding a stack: every item gets an entry and a buffer of its own, also where one item is given
several times. -/
namespace ScriptStack.Stack

/-- What seeding adds to a heap: the new entries, each with a buffer of its own, and no others. -/
structure Seeds (h k : Heap) (new : List Entry) : Prop where
  grows : h.Grows k
  closed : k.Closed
  nodup : new.Nodup
  fresh : ∀ e ∈ new, ¬ h.HasEntry e ∧ h.Fresh k e
  only : ∀ e, k.HasEntry e → h.HasEntry e ∨ e ∈ new

theorem Seeds.cons {h k : Heap} {new : List Entry} {data : Bytes} (hc : h.Closed)
    (hs : Seeds (Entry.ofBytes h data).1 k new) : Seeds h k (new ++ [(Entry.ofBytes h data).2]) where
  grows := (Entry.grows_ofBytes h data).trans hs.grows
  closed := hs.closed
  nodup := by
    refine List.nodup_append.mpr ⟨hs.nodup, List.pairwise_singleton _ _, fun e he f hf heq => ?_⟩
    rw [heq, List.mem_singleton.mp hf] at he
    exact (hs.fresh _ he).1 (Entry.hasEntry_ofBytes h data)
  fresh e he := by
    obtain he | he := List.mem_append.mp he
    · obtain ⟨hnew, hfresh⟩ := hs.fresh e he
      have hp := (Entry.grows_ofBytes h data).toPersists
      exact ⟨fun hh => hnew (hp.hasEntry hh), hfresh.since hp⟩
    · rw [List.mem_singleton.mp he]
      refine ⟨Heap.not_hasEntry_nextEntry _, ?_⟩
      refine (Heap.fresh_ofBytes hc data).persists (Entry.closed_ofBytes hc data)
        hs.grows.toPersists fun f c hf hb => ?_
      obtain ⟨_, b, hop, hheld, _⟩ := hs.fresh f
        ((hs.only f (Heap.hasEntry_of_operand hb)).resolve_left hf)
      rw [hop] at hb
      cases hb
      exact hheld
  only e he := by
    obtain hmade | hnew := hs.only e he
    · obtain hold | hlast := Heap.hasEntry_addEntry.mp hmade
      · exact .inl hold
      · exact .inr (List.mem_append_right _ (List.mem_singleton.mpr hlast))
    · exact .inr (List.mem_append_left _ hnew)

theorem seed_eq_ok {h : Heap} {s : Stack} {items : List (Except Misuse Bytes)} :
    (seed h items).2.result = .ok s ↔ (seedFrom h empty items).2 = .ok s := by
  constructor
  · intro hs
    obtain ⟨t, hfrom, hnote⟩ := Attempt.result_bind_eq_ok.mp hs
    cases hnote
    exact Attempt.result_ofGiven_eq_ok.mp hfrom
  · intro hs
    exact Attempt.result_bind_eq_ok.mpr ⟨s, Attempt.result_ofGiven_eq_ok.mpr hs, rfl⟩

theorem grows_seedFrom (h : Heap) (s : Stack) (items : List (Except Misuse Bytes)) :
    h.Grows (seedFrom h s items).1 := by
  induction items generalizing h s with
  | nil => exact .refl h
  | cons item rest ih =>
    cases item with
    | error cause => exact .refl h
    | ok data => exact (Entry.grows_ofBytes h data).trans (ih _ _)

theorem seedFrom_seeds {h : Heap} {s t : Stack} (items : List (Except Misuse Bytes))
    (hc : h.Closed) (hs : (seedFrom h s items).2 = .ok t) :
    ∃ new, t.entries = new ++ s.entries ∧ new.length = items.length ∧
      Seeds h (seedFrom h s items).1 new := by
  induction items generalizing h s with
  | nil =>
    cases hs
    refine ⟨[], rfl, rfl, .refl _, hc, List.nodup_nil, fun e he => ?_, fun e he => .inl he⟩
    cases he
  | cons item rest ih =>
    cases item with
    | error cause => cases hs
    | ok data =>
      obtain ⟨new, hentries, hlength, hseeds⟩ := ih (Entry.closed_ofBytes hc data) hs
      refine ⟨new ++ [(Entry.ofBytes h data).2], ?_, ?_, hseeds.cons hc⟩
      · rw [hentries, List.append_assoc]
        rfl
      · rw [List.length_append, List.length_singleton, List.length_cons, hlength]

theorem seed_seeds {h : Heap} {s : Stack} {items : List (Except Misuse Bytes)} (hc : h.Closed)
    (hs : (seed h items).2.result = .ok s) :
    s.entries.length = items.length ∧ Seeds h (seed h items).1 s.entries := by
  obtain ⟨new, hentries, hlength, hseeds⟩ := seedFrom_seeds items hc (seed_eq_ok.mp hs)
  rw [hentries, empty, List.append_nil]
  exact ⟨hlength, hseeds⟩

theorem exists_seedFrom_of_isOk {h : Heap} {s : Stack} {items : List (Except Misuse Bytes)}
    (hall : ∀ item ∈ items, item.isOk) : ∃ t, (seedFrom h s items).2 = .ok t := by
  induction items generalizing h s with
  | nil => exact ⟨_, rfl⟩
  | cons item rest ih =>
    obtain ⟨hitem, hrest⟩ := List.forall_mem_cons.mp hall
    cases item with
    | error cause => cases hitem
    | ok data => exact ih hrest

end ScriptStack.Stack
