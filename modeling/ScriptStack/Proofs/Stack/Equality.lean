import ScriptStack.Proofs.Stack.Alike
import ScriptStack.Proofs.Stack.Contents

/-! Equal stacks: their slots show the same, whoever shares buffers with whom. Every operation answers
the same on both and leaves them equal, so that no run of operations tells them apart. -/
namespace ScriptStack

namespace Entry

variable {h k : Heap} {e f : Entry}

def Same (h : Heap) (e f : Entry) : Prop := e.same h f = true

theorem same_iff : e.Same h f ↔ e.content h = f.content h := beq_iff_eq

theorem equivalence_same (h : Heap) : Equivalence (Entry.Same h) where
  refl _ := same_iff.mpr rfl
  symm hef := same_iff.mpr (same_iff.mp hef).symm
  trans hef hfg := same_iff.mpr ((same_iff.mp hef).trans (same_iff.mp hfg))

theorem Same.toBytes (hef : e.Same h f) : f.toBytes h = e.toBytes h := by
  rw [Entry.toBytes, Entry.toBytes, same_iff.mp hef]

theorem Same.toNumber (hef : e.Same h f) (minimal : Bool) :
    f.toNumber h minimal = e.toNumber h minimal := by
  rw [Entry.toNumber, Entry.toNumber, same_iff.mp hef]

theorem Same.grow (hef : e.Same h f) (hg : h.Grows k) (hc : h.Closed) (he : h.HasEntry e)
    (hf : h.HasEntry f) : e.Same k f := by
  rw [same_iff, content_of_grows hg hc he, content_of_grows hg hc hf]
  exact same_iff.mp hef

end Entry

namespace Stack

variable {h : Heap} {s t : Stack}

theorem same_iff : s.same h t = true ↔ s.contents h = t.contents h := beq_iff_eq

theorem equivalence_same (h : Heap) : Equivalence fun s t : Stack => s.same h t = true where
  refl _ := same_iff.mpr rfl
  symm hst := same_iff.mpr (same_iff.mp hst).symm
  trans hst htu := same_iff.mpr ((same_iff.mp hst).trans (same_iff.mp htu))

/-- Equal stacks are those with equal entries in their slots. -/
theorem same_iff_alike : s.same h t = true ↔ s.Alike (Entry.Same h) t := by
  have hmaps : s.contents h = t.contents h ↔
      s.entries.map (Entry.content h) = t.entries.map (Entry.content h) := by
    simp [contents, slots, List.map_reverse]
  have hsame : Entry.Same h = fun e f => e.content h = f.content h := by
    funext e f
    exact propext Entry.same_iff
  rw [same_iff, hmaps, Alike, hsame, ← List.forall₂_eq_eq_eq, List.forall₂_map_left_iff,
    List.forall₂_map_right_iff]

theorem commitEntries_congr {l m : List Entry}
    (hlm : l.map (Entry.content h) = m.map (Entry.content h)) :
    commitEntries h l = commitEntries h m := by
  induction l generalizing m with
  | nil => simp [List.map_eq_nil_iff.mp hlm.symm]
  | cons e rest ih =>
    cases m with
    | nil => cases hlm
    | cons f other =>
      obtain ⟨hef, hrest⟩ := List.cons.inj hlm
      rw [commitEntries, commitEntries, Entry.commit, Entry.commit, hef, ih hrest]

theorem display_eq (h : Heap) (s : Stack) : s.display h =
    "Stack([" ++ String.intercalate ", " ((s.contents h).map Content.display) ++ "])" := by
  rw [display, contents, List.map_map]
  rfl

theorem whole_of_same (hst : s.same h t = true) : s.commitment h = t.commitment h ∧
    s.display? h = t.display? h ∧ s.json? h = t.json? h ∧ s.table h = t.table h := by
  have hcontents := same_iff.mp hst
  refine ⟨commitEntries_congr hcontents, ?_, ?_, ?_⟩
  · rw [display?, display?, isWritable, isWritable, display_eq, display_eq, hcontents]
  · rw [json?, json?, isWritable, isWritable, json, json, table, table, hcontents]
  · rw [table, table, hcontents]

end Stack

namespace StackOp

variable {h : Heap} {s t : Stack} {op : StackOp}

theorem Quiet.run_same (hop : op.Quiet) (hst : s.Alike (Entry.Same h) t) :
    (op.run h s).Alike (Entry.Same h) (Answer.Alike (Entry.Same h)) (op.run h t) := by
  obtain ⟨hcommit, hdisplay, hjson, htable⟩ := Stack.whole_of_same (Stack.same_iff_alike.mpr hst)
  cases op with
  | topNumber offset minimal =>
    refine alike_read (Q := (· = ·)) hst ((hst.top offset).bind fun e f hef => ?_) ?_
    · rw [hef.toNumber minimal]
      exact .refl _
    · rintro a _ rfl
      rfl
  | popNumber minimal =>
    refine alike_consume (Q := (· = ·)) hst (fun e f hef => ?_) ?_
    · rw [hef.toNumber minimal]
      exact .refl _
    · rintro a _ rfl
      rfl
  | commit =>
    rw [run, run, commitAll, commitAll, hcommit]
    exact alike_after hst fun data => ⟨.nil, .done rfl⟩
  | display =>
    rw [run, run, hdisplay]
    exact alike_read (Q := (· = ·)) hst (.refl _) fun _ _ hab => congrArg Answer.text hab
  | json =>
    rw [run, run, hjson]
    exact alike_read (Q := (· = ·)) hst (.refl _) fun _ _ hab => congrArg Answer.text hab
  | table =>
    rw [run, run, htable]
    exact alike_read (Q := (· = ·)) hst (.refl _) fun _ _ hab => congrArg Answer.table hab
  | push given | pushNumber given | pushBytes given =>
    cases given with
    | ok _ => cases hop
    | error _ => exact alike_run trivial hst fun e f hef => hef.toBytes
  | _ => exact alike_run trivial hst fun e f hef => hef.toBytes

end StackOp

end ScriptStack
