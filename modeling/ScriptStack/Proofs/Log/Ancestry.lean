import ScriptStack.Proofs.Log.Tree

/-! The loggers above a logger. Its parent is the nearest part of its name that has a logger, and what
is above the parent is above it too. -/
namespace ScriptStack.Log

/-! ### Parts of names -/

def IsPart (part name : String) : Prop := ∃ rest, name.toList = part.toList ++ '.' :: rest

variable {part name other : String}

theorem IsPart.trans (h : IsPart part name) (hname : IsPart name other) : IsPart part other := by
  obtain ⟨rest, hrest⟩ := h
  obtain ⟨more, hmore⟩ := hname
  exact ⟨rest ++ '.' :: more, by rw [hmore, hrest, List.append_assoc, List.cons_append]⟩

theorem IsPart.isPrefix (h : IsPart part name) : part.toList <+: name.toList := by
  obtain ⟨rest, hrest⟩ := h
  exact ⟨'.' :: rest, hrest.symm⟩

theorem IsPart.length_lt (h : IsPart part name) : part.length < name.length := by
  obtain ⟨rest, hrest⟩ := h
  rw [← String.length_toList, ← String.length_toList, hrest, List.length_append, List.length_cons]
  omega

theorem IsPart.ne (h : IsPart part name) : part ≠ name := by
  intro heq
  have hlt := h.length_lt
  rw [heq] at hlt
  exact Nat.lt_irrefl _ hlt

theorem not_prefix_rootName (h : IsPart part name) : ¬ name.toList <+: rootName.toList := by
  rintro ⟨rest, hrest⟩
  obtain ⟨more, hmore⟩ := h
  have hdot : '.' ∈ rootName.toList := by
    rw [← hrest, hmore]
    simp
  exact absurd hdot (by decide)

theorem not_isPart_rootName (part : String) : ¬ IsPart part rootName :=
  fun h => not_prefix_rootName h List.prefix_rfl

/-- What may stand above a logger: the outermost one, and the parts of its name. -/
def Outranks (upper name : String) : Prop := upper = rootName ∨ IsPart upper name

theorem Outranks.trans (h : Outranks other part) (hname : Outranks part name) :
    Outranks other name := by
  obtain rfl | hpart := h
  · exact .inl rfl
  · obtain rfl | hname := hname
    · exact absurd hpart (not_isPart_rootName other)
    · exact .inr (hpart.trans hname)

theorem Outranks.ne (h : Outranks other name) (hname : isRootName name = false) : other ≠ name := by
  obtain rfl | hpart := h
  · rintro rfl
    cases hname
  · exact hpart.ne

theorem partsAbove_split {chars part : List Char} (h : part ∈ partsAbove chars) :
    ∃ front, chars = front ++ '.' :: part := by
  fun_induction partsAbove chars with
  | case1 => cases h
  | case2 c rest ih =>
    cases h with
    | head => exact ⟨[], rfl⟩
    | tail _ hrest =>
      obtain ⟨front, hfront⟩ := ih hrest
      exact ⟨'.' :: c :: front, by rw [hfront]; rfl⟩
  | case3 c rest _ ih =>
    obtain ⟨front, hfront⟩ := ih h
    exact ⟨c :: front, by rw [hfront]; rfl⟩

theorem isPart_of_mem (h : part ∈ parentNames name) : IsPart part name := by
  obtain ⟨chars, hchars, rfl⟩ := List.mem_map.mp h
  obtain ⟨front, hfront⟩ := partsAbove_split hchars
  refine ⟨front.reverse, ?_⟩
  rw [← name.toList.reverse_reverse, hfront, String.toList_ofList]
  simp

theorem pairwise_partsAbove (chars : List Char) :
    (partsAbove chars).Pairwise fun longer part => ∃ front, longer = front ++ '.' :: part := by
  fun_induction partsAbove chars with
  | case1 => exact .nil
  | case2 c rest ih =>
    refine .cons (fun part hpart => ?_) ih
    obtain ⟨front, hfront⟩ := partsAbove_split hpart
    exact ⟨c :: front, by rw [hfront]; rfl⟩
  | case3 c rest _ ih => exact ih

theorem pairwise_parentNames (name : String) :
    (parentNames name).Pairwise fun longer part => IsPart part longer := by
  refine List.pairwise_map.mpr ((pairwise_partsAbove _).imp fun {longer part} h => ?_)
  obtain ⟨front, hfront⟩ := h
  refine ⟨front.reverse, ?_⟩
  rw [String.toList_ofList, String.toList_ofList, hfront]
  simp

/-- No two dots in a row. Where there are some, the search for parts steps over one of them. -/
def IsPlain (name : String) : Prop := ¬ ['.', '.'] <:+: name.toList

theorem IsPart.isPlain (h : IsPart part name) (hname : IsPlain name) : IsPlain part :=
  fun hdots => hname (hdots.trans h.isPrefix.isInfix)

theorem partsAbove_cons_of_ne {c : Char} (h : c ≠ '.') (rest : List Char) :
    partsAbove (c :: rest) = partsAbove rest := by
  rw [partsAbove]
  intro _ _ hdot
  exact absurd hdot h

theorem partsAbove_below {chars part : List Char} (hplain : ¬ ['.', '.'] <:+: chars)
    {longer shorter : List (List Char)} (h : partsAbove chars = longer ++ part :: shorter) :
    shorter = partsAbove part := by
  fun_induction partsAbove chars generalizing longer with
  | case1 => simp at h
  | case2 c rest ih =>
    cases longer with
    | nil =>
      obtain ⟨rfl, rfl⟩ := List.cons.inj h
      have hc : c ≠ '.' := by
        rintro rfl
        exact hplain ⟨[], rest, rfl⟩
      rw [partsAbove_cons_of_ne hc]
    | cons first longer =>
      have hrest : rest <:+ '.' :: c :: rest := List.suffix_append ['.', c] rest
      exact ih (fun hdots => hplain (hdots.trans hrest.isInfix)) (List.cons.inj h).2
  | case3 c rest _ ih => exact ih (fun hdots => hplain (hdots.trans (List.suffix_cons c rest).isInfix)) h

theorem parentNames_below (hplain : IsPlain name) {longer shorter : List String}
    (h : parentNames name = longer ++ part :: shorter) : shorter = parentNames part := by
  obtain ⟨before, tail, hparts, -, htail⟩ := List.map_eq_append_iff.mp h
  obtain ⟨chars, after, rfl, rfl, rfl⟩ := List.map_eq_cons_iff.mp htail
  have hdots : ¬ ['.', '.'] <:+: name.toList.reverse := by
    intro hdots
    exact hplain (List.reverse_infix.mp hdots)
  rw [partsAbove_below hdots hparts, parentNames, String.toList_ofList, List.reverse_reverse]

namespace Registry

variable {r s : Registry}

/-! ### Parents -/

theorem parentOf_eq (r : Registry) (name : String) :
    r.parentOf name = ((parentNames name).find? r.names.contains).getD rootName := by
  have hnames : ∀ p, (r.loggers.find? (·.1 == p)).isSome = r.names.contains p := by
    intro p
    rw [Bool.eq_iff_iff, List.contains_iff_mem, mem_names_iff, Option.isSome_iff_exists]
  rw [parentOf, funext hnames]

theorem parentOf_congr (h : s.names = r.names) (name : String) : s.parentOf name = r.parentOf name := by
  rw [parentOf_eq, parentOf_eq, h]

/-- The parent of a logger is the nearest part of its name that has a logger. Where that part starts the
name of the outermost logger, the outermost logger may be the parent instead. -/
def IsParent (r : Registry) (name parent : String) : Prop :=
  parent = r.parentOf name ∨ parent = rootName ∧ (r.parentOf name).toList <+: rootName.toList

structure Linked (r : Registry) : Prop where
  notRoot : ∀ name ∈ r.names, isRootName name = false
  parent : ∀ link ∈ r.links, r.IsParent link.1 link.2

theorem linked_start : Linked start := ⟨nofun, nofun⟩

theorem Linked.congr (h : Linked r) (hlinks : s.links = r.links) : Linked s := by
  have hnames : s.names = r.names := by rw [names_eq, names_eq, hlinks]
  refine ⟨fun name => hnames ▸ h.notRoot name, fun link hlink => ?_⟩
  rw [IsParent, parentOf_congr hnames]
  exact h.parent link (hlinks ▸ hlink)

theorem find?_contains_append (r : Registry) {parts : List String} (h : ∀ part ∈ parts, part ≠ name) :
    parts.find? (r.names ++ [name]).contains = parts.find? r.names.contains := by
  induction parts with
  | nil => rfl
  | cons part rest ih =>
    have hpart : (r.names ++ [name]).contains part = r.names.contains part := by
      simp [h part List.mem_cons_self]
    rw [List.find?_cons, List.find?_cons, hpart, ih fun p hp => h p (List.mem_cons_of_mem part hp)]

/-- A new logger changes the parents of those whose names it is a part of, where no longer part had a
logger. -/
theorem parentOf_ensure (hfind : r.find? name = none) (hroot : isRootName name = false)
    (other : String) :
    ((r.ensure name).1.parentOf other = r.parentOf other ∧
      (name ∈ parentNames other → IsPart name (r.parentOf other))) ∨
    ((r.ensure name).1.parentOf other = name ∧ name ∈ parentNames other ∧
      (r.parentOf other = rootName ∨ IsPart (r.parentOf other) name)) := by
  have hnames := names_ensure_of_none hfind
  have hnew : name ∉ r.names := by
    rw [← exists_find?_iff hroot, hfind]
    nofun
  rw [parentOf_eq, parentOf_eq r, hnames]
  by_cases hmem : name ∈ parentNames other
  · obtain ⟨longer, shorter, hsplit⟩ := List.append_of_mem hmem
    have hpairwise := pairwise_parentNames other
    rw [hsplit, List.pairwise_append, List.pairwise_cons] at hpairwise
    obtain ⟨_, ⟨hshorter, _⟩, hlonger⟩ := hpairwise
    have habove : ∀ part ∈ longer, IsPart name part := fun part hpart =>
      hlonger part hpart name List.mem_cons_self
    have hsame := find?_contains_append r fun part hpart => (habove part hpart).ne.symm
    rw [hsplit, List.find?_append, List.find?_append, hsame]
    cases hnearest : longer.find? r.names.contains with
    | some nearest =>
      refine .inl ⟨rfl, fun _ => habove nearest (List.mem_of_find?_eq_some hnearest)⟩
    | none =>
      refine .inr ⟨by simp, by simp, ?_⟩
      rw [List.find?_cons_of_neg (by simpa using hnew)]
      cases hnext : shorter.find? r.names.contains with
      | none => exact .inl rfl
      | some next => exact .inr (hshorter next (List.mem_of_find?_eq_some hnext))
  · have hother : ∀ part ∈ parentNames other, part ≠ name := fun part hpart heq => hmem (heq ▸ hpart)
    have hsame := find?_contains_append r hother
    rw [hsame]
    exact .inl ⟨rfl, fun h => absurd h hmem⟩

theorem isAbove_iff : isAbove name other = true ↔ name ∈ parentNames other := by
  rw [isAbove, Bool.and_eq_true, List.contains_iff_mem, String.startsWith_string_iff]
  exact ⟨fun h => h.2, fun h => ⟨(isPart_of_mem h).isPrefix, h⟩⟩

theorem adoptLink_eq (name : String) (link : String × String) : adoptLink name link =
    if name ∈ parentNames link.1 ∧ ¬ name.toList <+: link.2.toList then (link.1, name) else link := by
  unfold adoptLink
  congr 1
  rw [Bool.and_eq_true, isAbove_iff, Bool.not_eq_true', ← Bool.not_eq_true,
    String.startsWith_string_iff]

theorem isParent_adoptLink (hfind : r.find? name = none) (hroot : isRootName name = false)
    {link : String × String} (h : r.IsParent link.1 link.2) :
    (r.ensure name).1.IsParent link.1 (adoptLink name link).2 := by
  rw [adoptLink_eq]
  obtain ⟨hkept, hlonger⟩ | ⟨hnearest, hmem, hshorter⟩ := parentOf_ensure hfind hroot link.1
  · rw [IsParent, hkept, if_neg]
    · exact h
    · rintro ⟨hmem, hstarts⟩
      have hpart := hlonger hmem
      obtain heq | ⟨_, hprefix⟩ := h
      · exact hstarts (heq ▸ hpart.isPrefix)
      · exact not_prefix_rootName hpart hprefix
  · by_cases hstarts : name.toList <+: link.2.toList
    · rw [IsParent, hnearest, if_neg fun hadopted => hadopted.2 hstarts]
      -- The parent before was further up, so that only the name of the outermost logger is left.
      have hup : link.2 = rootName ∨ IsPart link.2 name := by
        obtain heq | ⟨heq, _⟩ := h
        · exact heq ▸ hshorter
        · exact .inl heq
      obtain heq | hpart := hup
      · exact .inr ⟨heq, heq ▸ hstarts⟩
      · have hle := hstarts.length_le
        have hlt := hpart.length_lt
        rw [String.length_toList, String.length_toList] at hle
        omega
    · rw [if_pos ⟨hmem, hstarts⟩]
      exact .inl hnearest.symm

theorem linked_ensure (h : Linked r) (name : String) : Linked (r.ensure name).1 := by
  cases hfind : r.find? name with
  | some logger =>
    rw [ensure_of_find? hfind]
    exact h
  | none =>
    have hroot : isRootName name = false := by
      cases hroot : isRootName name with
      | true => rw [find?_of_isRootName hroot] at hfind; cases hfind
      | false => rfl
    constructor
    · intro other hother
      rw [names_ensure_of_none hfind, List.mem_append, List.mem_singleton] at hother
      obtain hother | rfl := hother
      · exact h.notRoot other hother
      · exact hroot
    · intro link hlink
      rw [links_ensure_of_none hfind, List.mem_append, List.mem_singleton, List.mem_map] at hlink
      obtain ⟨old, hold, rfl⟩ | rfl := hlink
      · rw [fst_adoptLink]
        exact isParent_adoptLink hfind hroot (h.parent old hold)
      · obtain ⟨hkept, _⟩ | ⟨_, hmem, _⟩ := parentOf_ensure hfind hroot name
        · exact .inl hkept.symm
        · exact absurd rfl (isPart_of_mem hmem).ne

theorem linked_act (h : Linked r) (a : Act) : Linked (r.act a) :=
  (linked_ensure h a.about).congr (links_act r a)

theorem linked_run (h : Linked r) (acts : List Act) : Linked (r.run acts) := by
  induction acts generalizing r with
  | nil => exact h
  | cons a rest ih => exact ih (linked_act h a)

/-! ### All loggers above -/

def lineageWithin (r : Registry) : Nat → String → List String
  | 0, _ => []
  | steps + 1, name =>
    if isRootName name then [rootName]
    else match r.find? name with
      | some logger => name :: lineageWithin r steps logger.parent
      | none => []

/-- The name of a logger and those of all above it, the nearest first. -/
def lineage (r : Registry) (name : String) : List String :=
  r.lineageWithin (r.loggers.length + 1) name

theorem isRootName_rootName : isRootName rootName = true := rfl

theorem chainWithin_eq (r : Registry) (steps : Nat) (name : String) :
    r.chainWithin steps name = (r.lineageWithin steps name).filterMap r.find? := by
  induction steps generalizing name with
  | zero => rfl
  | succ steps ih =>
    rw [chainWithin, lineageWithin]
    split
    · rw [List.filterMap_cons, find?_of_isRootName isRootName_rootName]
      rfl
    · cases hfind : r.find? name with
      | none => rfl
      | some logger =>
        dsimp only
        rw [List.filterMap_cons, hfind, ih]

theorem chain_eq (r : Registry) (name : String) :
    r.chain name = (r.lineage name).filterMap r.find? :=
  chainWithin_eq ..

theorem lineageWithin_of_isRootName (h : isRootName name = true) (r : Registry) (steps : Nat) :
    r.lineageWithin (steps + 1) name = [rootName] := by
  rw [lineageWithin, if_pos h]

theorem lineageWithin_of_find? {logger : Logger} (h : isRootName name = false)
    (hfind : r.find? name = some logger) (steps : Nat) :
    r.lineageWithin (steps + 1) name = name :: r.lineageWithin steps logger.parent := by
  rw [lineageWithin, h, hfind]
  rfl

theorem outranks_of_find? (hlinked : Linked r) {logger : Logger} (h : isRootName name = false)
    (hfind : r.find? name = some logger) : Outranks logger.parent name := by
  obtain heq | ⟨heq, _⟩ := hlinked.parent _ (mem_links_of_find? h hfind)
  · change logger.parent = r.parentOf name at heq
    rw [parentOf_eq] at heq
    cases hnearest : (parentNames name).find? r.names.contains with
    | none => rw [heq, hnearest]; exact .inl rfl
    | some nearest =>
      rw [heq, hnearest]
      exact .inr (isPart_of_mem (List.mem_of_find?_eq_some hnearest))
  · exact .inl heq

theorem of_mem_lineageWithin (hlinked : Linked r) {steps : Nat}
    (h : other ∈ r.lineageWithin steps name) : other = name ∨ Outranks other name := by
  induction steps generalizing name with
  | zero => cases h
  | succ steps ih =>
    cases hroot : isRootName name with
    | true =>
      rw [lineageWithin_of_isRootName hroot, List.mem_singleton] at h
      exact .inr (.inl h)
    | false =>
      cases hfind : r.find? name with
      | none => rw [lineageWithin, hroot, hfind] at h; cases h
      | some logger =>
        rw [lineageWithin_of_find? hroot hfind, List.mem_cons] at h
        obtain rfl | hrest := h
        · exact .inl rfl
        · have hparent := outranks_of_find? hlinked hroot hfind
          obtain rfl | hupper := ih hrest
          · exact .inr hparent
          · exact .inr (hupper.trans hparent)

theorem nodup_lineageWithin (hlinked : Linked r) (steps : Nat) (name : String) :
    (r.lineageWithin steps name).Nodup := by
  induction steps generalizing name with
  | zero => exact .nil
  | succ steps ih =>
    cases hroot : isRootName name with
    | true =>
      rw [lineageWithin_of_isRootName hroot]
      exact List.pairwise_singleton _ rootName
    | false =>
      cases hfind : r.find? name with
      | none => rw [lineageWithin, hroot, hfind]; exact .nil
      | some logger =>
        rw [lineageWithin_of_find? hroot hfind, List.nodup_cons]
        refine ⟨fun hmem => ?_, ih logger.parent⟩
        have hparent := outranks_of_find? hlinked hroot hfind
        obtain heq | hupper := of_mem_lineageWithin hlinked hmem
        · exact hparent.ne hroot heq.symm
        · exact (hupper.trans hparent).ne hroot rfl

/-! ### Plain names -/

def shorter (r : Registry) (name : String) : Nat :=
  (r.names.filter fun other => other.length < name.length).length

theorem shorter_lt (hmem : part ∈ r.names) (hpart : IsPart part name) :
    r.shorter part < r.shorter name := by
  have hlt := hpart.length_lt
  have hfilter : r.names.filter (fun other => other.length < part.length) =
      (r.names.filter fun other => other.length < name.length).filter
        fun other => other.length < part.length := by
    rw [List.filter_filter]
    refine List.filter_congr fun other _ => ?_
    rw [Bool.eq_iff_iff, Bool.and_eq_true, decide_eq_true_eq, decide_eq_true_eq]
    omega
  rw [shorter, hfilter, shorter]
  refine List.length_filter_lt_length_iff_exists.mpr ⟨part, ?_, by simp⟩
  exact List.mem_filter.mpr ⟨hmem, decide_eq_true hlt⟩

theorem parent_eq_parentOf (hlinked : Linked r) {logger : Logger} (hroot : isRootName name = false)
    (hfind : r.find? name = some logger)
    (hclear : ∀ part ∈ parentNames name, part ∈ r.names → ¬ part.toList <+: rootName.toList) :
    logger.parent = r.parentOf name := by
  obtain hparent | ⟨hparent, hstarts⟩ := hlinked.parent _ (mem_links_of_find? hroot hfind)
  · exact hparent
  · rw [parentOf_eq] at hstarts ⊢
    cases hnearest : (parentNames name).find? r.names.contains with
    | none => exact hparent
    | some nearest =>
      rw [hnearest] at hstarts
      have hin : nearest ∈ r.names := List.contains_iff_mem.mp (List.find?_some hnearest)
      exact absurd hstarts (hclear nearest (List.mem_of_find?_eq_some hnearest) hin)

theorem filter_parentNames (hplain : IsPlain name) {nearest : String}
    (hnearest : (parentNames name).find? r.names.contains = some nearest) :
    (parentNames name).filter r.names.contains =
        nearest :: (parentNames nearest).filter r.names.contains ∧
      ∀ part ∈ parentNames nearest, part ∈ parentNames name := by
  obtain ⟨hin, longer, rest, hsplit, hlonger⟩ := List.find?_eq_some_iff_append.mp hnearest
  have hbelow : rest = parentNames nearest := parentNames_below hplain hsplit
  have hnone : longer.filter r.names.contains = [] :=
    List.filter_eq_nil_iff.mpr fun part hpart => by simpa using hlonger part hpart
  rw [hsplit, ← hbelow, List.filter_append, hnone, List.nil_append, List.filter_cons_of_pos hin]
  exact ⟨rfl, fun part hpart => List.mem_append_right _ (List.mem_cons_of_mem _ hpart)⟩

/-- Above a plain name there are all the parts of it that have loggers, unless one of these starts the
name of the outermost logger. -/
theorem lineageWithin_of_plain (hlinked : Linked r) {steps : Nat} (hmem : name ∈ r.names)
    (hplain : IsPlain name)
    (hclear : ∀ part ∈ parentNames name, part ∈ r.names → ¬ part.toList <+: rootName.toList)
    (hsteps : r.shorter name + 2 ≤ steps) :
    r.lineageWithin steps name =
      name :: (parentNames name).filter r.names.contains ++ [rootName] := by
  induction steps generalizing name with
  | zero => omega
  | succ steps ih =>
    have hroot := hlinked.notRoot name hmem
    obtain ⟨logger, hfind⟩ := (exists_find?_iff hroot).mpr hmem
    rw [lineageWithin_of_find? hroot hfind, parent_eq_parentOf hlinked hroot hfind hclear, parentOf_eq,
      List.cons_append]
    congr 1
    cases hnearest : (parentNames name).find? r.names.contains with
    | none =>
      have hfilter : (parentNames name).filter r.names.contains = [] :=
        List.filter_eq_nil_iff.mpr (List.find?_eq_none.mp hnearest)
      obtain ⟨more, rfl⟩ : ∃ more, steps = more + 1 := ⟨steps - 1, by omega⟩
      rw [hfilter]
      exact lineageWithin_of_isRootName isRootName_rootName ..
    | some nearest =>
      have hin : nearest ∈ r.names := List.contains_iff_mem.mp (List.find?_some hnearest)
      have hpart : IsPart nearest name := isPart_of_mem (List.mem_of_find?_eq_some hnearest)
      obtain ⟨hfilter, hbelow⟩ := filter_parentNames hplain hnearest
      have hless := shorter_lt hin hpart
      rw [hfilter, Option.getD_some]
      exact ih hin (hpart.isPlain hplain) (fun part hpart => hclear part (hbelow part hpart)) (by omega)

theorem lineage_of_plain (hlinked : Linked r) (hmem : name ∈ r.names) (hplain : IsPlain name)
    (hclear : ∀ part ∈ parentNames name, part ∈ r.names → ¬ part.toList <+: rootName.toList) :
    r.lineage name = name :: (parentNames name).filter r.names.contains ++ [rootName] := by
  have hshorter : r.shorter name < r.names.length :=
    List.length_filter_lt_length_iff_exists.mpr ⟨name, hmem, by simp⟩
  rw [names, List.length_map] at hshorter
  exact lineageWithin_of_plain hlinked hmem hplain hclear (by omega)

end Registry

end ScriptStack.Log
