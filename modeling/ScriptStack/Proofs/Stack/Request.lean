import ScriptStack.Proofs.Number.Width
import ScriptStack.Proofs.Stack.Failure
import ScriptStack.Proofs.Stack.Sequence

/-! What may be refused to an operation whose arguments are of the sort that it takes, and how. -/
namespace ScriptStack

/-- A fault of reading a number: it is out of range or too long, or else not minimal where that is
asked for. -/
def Fault.IsNumeric (minimal : Bool) (fault : Fault) : Prop :=
  ∃ family, fault.family? = some family ∧
    (family.isA .overflow ∨ minimal = true ∧ family = .notMinimal)

def Content.Overlong : Content → Prop
  | number v => Limits.maxSigned < v ∧ Decimal.isWritable v = false
  | bytes _ => False

theorem Content.toNumber_of_overlong {c : Content} (hc : c.Overlong) (minimal : Bool) :
    c.toNumber minimal = .error (.misuse .badValue) := by
  cases c with
  | number v =>
    rw [toNumber_of_above hc.1, hc.2]
    rfl
  | bytes data => cases hc

theorem Content.isNumeric_of_toNumber {c : Content} (hc : ¬ c.Overlong) {minimal : Bool}
    {fault : Fault} (he : c.toNumber minimal = .error fault) : fault.IsNumeric minimal := by
  cases c with
  | number v =>
    by_cases hv : Limits.maxSigned < v
    · rw [toNumber_of_above hv] at he
      cases hw : Decimal.isWritable v with
      | true =>
        rw [hw] at he
        cases he
        exact ⟨.overflow, rfl, .inl rfl⟩
      | false => exact absurd ⟨hv, hw⟩ hc
    · rw [toNumber, if_neg hv] at he
      cases he
  | bytes data =>
    have hread : Number.read data (.integer 4) minimal = .error fault := he
    obtain ⟨_, hlong⟩ | ⟨_, hasked, _, hnot⟩ | ⟨_, _, hgood⟩ := Number.read_cases data 4 minimal
    · rw [Fault.raised_numberTooLong, if_pos (Decimal.isWritable_of_lt (by decide))] at hlong
      cases hlong.symm.trans hread
      exact ⟨.tooLong, rfl, .inl rfl⟩
    · cases hnot.symm.trans hread
      exact ⟨.notMinimal, rfl, .inr ⟨hasked, rfl⟩⟩
    · cases hgood.symm.trans hread

/-- What an operation asks for: whether that breaks its contract, how many entries it needs and how
many there are, whether it reads a number, which may have to be minimal, and whether an integer that
cannot be written has to stand in its answer or in the words of its refusal. -/
structure Request where
  broken : Prop
  depth? : Option Int
  height : Nat
  minimal? : Option Bool
  unwritten : Prop

namespace Request

variable {α β : Type} {r : Request}

def Covered (r : Request) : Prop := ∀ d, r.depth? = some d → d ≤ r.height

/-- A request explains an outcome: a broken contract and a shortage end it, each in a fault of its own
family, a shortage says how many entries there should be and are, and no other fault comes up but
those of the number that is read. Only what cannot be written takes the place of all this. -/
structure Explains (r : Request) (x : Except Fault α) : Prop where
  contract : Family.contract.Stops x ↔ r.broken ∧ ¬ r.unwritten
  underflow : Family.underflow.Stops x ↔ (∃ d, r.depth? = some d ∧ r.height < d) ∧ ¬ r.unwritten
  badValue : x = .error (.misuse .badValue) ↔ r.unwritten
  depths : ∀ shortage required available, x = .error (.underflow shortage required available) →
    ∃ d, r.depth? = some d ∧ required.integer? = some d ∧ available = r.height ∧ available < d
  others : ∀ fault, x = .error fault → fault.family? = some .contract ∨
    fault.family? = some .underflow ∨
    (∃ minimal, r.minimal? = some minimal ∧ fault.IsNumeric minimal) ∨ fault = .misuse .badValue

theorem Covered.not_deep (h : r.Covered) : ¬ ∃ d, r.depth? = some d ∧ r.height < d := by
  rintro ⟨d, hd, hdeep⟩
  have := h d hd
  omega

theorem covered_of_none (h : r.depth? = none) : r.Covered := by
  intro d hd
  rw [h] at hd
  cases hd

theorem explains_ok (hb : ¬ r.broken) (hd : r.Covered) (hu : ¬ r.unwritten) (a : α) :
    r.Explains (.ok a) where
  contract := by simp [hb]
  underflow := by simp [hd.not_deep]
  badValue := by simp [hu]
  depths := nofun
  others := nofun

theorem explains_unwritten (hu : r.unwritten) :
    r.Explains (.error (.misuse .badValue) : Except Fault α) where
  contract := by simp [hu, Fault.family?]
  underflow := by simp [hu, Fault.family?]
  badValue := by simp [hu]
  depths := nofun
  others := by
    rintro fault ⟨⟩
    exact .inr (.inr (.inr rfl))

theorem explains_contract {fault : Fault} (hfamily : fault.family? = some .contract)
    (hb : r.broken) (hd : r.Covered) (hu : ¬ r.unwritten) :
    r.Explains (.error fault : Except Fault α) where
  contract := by simp [hb, hu, hfamily]
  underflow := by simp [hd.not_deep, hfamily]
  badValue := by
    refine ⟨?_, fun h => absurd h hu⟩
    rintro ⟨⟩
    cases hfamily
  depths := by
    rintro shortage required available ⟨⟩
    cases hfamily
  others := by
    rintro fault ⟨⟩
    exact .inl hfamily

theorem explains_underflow {d : Int} {q : Quantity} (hb : ¬ r.broken) (hd : r.depth? = some d)
    (hdeep : r.height < d) (hq : q.integer? = some d) (hu : ¬ r.unwritten) (shortage : Shortage) :
    r.Explains (.error (.underflow shortage q r.height) : Except Fault α) where
  contract := by simp [hb, Fault.family?]
  underflow := by simp [hd, hdeep, hu, Fault.family?]
  badValue := ⟨nofun, fun h => absurd h hu⟩
  depths := by
    rintro shortage required available ⟨⟩
    exact ⟨d, hd, hq, rfl, hdeep⟩
  others := by
    rintro fault ⟨⟩
    exact .inr (.inl rfl)

theorem explains_number {minimal : Bool} {fault : Fault} (hb : ¬ r.broken) (hd : r.Covered)
    (hu : ¬ r.unwritten) (hm : r.minimal? = some minimal) (hf : fault.IsNumeric minimal) :
    r.Explains (.error fault : Except Fault α) := by
  obtain ⟨family, hfamily, hnumeric⟩ := hf
  have hcontract : family ≠ .contract := by
    rintro rfl
    simp [Family.isA, Family.lineage] at hnumeric
  have hunderflow : family ≠ .underflow := by
    rintro rfl
    simp [Family.isA, Family.lineage] at hnumeric
  refine ⟨by simp [hb, hfamily, hcontract], by simp [hd.not_deep, hfamily, hunderflow],
    ⟨?_, fun h => absurd h hu⟩, ?_, ?_⟩
  · rintro ⟨⟩
    cases hfamily
  · rintro shortage required available ⟨⟩
    cases hfamily
    exact absurd rfl hunderflow
  · rintro _ ⟨⟩
    exact .inr (.inr (.inl ⟨minimal, hm, family, hfamily, hnumeric⟩))

/-- A fault is raised as what explains it, unless its own text is what cannot be written. -/
theorem explains_raised {fault : Fault} (hu : r.unwritten ↔ fault.text? = none)
    (h : ¬ r.unwritten → r.Explains (.error fault : Except Fault α)) :
    r.Explains (.error fault.raised : Except Fault α) := by
  obtain ⟨hsome, hraised⟩ | ⟨hnone, hraised⟩ := fault.raised_cases
  · rw [hraised]
    refine h fun hunwritten => ?_
    rw [hu.mp hunwritten] at hsome
    cases hsome
  · rw [hraised]
    exact explains_unwritten (hu.mpr hnone)

theorem Explains.of_ok {a : α} (hx : r.Explains (.ok a)) :
    ¬ r.broken ∧ r.Covered ∧ ¬ r.unwritten := by
  have hu : ¬ r.unwritten := by simpa using hx.badValue
  have hb : ¬ r.broken := by simpa [hu] using hx.contract
  have hd : ¬ ∃ d, r.depth? = some d ∧ r.height < d := by simpa [hu] using hx.underflow
  exact ⟨hb, fun d hdepth => Int.not_lt.mp fun hdeep => hd ⟨d, hdepth, hdeep⟩, hu⟩

theorem Explains.family {x : Except Fault α} {fault : Fault} (hx : r.Explains x)
    (hfault : x = .error fault) : (∃ family, fault.family? = some family) ∨ r.unwritten := by
  obtain hfamily | hfamily | ⟨_, _, family, hfamily, _⟩ | rfl := hx.others fault hfault
  · exact .inl ⟨_, hfamily⟩
  · exact .inl ⟨_, hfamily⟩
  · exact .inl ⟨family, hfamily⟩
  · exact .inr (hx.badValue.mp hfault)

theorem Explains.map {x : Except Fault α} (hx : r.Explains x) (f : α → β) :
    r.Explains (x.map f) := by
  cases x with
  | ok a =>
    obtain ⟨hb, hd, hu⟩ := hx.of_ok
    exact explains_ok hb hd hu (f a)
  | error fault =>
    refine ⟨by simpa using hx.contract, by simpa using hx.underflow, ?_, ?_, ?_⟩
    · rw [← hx.badValue]
      simp [Except.map]
    · rintro shortage required available ⟨⟩
      exact hx.depths _ _ _ rfl
    · rintro _ ⟨⟩
      exact hx.others _ rfl

theorem Explains.bind_done {x : Attempt α} (hx : r.Explains x.result) (f : α → β) :
    r.Explains (x.bind fun a => .done (f a)).result := by
  obtain ⟨log, result⟩ := x
  cases result with
  | ok a => exact hx.map f
  | error fault => exact hx.map f

def reading (r : Request) (slot? : Option Content) (minimal : Bool) : Request :=
  { r with
    minimal? := some minimal
    unwritten := r.unwritten ∨ ∃ c, slot? = some c ∧ c.Overlong }

theorem explains_toNumber (hb : ¬ r.broken) (hd : r.Covered) (hu : ¬ r.unwritten) (minimal : Bool)
    (c : Content) : (r.reading (some c) minimal).Explains (c.toNumber minimal) := by
  have hb : ¬ (r.reading (some c) minimal).broken := hb
  have hd : (r.reading (some c) minimal).Covered := hd
  by_cases hc : c.Overlong
  · rw [Content.toNumber_of_overlong hc]
    exact explains_unwritten (.inr ⟨c, rfl, hc⟩)
  · have hwritten : ¬ (r.reading (some c) minimal).unwritten := by simp [reading, hu, hc]
    cases hv : c.toNumber minimal with
    | ok v => exact explains_ok hb hd hwritten v
    | error fault =>
      exact explains_number hb hd hwritten rfl (Content.isNumeric_of_toNumber hc hv)

theorem Explains.reading_none {fault : Fault} (hx : r.Explains (.error fault : Except Fault α))
    (hr : r.minimal? = none) (minimal : Bool) :
    (r.reading none minimal).Explains (.error fault : Except Fault β) := by
  have hunwritten : (r.reading none minimal).unwritten ↔ r.unwritten := by simp [reading]
  refine ⟨?_, ?_, ?_, ?_, ?_⟩
  · rw [hunwritten, Family.stops_error, ← Family.stops_error]
    exact hx.contract
  · rw [hunwritten, Family.stops_error, ← Family.stops_error]
    exact hx.underflow
  · rw [hunwritten, ← hx.badValue]
    simp
  · rintro shortage required available ⟨⟩
    exact hx.depths _ _ _ rfl
  · rintro _ ⟨⟩
    obtain hfamily | hfamily | ⟨_, hm, _⟩ | hbad := hx.others _ rfl
    · exact .inl hfamily
    · exact .inr (.inl hfamily)
    · cases hr.symm.trans hm
    · exact .inr (.inr (.inr hbad))

theorem Explains.bind_toNumber {x : Except Fault Entry} (hx : r.Explains x)
    (hr : r.minimal? = none) (h : Heap) (minimal : Bool) :
    (r.reading (x.toOption.map (Entry.content h)) minimal).Explains
      (x.bind fun e => e.toNumber h minimal) := by
  cases x with
  | error fault => exact hx.reading_none hr minimal
  | ok e =>
    obtain ⟨hb, hd, hu⟩ := hx.of_ok
    exact explains_toNumber hb hd hu minimal (e.content h)

/-! The requests of the operations. -/

def free : Request := ⟨False, none, 0, none, False⟩

def peek (p : Position) (height : Nat) : Request where
  broken := ∃ o, p.integer? = some o ∧ 0 ≤ o
  depth? := p.integer?.bind fun o => if o < 0 then some (-o) else none
  height := height
  minimal? := none
  unwritten := ∃ o, p.integer? = some o ∧
    (0 ≤ o ∧ p.shown? = none ∨ o < -height ∧ Decimal.isWritable o = false)

def place (p : Position) (height : Nat) : Request where
  broken := ∃ i, p.integer? = some i ∧ ¬ (0 ≤ i ∧ i < height)
  depth? := none
  height := height
  minimal? := none
  unwritten := (∃ i, p.integer? = some i ∧ ¬ (0 ≤ i ∧ i < height)) ∧ p.shown? = none

def need (q : Quantity) (height : Nat) : Request where
  broken := False
  depth? := q.integer?
  height := height
  minimal? := none
  unwritten := (∃ n, q.integer? = some n ∧ height < n) ∧ q.text? = none

/-- All slots have to fit into four bytes. The lowest one that does not is the one that is named. -/
def commit (contents : List Content) : Request where
  broken := ¬ ∀ c ∈ contents, c.Fits
  depth? := none
  height := contents.length
  minimal? := none
  unwritten := ∃ c, contents.find? (fun c => !decide c.Fits) = some c ∧ c.isWritable = false

def display (written : Bool) : Request := { free with unwritten := written = false }

theorem explains_display (written : Bool) (text : String) :
    (display written).Explains (Attempt.ofText (if written then some text else none)).result := by
  cases written with
  | true => exact explains_ok id (covered_of_none rfl) (fun hu => Bool.noConfusion hu) text
  | false => exact explains_unwritten rfl

theorem explains_free (a : α) : free.Explains (.ok a) := explains_ok id (covered_of_none rfl) id a

theorem explains_need {x : Except Fault α} {q : Quantity} {n : Int} {height : Nat}
    (hq : q.integer? = some n) (hok : n ≤ height → ∃ a, x = .ok a)
    (hdeep : height < n → x = .error (Fault.underflow .depth q height).raised) :
    (need q height).Explains x := by
  by_cases hn : (height : Int) < n
  · have hunwritten : (need q height).unwritten ↔
        (Fault.underflow .depth q height).text? = none := by
      simp [need, hq, hn, Fault.text?]
    rw [hdeep hn]
    exact explains_raised hunwritten fun hu => explains_underflow id hq hn hq hu .depth
  · have hle : n ≤ height := Int.not_lt.mp hn
    obtain ⟨a, rfl⟩ := hok hle
    refine explains_ok id (fun d hd => ?_) ?_ a
    · cases hq.symm.trans hd
      exact hle
    · rintro ⟨⟨d, hd, hdeep⟩, _⟩
      cases hq.symm.trans hd
      exact hn hdeep

theorem explains_commit {x : Except Fault α} {contents : List Content}
    (hok : (∀ c ∈ contents, c.Fits) → ∃ a, x = .ok a)
    (hnot : (¬ ∀ c ∈ contents, c.Fits) → ∃ below c above fault, contents = below ++ c :: above ∧
      (∀ d ∈ below, d.Fits) ∧ ¬ c.Fits ∧ x = .error fault ∧ c.Refuses fault) :
    (commit contents).Explains x := by
  by_cases hall : ∀ c ∈ contents, c.Fits
  · obtain ⟨a, rfl⟩ := hok hall
    refine explains_ok (not_not_intro hall) (covered_of_none rfl) ?_ a
    rintro ⟨c, hfind, _⟩
    obtain ⟨hc, _⟩ := List.find?_eq_some_iff_append.mp hfind
    simp [hall c (List.mem_of_find?_eq_some hfind)] at hc
  · obtain ⟨below, c, above, fault, rfl, hbelow, hc, rfl, hrefuses⟩ := hnot hall
    have hfind : (below ++ c :: above).find? (fun c => !decide c.Fits) = some c := by
      refine List.find?_eq_some_iff_append.mpr ⟨by simp [hc], below, above, rfl, fun d hd => ?_⟩
      simp [hbelow d hd]
    have hunwritten : (commit (below ++ c :: above)).unwritten ↔ c.isWritable = false := by
      simp [commit, hfind]
    rw [Content.Refuses] at hrefuses
    split at hrefuses
    · rename_i hw
      refine explains_contract hrefuses.1 hall (covered_of_none rfl) fun hu => ?_
      cases hw.symm.trans (hunwritten.mp hu)
    · rename_i hw
      rw [hrefuses]
      exact explains_unwritten (hunwritten.mpr (Bool.eq_false_iff.mpr hw))

theorem explains_content_commit (c : Content) : (commit [c]).Explains c.commit.result := by
  refine explains_commit (fun hall => ?_) fun hnot => ?_
  · have hc : c.Fits := hall c (List.mem_singleton_self c)
    exact ⟨c.word, congrArg Attempt.result (Content.commit_of_fits hc)⟩
  · have hc : ¬ c.Fits := fun hc => hnot (by simpa using hc)
    obtain ⟨fault, hfault, hrefuses⟩ := Content.commit_of_not_fits hc
    exact ⟨[], c, [], fault, rfl, nofun, hc, hfault, hrefuses⟩

end Request

namespace Stack

open Request

variable {h : Heap} {s : Stack}

theorem top_explained {p : Position} {o : Int} (ho : p.integer? = some o) :
    (peek p s.height).Explains (s.top p).result := by
  unfold top
  rw [ho]
  simp only
  by_cases hout : 0 ≤ o
  · have hdepth : (peek p s.height).depth? = none := by
      simp [peek, ho, Int.not_lt.mpr hout]
    have hunwritten : (peek p s.height).unwritten ↔
        (Fault.offsetNotNegative p.shown?).text? = none := by
      have hlow : ¬ o < -s.height := by omega
      simp [peek, ho, hout, hlow, Fault.text?]
    rw [if_pos hout, result_refuse]
    exact explains_raised hunwritten fun hu =>
      explains_contract rfl ⟨o, ho, hout⟩ (covered_of_none hdepth) hu
  · have hbroken : ¬ (peek p s.height).broken := by simp [peek, ho, hout]
    have hdepth : (peek p s.height).depth? = some (-o) := by
      simp [peek, ho, Int.not_le.mp hout]
    rw [if_neg hout]
    cases he : s.entries[o.natAbs - 1]? with
    | some e =>
      obtain ⟨hlt, _⟩ := List.getElem?_eq_some_iff.mp he
      have hheight : o.natAbs - 1 < s.height := hlt
      refine explains_ok hbroken (fun d hd => ?_) ?_ e
      · cases hdepth.symm.trans hd
        show -o ≤ (s.height : Int)
        omega
      · have hlow : ¬ o < -s.height := by omega
        simp [peek, ho, hout, hlow]
    | none =>
      have hheight : s.height ≤ o.natAbs - 1 := List.getElem?_eq_none_iff.mp he
      have hlow : o < -s.height := by omega
      have hunwritten : (peek p s.height).unwritten ↔
          (Fault.underflow .depth (.integer (-o)) s.height).text? = none := by
        rw [Fault.text?, Option.map_eq_none_iff, Quantity.text?, Decimal.text?_eq_none_iff,
          Decimal.isWritable_neg]
        simp [peek, ho, hout, hlow]
      refine explains_raised hunwritten fun hu =>
        explains_underflow hbroken hdepth ?_ rfl hu .depth
      show (s.height : Int) < -o
      omega

theorem needAtLeast_explained {q : Quantity} {n : Int} (hq : q.integer? = some n) :
    (need q s.height).Explains (s.needAtLeast q).result :=
  explains_need hq (fun hn => ⟨_, congrArg Attempt.result (needAtLeast_of_le hq hn)⟩)
    fun hn => congrArg Attempt.result (needAtLeast_of_deep hq hn)

theorem removal_explained {q : Quantity} {n : Int} (hq : q.integer? = some n) :
    (need q s.height).Explains (s.removal q).result :=
  explains_need hq (fun hn => ⟨_, congrArg Attempt.result (removal_of_le hq hn)⟩)
    fun hn => congrArg Attempt.result (removal_of_deep hq hn)

theorem depth?_eq_none_iff {p : Position} {i : Int} (hi : p.integer? = some i) :
    s.depth? p = none ↔ (place p s.height).broken := by
  simp [depth?, place, hi]

theorem lt_of_depth? {p : Position} {d : Nat} (hd : s.depth? p = some d) : d < s.height := by
  obtain ⟨i, _, hi⟩ := Option.bind_eq_some_iff.mp hd
  split at hi
  · cases hi
    omega
  · cases hi

theorem exists_depth? {p : Position} {i : Int} (hi : p.integer? = some i)
    (hb : ¬ (place p s.height).broken) : ∃ d, s.depth? p = some d :=
  Option.ne_none_iff_exists'.mp fun hnone => hb ((depth?_eq_none_iff hi).mp hnone)

/-- Looking for a place that there is not is refused. -/
theorem place_explained {α : Type} {p : Position} {i : Int} (hi : p.integer? = some i)
    {x : Except Fault α} (hok : ∀ d, s.depth? p = some d → ∃ a, x = .ok a)
    (hnone : s.depth? p = none → x = .error (Fault.indexOutOfRange p.shown? s.height).raised) :
    (place p s.height).Explains x := by
  by_cases hb : (place p s.height).broken
  · have hunwritten : (place p s.height).unwritten ↔
        (Fault.indexOutOfRange p.shown? s.height).text? = none := by
      rw [Fault.text?, Option.map_eq_none_iff]
      exact and_iff_right hb
    rw [hnone ((depth?_eq_none_iff hi).mpr hb)]
    exact explains_raised hunwritten fun hu => explains_contract rfl hb (covered_of_none rfl) hu
  · obtain ⟨d, hd⟩ := exists_depth? hi hb
    obtain ⟨a, rfl⟩ := hok d hd
    exact explains_ok hb (covered_of_none rfl) (fun hu => hb hu.1) a

theorem entryAt_explained {p : Position} {i : Int} (hi : p.integer? = some i) :
    (place p s.height).Explains (s.entryAt p).result := by
  refine place_explained hi (fun d hd => ?_) fun hnone => ?_
  · have hlt : d < s.entries.length := lt_of_depth? hd
    rw [entryAt, hd, Option.bind_some, List.getElem?_eq_getElem hlt]
    exact ⟨_, rfl⟩
  · rw [entryAt, hnone]
    exact result_refuse _

theorem depthOf_explained {p : Position} {i : Int} (hi : p.integer? = some i) :
    (place p s.height).Explains (s.depthOf p).result := by
  refine place_explained hi (fun d hd => ?_) fun hnone => ?_
  · rw [depthOf, hd]
    exact ⟨d, rfl⟩
  · rw [depthOf, hnone]
    exact result_refuse _

theorem commitment_explained (h : Heap) (s : Stack) :
    (Request.commit (s.contents h)).Explains (s.commitment h).result := by
  refine explains_commit (fun hall => ?_) fun hnot => ?_
  · exact ⟨_, commitEntries_of_fits (List.forall_mem_map.mp hall)⟩
  · have hslots : ¬ ∀ e ∈ s.slots, (e.content h).Fits := mt List.forall_mem_map.mpr hnot
    obtain ⟨below, e, above, hsplit, hbelow, he⟩ := (fits_or_first h s.slots).resolve_left hslots
    obtain ⟨fault, hfault, hrefuses⟩ := Content.commit_of_not_fits he
    refine ⟨below.map (Entry.content h), e.content h, above.map (Entry.content h), fault, ?_,
      List.forall_mem_map.mpr hbelow, he, ?_, hrefuses⟩
    · rw [contents, hsplit, List.map_append, List.map_cons]
    · rw [commitment, hsplit]
      exact commitEntries_of_not_fits hbelow hfault

end Stack

namespace StackOp

open Request

variable {h : Heap} {s : Stack}

def WellTyped : StackOp → Prop
  | top p | topBytes p | topNumber p _ | bytesAt p | removeAt p => p.integer?.isSome
  | needAtLeast n | popN n => ∃ q, n = .ok q ∧ q.integer?.isSome
  | push given | pushNumber given | pushBytes given => given.isOk
  | _ => True

def request (h : Heap) (s : Stack) : StackOp → Request
  | top p | topBytes p => peek p s.height
  | topNumber p minimal =>
    (peek p s.height).reading ((s.top p).result.toOption.map (Entry.content h)) minimal
  | last => peek topmost s.height
  | bytesAt p | removeAt p => place p s.height
  | needAtLeast (.ok q) => need q s.height
  | popN (.ok q) => need q s.height
  | popBytes => need (.integer 1) s.height
  | popNumber minimal =>
    (need (.integer 1) s.height).reading (s.entries.head?.map (Entry.content h)) minimal
  | commit => .commit (s.contents h)
  | display | json => .display (s.isWritable h)
  | _ => free

theorem result_read {α : Type} (x : Attempt α) (answer : α → Answer) :
    (Outcome.read h s x answer).attempt.result = x.result.map answer := by
  obtain ⟨log, result⟩ := x
  cases result <;> rfl

theorem result_bind_ofExcept {α β : Type} (x : Attempt α) (f : α → Except Fault β) :
    (x.bind fun a => .ofExcept (f a)).result = x.result.bind f := by
  obtain ⟨log, result⟩ := x
  cases result with
  | ok a => exact Attempt.result_ofExcept (f a)
  | error fault => rfl

theorem result_after {α : Type} {check : Attempt α} {act : α → Outcome}
    (hact : ∀ a, (act a).attempt = .done .nothing) :
    (Outcome.after h s check act).attempt.result = check.result.map fun _ => .nothing := by
  cases hc : check.result with
  | ok a =>
    rw [Outcome.after_ok hc, hact]
    rfl
  | error fault =>
    rw [Outcome.after_error hc]
    rfl

theorem popTop_result (h : Heap) (s : Stack) : ∃ answer, (popTop h s).attempt.result = .ok answer := by
  unfold popTop
  split <;> exact ⟨_, rfl⟩

def head (s : Stack) : Except Fault Entry := s.entries.head?.elim (.error Stack.emptyPop) .ok

theorem toOption_head (s : Stack) : (head s).toOption = s.entries.head? := by
  rw [head]
  cases s.entries.head? <;> rfl

theorem head_explained (s : Stack) : (need (.integer 1) s.height).Explains (head s) := by
  have hwritten : ¬ (need (.integer 1) s.height).unwritten := by
    rintro ⟨_, hnone⟩
    have hone : Decimal.text? 1 = none := hnone
    rw [Decimal.text?_of_lt (by decide)] at hone
    cases hone
  obtain ⟨l⟩ := s
  cases l with
  | nil => exact explains_underflow id rfl Int.zero_lt_one rfl hwritten .emptyPop
  | cons e rest =>
    refine explains_ok id ?_ hwritten e
    rintro d ⟨⟩
    show (1 : Int) ≤ (rest.length + 1 : Nat)
    omega

theorem result_consume {α : Type} (read : Entry → Except Fault α) (answer : α → Answer) :
    (consume h s read answer).attempt.result = ((head s).bind read).map answer := by
  obtain ⟨l⟩ := s
  cases l with
  | nil => rfl
  | cons e rest => exact result_read_ofExcept (read e) answer

theorem commit_explained (h : Heap) (s : Stack) :
    (Request.commit (s.contents h)).Explains (commit.run h s).attempt.result := by
  have hrun : (commit.run h s).attempt.result = (s.commitment h).result.map .bytes := by
    cases hdata : (s.commitment h).result with
    | ok data => exact congrArg (fun o => o.attempt.result) (run_commit_ok hdata)
    | error fault => exact congrArg (fun o => o.attempt.result) (run_commit_error hdata)
  rw [hrun]
  exact (Stack.commitment_explained h s).map _

/-- What an operation asks for explains how it ends, on every stack. -/
theorem request_explains {op : StackOp} (hop : op.WellTyped) (h : Heap) (s : Stack) :
    (op.request h s).Explains (op.run h s).attempt.result := by
  cases op with
  | height | isEmpty | hasEntries | table => exact explains_free _
  | display | json =>
    rw [run, result_read]
    exact (explains_display _ _).map _
  | top p | topBytes p =>
    obtain ⟨o, ho⟩ := Option.isSome_iff_exists.mp hop
    rw [run, result_read]
    exact (Stack.top_explained ho).map _
  | topNumber p minimal =>
    obtain ⟨o, ho⟩ := Option.isSome_iff_exists.mp hop
    rw [run, result_read, result_bind_ofExcept]
    exact ((Stack.top_explained ho).bind_toNumber rfl h minimal).map _
  | last =>
    rw [run, result_read]
    exact (Stack.top_explained (p := topmost) rfl).map _
  | bytesAt p =>
    obtain ⟨i, hi⟩ := Option.isSome_iff_exists.mp hop
    rw [run, result_read]
    exact (Stack.entryAt_explained hi).map _
  | removeAt p =>
    obtain ⟨i, hi⟩ := Option.isSome_iff_exists.mp hop
    rw [run, result_after fun _ => rfl]
    exact (Stack.depthOf_explained hi).map _
  | needAtLeast given =>
    obtain ⟨q, rfl, hq⟩ := hop
    obtain ⟨n, hn⟩ := Option.isSome_iff_exists.mp hq
    rw [run, result_read]
    exact (Stack.needAtLeast_explained hn).map _
  | popN given =>
    obtain ⟨q, rfl, hq⟩ := hop
    obtain ⟨n, hn⟩ := Option.isSome_iff_exists.mp hq
    rw [run, result_after fun _ => rfl]
    exact (Stack.removal_explained hn).map _
  | push given | pushNumber given | pushBytes given =>
    cases given with
    | ok a => exact explains_free _
    | error cause => cases hop
  | pop =>
    obtain ⟨answer, hanswer⟩ := popTop_result h s
    rw [run, hanswer]
    exact explains_free _
  | popBytes =>
    rw [run, result_consume]
    exact ((head_explained s).map _).map _
  | popNumber minimal =>
    have hread := (head_explained s).bind_toNumber rfl h minimal
    rw [toOption_head] at hread
    rw [run, result_consume]
    exact hread.map _
  | commit => exact commit_explained h s

end StackOp

end ScriptStack
