import ScriptStack.Proofs.Log.Ancestry
import ScriptStack.Proofs.Log.Handlers

/-! What a record comes to on the standard output: one line for each logger of its lineage that has
handlers, so one line alone only where nothing above its logger has been configured. -/
namespace ScriptStack.Log

def Handler.line? (record : Record) (time : String) : Handler → Option String
  | console layout => layout.line? record time
  | file .. => none

theorem Equipped.lines {handlers : List Handler} (h : Equipped handlers) (record : Record)
    (time : String) :
    handlers = [] ∨ ∃ layout, (∀ handler ∈ handlers, handler.layout = layout) ∧
      handlers.filterMap (Handler.line? record time) = (layout.line? record time).toList := by
  cases h with
  | bare => exact .inl rfl
  | console layout | consoleAndFile layout place =>
    refine .inr ⟨layout, by simp [Handler.layout], ?_⟩
    rw [List.filterMap_cons, Handler.line?]
    cases layout.line? record time <;> rfl

namespace Layout

theorem text?_plain (text : String) : Spec.plain.text? 's' text = some text.toList := by
  simp [Spec.text?, Spec.padText, Spec.pad, Spec.plain]

theorem pieces?_standard : pieces? standard.text = some
    [.field .time .plain 's', .literal ' ', .literal '[', .field .name .plain 's', .literal ']',
      .literal ' ', .literal '[', .field .levelName .plain 's', .literal ']', .literal ':',
      .literal ' ', .field .message .plain 's'] := by
  decide +kernel

theorem line?_standard (record : Record) (time : String) :
    standard.line? record time = some (time ++ " [" ++ record.logger ++ "] [" ++
      record.level.name ++ "]: " ++ record.message ++ "\n") := by
  rw [line?, pieces?_standard]
  simp only [Option.bind_eq_bind, Option.bind_some, List.mapM_cons, Piece.write?, Field.write?,
    text?_plain, List.mapM_nil]
  apply congrArg some
  apply String.toList_inj.mp
  simp

end Layout

namespace Registry

variable {r : Registry} {name : String} {logger : Logger} {record : Record} {time : String}
  {f : Logger → Logger}

/-! ### Handlers in a row -/

theorem deliver_output (record : Record) (time : String) (state : Registry × String)
    (handler : Handler) :
    (deliver record time state handler).2 =
      state.2 ++ String.join (handler.line? record time).toList := by
  cases handler with
  | console layout =>
    rw [deliver, Handler.line?]
    cases layout.line? record time <;> simp
  | file place layout =>
    rw [deliver, Handler.line?]
    simp

theorem foldl_deliver_output (record : Record) (time : String) (handlers : List Handler)
    (state : Registry × String) :
    (handlers.foldl (deliver record time) state).2 =
      state.2 ++ String.join (handlers.filterMap (Handler.line? record time)) := by
  induction handlers generalizing state with
  | nil => simp
  | cons handler rest ih =>
    rw [List.foldl_cons, ih, deliver_output, String.append_assoc, ← String.join_append,
      List.filterMap_cons]
    cases handler.line? record time <;> rfl

def line? (r : Registry) (record : Record) (time name : String) : Option String :=
  (r.setup name).2.findSome? (Handler.line? record time)

theorem filterMap_of_equipped {handlers : List Handler} (h : Equipped handlers) (record : Record)
    (time : String) :
    handlers.filterMap (Handler.line? record time) =
      (handlers.findSome? (Handler.line? record time)).toList := by
  rw [← List.head?_filterMap]
  obtain rfl | ⟨layout, _, hlines⟩ := h.lines record time
  · rfl
  · rw [hlines, Option.head?_toList]

theorem filterMap_handlers (hequipped : ∀ name, Equipped (r.setup name).2) (names : List String) :
    ((names.filterMap r.find?).flatMap Logger.handlers).filterMap (Handler.line? record time) =
      names.filterMap (r.line? record time) := by
  induction names with
  | nil => rfl
  | cons name rest ih =>
    have hline := filterMap_of_equipped (hequipped name) record time
    rw [List.filterMap_cons, List.filterMap_cons, line?]
    cases hfind : r.find? name with
    | none =>
      rw [setup, hfind]
      exact ih
    | some logger =>
      rw [setup_of_find? hfind] at hline ⊢
      rw [List.flatMap_cons, List.filterMap_append, ih]
      change logger.handlers.filterMap _ ++ _ = _
      change logger.handlers.filterMap _ = _ at hline
      rw [hline]
      cases logger.setup.2.findSome? (Handler.line? record time) <;> rfl

/-! ### What is learned of a record -/

theorem lineageWithin_update (hf : ∀ logger, (f logger).parent = logger.parent) (steps : Nat)
    (other : String) : (r.update name f).lineageWithin steps other = r.lineageWithin steps other := by
  induction steps generalizing other with
  | zero => rfl
  | succ steps ih =>
    rw [lineageWithin, lineageWithin, find?_update]
    cases r.find? other with
    | none => rfl
    | some logger =>
      have hparent : (if isSame other name then f logger else logger).parent = logger.parent := by
        split <;> simp [hf]
      rw [Option.map_some]
      dsimp only
      rw [hparent, ih]

theorem lineage_learn (r : Registry) (record : Record) (name : String) :
    (r.learn record).lineage name = r.lineage name := by
  have hlinks : (r.learn record).links = r.links := links_learn r record
  have hlength : (r.learn record).loggers.length = r.loggers.length := by
    simpa [links] using congrArg List.length hlinks
  rw [lineage, lineage, hlength, learn]
  exact lineageWithin_update (fun logger => by split <;> rfl) ..

theorem exists_lookup {decided : List (Level × Bool)} {level : Level} {enabled : Bool}
    (h : decided.contains (level, enabled) = true) : ∃ known, decided.lookup level = some known := by
  cases hlookup : decided.lookup level with
  | some known => exact ⟨known, rfl⟩
  | none =>
    have hnone := List.lookup_eq_none_iff.mp hlookup _ (List.contains_iff_mem.mp h)
    simp at hnone

theorem isEnabled_learn (h : r.find? record.logger = some logger) :
    (r.learn record).isEnabled record = r.isEnabled record := by
  have hfind := find?_update_self (f := fun logger =>
    if logger.decided.contains (record.level, r.isEnabled record) then logger
    else { logger with decided := (record.level, r.isEnabled record) :: logger.decided }) h
  change (r.learn record).find? record.logger = _ at hfind
  by_cases hknown : logger.decided.contains (record.level, r.isEnabled record) = true
  · obtain ⟨known, hlookup⟩ := exists_lookup hknown
    rw [if_pos hknown] at hfind
    rw [isEnabled, hfind, isEnabled, h]
    simp [hlookup]
  · rw [if_neg hknown] at hfind
    rw [isEnabled, hfind]
    simp

/-! ### Logging a record -/

def shownName (name : String) : String := if isRootName name then rootName else name

theorem find?_shownName (r : Registry) (name : String) : r.find? (shownName name) = r.find? name := by
  unfold shownName
  split
  · rename_i hname
    rw [find?_of_isRootName hname, find?_of_isRootName isRootName_rootName]
  · rfl

theorem line?_learn (r : Registry) (record : Record) : (r.learn record).line? = r.line? := by
  funext shown time name
  rw [line?, setup_learn, line?]

/-- A record that its logger lets through is written by all loggers of the lineage, in their order. -/
theorem log_output (hequipped : ∀ name, Equipped (r.setup name).2) (hfind : r.find? name = some logger)
    {level : Level} {message : String}
    (henabled : r.isEnabled ⟨shownName name, level, message⟩ = true) (time : String) :
    (r.log name level message time).2 = String.join
      ((r.lineage (shownName name)).filterMap (r.line? ⟨shownName name, level, message⟩ time)) := by
  have hshown := (find?_shownName r name).trans hfind
  have hlearned : ∀ other,
      Equipped ((r.learn ⟨shownName name, level, message⟩).setup other).2 := fun other => by
    rw [setup_learn]
    exact hequipped other
  unfold log
  rw [ensure_of_find? hfind]
  dsimp only
  -- What is learned of the record first changes neither its way nor what is written.
  rw [← shownName, isEnabled_learn hshown, henabled, if_pos rfl, emit, foldl_deliver_output, chain_eq,
    lineage_learn, filterMap_handlers hlearned, line?_learn, String.empty_append]

/-! ### One line, or more -/

theorem line?_eq (h : Equipped (r.setup name).2) (record : Record) (time : String) :
    ((r.setup name).2 = [] ∧ r.line? record time name = none) ∨
      ∃ layout, (∀ handler ∈ (r.setup name).2, handler.layout = layout) ∧
        r.line? record time name = layout.line? record time := by
  rw [line?, ← List.head?_filterMap]
  obtain hnone | ⟨layout, hsame, hlines⟩ := h.lines record time
  · exact .inl ⟨hnone, by rw [hnone]; rfl⟩
  · exact .inr ⟨layout, hsame, by rw [hlines, Option.head?_toList]⟩

theorem exists_above (hlinked : Linked r) (hfind : r.find? name = some logger) :
    ∃ above, r.lineage (shownName name) = shownName name :: above ∧
      ∀ upper ∈ above, Outranks upper (shownName name) := by
  cases hroot : isRootName name with
  | true =>
    rw [shownName, if_pos hroot]
    exact ⟨[], lineageWithin_of_isRootName isRootName_rootName .., nofun⟩
  | false =>
    rw [shownName, hroot]
    refine ⟨_, lineageWithin_of_find? hroot hfind _, fun upper hupper => ?_⟩
    have hparent := outranks_of_find? hlinked hroot hfind
    obtain rfl | habove := of_mem_lineageWithin hlinked hupper
    · exact hparent
    · exact habove.trans hparent

theorem length_filterMap_eq_one_iff {line? : String → Option String} {own line : String}
    (hline : line? own = some line) (above : List String) :
    ((own :: above).filterMap line?).length = 1 ↔ ∀ upper ∈ above, line? upper = none := by
  rw [List.filterMap_cons, hline]
  simp [List.filterMap_eq_nil_iff]

/-- A record that is let through by a logger with handlers goes to the standard output once for each
logger of its lineage that has handlers and whose layout can show it. The lineage is the logger, parts of
its name, and the outermost logger; where the name is plain, and none of its parts with a logger starts
the name of the outermost one, it has all those parts. So the record is written once, as it should be,
only where nothing above its logger writes it too. -/
theorem written_by_each_configured (acts : List Act) (name : String) (level : Level)
    (message time : String) :
    let r := start.run acts
    let own := shownName name
    let record : Record := ⟨own, level, message⟩
    (r.setup name).2 ≠ [] → r.isEnabled record = true →
    ∃ above, r.lineage own = own :: above ∧ (own :: above).Nodup ∧
      (∀ upper ∈ above, Outranks upper own) ∧
      (isRootName name = false → IsPlain own →
        (∀ part ∈ parentNames own, part ∈ r.names → ¬ part.toList <+: rootName.toList) →
        above = (parentNames own).filter r.names.contains ++ [rootName]) ∧
      (∀ logger, (r.setup logger).2 = [] ∧ r.line? record time logger = none ∨
        ∃ layout, (∀ handler ∈ (r.setup logger).2, handler.layout = layout) ∧
          r.line? record time logger = layout.line? record time) ∧
      let lines := (own :: above).filterMap (r.line? record time)
      (r.log name level message time).2 = String.join lines ∧
      ((∀ upper ∈ above, (r.setup upper).2 = []) → lines = (r.line? record time own).toList) ∧
      ∀ line, r.line? record time own = some line →
        (lines.length = 1 ↔ ∀ upper ∈ above, r.line? record time upper = none) := by
  intro r own record hhandlers henabled
  have hlinked : Linked r := linked_run linked_start acts
  have hequipped : ∀ name, Equipped (r.setup name).2 := equipped_run equipped_start acts
  obtain ⟨logger, hfind, _⟩ := find?_of_handlers hhandlers
  obtain ⟨above, hlineage, houtranks⟩ := exists_above hlinked hfind
  have hnodup := nodup_lineageWithin hlinked (r.loggers.length + 1) own
  have houtput := log_output hequipped hfind henabled time
  change (r.lineage own).Nodup at hnodup
  rw [hlineage] at hnodup houtput
  refine ⟨above, hlineage, hnodup, houtranks, ?_, fun other => line?_eq (hequipped other) record time,
    houtput, ?_, fun line hline => length_filterMap_eq_one_iff hline above⟩
  · intro hroot hplain hclear
    have hown : own = name := by simp [own, shownName, hroot]
    have hmem : own ∈ r.names := by
      rw [hown]
      exact (exists_find?_iff hroot).mp ⟨logger, hfind⟩
    have hall := lineage_of_plain hlinked hmem hplain hclear
    rw [hlineage, List.cons_append] at hall
    exact (List.cons.inj hall).2
  · intro hbare
    have hnone : above.filterMap (r.line? record time) = [] :=
      List.filterMap_eq_nil_iff.mpr fun upper hupper => by rw [line?, hbare upper hupper]; rfl
    rw [List.filterMap_cons, hnone]
    cases r.line? record time own <;> rfl

/-- A logger below another one: what the lower one lets through is written by both, in the standard
layout; what the upper one lets through is written once. -/
theorem written_by_parent_too :
    let r := start.run
      [.configure ⟨"a", "INFO", none, .none⟩, .configure ⟨"a.b", "INFO", none, .none⟩]
    (r.setup "a.b").2 ≠ [] ∧ r.isEnabled ⟨"a.b", .info, "x"⟩ = true ∧
    r.lineage "a.b" = ["a.b", "a", rootName] ∧
    (r.log "a.b" .info "x" "now").2 =
      String.join ["now [a.b] [INFO]: x\n", "now [a.b] [INFO]: x\n"] ∧
    (r.setup "a").2 ≠ [] ∧ r.isEnabled ⟨"a", .info, "x"⟩ = true ∧ r.lineage "a" = ["a", rootName] ∧
    (r.log "a" .info "x" "now").2 = String.join ["now [a] [INFO]: x\n"] := by
  have hlower : ((start.run [.configure ⟨"a", "INFO", none, .none⟩,
      .configure ⟨"a.b", "INFO", none, .none⟩]).setup "a.b").2 ≠ [] := by decide +kernel
  have hupper : ((start.run [.configure ⟨"a", "INFO", none, .none⟩,
      .configure ⟨"a.b", "INFO", none, .none⟩]).setup "a").2 ≠ [] := by decide +kernel
  obtain ⟨_, hlineage, _, _, hplain, _, hlines, _⟩ :=
    written_by_each_configured _ "a.b" .info "x" "now" hlower (by decide +kernel)
  obtain ⟨_, hlineage', _, _, hplain', _, hlines', hbare, _⟩ :=
    written_by_each_configured _ "a" .info "x" "now" hupper (by decide +kernel)
  cases hplain rfl (by unfold IsPlain; decide) (by decide +kernel)
  cases hplain' rfl (by unfold IsPlain; decide) (by decide +kernel)
  refine ⟨hlower, by decide +kernel, hlineage, hlines.trans ?_, hupper, by decide +kernel, hlineage',
    hlines'.trans ?_⟩
  · exact congrArg String.join (by decide +kernel)
  · exact congrArg String.join ((hbare (by decide +kernel)).trans (by decide +kernel))

/-- A record is written twice where a logger and one above it have been configured, both with success. -/
theorem record_written_twice :
    let upper : Request := ⟨"a", "INFO", none, .none⟩
    let lower : Request := ⟨"a.b", "INFO", none, .none⟩
    let r := start.run [.configure upper, .configure lower]
    (start.configure upper).2.isOk = true ∧
    ((start.configure upper).1.configure lower).2.isOk = true ∧
    r.isEnabled ⟨"a.b", .info, "x"⟩ = true ∧
    Layout.standard.line? ⟨"a.b", .info, "x"⟩ "now" = some "now [a.b] [INFO]: x\n" ∧
    (r.log "a.b" .info "x" "now").2 = "now [a.b] [INFO]: x\nnow [a.b] [INFO]: x\n" :=
  ⟨rfl, rfl, rfl, Layout.line?_standard .., by decide +kernel⟩

end Registry

end ScriptStack.Log
