import ScriptStack.Proofs.Log.Tree

/-! The handlers that loggers come to have, over all configurations, and which logger a name stands for:
it is the same one from its first configuration on. -/
namespace ScriptStack.Log

def Handler.layout : Handler → Layout
  | console layout => layout
  | file _ layout => layout

def Handler.isConsole : Handler → Bool
  | console _ => true
  | file .. => false

/-- No handler twice, none for a file alone, and all in one layout. -/
structure Tidy (handlers : List Handler) : Prop where
  oneConsole : handlers.countP Handler.isConsole ≤ 1
  oneFile : handlers.countP (fun handler => !handler.isConsole) ≤ 1
  fileBesideConsole : ∀ handler ∈ handlers, ∃ console ∈ handlers, console.isConsole = true
  oneLayout : ∀ handler ∈ handlers, ∀ other ∈ handlers, handler.layout = other.layout

/-- What configurations come to: no handlers yet, one for the console, or one for a file as well. -/
inductive Equipped : List Handler → Prop
  | bare : Equipped []
  | console (layout : Layout) : Equipped [.console layout]
  | consoleAndFile (layout : Layout) (place : Path) :
    Equipped [.console layout, .file place layout]

theorem Equipped.tidy {handlers : List Handler} (h : Equipped handlers) : Tidy handlers := by
  cases h with
  | bare => constructor <;> simp
  | console layout => constructor <;> simp [List.countP_singleton, Handler.isConsole]
  | consoleAndFile layout place =>
    constructor <;> simp [List.countP_cons, Handler.isConsole, Handler.layout]

namespace Registry

variable {r after : Registry} {name other : String} {logger : Logger} {request : Request}
  {layout : Layout} {level : Level}

/-! ### The handlers of all loggers -/

theorem handlers_addTarget (h : r.find? name = some logger)
    (hhandlers : logger.handlers = [.console layout]) (target : Target) :
    ((r.addTarget name layout target).1.setup name).2 = [.console layout] ∨
      ∃ place, ((r.addTarget name layout target).1.setup name).2 =
        [.console layout, .file place layout] := by
  have hkept : (r.setup name).2 = [.console layout] := by
    rw [setup_of_find? h]
    exact hhandlers
  have htakes := takes_addTarget r name layout target
  generalize r.addTarget name layout target = outcome at htakes
  cases htakes with
  | none | emptyText | notAPath | noFile => exact .inl hkept
  | @file _ files place =>
    refine .inr ⟨place, ?_⟩
    rw [setup_addHandler_self (r := { r with files := files }) h, hhandlers]
    rfl

theorem handlers_after_begun (hnone : (r.setup name).2 = []) {target : Target}
    {outcome : Except ConfigFault Unit}
    (h : (r.begun name level layout).addTarget name layout target = (after, outcome)) :
    (after.setup name).2 = [.console layout] ∨
      ∃ place, (after.setup name).2 = [.console layout, .file place layout] := by
  obtain ⟨logger, hfind, hsetup⟩ := find?_begun hnone level layout
  have hhandlers := handlers_addTarget hfind (congrArg Prod.snd hsetup) target
  rwa [h] at hhandlers

theorem equipped_configure_self (h : Equipped (r.setup request.name).2) :
    Equipped ((r.configure request).1.setup request.name).2 := by
  have hgoes := goes_configure r request
  generalize r.configure request = outcome at hgoes
  cases hgoes with
  | kept | noLevel => rwa [setup_ensure]
  | @noLayout level hnone =>
    have hhandlers := (handlers_ensure r request.name).trans hnone
    rw [setup_of_find? (find?_setLevel_self (find?_ensure_self r request.name) level)]
    change Equipped (r.ensure request.name).2.handlers
    rw [hhandlers]
    exact .bare
  | @noTarget level layout after _ hnone _ _ htarget
  | @made level layout after hnone _ _ htarget =>
    obtain hconsole | ⟨place, hboth⟩ := handlers_after_begun hnone htarget
    · rw [hconsole]
      exact .console layout
    · rw [hboth]
      exact .consoleAndFile layout place

theorem equipped_act (h : ∀ name, Equipped (r.setup name).2) (a : Act) (name : String) :
    Equipped ((r.act a).setup name).2 := by
  cases a with
  | log => rw [act, setup_logAt]; exact h name
  | configure request =>
    rw [act]
    cases hsame : isSame name request.name with
    | true => rw [setup_of_isSame hsame]; exact equipped_configure_self (h request.name)
    | false => rw [setup_configure_of_ne hsame]; exact h name

theorem equipped_run (h : ∀ name, Equipped (r.setup name).2) (acts : List Act) (name : String) :
    Equipped ((r.run acts).setup name).2 := by
  induction acts generalizing r with
  | nil => exact h name
  | cons a rest ih => exact ih (equipped_act h a)

theorem equipped_start (name : String) : Equipped (start.setup name).2 := by
  cases hname : isRootName name with
  | true => rw [setup, find?_of_isRootName hname]; exact .bare
  | false => rw [setup, find?_of_not_isRootName hname]; exact .bare

theorem handlers_of_configure (h : r.configure request = (after, .ok logger)) :
    (after.setup request.name).2 ≠ [] := by
  have hgoes := goes_configure r request
  rw [h] at hgoes
  cases hgoes with
  | kept hhandlers => rwa [setup_ensure]
  | made hnone _ _ htarget =>
    obtain hconsole | ⟨place, hboth⟩ := handlers_after_begun hnone htarget
    · rw [hconsole]
      nofun
    · rw [hboth]
      nofun

/-! ### Which logger a name stands for -/

/-- A logger apart from all that can be set in it: the outermost one, or the one that was made after so
many others. -/
inductive Seat where
  | outermost
  | made (others : Nat)
  deriving DecidableEq, Repr

def seat? (r : Registry) (name : String) : Option Seat :=
  if isRootName name then some .outermost else (r.names.findIdx? (· == name)).map .made

def at? (r : Registry) : Seat → Option Logger
  | .outermost => some r.root
  | .made others => r.loggers[others]?.map (·.2)

theorem seat?_of_not_isRootName (h : isRootName name = false) :
    r.seat? name = (r.names.findIdx? (· == name)).map .made := by
  rw [seat?, h]
  rfl

theorem find?_eq_at? (r : Registry) (name : String) : r.find? name = (r.seat? name).bind r.at? := by
  cases hname : isRootName name with
  | true => rw [find?_of_isRootName hname, seat?, if_pos hname]; rfl
  | false =>
    rw [find?_of_not_isRootName hname, seat?_of_not_isRootName hname, names, List.findIdx?_map,
      List.find?_eq_bind_findIdx?_getElem?, Option.map_bind, Option.bind_map]
    rfl

theorem eq_of_findIdx? {names : List String} {i : Nat} (h : names.findIdx? (· == name) = some i) :
    names[i]? = some name := by
  obtain ⟨hi, hname, _⟩ := List.findIdx?_eq_some_iff_getElem.mp h
  rw [List.getElem?_eq_getElem hi, beq_iff_eq.mp hname]

theorem isSame_of_seat? {seat : Seat} (h : r.seat? name = some seat)
    (hother : r.seat? other = some seat) : isSame name other = true := by
  cases hname : isRootName name <;> cases hroot : isRootName other
  case true.true => simp [isSame, hname, hroot]
  case true.false | false.true =>
    rw [seat?, hname] at h
    rw [seat?, hroot] at hother
    cases seat <;> simp at h hother
  case false.false =>
    rw [seat?_of_not_isRootName hname] at h
    rw [seat?_of_not_isRootName hroot] at hother
    obtain ⟨i, hi, rfl⟩ := Option.map_eq_some_iff.mp h
    obtain ⟨j, hj, hsame⟩ := Option.map_eq_some_iff.mp hother
    cases hsame
    have heq := (eq_of_findIdx? hi).symm.trans (eq_of_findIdx? hj)
    cases heq
    exact isSame_self name

theorem seat?_of_isSame (h : isSame other name = true) (r : Registry) :
    r.seat? other = r.seat? name := by
  rw [isSame, Bool.or_eq_true, Bool.and_eq_true, beq_iff_eq] at h
  obtain rfl | ⟨hother, hname⟩ := h
  · rfl
  · rw [seat?, seat?, if_pos hother, if_pos hname]

theorem seat?_run {seat : Seat} (h : r.seat? name = some seat) (acts : List Act) :
    (r.run acts).seat? name = some seat := by
  cases hname : isRootName name with
  | true =>
    rw [seat?, if_pos hname] at h ⊢
    exact h
  | false =>
    rw [seat?_of_not_isRootName hname] at h ⊢
    obtain ⟨i, hi, rfl⟩ := Option.map_eq_some_iff.mp h
    -- New loggers come last, so that the places of the old ones stand.
    obtain ⟨rest, hrest⟩ := prefix_names_run r acts
    rw [← hrest, List.findIdx?_append, hi]
    rfl

theorem find?_of_configure (h : r.configure request = (after, .ok logger)) :
    after.find? request.name = some logger := by
  have hhandlers := handlers_of_configure h
  have hgoes := goes_configure r request
  rw [h] at hgoes
  cases hgoes with
  | kept => exact find?_ensure_self ..
  | made =>
    obtain ⟨found, hfind, _⟩ := find?_of_handlers hhandlers
    rw [ensure_of_find? hfind, hfind]

theorem configure_again {later : Request} {last : Registry} {again : Logger} {seat : Seat}
    (hanswer : r.configure request = (after, .ok logger))
    (hseat : after.seat? request.name = some seat) (acts : List Act)
    (hagain : (after.run acts).configure later = (last, .ok again)) :
    (last.seat? later.name = some seat ↔ isSame later.name request.name = true) ∧
    (isSame later.name request.name = true →
      last.at? seat = some again ∧ again.setup = logger.setup) := by
  have hlast : last.seat? request.name = some seat := by
    have hrun := seat?_run (seat?_run hseat acts) [.configure later]
    rwa [run, act, hagain] at hrun
  have hseats : last.seat? later.name = some seat ↔ isSame later.name request.name = true :=
    ⟨fun h => isSame_of_seat? h hlast, fun h => (seat?_of_isSame h last).trans hlast⟩
  refine ⟨hseats, fun hsame => ?_⟩
  have hfind := find?_of_configure hagain
  rw [find?_eq_at?, hseats.mpr hsame] at hfind
  have hhandlers := handlers_of_configure hanswer
  have hsetup := setup_run_of_handlers hhandlers acts
  have hthere : ((after.run acts).setup later.name).2 ≠ [] := by
    rw [setup_of_isSame hsame, hsetup]
    exact hhandlers
  obtain ⟨found, hkept, hfound⟩ := configure_of_handlers hthere
  cases hagain.symm.trans hkept
  refine ⟨hfind, ?_⟩
  calc
    again.setup = (after.run acts).setup later.name := hfound
    _ = after.setup request.name := by rw [setup_of_isSame hsame, hsetup]
    _ = logger.setup := setup_of_find? (find?_of_configure hanswer)

/-- Over all configurations and records, from no loggers on: no logger has a handler twice, a handler for
a file alone, or handlers in two layouts. The configurations of one name that are not refused answer with
one logger, which is that of no other name, and leave it with handlers. A logger that has handlers keeps
them and its level for good, and every configuration of its name answers with it and changes nothing, no
file either. -/
theorem configured_once (acts : List Act) :
    let r := start.run acts
    (∀ name, Tidy (r.setup name).2) ∧
    (∀ request after logger, r.configure request = (after, .ok logger) →
      (after.setup request.name).2 ≠ [] ∧
      ∃ seat, after.seat? request.name = some seat ∧ after.at? seat = some logger ∧
        ∀ rest later last again, (after.run rest).configure later = (last, .ok again) →
          (last.seat? later.name = some seat ↔ isSame later.name request.name = true) ∧
          (isSame later.name request.name = true →
            last.at? seat = some again ∧ again.setup = logger.setup)) ∧
    ∀ name, (r.setup name).2 ≠ [] → r.IsFixedAt name (r.setup name) := by
  intro r
  refine ⟨fun name => (equipped_run equipped_start acts name).tidy, ?_,
    fun _ => isFixedAt_of_handlers⟩
  intro request after logger hanswer
  have hfind := find?_of_configure hanswer
  rw [find?_eq_at?] at hfind
  obtain ⟨seat, hseat, hat⟩ := Option.bind_eq_some_iff.mp hfind
  exact ⟨handlers_of_configure hanswer, seat, hseat, hat,
    fun rest _ _ _ => configure_again hanswer hseat rest⟩

/-- A logger for the console, configured again with a level that is none, a layout without fields and a
file: it is the same one, and the file is not made. -/
theorem configured_once_for_console :
    let first : Request := ⟨"t.a", "INFO", none, .none⟩
    let later : Request := ⟨"t.a", "LOUD", some "no field", .path (Path.home ++ ["x.log"])⟩
    let r := (start.configure first).1
    Tidy (r.setup "t.a").2 ∧ (r.setup "t.a").2 ≠ [] ∧
    ∃ logger, start.configure first = (r, .ok logger) ∧
      ∃ again, r.configure later = (r, .ok again) ∧
        again.setup = (.info, [.console .standard]) ∧
        r.seat? "t.a" = some (.made 0) ∧ r.at? (.made 0) = some again := by
  have hok : (start.configure ⟨"t.a", "INFO", none, .none⟩).2.isOk = true := rfl
  have hlevel : (start.configure ⟨"t.a", "INFO", none, .none⟩).1.setup "t.a" =
      (.info, [.console .standard]) := rfl
  have hplace : (start.configure ⟨"t.a", "INFO", none, .none⟩).1.seat? "t.a" = some (.made 0) := rfl
  intro first later r
  obtain ⟨htidy, _, hfixed⟩ := configured_once [.configure first]
  obtain ⟨_, hanswers, _⟩ := configured_once []
  cases houtcome : (start.configure first).2 with
  | error fault => cases (congrArg Except.isOk houtcome).symm.trans hok
  | ok logger =>
    have hanswer : start.configure first = (r, .ok logger) := Prod.ext rfl houtcome
    obtain ⟨hhandlers, seat, hseat, _, hagain⟩ := hanswers first r logger hanswer
    cases hplace.symm.trans hseat
    obtain ⟨again, hkept, hsetup⟩ := (hfixed "t.a" hhandlers []).2 later rfl
    obtain ⟨_, hsame⟩ := hagain [] later r again hkept
    obtain ⟨hat, _⟩ := hsame (isSame_self "t.a")
    exact ⟨htidy "t.a", hhandlers, logger, hanswer, again, hkept, hsetup.trans hlevel,
      hseat, hat⟩

end Registry

end ScriptStack.Log
