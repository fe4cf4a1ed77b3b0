import ScriptStack.Proofs.Log.Setup

/-! What a configuration leaves of its logger when it is refused, and what later ones make of that. -/
namespace ScriptStack.Log.Registry

variable {r s after : Registry} {name other : String} {logger : Logger} {level : Level}
  {layout : Layout} {target : Target} {fault : ConfigFault} {request later : Request} {path : Path}

/-! ### How a configuration goes -/

def begun (r : Registry) (name : String) (level : Level) (layout : Layout) : Registry :=
  ((r.ensure name).1.setLevel name level).addHandler name (.console layout)

/-- How a configuration goes, by the step that ends it: what it leaves, and what it answers. -/
inductive Goes (r : Registry) (request : Request) : Registry × Except ConfigFault Logger → Prop
  | kept : (r.setup request.name).2 ≠ [] →
    Goes r request ((r.ensure request.name).1, .ok (r.ensure request.name).2)
  | noLevel {cause : Misuse} : (r.setup request.name).2 = [] →
    Level.ofAnyCase request.level = .error cause →
    Goes r request ((r.ensure request.name).1, .error (.level cause))
  | noLayout {level : Level} : (r.setup request.name).2 = [] →
    Level.ofAnyCase request.level = .ok level → layoutOf request.layout = .error .emptyLayout →
    Goes r request ((r.ensure request.name).1.setLevel request.name level, .error .emptyLayout)
  | noTarget {level : Level} {layout : Layout} {after : Registry} {fault : ConfigFault} :
    (r.setup request.name).2 = [] →
    Level.ofAnyCase request.level = .ok level → layoutOf request.layout = .ok layout →
    (r.begun request.name level layout).addTarget request.name layout request.target =
      (after, .error fault) →
    Goes r request (after, .error fault)
  | made {level : Level} {layout : Layout} {after : Registry} : (r.setup request.name).2 = [] →
    Level.ofAnyCase request.level = .ok level → layoutOf request.layout = .ok layout →
    (r.begun request.name level layout).addTarget request.name layout request.target =
      (after, .ok ()) →
    Goes r request (after, .ok (after.ensure request.name).2)

theorem layoutOf_eq_error {text : Option String} (h : layoutOf text = .error fault) :
    fault = .emptyLayout := by
  cases text with
  | none => cases h
  | some text =>
    rw [layoutOf] at h
    cases hlayout : Layout.ofText? text with
    | none =>
      rw [hlayout] at h
      cases h
      rfl
    | some layout =>
      rw [hlayout] at h
      cases h

theorem goes_configure (r : Registry) (request : Request) : Goes r request (r.configure request) := by
  have hsetup := handlers_ensure r request.name
  unfold configure
  dsimp only
  split
  · rename_i hhandlers
    refine .kept fun hnone => ?_
    rw [hsetup, hnone] at hhandlers
    cases hhandlers
  · rename_i hhandlers
    have hnone : (r.setup request.name).2 = [] := by
      rw [← hsetup]
      simpa using hhandlers
    split
    · rename_i cause hlevel
      exact .noLevel hnone hlevel
    · rename_i level hlevel
      split
      · rename_i fault hlayout
        cases layoutOf_eq_error hlayout
        exact .noLayout hnone hlevel hlayout
      · rename_i layout hlayout
        split
        · rename_i fault htarget
          exact .noTarget hnone hlevel hlayout (Prod.ext rfl htarget)
        · rename_i htarget
          exact .made hnone hlevel hlayout (Prod.ext rfl htarget)

/-! ### The file handler -/

/-- How a target is taken. A path that is refused leaves files at most, and one that is accepted comes to
a handler for its file. -/
inductive Takes (r : Registry) (name : String) (layout : Layout) :
    Target → Registry × Except ConfigFault Unit → Prop
  | none : Takes r name layout .none (r, .ok ())
  | emptyText {text : String} : text.isEmpty = true → Takes r name layout (.text text) (r, .ok ())
  | notAPath {text : String} : text.isEmpty = false →
    Takes r name layout (.text text) (r, .error .notAPath)
  | noFile {path : Path} {files : Files} {cause : FileFault} :
    r.files.prepare path = (files, .error cause) →
    Takes r name layout (.path path) ({ r with files := files }, .error (.file cause))
  | file {path : Path} {files : Files} {place : Path} : r.files.prepare path = (files, .ok place) →
    Takes r name layout (.path path)
      ({ r with files := files }.addHandler name (.file place layout), .ok ())

theorem takes_addTarget (r : Registry) (name : String) (layout : Layout) (target : Target) :
    Takes r name layout target (r.addTarget name layout target) := by
  cases target with
  | none => exact .none
  | text text =>
    rw [addTarget]
    cases htext : text.isEmpty with
    | true => exact .emptyText htext
    | false => exact .notAPath htext
  | path path =>
    rw [addTarget, addFile]
    cases hfile : r.files.prepare path with
    | mk files outcome =>
      cases outcome with
      | error cause => exact .noFile hfile
      | ok place => exact .file hfile

theorem addTarget_eq_error (h : r.addTarget name layout target = (after, .error fault)) :
    (∀ other, after.setup other = r.setup other) ∧
      (fault = .notAPath ∨ ∃ cause, fault = .file cause) := by
  have htakes := takes_addTarget r name layout target
  rw [h] at htakes
  cases htakes with
  | notAPath => exact ⟨fun _ => rfl, .inl rfl⟩
  | noFile => exact ⟨fun _ => rfl, .inr ⟨_, rfl⟩⟩

theorem setup_addTarget_of_ne (h : isSame other name = false) (layout : Layout) (target : Target) :
    (r.addTarget name layout target).1.setup other = r.setup other := by
  have htakes := takes_addTarget r name layout target
  generalize r.addTarget name layout target = outcome at htakes
  cases htakes with
  | none | emptyText | notAPath | noFile => rfl
  | @file _ files => exact setup_update_of_ne (r := { r with files := files }) h

theorem setup_addHandler_self (h : r.find? name = some logger) (handler : Handler) :
    (r.addHandler name handler).setup name = (logger.level, logger.handlers ++ [handler]) :=
  setup_of_find? (find?_update_self h)

theorem find?_begun (hnone : (r.setup name).2 = []) (level : Level) (layout : Layout) :
    ∃ logger, (r.begun name level layout).find? name = some logger ∧
      logger.setup = (level, [.console layout]) := by
  have hhandlers := (handlers_ensure r name).trans hnone
  have hlevel := find?_setLevel_self (find?_ensure_self r name) level
  refine ⟨_, find?_update_self hlevel, ?_⟩
  simp [Logger.setup, Logger.forget, hhandlers]

theorem setup_begun_of_ne (h : isSame other name = false) (level : Level) (layout : Layout) :
    (r.begun name level layout).setup other = r.setup other := by
  rw [begun, addHandler, setup_update_of_ne h, setup_setLevel_of_ne h, setup_ensure]

theorem addTarget_path {files : Files} {place : Path} (name : String) (layout : Layout)
    (hfile : r.files.prepare path = (files, .ok place)) : r.addTarget name layout (.path path) =
      ({ r with files := files }.addHandler name (.file place layout), .ok ()) := by
  rw [addTarget, addFile, hfile]

theorem files_begun (r : Registry) (name : String) (level : Level) (layout : Layout) :
    (r.begun name level layout).files = r.files := by
  rw [begun, addHandler, files_update]
  exact (files_update ..).trans (files_ensure r name)

theorem configure_of_path (hnone : (r.setup request.name).2 = [])
    (hlevel : Level.ofAnyCase request.level = .ok level) (hlayout : layoutOf request.layout = .ok layout)
    (htarget : request.target = .path path) {files : Files} {place : Path}
    (hfile : r.files.prepare path = (files, .ok place)) :
    ∃ logger, (r.configure request).2 = .ok logger ∧
      logger.setup = (level, [.console layout, .file place layout]) := by
  obtain ⟨begun, hfind, hbegun⟩ := find?_begun hnone level layout
  have hadded := addTarget_path (r := r.begun request.name level layout) request.name layout
    (by rw [files_begun, hfile])
  have hgoes := goes_configure r request
  generalize r.configure request = outcome at hgoes ⊢
  cases hgoes with
  | kept hhandlers => exact absurd hnone hhandlers
  | noLevel _ hunknown => cases hlevel.symm.trans hunknown
  | noLayout _ _ hempty => cases hlayout.symm.trans hempty
  | noTarget _ hsame hshown hrefused =>
    cases hlevel.symm.trans hsame
    cases hlayout.symm.trans hshown
    rw [htarget, hadded] at hrefused
    cases hrefused
  | made _ hsame hshown hmade =>
    cases hlevel.symm.trans hsame
    cases hlayout.symm.trans hshown
    rw [htarget, hadded] at hmade
    cases hmade
    refine ⟨_, rfl, ?_⟩
    obtain ⟨rfl, hhandlers⟩ := Prod.mk.inj hbegun
    rw [setup_ensure_self, setup_addHandler_self (r := { r.begun _ _ _ with files := files }) hfind,
      hhandlers]
    rfl

/-! ### Loggers that have handlers -/

theorem setup_configure_of_ne (h : isSame other request.name = false) :
    (r.configure request).1.setup other = r.setup other := by
  have hgoes := goes_configure r request
  generalize r.configure request = outcome at hgoes
  cases hgoes with
  | kept | noLevel => exact setup_ensure ..
  | noLayout => rw [setup_setLevel_of_ne h, setup_ensure]
  | @noTarget level layout after fault _ _ _ htarget
  | @made level layout after _ _ _ htarget =>
    have hkept := setup_addTarget_of_ne (r := r.begun request.name level layout) h layout request.target
    rwa [htarget, setup_begun_of_ne h] at hkept

theorem find?_of_handlers (h : (r.setup name).2 ≠ []) :
    ∃ logger, r.find? name = some logger ∧ logger.setup = r.setup name := by
  cases hfind : r.find? name with
  | none =>
    rw [setup, hfind] at h
    exact absurd rfl h
  | some logger => exact ⟨logger, rfl, (setup_of_find? hfind).symm⟩

theorem configure_of_handlers (h : (r.setup request.name).2 ≠ []) :
    ∃ logger, r.configure request = (r, .ok logger) ∧ logger.setup = r.setup request.name := by
  obtain ⟨logger, hfind, hsetup⟩ := find?_of_handlers h
  refine ⟨logger, ?_, hsetup⟩
  have hgoes := goes_configure r request
  generalize r.configure request = outcome at hgoes ⊢
  cases hgoes with
  | kept => rw [ensure_of_find? hfind]
  | noLevel hnone | noLayout hnone | noTarget hnone | made hnone => exact absurd hnone h

theorem setup_of_isSame (h : isSame other name = true) (r : Registry) :
    r.setup other = r.setup name := by
  rw [isSame, Bool.or_eq_true, Bool.and_eq_true, beq_iff_eq] at h
  obtain rfl | ⟨hother, hname⟩ := h
  · rfl
  · rw [setup, setup, find?_of_isRootName hother, find?_of_isRootName hname]

inductive Act where
  | configure (request : Request)
  | log (name level message time : String)

def act (r : Registry) : Act → Registry
  | .configure request => (r.configure request).1
  | .log name level message time => (r.logAt name level message time).1

def run (r : Registry) : List Act → Registry
  | [] => r
  | a :: rest => (r.act a).run rest

theorem setup_act_of_handlers (h : (r.setup name).2 ≠ []) (a : Act) :
    (r.act a).setup name = r.setup name := by
  cases a with
  | log => exact setup_logAt ..
  | configure request =>
    cases hsame : isSame name request.name with
    | false => exact setup_configure_of_ne hsame
    | true =>
      rw [setup_of_isSame hsame] at h
      obtain ⟨logger, hanswer, _⟩ := configure_of_handlers h
      rw [act, hanswer]

theorem setup_run_of_handlers (h : (r.setup name).2 ≠ []) (acts : List Act) :
    (r.run acts).setup name = r.setup name := by
  induction acts generalizing r with
  | nil => rfl
  | cons a rest ih =>
    -- The step leaves the handlers, so the rest of the run starts with a logger that has some.
    have hstep := setup_act_of_handlers h a
    rw [run, ih (hstep.symm ▸ h), hstep]

def IsFixedAt (r : Registry) (name : String) (setup : Level × List Handler) : Prop :=
  ∀ acts, (r.run acts).setup name = setup ∧ ∀ later : Request, later.name = name →
    ∃ logger, (r.run acts).configure later = (r.run acts, .ok logger) ∧ logger.setup = setup

theorem isFixedAt_of_handlers (h : (r.setup name).2 ≠ []) : r.IsFixedAt name (r.setup name) := by
  intro acts
  have hsetup := setup_run_of_handlers h acts
  refine ⟨hsetup, fun later hname => ?_⟩
  rw [← hname] at hsetup h ⊢
  obtain ⟨logger, hanswer, hlogger⟩ := configure_of_handlers (r := r.run acts) (hsetup.symm ▸ h)
  exact ⟨logger, hanswer, hlogger.trans hsetup⟩

/-! ### Loggers that have none -/

/-- A call sees of the registry what making its logger gives. -/
theorem configure_congr (h : r.ensure request.name = s.ensure request.name) :
    r.configure request = s.configure request := by
  rw [configure, configure, h]

theorem setLevel_setLevel (r : Registry) (name : String) (first last : Level) :
    (r.setLevel name first).setLevel name last = r.setLevel name last := by
  unfold setLevel update forget
  split
  · simp [List.map_map, Function.comp_def, Logger.forget]
  · simp only [List.map_map, Logger.forget]
    congr 1
    refine List.map_congr_left fun row _ => ?_
    by_cases h : row.1 = name <;> simp [h]

theorem configure_setLevel (hnone : (r.setup later.name).2 = []) {asked : Level}
    (hlevel : Level.ofAnyCase later.level = .ok asked) (level : Level) :
    ((r.ensure later.name).1.setLevel later.name level).configure later = r.configure later := by
  have hhandlers := (handlers_ensure r later.name).trans hnone
  have hfind := find?_setLevel_self (find?_ensure_self r later.name) level
  have hforget : ({ (r.ensure later.name).2 with level := level }.forget).handlers = [] := hhandlers
  rw [configure, ensure_of_find? hfind, configure]
  dsimp only
  rw [hforget, hhandlers, hlevel]
  dsimp only
  rw [setLevel_setLevel]
  rfl

/-! ### Refusals -/

/-- What a refused call leaves of its logger, by the step that refused it: nothing, a level, or a level
and a console handler. Later calls set a level again, but a logger with a handler is theirs as it is. -/
def Leaves (r : Registry) (request : Request) (after : Registry) : ConfigFault → Prop
  | .level _ =>
    after.setup request.name = r.setup request.name ∧
    ∀ later : Request, later.name = request.name → after.configure later = r.configure later
  | .emptyLayout => ∃ level, Level.ofAnyCase request.level = .ok level ∧
    after.setup request.name = (level, []) ∧
    ∀ (later : Request) asked, later.name = request.name →
      Level.ofAnyCase later.level = .ok asked → after.configure later = r.configure later
  | .notAPath | .file _ => ∃ level layout, Level.ofAnyCase request.level = .ok level ∧
    layoutOf request.layout = .ok layout ∧
    after.IsFixedAt request.name (level, [.console layout])

theorem leaves_configure (h : (r.configure request).2 = .error fault) :
    (r.setup request.name).2 = [] ∧ r.Leaves request (r.configure request).1 fault := by
  have hgoes := goes_configure r request
  generalize r.configure request = outcome at h hgoes
  cases hgoes with
  | kept | made => cases h
  | noLevel hnone hlevel =>
    cases h
    refine ⟨hnone, setup_ensure .., fun later hname => ?_⟩
    rw [← hname]
    exact configure_congr (ensure_ensure r later.name)
  | @noLayout level hnone hlevel _ =>
    cases h
    refine ⟨hnone, level, hlevel, ?_, fun later asked hname hasked => ?_⟩
    · have hhandlers := (handlers_ensure r request.name).trans hnone
      rw [setup_of_find? (find?_setLevel_self (find?_ensure_self r request.name) level)]
      exact congrArg (Prod.mk level) hhandlers
    · rw [← hname] at hnone ⊢
      exact configure_setLevel hnone hasked level
  | @noTarget level layout after _ hnone hlevel hlayout htarget =>
    cases h
    obtain ⟨hafter, hfault⟩ := addTarget_eq_error htarget
    obtain ⟨logger, hfind, hlogger⟩ := find?_begun hnone level layout
    have hsetup : after.setup request.name = (level, [.console layout]) := by
      rw [hafter, setup_of_find? hfind, hlogger]
    have hhandlers : (after.setup request.name).2 ≠ [] := by
      rw [hsetup]
      nofun
    have hfixed := hsetup ▸ isFixedAt_of_handlers hhandlers
    obtain rfl | ⟨cause, rfl⟩ := hfault <;> exact ⟨hnone, level, layout, hlevel, hlayout, hfixed⟩

/-- A configuration is refused only for a logger without handlers, and leaves all others alone. If its
target is what is refused, the logger has a level and a console handler for good, and later calls give it
no file, though before each call with a level, a layout and a path that are good would have. -/
theorem refused_configuration (r : Registry) (request : Request) (fault : ConfigFault)
    (h : (r.configure request).2 = .error fault) :
    let after := (r.configure request).1
    (r.setup request.name).2 = [] ∧
    (∀ other, isSame other request.name = false → after.setup other = r.setup other) ∧
    r.Leaves request after fault ∧
    ∀ (later : Request) level layout path files place, later.name = request.name →
      Level.ofAnyCase later.level = .ok level → layoutOf later.layout = .ok layout →
      later.target = .path path → r.files.prepare path = (files, .ok place) →
      ∃ logger, (r.configure later).2 = .ok logger ∧
        logger.setup = (level, [.console layout, .file place layout]) := by
  obtain ⟨hnone, hleaves⟩ := leaves_configure h
  refine ⟨hnone, fun other => setup_configure_of_ne, hleaves, ?_⟩
  intro later level layout path files place hname hlevel hlayout htarget hfile
  exact configure_of_path (hname ▸ hnone) hlevel hlayout htarget hfile

/-- A text in place of a path is refused after the console handler has been added, and the path itself,
which would have been good, no longer counts. -/
theorem refused_configuration_of_text :
    let request : Request := ⟨"t.a", "INFO", none, .text "x.log"⟩
    let path := Path.home ++ ["x.log"]
    let after := (start.configure request).1
    (start.configure request).2 = .error .notAPath ∧
    after.IsFixedAt "t.a" (.info, [.console .standard]) ∧ after.setup "t" = (.notSet, []) ∧
    ∃ logger, (start.configure ⟨"t.a", "INFO", none, .path path⟩).2 = .ok logger ∧
      logger.setup = (.info, [.console .standard, .file path .standard]) := by
  have hrefused : (start.configure ⟨"t.a", "INFO", none, .text "x.log"⟩).2 = .error .notAPath := rfl
  have hinfo : Level.ofAnyCase "INFO" = .ok .info := Level.ofAnyCase_name (nofun : Level.info ≠ .flag)
  obtain ⟨_, hothers, ⟨level, layout, hlevel, hlayout, hfixed⟩, hbefore⟩ :=
    refused_configuration start _ .notAPath hrefused
  cases hlayout
  cases hlevel.symm.trans hinfo
  exact ⟨hrefused, hfixed, hothers "t" (by decide +kernel), hbefore _ _ _ _ _ _ rfl hinfo rfl rfl rfl⟩

/-- A refused call is not without effect: it sets the level of its logger and adds a handler, so that a
call with a path, which had given the logger two handlers, finds it with one and leaves it so. -/
theorem refused_configuration_is_kept :
    let refused : Request := ⟨"t.a", "INFO", none, .text "x.log"⟩
    let good : Request := ⟨"t.a", "INFO", none, .path (Path.home ++ ["x.log"])⟩
    let after := (start.configure refused).1
    (start.configure refused).2 = .error .notAPath ∧
    start.setup "t.a" = (.notSet, []) ∧ after.setup "t.a" = (.info, [.console .standard]) ∧
    ((start.configure good).2.map fun logger => logger.handlers.length) = .ok 2 ∧
    ((after.configure good).2.map fun logger => logger.handlers.length) = .ok 1 :=
  ⟨rfl, rfl, rfl, rfl, rfl⟩

end ScriptStack.Log.Registry
