import ScriptStack.Proofs.Log.Configuration

/-! Which names have loggers, and the parents that their records are passed on to. Both change where a
logger is made, and nowhere else. -/
namespace ScriptStack.Log.Registry

variable {r : Registry} {name : String} {f : Logger → Logger}

/-- The names that have loggers, in the order in which these were made, and the parent of each. The
outermost logger is not among them. -/
def links (r : Registry) : List (String × String) := r.loggers.map fun row => (row.1, row.2.parent)

def names (r : Registry) : List String := r.loggers.map (·.1)

theorem names_eq (r : Registry) : r.names = r.links.map (·.1) := by
  rw [names, links, List.map_map]
  rfl

/-! ### What leaves the parents alone -/

theorem links_update (hf : ∀ logger, (f logger).parent = logger.parent) :
    (r.update name f).links = r.links := by
  unfold update
  split
  · rfl
  · rw [links, List.map_map]
    refine List.map_congr_left fun row _ => ?_
    by_cases h : row.1 = name <;> simp [h, hf]

theorem links_forget (r : Registry) : r.forget.links = r.links := by
  rw [links, forget, List.map_map]
  rfl

theorem links_setLevel (r : Registry) (name : String) (level : Level) :
    (r.setLevel name level).links = r.links := by
  rw [setLevel, links_forget]
  exact links_update fun _ => rfl

theorem links_addHandler (r : Registry) (name : String) (handler : Handler) :
    (r.addHandler name handler).links = r.links :=
  links_update fun _ => rfl

theorem links_addTarget (r : Registry) (name : String) (layout : Layout) (target : Target) :
    (r.addTarget name layout target).1.links = r.links := by
  have htakes := takes_addTarget r name layout target
  generalize r.addTarget name layout target = outcome at htakes
  cases htakes with
  | none | emptyText | notAPath | noFile => rfl
  | @file _ files => exact links_addHandler { r with files := files } ..

theorem links_begun (r : Registry) (name : String) (level : Level) (layout : Layout) :
    (r.begun name level layout).links = (r.ensure name).1.links := by
  rw [begun, links_addHandler, links_setLevel]

theorem links_configure (r : Registry) (request : Request) :
    (r.configure request).1.links = (r.ensure request.name).1.links := by
  have hgoes := goes_configure r request
  generalize r.configure request = outcome at hgoes
  cases hgoes with
  | kept | noLevel => rfl
  | noLayout => exact links_setLevel ..
  | @noTarget level layout after _ _ _ _ htarget
  | @made level layout after _ _ _ htarget =>
    have hkept := links_addTarget (r.begun request.name level layout) request.name layout request.target
    rwa [htarget, links_begun] at hkept

theorem links_foldl_deliver (record : Record) (time : String) (handlers : List Handler)
    (state : Registry × String) :
    (handlers.foldl (deliver record time) state).1.links = state.1.links := by
  induction handlers generalizing state with
  | nil => rfl
  | cons handler rest ih =>
    rw [List.foldl_cons, ih]
    cases handler <;> rfl

theorem links_learn (r : Registry) (record : Record) : (r.learn record).links = r.links :=
  links_update fun logger => by split <;> rfl

theorem links_log (r : Registry) (name : String) (level : Level) (message time : String) :
    (r.log name level message time).1.links = (r.ensure name).1.links := by
  unfold log
  dsimp only
  generalize Record.mk (if isRootName name then rootName else name) level message = record
  split
  · rw [emit, links_foldl_deliver, links_learn]
  · exact links_learn ..

theorem links_logAt (r : Registry) (name level message time : String) :
    (r.logAt name level message time).1.links = (r.ensure name).1.links := by
  unfold logAt
  split
  · exact links_log ..
  · rfl
  · rfl

def Act.about : Act → String
  | configure request => request.name
  | log name _ _ _ => name

theorem links_act (r : Registry) (a : Act) : (r.act a).links = (r.ensure a.about).1.links := by
  cases a with
  | configure request => exact links_configure r request
  | log name level message time => exact links_logAt r name level message time

/-! ### What making a logger does to them -/

def adoptLink (name : String) (link : String × String) : String × String :=
  if isAbove name link.1 && !link.2.startsWith name then (link.1, name) else link

theorem fst_adoptLink (name : String) (link : String × String) :
    (adoptLink name link).1 = link.1 := by
  unfold adoptLink
  split <;> rfl

theorem links_ensure_of_none (h : r.find? name = none) :
    (r.ensure name).1.links = r.links.map (adoptLink name) ++ [(name, r.parentOf name)] := by
  rw [ensure, h, links, List.map_append, List.map_map, links, List.map_map]
  congr 1
  refine List.map_congr_left fun row _ => ?_
  rw [Function.comp, adopt, Function.comp, adoptLink]
  split <;> rfl

theorem names_ensure_of_none (h : r.find? name = none) :
    (r.ensure name).1.names = r.names ++ [name] := by
  have hkept : (r.links.map (adoptLink name)).map (·.1) = r.names := by
    rw [names_eq, List.map_map]
    exact List.map_congr_left fun link _ => fst_adoptLink name link
  rw [names_eq, links_ensure_of_none h, List.map_append, hkept, List.map_singleton]

theorem prefix_names_act (r : Registry) (a : Act) : r.names <+: (r.act a).names := by
  rw [names_eq (r.act a), links_act, ← names_eq]
  cases hfind : r.find? a.about with
  | some logger => simp only [ensure_of_find? hfind, List.prefix_rfl]
  | none =>
    rw [names_ensure_of_none hfind]
    exact List.prefix_append ..

theorem prefix_names_run (r : Registry) (acts : List Act) : r.names <+: (r.run acts).names := by
  induction acts generalizing r with
  | nil => exact List.prefix_rfl
  | cons a rest ih => exact (prefix_names_act r a).trans (ih (r.act a))

/-! ### Looking up names and parents -/

theorem mem_names_iff (r : Registry) (name : String) :
    name ∈ r.names ↔ ∃ row, r.loggers.find? (·.1 == name) = some row := by
  rw [← Option.isSome_iff_exists, List.find?_isSome, names, List.mem_map]
  simp only [beq_iff_eq]

theorem exists_find?_iff (h : isRootName name = false) :
    (∃ logger, r.find? name = some logger) ↔ name ∈ r.names := by
  rw [mem_names_iff, find?_of_not_isRootName h]
  simp only [Option.map_eq_some_iff]
  constructor
  · rintro ⟨_, row, hrow, _⟩
    exact ⟨row, hrow⟩
  · rintro ⟨row, hrow⟩
    exact ⟨row.2, row, hrow, rfl⟩

theorem mem_links_of_find? {logger : Logger} (h : isRootName name = false)
    (hfind : r.find? name = some logger) : (name, logger.parent) ∈ r.links := by
  rw [find?_of_not_isRootName h] at hfind
  obtain ⟨row, hrow, rfl⟩ := Option.map_eq_some_iff.mp hfind
  have hplace : row.1 = name := by simpa using List.find?_some hrow
  rw [← hplace]
  exact List.mem_map_of_mem (List.mem_of_find?_eq_some hrow)

end ScriptStack.Log.Registry
