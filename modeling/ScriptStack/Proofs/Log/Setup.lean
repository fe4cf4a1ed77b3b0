import ScriptStack.Log.Registry

/-! The level and the handlers of a logger, and what leaves them alone: other loggers, and records. -/
namespace ScriptStack.Log

/-- What a configuration sets. The other fields of a logger follow from its name and from the records
that came its way. -/
def Logger.setup (logger : Logger) : Level × List Handler := (logger.level, logger.handlers)

def isSame (name other : String) : Bool := name == other || isRootName name && isRootName other

theorem isSame_self (name : String) : isSame name name = true := by
  simp [isSame]

theorem ne_of_isRootName {name other : String} (hname : isRootName name = true)
    (hother : isRootName other = false) : name ≠ other := by
  rintro rfl
  rw [hname] at hother
  cases hother

namespace Registry

/-- The level and the handlers that a name stands for. A logger that is still to be made has none. -/
def setup (r : Registry) (name : String) : Level × List Handler :=
  (r.find? name).elim (.notSet, []) Logger.setup

variable {r s : Registry} {name other : String} {f : Logger → Logger} {logger : Logger}
  {level : Level}

/-! ### Looking up loggers -/

theorem find?_of_isRootName (h : isRootName name = true) : r.find? name = some r.root := by
  rw [find?, if_pos h]

theorem find?_of_not_isRootName (h : isRootName name = false) :
    r.find? name = (r.loggers.find? (·.1 == name)).map (·.2) := by
  rw [find?, h]
  rfl

theorem find?_map_rows {g : String × Logger → String × Logger} (hg : ∀ row, (g row).1 = row.1)
    (rows : List (String × Logger)) (name : String) :
    (rows.map g).find? (·.1 == name) = (rows.find? (·.1 == name)).map g := by
  have hnames : (fun row : String × Logger => row.1 == name) ∘ g = (·.1 == name) :=
    funext fun row => by rw [Function.comp, hg]
  rw [List.find?_map, hnames]

theorem find?_update (r : Registry) (name other : String) (f : Logger → Logger) :
    (r.update name f).find? other =
      (r.find? other).map fun logger => if isSame other name then f logger else logger := by
  cases hname : isRootName name with
  | true =>
    rw [update, if_pos hname]
    cases hother : isRootName other with
    | true => simp [find?_of_isRootName hother, isSame, hname, hother]
    | false =>
      have hne := (ne_of_isRootName hname hother).symm
      simp [find?_of_not_isRootName hother, isSame, hother, hne, Function.comp_def]
  | false =>
    rw [update, hname]
    cases hother : isRootName other with
    | true =>
      have hne := ne_of_isRootName hother hname
      simp [find?_of_isRootName hother, isSame, hname, hne]
    | false =>
      have hnames : ∀ row : String × Logger,
          (if row.1 == name then (name, f row.2) else row).1 = row.1 := by
        intro row
        split
        · rename_i hrow
          exact (beq_iff_eq.mp hrow).symm
        · rfl
      have hrows := find?_map_rows hnames r.loggers other
      simp only [find?_of_not_isRootName hother, Bool.false_eq_true, if_false, hrows, Option.map_map]
      refine Option.map_congr fun row hrow => ?_
      have hplace : row.1 = other := by simpa using List.find?_some hrow
      simp only [Function.comp, isSame, hplace, hother, Bool.false_and, Bool.or_false]
      split <;> rfl

theorem find?_update_self (h : r.find? name = some logger) :
    (r.update name f).find? name = some (f logger) := by
  rw [find?_update, h, Option.map_some, if_pos (isSame_self name)]

theorem find?_forget (r : Registry) (name : String) :
    r.forget.find? name = (r.find? name).map Logger.forget := by
  cases hname : isRootName name with
  | true =>
    rw [find?_of_isRootName hname, find?_of_isRootName hname]
    rfl
  | false =>
    have hrows := find?_map_rows (g := fun row => (row.1, row.2.forget)) (fun _ => rfl) r.loggers name
    rw [find?_of_not_isRootName hname, find?_of_not_isRootName hname, Option.map_map]
    exact (congrArg (Option.map (·.2)) hrows).trans (Option.map_map ..)

theorem find?_setLevel_self (h : r.find? name = some logger) (level : Level) :
    (r.setLevel name level).find? name = some ({ logger with level := level }.forget) := by
  rw [setLevel, find?_forget, find?_update_self h]
  rfl

theorem ensure_of_find? (h : r.find? name = some logger) : r.ensure name = (r, logger) := by
  rw [ensure, h]

theorem fst_adopt (name : String) (row : String × Logger) : (adopt name row).1 = row.1 := by
  unfold adopt
  split <;> rfl

theorem find?_ensure_self (r : Registry) (name : String) :
    (r.ensure name).1.find? name = some (r.ensure name).2 := by
  cases hfind : r.find? name with
  | some logger => rw [ensure_of_find? hfind, hfind]
  | none =>
    cases hname : isRootName name with
    | true =>
      rw [find?_of_isRootName hname] at hfind
      cases hfind
    | false =>
      have hrows : r.loggers.find? (·.1 == name) = none := by
        rwa [find?_of_not_isRootName hname, Option.map_eq_none_iff] at hfind
      rw [ensure, hfind, find?_of_not_isRootName hname, List.find?_append,
        find?_map_rows (fst_adopt name), hrows]
      simp

theorem ensure_ensure (r : Registry) (name : String) :
    (r.ensure name).1.ensure name = r.ensure name :=
  ensure_of_find? (find?_ensure_self r name)

/-! ### Files -/

theorem files_ensure (r : Registry) (name : String) : (r.ensure name).1.files = r.files := by
  unfold ensure
  split <;> rfl

theorem files_update (r : Registry) (name : String) (f : Logger → Logger) :
    (r.update name f).files = r.files := by
  unfold update
  split <;> rfl

/-! ### What leaves a setup alone -/

theorem setup_of_find? (h : r.find? name = some logger) : r.setup name = logger.setup := by
  rw [setup, h]
  rfl

theorem setup_of_map {g : Logger → Logger} (hfind : s.find? name = (r.find? name).map g)
    (hg : ∀ logger, (g logger).setup = logger.setup) : s.setup name = r.setup name := by
  rw [setup, setup, hfind]
  cases r.find? name with
  | none => rfl
  | some logger => exact hg logger

theorem setup_forget (r : Registry) (name : String) : r.forget.setup name = r.setup name :=
  setup_of_map (find?_forget r name) fun _ => rfl

theorem setup_update_of_ne (h : isSame other name = false) :
    (r.update name f).setup other = r.setup other :=
  setup_of_map (find?_update r name other f) fun _ => by rw [h]; rfl

theorem setup_update_of_setup (hf : ∀ logger, (f logger).setup = logger.setup) :
    (r.update name f).setup other = r.setup other :=
  setup_of_map (find?_update r name other f) fun logger => by split <;> simp [hf]

theorem setup_setLevel_of_ne (h : isSame other name = false) :
    (r.setLevel name level).setup other = r.setup other := by
  rw [setLevel, setup_forget, setup_update_of_ne h]

theorem setup_adopt (name : String) (row : String × Logger) :
    (adopt name row).2.setup = row.2.setup := by
  unfold adopt
  split <;> rfl

theorem setup_ensure (r : Registry) (name other : String) :
    (r.ensure name).1.setup other = r.setup other := by
  cases hfind : r.find? name with
  | some logger => rw [ensure_of_find? hfind]
  | none =>
    rw [ensure, hfind]
    cases hother : isRootName other with
    | true => rw [setup, setup, find?_of_isRootName hother, find?_of_isRootName hother]
    | false =>
      rw [setup, setup, find?_of_not_isRootName hother, find?_of_not_isRootName hother,
        List.find?_append, find?_map_rows (fst_adopt name)]
      -- The new row stands behind the others, so it is found only where there was none.
      cases hrow : r.loggers.find? (·.1 == other) with
      | some row => exact setup_adopt name row
      | none =>
        cases hnew : name == other <;> simp [hnew, Logger.setup]

theorem setup_ensure_self (r : Registry) (name : String) :
    (r.ensure name).2.setup = r.setup name := by
  rw [← setup_of_find? (find?_ensure_self r name), setup_ensure]

theorem handlers_ensure (r : Registry) (name : String) :
    (r.ensure name).2.handlers = (r.setup name).2 :=
  congrArg Prod.snd (setup_ensure_self r name)

theorem setup_deliver (record : Record) (time : String) (state : Registry × String)
    (handler : Handler) : (deliver record time state handler).1.setup name = state.1.setup name := by
  cases handler <;> rfl

theorem setup_foldl_deliver (record : Record) (time : String) (handlers : List Handler)
    (state : Registry × String) :
    (handlers.foldl (deliver record time) state).1.setup name = state.1.setup name := by
  induction handlers generalizing state with
  | nil => rfl
  | cons handler rest ih => rw [List.foldl_cons, ih, setup_deliver]

theorem setup_emit (r : Registry) (record : Record) (time : String) :
    (r.emit record time).1.setup name = r.setup name :=
  setup_foldl_deliver record time _ (r, "")

theorem setup_learn (r : Registry) (record : Record) :
    (r.learn record).setup name = r.setup name :=
  setup_update_of_setup fun logger => by split <;> rfl

theorem setup_log (r : Registry) (name : String) (level : Level) (message time : String) :
    (r.log name level message time).1.setup other = r.setup other := by
  unfold log
  dsimp only
  generalize Record.mk (if isRootName name then rootName else name) level message = record
  have hlearned : ((r.ensure name).1.learn record).setup other = r.setup other := by
    rw [setup_learn, setup_ensure]
  split
  · rw [setup_emit, hlearned]
  · exact hlearned

theorem setup_logAt (r : Registry) (name level message time : String) :
    (r.logAt name level message time).1.setup other = r.setup other := by
  unfold logAt
  split
  · exact setup_log ..
  · exact setup_ensure ..
  · exact setup_ensure ..

end Registry

end ScriptStack.Log
