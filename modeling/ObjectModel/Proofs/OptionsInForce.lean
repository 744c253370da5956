import ObjectModel.Proofs.Configuration
import ObjectModel.Proofs.Construction
import ObjectModel.Proofs.Logging

/-!
The options in force. Along every run they are those of the last operation that set some: setting
them by itself, or applying a configuration that a variable holds. Every construction obeys them,
whatever was loaded in between.
-/

namespace ObjectModel

theorem World.foldl_logged (w : World) (messages : List Message) :
    ∃ l, messages.foldl World.logged w = w.withLog l := by
  induction messages generalizing w with
  | nil => exact ⟨w.log, rfl⟩
  | cons m rest ih =>
    obtain ⟨l, same⟩ := ih (w.logged m)
    exact ⟨l, same.trans (w.withLog_logged l m)⟩

theorem Action.construct_withLog (element : Option ElementType) (c : ClassId) (d : Dimensions)
    (w : World) (l : Log) :
    ((construct element c d).run (w.withLog l)).1 = ((construct element c d).run w).1 := by
  cases d with
  | line n =>
    obtain ⟨_, same, -⟩ := newArray_costs element (some c) n w
    have told := congrArg Prod.fst (same l)
    exact told
  | sheet n m =>
    obtain ⟨_, same, -⟩ := newGrid_costs element (some c) n m w
    have told := congrArg Prod.fst (same l)
    exact told

namespace Script

/-- The options that an operation asks for, applying the configuration that a variable holds. -/
def Op.options? (s : Session) : Op → Option Options
  | .config (.setOptions allowZeroLength) => some { allowZeroLength }
  | .config (.apply name) =>
    match s.bindings.lookup name with
    | some (.config c) => c.map Config.options
    | _ => none
  | _ => none

/-- The options that the operation has put into force, if it succeeded. -/
def Performed.sets? (p : Performed) : Option Options :=
  match p.outcome with
  | .reply (.ok _) => p.op.options? p.before
  | _ => none

/-- The options of the last operation that set some, the default if none did. -/
def inForce (done : List Performed) : Options := (done.reverse.findSome? Performed.sets?).getD {}

theorem inForce_append (done : List Performed) (p : Performed) :
    inForce (done ++ [p]) = p.sets?.getD (inForce done) := by
  rw [inForce, List.reverse_append, List.reverse_singleton, List.singleton_append,
    List.findSome?_cons, inForce]
  cases p.sets? <;> rfl

theorem inForce_append_idle (done : List Performed) {more : List Performed}
    (idle : ∀ p ∈ more, p.sets? = none) : inForce (done ++ more) = inForce done := by
  have nothing : more.reverse.findSome? Performed.sets? = none :=
    List.findSome?_eq_none_iff.mpr fun p member => idle p (List.mem_reverse.mp member)
  rw [inForce, List.reverse_append, List.findSome?_append, nothing, Option.none_or, inForce]

namespace Eval
variable {s : Session} {name : Name}

theorem run_setOptions (s : Session) (allowZeroLength : Bool) :
    ∃ w, (perform (.config (.setOptions allowZeroLength))).run s =
        (.ok (.ok .nothing), { s with world := w }) ∧
      w.options = { allowZeroLength } := by
  obtain ⟨-, options⟩ := logged_settings { s.world with options := { allowZeroLength } }
    ⟨.debug, .runtime, "options: allow zero-length arrays = " ++ Text.ofBool allowZeroLength⟩
  exact ⟨_, rfl, options⟩

theorem run_apply {c : Config} (bound : s.bindings.lookup name = some (.config (some c))) :
    ∃ w, (perform (.config (.apply name))).run s =
        (.ok (.ok (.flag w.options.allowZeroLength)), { s with world := w }) ∧
      w.options = c.options := by
  have given : (configOperand name).run s = (.ok c, s) := by
    rw [configOperand, run_bind, valueOf, run_get_bind, bound]
    rfl
  let set := { s.world with
    threshold := Severity.ofVerbosity c.verbosity.toInt, options := c.options }
  obtain ⟨-, options⟩ := logged_settings set
    ⟨.debug, .runtime,
      "options: allow zero-length arrays = " ++ Text.ofBool c.options.allowZeroLength⟩
  obtain ⟨-, options'⟩ := logged_settings (set.logged _)
    ⟨.info, .config, "applied configuration from " ++ Text.quoted c.path⟩
  refine ⟨_, ?_, options'.trans options⟩
  rw [perform, config, run_bind, given]
  rfl

theorem apply_stops (unbound : ∀ c, s.bindings.lookup name ≠ some (.config (some c))) :
    ∃ stop, (perform (.config (.apply name))).run s = (.error stop, s) := by
  have stops : ∃ stop, (configOperand name).run s = (.error stop, s) := by
    rw [configOperand, run_bind, valueOf, run_get_bind]
    cases bound : s.bindings.lookup name with
    | none => exact ⟨_, rfl⟩
    | some v =>
      cases v with
      | config c =>
        cases c with
        | none => exact ⟨_, rfl⟩
        | some c => exact absurd bound (unbound c)
      | _ => exact ⟨_, rfl⟩
  obtain ⟨stop, ran⟩ := stops
  refine ⟨stop, ?_⟩
  rw [perform, config, run_bind, ran]

end Eval

section Options
variable {s s' : Session} {done : List Performed}

theorem performOp_options_kept (valid : s.Valid) {op : Op} (other : ∀ o, ¬ op.Configures s o)
    (result : Option Name) : (s.performOp op result).2.world.options = s.world.options := by
  have effect := Eval.perform_effect valid op
  rw [Session.performOp_world]
  cases ran : (Eval.perform op).run s with
  | mk r s₁ =>
    rw [ran] at effect
    cases r with
    | ok reply =>
      by_contra changed
      exact other _ (Effect.options effect changed)
    | error stop =>
      obtain ⟨_, kept, _⟩ := effect
      exact kept.options

theorem performOp_of_ok {op : Op} {v : Value} (ran : (Eval.perform op).run s = (.ok (.ok v), s'))
    (result : Option Name) : s.performOp op result = (.reply (.ok v), s'.bind result v) := by
  rw [Session.performOp_eq, ran]
  rfl

theorem sets?_apply {name : Name} {c : Config}
    (bound : s.bindings.lookup name = some (.config (some c))) (result : Option Name) :
    (s.performed (.config (.apply name)) result).sets? = some c.options := by
  obtain ⟨w, ran, -⟩ := Eval.run_apply bound
  have asked : Op.options? s (.config (.apply name)) = some c.options := by
    rw [Op.options?, bound]
    rfl
  rw [Session.performed, performOp_of_ok ran]
  exact asked

/-- What the options are after an operation. -/
theorem performOp_options (valid : s.Valid) (op : Op) (result : Option Name) :
    (s.performOp op result).2.world.options =
      (s.performed op result).sets?.getD s.world.options := by
  have unasked (none : op.options? s = none) (other : ∀ o, ¬ op.Configures s o) :
      (s.performOp op result).2.world.options =
        (s.performed op result).sets?.getD s.world.options := by
    rw [performOp_options_kept valid other, Performed.sets?]
    split
    · exact congrArg (·.getD s.world.options) none.symm
    · rfl
  cases op with
  | config op =>
    cases op with
    | setOptions b =>
      obtain ⟨w, ran, options⟩ := Eval.run_setOptions s b
      rw [Session.performed, performOp_of_ok ran, Session.bind_world]
      exact options
    | apply name =>
      by_cases bound : ∃ c, s.bindings.lookup name = some (.config (some c))
      · obtain ⟨c, bound⟩ := bound
        obtain ⟨w, ran, options⟩ := Eval.run_apply bound
        rw [sets?_apply bound, performOp_of_ok ran, Session.bind_world]
        exact options
      · obtain ⟨stop, ran⟩ := Eval.apply_stops fun c held => bound ⟨c, held⟩
        have stopped : s.performOp (.config (.apply name)) result = (.stopped stop, s) := by
          rw [Session.performOp_eq, ran]
          rfl
        rw [Session.performed, stopped]
        rfl
    | _ => exact unasked rfl (by rintro o (⟨⟨⟩⟩ | ⟨_, _, _, ⟨⟨⟩⟩, _⟩))
  | _ => exact unasked rfl (by rintro o (⟨⟨⟩⟩ | ⟨_, _, _, ⟨⟨⟩⟩, _⟩))

theorem Session.Runs.options (run : s.Runs done s') (valid : s.Valid)
    (start : s.world.options = {}) : s'.world.options = inForce done := by
  induction run with
  | refl => exact start
  | @perform done s' run op result ih =>
    rw [performOp_options (run.valid valid), inForce_append, ih]
  | bind run name value ih =>
    rw [bind_world]
    exact ih

theorem Session.Runs.obeys {files : FileSystem} {verbosity : Int}
    (run : (Session.withVerbosity { files } verbosity).Runs done s) :
    s.world.Obeys (inForce done) := by
  have start := (Reachable.start files verbosity).valid
  rw [← run.options start rfl]
  exact (run.valid start).well.obeys

end Options

/-- Operations that load a configuration from a file. -/
def ConfigOp.isLoad : ConfigOp → Bool
  | .loadIn _ | .load _ | .find _ => true
  | _ => false

/-- The file that such an operation reads, if there is one. -/
def ConfigOp.file? (fs : FileSystem) : ConfigOp → Option Text
  | .loadIn directory => some (Path.join directory Config.fileName)
  | .load path => some path
  | .find start => Config.nearest? fs start
  | _ => none

/-- What loading comes to. -/
def ConfigOp.loads (fs : FileSystem) (op : ConfigOp) : Except LoadError (Option Config) :=
  match op.file? fs with
  | none => .ok none
  | some path => (Config.load fs path).map some

section Loading
variable {s : Session} {op : ConfigOp}

theorem sets?_load (load : op.isLoad = true) (result : Option Name) :
    (s.performed (.config op) result).sets? = none := by
  have unasked : Op.options? s (.config op) = none := by
    cases op with
    | loadIn | load | find => rfl
    | _ => cases load
  rw [Performed.sets?]
  split
  · exact unasked
  · rfl

theorem run_load (load : op.isLoad = true) (s : Session) :
    ∃ l, (Eval.perform (.config op)).run s =
      (.ok (Eval.ofConfig (op.loads s.files)), s.withLog l) := by
  have loaded (path : Text) : ∃ l, (Action.loadConfig s.files path).run s.world =
      (.ok (Config.load s.files path), s.world.withLog l) := by
    obtain ⟨l, logged⟩ := World.foldl_logged s.world (Config.warnings s.files path)
    exact ⟨l, by rw [Action.run_loadConfig, logged]⟩
  cases op with
  | loadIn directory =>
    obtain ⟨l, ran⟩ := loaded (Path.join directory Config.fileName)
    refine ⟨l, ?_⟩
    rw [Eval.perform, Eval.config, run_get_bind]
    dsimp only
    rw [run_bind, Eval.run_act, Action.loadConfigIn, ran]
    rfl
  | load path =>
    obtain ⟨l, ran⟩ := loaded path
    refine ⟨l, ?_⟩
    rw [Eval.perform, Eval.config, run_get_bind]
    dsimp only
    rw [run_bind, Eval.run_act, ran]
    rfl
  | find start =>
    rw [Eval.perform, Eval.config, run_get_bind]
    dsimp only
    rw [run_bind, Eval.run_act, Action.run_findConfig, ConfigOp.loads, ConfigOp.file?]
    cases Config.nearest? s.files start with
    | none => exact ⟨s.world.log, rfl⟩
    | some path =>
      obtain ⟨l, logged⟩ := World.foldl_logged s.world (Config.warnings s.files path)
      dsimp only
      rw [logged]
      exact ⟨l, rfl⟩
  | _ => cases load

theorem performOp_load (load : op.isLoad = true) (s : Session) (result : Option Name) :
    ∃ l, s.performOp (.config op) result = (.reply (Eval.ofConfig (op.loads s.files)),
      (s.withLog l).bindReply result (.ok (Eval.ofConfig (op.loads s.files)))) := by
  obtain ⟨l, ran⟩ := run_load load s
  refine ⟨l, ?_⟩
  rw [Session.performOp_eq, ran]
  rfl

/-- A load sends messages; its result is bound if it succeeds, and it changes nothing else. -/
theorem load_idle (load : op.isLoad = true) (s : Session) (result : Option Name) :
    ∃ l, (s.performOp (.config op) result).2.world = s.world.withLog l ∧
      (s.performOp (.config op) result).2.files = s.files ∧
      ((∃ e, (s.performOp (.config op) result).1 = .reply (.error e)) ∨ result = none →
        (s.performOp (.config op) result).2 = s.withLog l) := by
  obtain ⟨l, performed⟩ := performOp_load load s result
  rw [performed]
  refine ⟨l, Session.bindReply_world _ _ _, ?_, ?_⟩
  · cases op.loads s.files <;> cases result <;> rfl
  · rintro (⟨e, failed⟩ | rfl)
    · cases loads : op.loads s.files with
      | ok c =>
        rw [loads] at failed
        cases failed
      | error cause => rfl
    · cases op.loads s.files <;> rfl

theorem loads_some {fs : FileSystem} {c : Config} (loaded : op.loads fs = .ok (some c)) :
    ∃ path, op.file? fs = some path ∧ Config.load fs path = .ok c := by
  unfold ConfigOp.loads at loaded
  cases file : op.file? fs with
  | none =>
    rw [file] at loaded
    cases loaded
  | some path =>
    rw [file] at loaded
    dsimp only at loaded
    refine ⟨path, rfl, ?_⟩
    cases found : Config.load fs path with
    | error e =>
      rw [found] at loaded
      cases loaded
    | ok c' =>
      rw [found] at loaded
      cases loaded
      rfl

end Loading

/-- Along every run of operations, each construction obeys the options of the last operation that
set some. Loading a configuration has no influence on constructions; a load that fails, or whose
result is not kept, has none on anything that comes after it. The flag of a configuration that was
loaded from a file is one that the document gives, and off if it gives none; once the configuration
has been applied, arrays of length zero can be made exactly if the flag is on, until options are set
again. -/
theorem Session.Runs.constructions_obey {files : FileSystem} {verbosity : Int}
    {done : List Performed} {s : Session}
    (run : (Session.withVerbosity { files } verbosity).Runs done s) :
    s.world.Obeys (inForce done) ∧
    (∀ op, ConfigOp.isLoad op = true → ∀ result,
      let after := (s.performOp (.config op) result).2
      after.files = s.files ∧ after.world.Obeys (inForce done) ∧
        (∀ element c d, ((Action.construct element c d).run after.world).1 =
          ((Action.construct element c d).run s.world).1) ∧
        ((∃ e, (s.performOp (.config op) result).1 = .reply (.error e)) ∨ result = none →
          ∀ steps, (after.runAll steps).1 = (s.runAll steps).1)) ∧
    ∀ op name c, ConfigOp.isLoad op = true →
      (s.performOp (.config op) (some name)).1 = .reply (.ok (.config (some c))) →
      ∃ path content d, op.file? s.files = some path ∧ s.files.read path = .ok content ∧
        Toml.Document.read content = some d ∧
        Toml.Picks (d.settings "arrays" "allow-zero-length") false c.allowZeroLength ∧
        ∀ between s₁, (s.performOp (.config op) (some name)).2.Runs between s₁ →
          s₁.bindings.lookup name = some (.config (some c)) →
          ∀ later s₂, (s₁.performOp (.config (.apply name)) none).2.Runs later s₂ →
            (∀ p ∈ later, p.sets? = none) →
              s₂.world.Obeys { allowZeroLength := c.allowZeroLength } := by
  refine ⟨run.obeys, fun op load result => ?_, fun op name c load loaded => ?_⟩
  · have obeys := (run.perform (.config op) result).obeys
    rw [inForce_append, sets?_load load] at obeys
    obtain ⟨l, world, files, unbound⟩ := load_idle load s result
    refine ⟨files, obeys, fun element c d => ?_, fun idle steps => ?_⟩
    · rw [world, Action.construct_withLog]
    · obtain ⟨_, same, -⟩ := runAll_recounts steps (run.valid (Reachable.start _ _).valid)
      have told := congrArg Prod.fst (same l)
      rw [unbound idle]
      exact told
  · obtain ⟨l, performed⟩ := performOp_load load s (some name)
    have found : op.loads s.files = .ok (some c) := by
      rw [performed] at loaded
      cases loads : op.loads s.files with
      | error e =>
        rw [loads] at loaded
        cases loaded
      | ok c' =>
        rw [loads] at loaded
        cases loaded
        rfl
    obtain ⟨path, file, loads⟩ := loads_some found
    obtain ⟨content, d, held, read, picked⟩ := Config.load_flag loads
    refine ⟨path, content, d, file, held, read, picked,
      fun between s₁ first bound later s₂ rest idle => ?_⟩
    have whole := (((run.perform (.config op) (some name)).trans first).perform
      (.config (.apply name)) none).trans rest
    have obeys := whole.obeys
    rw [inForce_append_idle _ idle, inForce_append, sets?_apply bound] at obeys
    exact obeys

/-- A script that makes a class, allows arrays of length zero and forbids them again. -/
def settledOptions : List Step :=
  [.perform (.classes (.value (.named (.primitive .int)))) none none,
    .perform (.config (.setOptions true)) none none,
    .perform (.config .default) (some "d") none,
    .perform (.config (.apply "d")) none none,
    .perform (.config (.apply "x")) none none]

theorem constructions_obey_settledOptions :
    let files : FileSystem :=
      { entries := [(["jrt.toml"], .file "[Arrays]\nallow-zero-length = true\n")] }
    let s := ((Session.withVerbosity { files } 0).runAll settledOptions).2
    let loaded := (s.performOp (.config (.find ".")) (some "c")).2
    let applied := (loaded.performOp (.config (.apply "c")) none).2
    (Action.construct none 0 (.sheet 3 0)).Refuses s.world .negativeArraySize (Text.ofInt 0) ∧
      ((Action.construct none 0 (.sheet 3 0)).run loaded.world).1 =
        ((Action.construct none 0 (.sheet 3 0)).run s.world).1 ∧
      (∃ id w, (Action.construct none 0 (.sheet 3 0)).run applied.world = (.ok id, w)) ∧
      (Action.construct none 0 (.sheet (-2) (-3))).Refuses applied.world .negativeArraySize
        (Text.ofInt (-2)) := by
  intro files s
  dsimp only
  have run : (Session.withVerbosity { files } 0).Runs _ s :=
    Session.runs_trail settledOptions (Session.Reachable.start files 0).valid
  obtain ⟨obeys, idle, after⟩ := run.constructions_obey
  have fits {w : World} {options : Options} (obeys : w.Obeys options)
      (shape : (w.class? 0).map Class.shape = some .primitive) (d : Dimensions) :
      ∃ k, w.Ruled options none 0 k d := by
    obtain ⟨k, known, primitive⟩ := Option.map_eq_some_iff.mp shape
    exact ⟨k, obeys none 0 k d known (Action.checkElement_iff.mpr (by rw [primitive]; rfl))⟩
  let c : Config := { allowZeroLength := true, path := "/jrt.toml" }
  have found : (ConfigOp.find ".").loads s.files = .ok (some c) := by decide +kernel
  obtain ⟨l, performed⟩ := performOp_load (rfl : (ConfigOp.find ".").isLoad = true) s (some "c")
  rw [found] at performed
  obtain ⟨_, _, _, _, _, _, _, applies⟩ :=
    after (.find ".") "c" c rfl (congrArg Prod.fst performed)
  have bound : (s.performOp (.config (.find ".")) (some "c")).2.bindings.lookup ("c" : Text) =
      some (.config (some c)) := by
    rw [performed]
    rfl
  have obeys' := applies [] _ .refl bound [] _ .refl fun _ member => absurd member List.not_mem_nil
  have before : inForce ((Session.withVerbosity { files } 0).trail settledOptions) = {} := by
    decide +kernel
  rw [before] at obeys
  obtain ⟨_, ruled⟩ := fits obeys (by decide +kernel) (.sheet 3 0)
  obtain ⟨_, ruled'⟩ := fits obeys' (by decide +kernel) (.sheet 3 0)
  obtain ⟨_, ruled''⟩ := fits obeys' (by decide +kernel) (.sheet (-2) (-3))
  have admitted := Dimensions.offending?_none.mp
    (by decide : (Dimensions.sheet 3 0).offending? ⟨true⟩ = none)
  refine ⟨(ruled.refuses (n := 0) (by decide)).1, ?_, ruled'.returns_iff.mpr admitted,
    (ruled''.refuses (n := -2) (by decide)).1⟩
  exact (idle (.find ".") rfl (some "c")).2.2.1 none 0 (.sheet 3 0)

end Script

end ObjectModel
