import ObjectModel.Proofs.Effect
import ObjectModel.Proofs.Release
import ObjectModel.Proofs.Trail

/-!
Destructors over whole runs. A release runs the destructor of an object that is not yet released,
the one supplied nearest on the chain of its tables, and marks the object when the destructor has
returned. So over any run of operations a destructor that returns is entered once, at the first
release, through whatever view; one that fails leaves the object unreleased and is entered again by
every release.
-/

namespace ObjectModel

namespace DispatchTable

/-- The destructor comes from the table itself or, if it has none of its own, from its parent. -/
inductive Supplies : DispatchTable → Destructor → Prop where
  | own {t : DispatchTable} {d : Destructor} (own : t.own.destructor = some d) : Supplies t d
  | inherited {t parent : DispatchTable} {d : Destructor} (none : t.own.destructor = none)
      (above : t.parent? = some parent) (supplied : parent.Supplies d) : Supplies t d

section Supply
variable {t : DispatchTable} {d : Destructor}

theorem destructor?_eq (t : DispatchTable) :
    t.destructor? = t.own.destructor.or (t.parent?.bind destructor?) := by
  obtain ⟨own, inherited⟩ := t
  cases inherited <;> cases supplied : own.destructor <;>
    simp [destructor?, levels, parent?, supplied]

theorem destructor?_iff : t.destructor? = some d ↔ t.Supplies d := by
  constructor
  · intro supplied
    obtain ⟨own, inherited⟩ := t
    induction inherited generalizing own with
    | nil =>
      rw [destructor?_eq] at supplied
      exact .own (by simpa [parent?] using supplied)
    | cons level rest ih =>
      rw [destructor?_eq] at supplied
      cases here : own.destructor with
      | some e => exact .own (by simpa [here] using supplied)
      | none => exact .inherited here rfl (ih level (by simpa [here, parent?] using supplied))
  · intro supplies
    induction supplies with
    | own own =>
      rw [destructor?_eq, own]
      rfl
    | inherited none above _ ih =>
      rw [destructor?_eq, none, above]
      exact ih

theorem destructor?_none_iff : t.destructor? = none ↔ ∀ d, ¬ t.Supplies d := by
  simp [Option.eq_none_iff_forall_ne_some, destructor?_iff]

/-- A new table has the destructor it is given, or else that of the table it extends. -/
theorem supplies_extend_iff {parent : Option DispatchTable} {level : Level} :
    (extend parent level).Supplies d ↔
      level.destructor = some d ∨ level.destructor = none ∧ ∃ p ∈ parent, p.Supplies d := by
  have above : (extend parent level).parent? = parent := by
    cases parent <;> rfl
  have own : (extend parent level).own = level := rfl
  rw [← destructor?_iff, destructor?_eq, above, own]
  simp [Option.bind_eq_some_iff, destructor?_iff]

end Supply

end DispatchTable

/-- Anything may happen but a release of the object. -/
def Policy.holding (id : ObjectId) : Policy := ⟨fun _ e => e ≠ .release id⟩

instance (id : ObjectId) : (Policy.holding id).Samples := ⟨fun _ impossible => nomatch impossible⟩

theorem Policy.holding_spares (id : ObjectId) (w : World) :
    ¬ (Policy.holding id).allows w (.release id) :=
  fun allowed => allowed rfl

/-- The destructor that a release of the object enters. -/
def World.entered? (w : World) (id : ObjectId) : Option Destructor :=
  (w.object? id).bind fun o => if o.released then none else o.table.destructor?

/-- How often a number of releases enter the destructor: each time if it fails, otherwise once. -/
def Destructor.turns (d : Destructor) (releases : Nat) : Nat :=
  if d = .fail then releases else min 1 releases

def Obj.entries (o : Obj) (releases : Nat) : List Destructor :=
  (o.table.destructor?.map fun d => List.replicate (d.turns releases) d).getD []

theorem Obj.entries_zero (o : Obj) : o.entries 0 = [] := by
  cases supplied : o.table.destructor? <;> simp [entries, Destructor.turns, supplied]

namespace World

/-- The object, if it is there, is as these releases and entries of its destructor have left it. -/
structure Attends (w : World) (id : ObjectId) (releases : Nat) (entries : List Destructor) :
    Prop where
  absent : w.object? id = none → releases = 0 ∧ entries = []
  entries : ∀ {o}, w.object? id = some o → entries = o.entries releases
  released : ∀ {o}, w.object? id = some o →
    (o.released = true ↔ o.table.destructor? ≠ some .fail ∧ releases ≠ 0)

variable {w w' : World} {id : ObjectId} {o : Obj} {n : Nat} {es : List Destructor}

theorem attends_absent (absent : w.object? id = none) : w.Attends id 0 [] := by
  constructor
  · exact fun _ => ⟨rfl, rfl⟩
  · intro o found
    simp [absent] at found
  · intro o found
    simp [absent] at found

theorem attends_present (found : w.object? id = some o) (entries : es = o.entries n)
    (released : o.released = true ↔ o.table.destructor? ≠ some .fail ∧ n ≠ 0) :
    w.Attends id n es := by
  constructor
  · intro absent
    simp [found] at absent
  · intro o' there
    rw [found] at there
    cases there
    exact entries
  · intro o' there
    rw [found] at there
    cases there
    exact released

theorem Attends.evolve (attends : w.Attends id n es) (run : Evolves (.holding id) w w') :
    w'.Attends id n es := by
  cases before : w.object? id with
  | none =>
    -- A new object has not been released.
    obtain ⟨rfl, rfl⟩ := attends.absent before
    cases after : w'.object? id with
    | none => exact attends_absent after
    | some o =>
      apply attends_present after o.entries_zero.symm
      constructor
      · intro released
        obtain ⟨o', there, -⟩ := run.unmarked (Policy.holding_spares id) after released
        simp [before] at there
      · rintro ⟨-, impossible⟩
        exact absurd rfl impossible
  | some o =>
    obtain ⟨o', after, table, -⟩ := run.grows.objects before
    have same : o'.released = true ↔ o.released = true := by
      constructor
      · intro released
        obtain ⟨o₁, there, released'⟩ := run.unmarked (Policy.holding_spares id) after released
        rw [before] at there
        cases there
        exact released'
      · intro released
        obtain ⟨o₁, there, released'⟩ := run.released before released
        rw [after] at there
        cases there
        exact released'
    apply attends_present after
    · rw [attends.entries before, Obj.entries, Obj.entries, table]
    · rw [same, table]
      exact attends.released before

end World

namespace Action
variable {w : World} {id : ObjectId} {o : Obj}

theorem release_enters (found : w.object? id = some o) (fresh : o.released = false) (v : View) :
    (release (.object id v)).run w =
      ((w.entered? id).elim (pure ⟨⟩) (runDestructor · (.object id v)) >>=
        fun _ => finishRelease id o).run w := by
  have entered : w.entered? id = o.table.destructor? := by simp [World.entered?, found, fresh]
  rw [release, run_releaseWith destroy found, entered, fresh, destroy]
  cases o.table.destructor? <;> rfl

end Action

theorem World.Attends.release {w : World} {id : ObjectId} {o : Obj} {n : Nat} {es : List Destructor}
    (well : w.WellFormed) (attends : w.Attends id n es) (found : w.object? id = some o) (v : View) :
    ((Action.release (.object id v)).run w).2.Attends id (n + 1)
      (es ++ (w.entered? id).toList) := by
  obtain ⟨o', after, table, marked⟩ := Action.release_object well found v
  have released := attends.released found
  have entered : w.entered? id = if o.released then none else o.table.destructor? := by
    simp [World.entered?, found]
  apply World.attends_present after
  · rw [attends.entries found, entered, Obj.entries, Obj.entries, table]
    cases supplied : o.table.destructor? with
    | none => simp
    | some d =>
      by_cases fails : d = .fail
      · -- The object was not released, so the destructor is entered once more.
        have fresh : o.released = false := by simpa [supplied, fails] using released
        simp [fresh, Destructor.turns, fails, List.replicate_succ']
      · cases n with
        | zero =>
          have fresh : o.released = false := by simpa using released
          simp [fresh, Destructor.turns]
        | succ n =>
          have before : o.released = true := by simp [released, supplied, fails]
          simp [before, Destructor.turns, fails]
  · rw [marked, table, released]
    constructor
    · rintro (⟨proper, -⟩ | proper)
      · exact ⟨proper, Nat.succ_ne_zero n⟩
      · exact ⟨proper, Nat.succ_ne_zero n⟩
    · rintro ⟨proper, -⟩
      exact .inr proper

namespace Script

namespace Performed

/-- What the operation releases, and the world in which it does so, its operand evaluated. -/
def release? (p : Performed) : Option (Handle × World) :=
  match p.op with
  | .object (.release e) =>
    match (Eval.refOperand e).run p.before with
    | (.ok h, s) => some (h, s.world)
    | (.error _, _) => none
  | _ => none

/-- Does the operation release the object, through any of its views? -/
def releases (id : ObjectId) (p : Performed) : Bool :=
  match p.release? with
  | some (.object j _, _) => j == id
  | _ => false

/-- The destructor that the operation enters by releasing the object. -/
def enters? (id : ObjectId) (p : Performed) : Option Destructor :=
  match p.release? with
  | some (.object j _, w) => if j = id then w.entered? id else none
  | _ => none

end Performed

/-- How often the operations release the object. -/
def releaseCount (id : ObjectId) (done : List Performed) : Nat := done.countP (·.releases id)

/-- The destructors that the operations enter by releasing the object, in order. -/
def destructorEntries (id : ObjectId) (done : List Performed) : List Destructor :=
  done.filterMap (·.enters? id)

section Steps
variable {s s' : Session} {op : Op} {id : ObjectId} {done : List Performed}

theorem release?_of_other (other : ∀ e, op ≠ .object (.release e)) (result : Option Name) :
    (s.performed op result).release? = none := by
  unfold Performed.release? Session.performed
  dsimp only
  split
  · exact absurd rfl (other _)
  · rfl

theorem release?_of_operand {e : RefExpr} {h : Handle} {s₁ : Session}
    (led : (Eval.refOperand e).run s = (.ok h, s₁)) (result : Option Name) :
    (s.performed (.object (.release e)) result).release? = some (h, s₁.world) := by
  simp only [Performed.release?, Session.performed, led]

theorem release?_of_stop {e : RefExpr} {stop : Stop} {s₁ : Session}
    (led : (Eval.refOperand e).run s = (.error stop, s₁)) (result : Option Name) :
    (s.performed (.object (.release e)) result).release? = none := by
  simp only [Performed.release?, Session.performed, led]

theorem unconcerned_of_apart {p : Performed} {h : Handle} {w : World}
    (released : p.release? = some (h, w)) (apart : ∀ v, h ≠ .object id v) :
    p.releases id = false ∧ p.enters? id = none := by
  rw [Performed.releases, Performed.enters?, released]
  cases h with
  | object j v =>
    have distinct : j ≠ id := by
      rintro rfl
      exact apart v rfl
    simp [distinct]
  | _ => exact ⟨rfl, rfl⟩

theorem permits_holding (id : ObjectId) (other : ∀ e, op ≠ .object (.release e)) (w : World) :
    (Policy.holding id).Permits w op := by
  rintro w' _ causes rfl
  unfold Op.Causes at causes
  split at causes <;> simp_all

theorem release_holds {w : World} {h : Handle} (well : w.WellFormed)
    (other : ∀ v, h ≠ .object id v) :
    Evolves (.holding id) w ((Action.release h).run w).2 := by
  have destructor : (Policy.holding id).AllowsDestructor h := by
    intro w
    constructor
    · rintro _ _ _ ⟨⟩
    · rintro _ ⟨⟩
  have mark : (Policy.holding id).AllowsMark h := by
    rintro _ j v rfl same
    cases same
    exact other v rfl
  exact ((Action.release_ends destructor mark) well).1

/-- An operation attends the object by releasing it, or leaves its mark alone. -/
theorem performOp_attends {n : Nat} {es : List Destructor} (valid : s.Valid)
    (attends : s.world.Attends id n es) (op : Op) (result : Option Name) :
    (s.performOp op result).2.world.Attends id
      (n + if (s.performed op result).releases id then 1 else 0)
      (es ++ ((s.performed op result).enters? id).toList) := by
  by_cases other : ∀ e, op ≠ .object (.release e)
  · have permitted := permits_holding id other s.world
    simpa [Performed.releases, Performed.enters?, release?_of_other other] using
      attends.evolve (Session.performOp_moves valid permitted result).evolved
  · obtain ⟨e, rfl⟩ : ∃ e, op = .object (.release e) := by simpa using other
    obtain ⟨run, same, sound⟩ := Eval.refOperand_ends (P := .holding id) e valid
    cases led : (Eval.refOperand e).run s with
    | mk r s₁ =>
      rw [led] at run same sound
      have attends₁ := attends.evolve run
      have well₁ := (valid.evolve run same).well
      cases r with
      | error stop =>
        have stopped : (s.performOp (.object (.release e)) result).2.world = s₁.world := by
          rw [Session.performOp_world]
          change ((Eval.refOperand e >>= fun h => Eval.flag (Action.release h)).run s).2.world = _
          rw [run_bind, led]
        rw [stopped]
        simpa [Performed.releases, Performed.enters?, release?_of_stop led] using attends₁
      | ok h =>
        rw [performOp_release_world led]
        by_cases own : ∃ v, h = .object id v
        · obtain ⟨v, rfl⟩ := own
          obtain ⟨o, found, -⟩ := sound id v rfl
          simpa [Performed.releases, Performed.enters?, release?_of_operand led] using
            attends₁.release well₁ found v
        · have apart : ∀ v, h ≠ .object id v := fun v same => own ⟨v, same⟩
          have unconcerned := unconcerned_of_apart (release?_of_operand led result) apart
          simpa [unconcerned] using attends₁.evolve (release_holds well₁ apart)

theorem release?_some {p : Performed} {h : Handle} {w : World}
    (released : p.release? = some (h, w)) :
    ∃ e s₁, p.op = .object (.release e) ∧ (Eval.refOperand e).run p.before = (.ok h, s₁) ∧
      s₁.world = w := by
  unfold Performed.release? at released
  split at released
  · rename_i e op
    split at released
    · rename_i s₁ led
      cases released
      exact ⟨e, s₁, op, led, rfl⟩
    · cases released
  · cases released

/-- Each release of a run is a release of the object as it then was. -/
theorem Session.Runs.released_in {p : Performed} {v : View} {w : World} {o : Obj}
    (run : s.Runs done s') (valid : s.Valid) (found : s'.world.object? id = some o)
    (member : p ∈ done) (released : p.release? = some (.object id v, w)) :
    w.WellFormed ∧ p.after.world = ((Action.release (.object id v)).run w).2 ∧
      ∃ o', w.object? id = some o' ∧ o'.table = o.table := by
  obtain ⟨earlier, later, result, -, before, own, rest⟩ := run.split member
  obtain ⟨e, s₁, op, led, rfl⟩ := release?_some released
  have valid' := before.valid valid
  obtain ⟨moved, same, sound⟩ := Eval.refOperand_ends (P := .any) e valid'
  rw [led] at moved same sound
  have well := (valid'.evolve moved same).well
  have after : p.after.world = ((Action.release (.object id v)).run s₁.world).2 := by
    rw [own, op]
    exact performOp_release_world led result
  obtain ⟨o', there, -⟩ := sound id v rfl
  obtain ⟨o₁, there₁, table, -⟩ := Action.release_object well there v
  have valid₁ : p.after.Valid := by
    rw [own]
    exact (Session.Runs.perform before p.op result).valid valid
  obtain ⟨o₂, there₂, table', -⟩ := (rest.evolves valid₁).1.grows.objects (after ▸ there₁)
  rw [found] at there₂
  cases there₂
  exact ⟨well, after, o', there, (table'.trans table).symm⟩

theorem releaseCount_append (p : Performed) : releaseCount id (done ++ [p]) =
    releaseCount id done + if p.releases id then 1 else 0 := by
  simp [releaseCount, List.countP_cons]

theorem destructorEntries_append (p : Performed) : destructorEntries id (done ++ [p]) =
    destructorEntries id done ++ (p.enters? id).toList := by
  cases entered : p.enters? id <;> simp [destructorEntries, entered]

theorem Session.Runs.attends (run : s.Runs done s') (valid : s.Valid)
    (absent : s.world.object? id = none) :
    s'.world.Attends id (releaseCount id done) (destructorEntries id done) := by
  induction run with
  | refl => exact World.attends_absent absent
  | @perform done s' run op result ih =>
    have step := performOp_attends (run.valid valid) ih op result
    rw [releaseCount_append, destructorEntries_append]
    exact step
  | bind run name value ih =>
    rw [Session.bind_world]
    exact ih

end Steps

end Script

/-- What a release of the object `o` through the view `v` does. -/
structure World.Releasing (w : World) (id : ObjectId) (v : View) (o : Obj) : Prop where
  again : o.released = true → (Action.release (.object id v)).run w = (.ok false, w)
  enters : o.released = false → (Action.release (.object id v)).run w =
    ((w.entered? id).elim (pure ⟨⟩) (Action.runDestructor · (.object id v)) >>=
      fun _ => Action.finishRelease id o).run w
  returns : o.released = false → (∀ d ∈ o.table.destructor?, ∃ w₁,
      (Action.runDestructor d (.object id v)).run w = (.ok ⟨⟩, w₁)) → o.table.Classed →
    ∃ w' o', (Action.release (.object id v)).run w = (.ok true, w') ∧
      w'.object? id = some o' ∧ o'.released = true
  /-- The report names the class of the object, after it has been marked. -/
  unclassed : o.released = false → (∀ d ∈ o.table.destructor?, ∃ w₁,
      (Action.runDestructor d (.object id v)).run w = (.ok ⟨⟩, w₁)) → ¬ o.table.Classed →
    ∃ w' o', (Action.release (.object id v)).run w = (.error (.crash .nullDereference), w') ∧
      w'.object? id = some o' ∧ o'.released = true
  faults : o.released = false → ∀ d ∈ o.table.destructor?, ∀ e w',
    (Action.runDestructor d (.object id v)).run w = (.error e, w') →
      (Action.release (.object id v)).run w = (.error e, w') ∧ w'.object? id = some o
  fault_iff : ∀ d, (∃ e w', (Action.runDestructor d (.object id v)).run w = (.error e, w')) ↔
    d = .fail

theorem World.WellFormed.releasing {w : World} (well : w.WellFormed) {id : ObjectId} {o : Obj}
    (found : w.object? id = some o) (v : View) : w.Releasing id v o where
  again released := Action.release_released found released v
  enters fresh := Action.release_enters found fresh v
  returns fresh returns classed := by
    obtain ⟨w₁, held, well₁, found₁, table, ran⟩ := Action.release_finishes well found fresh returns
    have marked := Action.finishRelease_object well₁ found₁ o
    obtain ⟨w', finished⟩ := Action.finishRelease_returns well₁ found₁ table classed
    rw [finished] at marked
    exact ⟨w', _, ran.trans finished, marked, rfl⟩
  unclassed fresh returns unclassed := by
    obtain ⟨w₁, held, well₁, found₁, table, ran⟩ := Action.release_finishes well found fresh returns
    have finished := Action.finishRelease_crashes id unclassed w₁
    exact ⟨_, _, ran.trans finished, Action.object?_marked found₁, rfl⟩
  faults fresh d supplied e w' ran :=
    ⟨Action.release_fault found fresh supplied ran, (Action.runDestructor_fault well found ran).2⟩
  fault_iff d := Action.runDestructor_fault_iff well d id v

namespace Script

/-- The object `o` after the operations of a run, with the destructors that they have entered. -/
structure Session.Destruction (s : Session) (done : List Performed) (id : ObjectId) (o : Obj) :
    Prop where
  /-- A destructor that does not fail is entered at most once. -/
  entered_once : ∀ d, o.table.Supplies d → d ≠ .fail →
    destructorEntries id done = if o.released then [d] else []
  entered_again : o.table.Supplies .fail →
    destructorEntries id done = List.replicate (releaseCount id done) .fail
  unsupplied : (∀ d, ¬ o.table.Supplies d) → destructorEntries id done = []
  released_iff : o.released = true ↔ ¬ o.table.Supplies .fail ∧ 0 < releaseCount id done
  extended : ∀ {parent level}, o.table = .extend parent level → ∀ d, o.table.Supplies d ↔
    level.destructor = some d ∨ level.destructor = none ∧ ∃ p ∈ parent, p.Supplies d
  supplied : ∀ d, o.table.destructor? = some d ↔ o.table.Supplies d
  /-- The releases counted are those that the operations performed, in the worlds they met. -/
  performed : ∀ p ∈ done, ∀ {v w}, p.release? = some (.object id v, w) →
    p.after.world = ((Action.release (.object id v)).run w).2 ∧
      ∃ o', w.object? id = some o' ∧ o'.table = o.table ∧ w.Releasing id v o'
  next : ∀ v, s.world.Releasing id v o

/-- In every run from the beginning, whatever its operations, the destructor of an object is the one
supplied nearest on the chain of its tables. If it does not fail, it is entered by the first release
of the object through any of its views and by none after it; if it fails, every release enters it. A
first release returns true and marks the object if the destructor returns and the object has a
class, and any release after that returns false and changes nothing. -/
theorem Session.Runs.destruction_counted {files : FileSystem} {verbosity : Int}
    {done : List Performed} {s : Session}
    (run : (Session.withVerbosity { files } verbosity).Runs done s) {id : ObjectId} {o : Obj}
    (found : s.world.object? id = some o) : s.Destruction done id o := by
  have start := (Session.Reachable.start files verbosity).valid
  have attends : s.world.Attends id _ _ := run.attends start rfl
  have well := (run.valid start).well
  have entries := attends.entries found
  have released := attends.released found
  constructor
  case entered_once =>
    intro d supplies proper
    have supplied := DispatchTable.destructor?_iff.mpr supplies
    rcases Nat.eq_zero_or_pos (releaseCount id done) with zero | positive
    · have fresh : o.released = false := by simpa [zero] using released
      simpa [Obj.entries, supplied, Destructor.turns, proper, zero, fresh] using entries
    · have marked : o.released = true :=
        released.mpr ⟨by simpa [supplied] using proper, Nat.pos_iff_ne_zero.mp positive⟩
      have once : min 1 (releaseCount id done) = 1 := Nat.min_eq_left positive
      simpa [Obj.entries, supplied, Destructor.turns, proper, once, marked] using entries
  case entered_again =>
    intro supplies
    simpa [Obj.entries, DispatchTable.destructor?_iff.mpr supplies, Destructor.turns] using entries
  case unsupplied =>
    intro none
    simpa [Obj.entries, DispatchTable.destructor?_none_iff.mpr none] using entries
  case released_iff =>
    rw [released, Ne, DispatchTable.destructor?_iff, Nat.pos_iff_ne_zero]
  case extended =>
    intro parent level same d
    rw [same]
    exact DispatchTable.supplies_extend_iff
  case supplied => exact fun d => DispatchTable.destructor?_iff
  case performed =>
    intro p member v w released
    obtain ⟨well', after, o', there, table⟩ := run.released_in start found member released
    exact ⟨after, o', there, table, well'.releasing there v⟩
  case next => exact well.releasing found

/-- A script that releases two objects twice each: one inherits a destructor that leaves a record,
the other has one that fails. -/
def twoReleases : List Step :=
  [.perform (.table (.new (some (.named (.core .object))) .null (some (.record "gone")) []))
      (some "recording") none,
    .perform (.table (.new (some (.named (.core .object))) (.variable "recording") none ["draw"]))
      (some "heir") none,
    .perform (.table (.new (some (.named (.core .object))) .null (some .fail) []))
      (some "failing") none,
    .perform (.object (.newBareOf (.variable "heir"))) (some "a") none,
    .perform (.object (.newBareOf (.variable "failing"))) (some "b") none,
    .perform (.object (.release (.variable "a"))) none none,
    .perform (.object (.release (.variable "a"))) none none,
    .perform (.object (.release (.variable "b"))) none none,
    .perform (.object (.release (.variable "b"))) none none]

theorem destruction_counted_twoReleases :
    let start := Session.withVerbosity {} 0
    let s := (start.runAll twoReleases).2
    let done := start.trail twoReleases
    start.Runs done s ∧ releaseCount 2 done = 2 ∧ releaseCount 3 done = 2 ∧
    (∃ o, s.world.object? 2 = some o ∧ s.Destruction done 2 o) ∧
    (∃ o, s.world.object? 3 = some o ∧ s.Destruction done 3 o) ∧
    destructorEntries 2 done = [.record "gone"] ∧ destructorEntries 3 done = [.fail, .fail] ∧
    (Action.release (.object 2 .bare)).run s.world = (.ok false, s.world) := by
  intro start s done
  have run : start.Runs done s :=
    Session.runs_trail twoReleases (Session.Reachable.start {} 0).valid
  obtain ⟨a, found⟩ : ∃ o, s.world.object? 2 = some o :=
    Option.isSome_iff_exists.mp (by decide +kernel)
  obtain ⟨b, found'⟩ : ∃ o, s.world.object? 3 = some o :=
    Option.isSome_iff_exists.mp (by decide +kernel)
  have one := run.destruction_counted found
  have other := run.destruction_counted found'
  have count : releaseCount 2 done = 2 := by decide +kernel
  have count' : releaseCount 3 done = 2 := by decide +kernel
  have supplied : (s.world.object? 2).bind (·.table.destructor?) = some (.record "gone") := by
    decide +kernel
  have supplied' : (s.world.object? 3).bind (·.table.destructor?) = some .fail := by decide +kernel
  rw [found, Option.bind_some] at supplied
  rw [found', Option.bind_some] at supplied'
  have marked : a.released = true :=
    one.released_iff.mpr ⟨by simp [← one.supplied, supplied], by simp [count]⟩
  refine ⟨run, count, count', ⟨a, found, one⟩, ⟨b, found', other⟩, ?_, ?_, ?_⟩
  · simpa [marked] using one.entered_once _ ((one.supplied _).mp supplied) (by decide)
  · simpa [count'] using other.entered_again ((other.supplied _).mp supplied')
  · exact (one.next .bare).again marked

end Script

end ObjectModel
