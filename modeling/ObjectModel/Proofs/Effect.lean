import ObjectModel.Proofs.Definition
import ObjectModel.Proofs.Frame

/-!
The effects of operations. An operation that stops has left alone all that was there before, unless
it is a release, which may have reached its own object. One that returns has at most one effect: a
store at one position, a destructor run on one handle, a release, or new options. From the effects
follows what it takes to change an object or a setting.
-/

namespace ObjectModel

namespace Script

def Session.Evaluates (s : Session) (e : RefExpr) (h : Handle) : Prop :=
  ∃ s', (Eval.refOperand e).run s = (.ok h, s')

namespace Op

/-- The operation releases the object of the handle. -/
def Releases (s : Session) (op : Op) (h : Handle) : Prop :=
  ∃ e, op = .object (.release e) ∧ s.Evaluates e h

/-- The operation runs the destructor of a table on the handle. -/
def Destroys (s : Session) (op : Op) (h : Handle) : Prop :=
  ∃ e operand t s', op = .table (.destroy e operand) ∧
    (Eval.someTable e).run s = (.ok t, s') ∧ s'.Evaluates operand h

/-- The operation stores into the array at the position. -/
inductive Stores (s : Session) (id : ObjectId) : Op → Place → Prop where
  | set {e : RefExpr} {i : Int32} {value : StoredExpr} {n : Nat}
      (array : s.Evaluates e (.object id .array)) (index : i.toInt = n) :
      Stores s id (.array (.set e i value)) (.cell n)
  | setAt {e : RefExpr} {i j : Int32} {value : StoredExpr} {n m : Nat}
      (grid : s.Evaluates e (.object id .grid)) (row : i.toInt = n) (column : j.toInt = m) :
      Stores s id (.array (.setAt e i j value)) (.square n m)
  | rowSet {name : Name} {i j : Int32} {value : StoredExpr} {n m : Nat}
      (bound : s.bindings.lookup name = some (.row id i)) (row : i.toInt = n)
      (column : j.toInt = m) : Stores s id (.array (.rowSet name j value)) (.square n m)

/-- The operation asks for these options. -/
def Configures (s : Session) (op : Op) (options : Options) : Prop :=
  op = .config (.setOptions options.allowZeroLength) ∨
    ∃ name c s', op = .config (.apply name) ∧
      (Eval.configOperand name).run s = (.ok c, s') ∧ c.options = options

/-- Operations that bring about no event on what is there. -/
def isInert : Op → Bool
  | .object (.release _) | .table (.destroy _ _) | .array (.set _ _ _)
  | .array (.setAt _ _ _ _) | .array (.rowSet _ _ _) | .config (.setOptions _)
  | .config (.apply _) => false
  | _ => true

end Op

/-- What an operation that returns may have done to the world of the session. -/
inductive Effect (s : Session) (op : Op) : World → Prop where
  | none {w : World} (kept : s.world.Framed none w) : Effect s op w
  | store {w : World} {id : ObjectId} {p : Place} (value : Element)
      (kept : s.world.Framed none w) (stores : op.Stores s id p) :
      Effect s op (w.modifyObject id (Obj.put p value))
  | drop {w : World} {id : ObjectId} {v : View} (kept : s.world.Framed none w)
      (destroys : op.Destroys s (.object id v)) :
      Effect s op (w.modifyObject id Obj.withoutStorage)
  | record {w : World} {h : Handle} (name : Text) (kept : s.world.Framed none w)
      (destroys : op.Destroys s h) :
      Effect s op { w with destroyed := w.destroyed.push (name, h) }
  | release {w : World} {h : Handle} (kept : s.world.Framed (some h) w)
      (releases : op.Releases s h) : Effect s op w
  | configure {w w' : World} {o : Options} (kept : s.world.Framed none w)
      (objects : w'.objects = w.objects) (options : w'.options = o)
      (configures : op.Configures s o) : Effect s op w'

/-- What an operation that stops may have done: a release may have reached its own object. -/
def Remains (s : Session) (op : Op) (w : World) : Prop :=
  ∃ target, s.world.Framed target w ∧ ∀ h ∈ target, op.Releases s h

namespace Eval

/-- Begun in a session whose world is framed by `w`, the evaluation keeps to the frame if it stops
and ends as described if it returns. -/
def Atomic {α : Type} (w : World) (e : Eval α) (s : Session) (R : α → World → Prop) : Prop :=
  s.Valid → w.Framed none s.world →
    Concludes (fun x s' => R x s'.world) (fun _ s' => w.Framed none s'.world) (e.run s)

theorem run_act_bind {α β : Type} (a : Action α) (f : α → Action β) (s : Session) :
    (act (a >>= f)).run s = (act a >>= fun x => act (f x)).run s := by
  rw [run_act, run_bind, run_bind, run_act]
  cases a.run s.world with
  | mk r w => cases r <;> rfl

namespace Atomic
variable {α β : Type} {w : World} {s : Session} {Q R : α → World → Prop} {S : β → World → Prop}

theorem of_ends {e : Eval α} (ends : Ends (.framing w none) e s Q)
    (holds : ∀ x w', w.Framed none w' → R x w') : Atomic w e s R := by
  intro valid framed
  obtain ⟨run, -, -⟩ := ends valid
  have kept := Concludes.of_state (p := fun s' : Session => w.Framed none s'.world)
    (run.framed framed)
  exact kept.imp (fun x s' => holds x s'.world) fun _ _ kept => kept

theorem bind {e : Eval α} {f : α → Eval β} (first : Ends (.framing w none) e s Q)
    (next : ∀ x s', e.run s = (.ok x, s') → Q x s'.world → Atomic w (f x) s' S) :
    Atomic w (e >>= f) s S := by
  intro valid framed
  obtain ⟨run, same, result⟩ := first valid
  have kept := run.framed framed
  have valid' := valid.evolve run same
  rw [run_bind]
  cases ran : e.run s with
  | mk r s' =>
    rw [ran] at kept valid' result
    cases r with
    | error stop => exact kept
    | ok x => exact next x s' ran result valid' kept

theorem act_bind {a : Action α} {f : α → Action β}
    (first : Action.Orderly (.framing w none) a s.world Q)
    (next : ∀ x s', Q x s'.world → Atomic w (act (f x)) s' S) : Atomic w (act (a >>= f)) s S := by
  have split : Atomic w (act a >>= fun x => act (f x)) s S :=
    .bind (.act first) fun x s' _ holds => next x s' holds
  intro valid framed
  rw [run_act_bind]
  exact split valid framed

theorem modify {f : World → World} {R : World → Prop}
    (holds : w.Framed none s.world → R (f s.world)) :
    Atomic w (act (modify f)) s (fun _ w' => R w') :=
  fun _ framed => holds framed

theorem imp {e : Eval α} (atomic : Atomic w e s Q) (weaker : ∀ x w', Q x w' → R x w') :
    Atomic w e s R := by
  intro valid framed
  exact (atomic valid framed).imp (fun x s' => weaker x s'.world) fun _ _ kept => kept

theorem nothing {a : Action Unit} {R : World → Prop}
    (atomic : Atomic w (act a) s (fun _ w' => R w')) :
    Atomic w (nothing a) s (fun _ w' => R w') := by
  intro valid framed
  apply Concludes.bind
  exact atomic valid framed

end Atomic

section Stores
variable {w : World} {s : Session}

theorem arraySet_atomic (id : ObjectId) (i : Int32) (value : Element) :
    Atomic w (nothing (Action.arraySet id i value)) s (fun _ w' => ∃ w₁ n, i.toInt = Int.ofNat n ∧
      w.Framed none w₁ ∧ w' = w₁.modifyObject id (Obj.put (.cell n) value)) := by
  apply Atomic.nothing
  -- All but the last step only reads the array or throws.
  refine .act_bind (Action.cells_ends id) fun c _ _ => ?_
  refine .act_bind (Action.checkIndex_ends _ i c.length) fun _ _ inside => ?_
  refine .act_bind (Action.checkStoreIf_ends _ _ _ _) fun _ _ _ => ?_
  refine .act_bind (Action.element_ends c.storage i) fun _ _ _ => ?_
  apply Atomic.modify
  intro framed
  exact ⟨_, i.toInt.toNat, (Int.toNat_of_nonneg inside.1.1).symm, framed, rfl⟩

theorem gridSet_atomic (id : ObjectId) (i j : Int32) (value : Element) :
    Atomic w (nothing (Action.gridSet id i j value)) s (fun _ w' => ∃ w₁ n m,
      i.toInt = Int.ofNat n ∧ j.toInt = Int.ofNat m ∧ w.Framed none w₁ ∧
      w' = w₁.modifyObject id (Obj.put (.square n m) value)) := by
  apply Atomic.nothing
  refine .act_bind (Action.gridCells_ends id) fun g _ _ => ?_
  refine .act_bind (Action.checkIndex_ends _ i g.rows) fun _ _ inside => ?_
  refine .act_bind (Action.checkIndex_ends _ j g.columns) fun _ _ inside' => ?_
  refine .act_bind (Action.checkStoreIf_ends _ _ _ _) fun _ _ _ => ?_
  refine .act_bind (Action.element_ends g.storage i) fun row _ _ => ?_
  refine .act_bind (Action.element_ends row j) fun _ _ _ => ?_
  apply Atomic.modify
  intro framed
  exact ⟨_, i.toInt.toNat, j.toInt.toNat, (Int.toNat_of_nonneg inside.1.1).symm,
    (Int.toNat_of_nonneg inside'.1.1).symm, framed, rfl⟩

theorem evaluates_of_arrayOperand {s' : Session} {e : RefExpr} {id : ObjectId}
    (ran : (arrayOperand e).run s = (.ok id, s')) : s.Evaluates e (.object id .array) := by
  obtain ⟨h, s₁, led, rest⟩ := run_bind_ok ran
  obtain ⟨_, s₂, _, rest⟩ := run_bind_ok rest
  split at rest
  · cases rest
    exact ⟨s₁, led⟩
  · cases rest

theorem evaluates_of_gridOperand {s' : Session} {e : RefExpr} {id : ObjectId}
    (ran : (gridOperand e).run s = (.ok id, s')) : s.Evaluates e (.object id .grid) := by
  obtain ⟨h, s₁, led, rest⟩ := run_bind_ok ran
  obtain ⟨_, s₂, _, rest⟩ := run_bind_ok rest
  split at rest
  · cases rest
    exact ⟨s₁, led⟩
  · cases rest

theorem bound_of_rowOperand {s' : Session} {name : Name} {id : ObjectId} {i : Int32}
    (ran : (rowOperand name).run s = (.ok (id, i), s')) :
    s.bindings.lookup name = some (.row id i) := by
  obtain ⟨v, s₁, read, rest⟩ := run_bind_ok ran
  unfold valueOf at read
  rw [run_get_bind] at read
  split at read
  · rename_i v bound
    cases read
    split at rest
    · cases rest
      exact bound
    · cases rest
  · cases read

theorem set_atomic (e : RefExpr) (i : Int32) (value : StoredExpr) :
    Atomic s.world (array (.set e i value)) s
      (fun _ w => Effect s (.array (.set e i value)) w) := by
  refine .bind (arrayOperand_ends e) fun id _ ran _ => ?_
  refine .bind (.act (Action.cells_ends id)) fun c _ _ _ => ?_
  refine .bind (storedElement_ends c.element value) fun v _ _ _ => ?_
  refine (arraySet_atomic id i v).imp fun _ _ stored => ?_
  obtain ⟨w₁, n, index, kept, rfl⟩ := stored
  exact .store v kept (.set (evaluates_of_arrayOperand ran) index)

theorem storeAt_atomic {s' : Session} {op : Op} (id : ObjectId) (i j : Int32) (value : StoredExpr)
    (stores : ∀ n m : Nat, i.toInt = n → j.toInt = m → op.Stores s id (.square n m)) :
    Atomic s.world (do
      let cells ← act (Action.gridCells id)
      let v ← storedElement cells.element value
      nothing (Action.gridSet id i j v)) s' (fun _ w => Effect s op w) := by
  refine .bind (.act (Action.gridCells_ends id)) fun g _ _ _ => ?_
  refine .bind (storedElement_ends g.element value) fun v _ _ _ => ?_
  refine (gridSet_atomic id i j v).imp fun _ _ stored => ?_
  obtain ⟨w₁, n, m, row, column, kept, rfl⟩ := stored
  exact .store v kept (stores n m row column)

theorem setAt_atomic (e : RefExpr) (i j : Int32) (value : StoredExpr) :
    Atomic s.world (array (.setAt e i j value)) s
      (fun _ w => Effect s (.array (.setAt e i j value)) w) := by
  refine .bind (gridOperand_ends e) fun id _ ran _ => ?_
  exact storeAt_atomic id i j value fun _ _ => .setAt (evaluates_of_gridOperand ran)

theorem rowSet_atomic (name : Name) (j : Int32) (value : StoredExpr) :
    Atomic s.world (array (.rowSet name j value)) s
      (fun _ w => Effect s (.array (.rowSet name j value)) w) := by
  refine .bind (rowOperand_ends name) fun place _ ran _ => ?_
  exact storeAt_atomic place.1 place.2 j value fun _ _ => .rowSet (bound_of_rowOperand ran)

end Stores

section Destructors
variable {s s' : Session} {op : Op}

theorem runDestructor_atomic {h : Handle} (d : Destructor) (destroys : op.Destroys s h) :
    Atomic s.world (act (Action.runDestructor d h)) s' (fun _ w => Effect s op w) := by
  have idle {a : Action Unit} (ends : Action.Orderly (.framing s.world none) a s'.world
      (fun _ _ => True)) : Atomic s.world (act a) s' (fun _ w => Effect s op w) :=
    .of_ends (.act ends) fun _ _ kept => .none kept
  cases d with
  | dropStorage =>
    change Atomic s.world (act (Action.dropStorage h)) s' _
    unfold Action.dropStorage
    split
    · exact .modify fun kept => .drop kept destroys
    · exact .modify fun kept => .drop kept destroys
    · exact idle (Action.crash_ends _)
    · exact idle (Action.crash_ends _)
    · exact idle (.pure fun _ => trivial)
  | fail => exact idle (Action.raise_orderly _ _)
  | record name => exact .modify fun kept => .record name kept destroys

theorem destroy_atomic (e : TableExpr) (operand : RefExpr) :
    Atomic s.world (table (.destroy e operand)) s
      (fun _ w => Effect s (.table (.destroy e operand)) w) := by
  refine .bind (someTable_ends e) fun t s₁ found _ => ?_
  refine .bind (refOperand_ends operand) fun h s₂ led _ => ?_
  apply Atomic.nothing
  refine .act_bind (Action.demand_ends t.destructor?) fun d _ _ => ?_
  exact runDestructor_atomic d ⟨e, operand, t, s₁, rfl, found, s₂, led⟩

end Destructors

section Settings
variable {s : Session}

theorem logged_settings (w : World) (m : Message) :
    (w.logged m).objects = w.objects ∧ (w.logged m).options = w.options := by
  unfold World.logged
  split
  · exact ⟨rfl, rfl⟩
  · exact ⟨rfl, rfl⟩

theorem setOptions_atomic (allowZeroLength : Bool) :
    Atomic s.world (config (.setOptions allowZeroLength)) s
      (fun _ w => Effect s (.config (.setOptions allowZeroLength)) w) := by
  intro _ framed
  obtain ⟨objects, options⟩ := logged_settings { s.world with options := { allowZeroLength } }
    ⟨.debug, .runtime, "options: allow zero-length arrays = " ++ Text.ofBool allowZeroLength⟩
  exact .configure framed objects options (.inl rfl)

theorem apply_atomic (name : Name) :
    Atomic s.world (config (.apply name)) s
      (fun _ w => Effect s (.config (.apply name)) w) := by
  refine .bind (configOperand_ends name) fun c s' ran _ => ?_
  intro _ framed
  let set := { s'.world with
    threshold := Severity.ofVerbosity c.verbosity.toInt, options := c.options }
  obtain ⟨objects, options⟩ := logged_settings set
    ⟨.debug, .runtime,
      "options: allow zero-length arrays = " ++ Text.ofBool c.options.allowZeroLength⟩
  obtain ⟨objects', options'⟩ := logged_settings (set.logged _)
    ⟨.info, .config, "applied configuration from " ++ Text.quoted c.path⟩
  exact .configure framed (objects'.trans objects) (options'.trans options)
    (.inr ⟨name, c, s', rfl, ran, rfl⟩)

end Settings

section Operations
variable {s : Session}

theorem release_effect (valid : s.Valid) (e : RefExpr) :
    Concludes (fun _ s' => Effect s (.object (.release e)) s'.world)
      (fun _ s' => Remains s (.object (.release e)) s'.world)
      ((perform (.object (.release e))).run s) := by
  change Concludes _ _ ((refOperand e >>= fun h => flag (Action.release h)).run s)
  obtain ⟨run, same, -⟩ := refOperand_ends (P := .framing s.world none) e valid
  have kept := run.framed (.refl s.world none)
  rw [run_bind]
  cases led : (refOperand e).run s with
  | mk r s₁ =>
    rw [led] at run same kept
    cases r with
    | error stop => exact ⟨none, kept, fun _ member => nomatch member⟩
    | ok h =>
      -- A release can fail after its destructor has run, so both of its ends are framed alike.
      have releases : Op.Releases s (.object (.release e)) h := ⟨e, rfl, s₁, led⟩
      have destructor : (Policy.framing s.world (some h)).AllowsDestructor h :=
        fun _ => ⟨fun _ v same => ⟨v, congrArg some same⟩, fun _ => rfl⟩
      have mark : (Policy.framing s.world (some h)).AllowsMark h :=
        fun _ _ v same => ⟨v, congrArg some same⟩
      have ends : Ends (.framing s.world (some h)) (flag (Action.release h)) s₁ Answers :=
        flag_ends (Action.release_ends destructor mark)
      obtain ⟨run', -, -⟩ := ends (valid.evolve run same)
      have kept' := Concludes.of_state (p := fun s' : Session => s.world.Framed (some h) s'.world)
        (run'.framed kept.weaken)
      apply kept'.imp
      · exact fun _ _ kept => .release kept releases
      · intro _ _ kept
        refine ⟨some h, kept, ?_⟩
        rintro _ ⟨rfl⟩
        exact releases

theorem permits_framing {w : World} {op : Op} (inert : op.isInert = true) :
    (Policy.framing w none).Permits w op := by
  intro w' e causes
  unfold Op.Causes at causes
  split at causes <;> simp_all [Op.isInert, Policy.framing]

/-- An operation that returns has one of the effects, one that stops has none, or was a release. -/
theorem perform_effect (valid : s.Valid) (op : Op) :
    Concludes (fun _ s' => Effect s op s'.world) (fun _ s' => Remains s op s'.world)
      ((perform op).run s) := by
  have atomic (effect : Atomic s.world (perform op) s (fun _ w => Effect s op w)) :
      Concludes (fun _ s' => Effect s op s'.world) (fun _ s' => Remains s op s'.world)
        ((perform op).run s) := by
    apply (effect valid (.refl s.world none)).imp
    · exact fun _ _ effect => effect
    · exact fun _ _ kept => ⟨none, kept, fun _ member => nomatch member⟩
  cases inert : op.isInert with
  | true =>
    exact atomic (.of_ends (perform_ends op (permits_framing inert)) fun _ _ kept => .none kept)
  | false =>
    unfold Op.isInert at inert
    split at inert
    · exact release_effect valid _
    · exact atomic (destroy_atomic _ _)
    · exact atomic (set_atomic _ _ _)
    · exact atomic (setAt_atomic _ _ _ _)
    · exact atomic (rowSet_atomic _ _ _)
    · exact atomic (setOptions_atomic _)
    · exact atomic (apply_atomic _)
    · cases inert

end Operations

end Eval

/-- The world that a release leaves, its operand evaluated. -/
theorem performOp_release_world {s s₁ : Session} {e : RefExpr} {h : Handle}
    (led : (Eval.refOperand e).run s = (.ok h, s₁)) (result : Option Name) :
    (s.performOp (.object (.release e)) result).2.world =
      ((Action.release h).run s₁.world).2 := by
  rw [Session.performOp_world]
  change ((Eval.refOperand e >>= fun h => Eval.flag (Action.release h)).run s).2.world = _
  rw [run_bind, led]
  dsimp only
  rw [Eval.flag, run_bind, Eval.run_act]
  cases (Action.release h).run s₁.world with
  | mk r w => cases r <;> rfl

section Objects
variable {s : Session} {op : Op} {w : World} {id : ObjectId} {o o' : Obj}

theorem eq_or_of_modifyObject {j : ObjectId} {f : Obj → Obj} (still : s.world.Still w)
    (found : s.world.object? id = some o) (found' : (w.modifyObject j f).object? id = some o') :
    o' = o ∨ j = id ∧ o' = f o := by
  rw [World.object?_modifyObject, still id o found] at found'
  split at found'
  · rename_i same
    cases found'
    exact .inr ⟨same, rfl⟩
  · cases found'
    exact .inl rfl

theorem eq_or_releases {h : Handle} (kept : s.world.Framed (some h) w) (releases : op.Releases s h)
    (found : s.world.object? id = some o) (found' : w.object? id = some o') :
    o' = o ∨ ∃ v, op.Releases s (.object id v) := by
  by_cases named : ∃ v, h = .object id v
  · obtain ⟨v, rfl⟩ := named
    exact .inr ⟨v, releases⟩
  · have spared : ∀ v, some h ≠ some (.object id v) :=
      fun v same => named ⟨v, Option.some.inj same⟩
    rw [kept.objects id o spared found] at found'
    cases found'
    exact .inl rfl

/-- An operation that changes an object stores into it, destroys it or releases it. -/
theorem Effect.object (effect : Effect s op w) (found : s.world.object? id = some o)
    (found' : w.object? id = some o') :
    o' = o ∨ (∃ p value, op.Stores s id p ∧ o' = o.put p value) ∨
      (∃ v, op.Destroys s (.object id v) ∧ o' = o.withoutStorage) ∨
      ∃ v, op.Releases s (.object id v) := by
  have unmoved {w' : World} (still : s.world.Still w') (same : w'.objects = w.objects) :
      o' = o := by
    rw [World.object?, ← same, ← World.object?, still id o found] at found'
    exact (Option.some.inj found').symm
  cases effect with
  | none kept => exact .inl (unmoved kept.still rfl)
  | store value kept stores =>
    rcases eq_or_of_modifyObject kept.still found found' with same | ⟨rfl, changed⟩
    · exact .inl same
    · exact .inr (.inl ⟨_, value, stores, changed⟩)
  | drop kept destroys =>
    rcases eq_or_of_modifyObject kept.still found found' with same | ⟨rfl, changed⟩
    · exact .inl same
    · exact .inr (.inr (.inl ⟨_, destroys, changed⟩))
  | record name kept destroys => exact .inl (unmoved kept.still rfl)
  | release kept releases =>
    rcases eq_or_releases kept releases found found' with same | released
    · exact .inl same
    · exact .inr (.inr (.inr released))
  | configure kept objects _ _ => exact .inl (unmoved kept.still objects.symm)

theorem Remains.object (remains : Remains s op w) (found : s.world.object? id = some o)
    (found' : w.object? id = some o') : o' = o ∨ ∃ v, op.Releases s (.object id v) := by
  obtain ⟨target, kept, releases⟩ := remains
  cases target with
  | none =>
    rw [kept.still id o found] at found'
    cases found'
    exact .inl rfl
  | some h => exact eq_or_releases kept (releases h rfl) found found'

theorem Effect.options (effect : Effect s op w) (changed : w.options ≠ s.world.options) :
    op.Configures s w.options := by
  cases effect with
  | none kept => exact absurd kept.options changed
  | store _ kept _ => exact absurd kept.options changed
  | drop kept _ => exact absurd kept.options changed
  | record _ kept _ => exact absurd kept.options changed
  | release kept _ => exact absurd kept.options changed
  | configure _ _ same configures =>
    rw [same]
    exact configures

end Objects

/-- What an operation leaves alone, and what it takes to change the rest. -/
structure Session.Confined (s : Session) (op : Op) (outcome : Outcome) (s' : Session) : Prop where
  /-- Classes are only added, and objects keep their places, tables and kinds. -/
  grows : Grows s.world s'.world
  released : ∀ {id o o'}, s.world.object? id = some o → s'.world.object? id = some o' →
    o'.released ≠ o.released → o'.released = true ∧ ∃ v, op.Releases s (.object id v)
  elements : ∀ {id o o' p}, s.world.object? id = some o → s'.world.object? id = some o' →
    o'.body.at? p ≠ o.body.at? p → (∃ v, op.Releases s (.object id v)) ∨
      (∃ r, outcome = .reply r) ∧ (op.Stores s id p ∨ ∃ v, op.Destroys s (.object id v))
  options : s'.world.options ≠ s.world.options →
    (∃ r, outcome = .reply r) ∧ op.Configures s s'.world.options
  /-- An operation that stops leaves all as it is, a release perhaps all but its own object. -/
  stopped : ∀ stop, outcome = .stopped stop → s'.bindings = s.bindings ∧ Remains s op s'.world

theorem Effect.confined {s s' : Session} {op : Op} {r : Reply} (grows : Grows s.world s'.world)
    (marks : ∀ {id o o'}, s.world.object? id = some o → s'.world.object? id = some o' →
      o'.released ≠ o.released → o'.released = true)
    (effect : Effect s op s'.world) : s.Confined op (.reply r) s' where
  grows := grows
  released found found' changed := by
    refine ⟨marks found found' changed, ?_⟩
    rcases effect.object found found' with rfl | ⟨p, value, _, rfl⟩ | ⟨v, _, rfl⟩ | releases
    · exact absurd rfl changed
    · exact absurd (Obj.put_released p value _) changed
    · exact absurd (Obj.withoutStorage_released _) changed
    · exact releases
  elements {id o o' p} found found' changed := by
    rcases effect.object found found' with
      rfl | ⟨q, value, stores, rfl⟩ | ⟨v, destroys, -⟩ | releases
    · exact absurd rfl changed
    · have same : p = q := by
        by_contra other
        exact changed (Obj.at?_put other value o)
      rw [same]
      exact .inr ⟨⟨r, rfl⟩, .inl stores⟩
    · exact .inr ⟨⟨r, rfl⟩, .inr ⟨v, destroys⟩⟩
    · exact .inl releases
  options changed := ⟨⟨r, rfl⟩, effect.options changed⟩
  stopped _ impossible := nomatch impossible

theorem Remains.confined {s s' : Session} {op : Op} {stop : Stop} (grows : Grows s.world s'.world)
    (marks : ∀ {id o o'}, s.world.object? id = some o → s'.world.object? id = some o' →
      o'.released ≠ o.released → o'.released = true)
    (same : s'.bindings = s.bindings) (remains : Remains s op s'.world) :
    s.Confined op (.stopped stop) s' where
  grows := grows
  released found found' changed := by
    refine ⟨marks found found' changed, ?_⟩
    rcases remains.object found found' with rfl | releases
    · exact absurd rfl changed
    · exact releases
  elements found found' changed := by
    rcases remains.object found found' with rfl | releases
    · exact absurd rfl changed
    · exact .inl releases
  options changed := by
    obtain ⟨_, kept, _⟩ := remains
    exact absurd kept.options changed
  stopped _ _ := ⟨same, remains⟩

/-- Every operation is confined in every session that a script reaches, whether it returns or
stops. Along whole runs, classes are only added, objects keep their places, tables and kinds, and
what has been released stays released. -/
theorem Session.Reachable.operation_confined {s : Session} (reached : s.Reachable) :
    (∀ op result, s.Confined op (s.performOp op result).1 (s.performOp op result).2) ∧
    ∀ steps, Grows s.world (s.runAll steps).2.world ∧
      ∀ id o, s.world.object? id = some o → o.released = true →
        ∃ o', (s.runAll steps).2.world.object? id = some o' ∧ o'.released = true := by
  have valid := reached.valid
  constructor
  · intro op result
    have ended := Eval.perform_effect valid op
    obtain ⟨run, same, -⟩ := Eval.perform_ends (P := .any) op (fun _ _ _ => trivial) valid
    unfold Session.performOp
    cases ran : (Eval.perform op).run s with
    | mk r s' =>
      rw [ran] at ended run same
      cases r with
      | error stop => exact Remains.confined run.grows run.marked same ended
      | ok reply =>
        cases reply with
        | error e => exact Effect.confined run.grows run.marked ended
        | ok v =>
          dsimp only
          apply Effect.confined <;> rw [Session.bind_world]
          · exact run.grows
          · exact run.marked
          · exact ended
  · intro steps
    have run := valid.runAll_evolves steps
    exact ⟨run.grows, fun id o found released => run.released found released⟩

/-- A script that makes an array of two integers and stores into its first position. -/
def storedInt : List Step :=
  [.perform (.array (.newArray none (.named (.primitive .int)) 2)) (some "a") none,
    .perform (.array (.set (.variable "a") 0 (.number 7))) none none]

/-- A store behind the end of the array stops and leaves everything as it was. -/
theorem operation_confined_storedInt :
    let s := ((Session.withVerbosity {} 0).runAll storedInt).2
    let op : Op := .array (.set (.variable "a") 2 (.number 1))
    s.Reachable ∧ s.Confined op (s.performOp op none).1 (s.performOp op none).2 ∧
      (∃ stop, (s.performOp op none).1 = .stopped stop) ∧
      s.world.Framed none (s.performOp op none).2.world := by
  intro s op
  have reached : s.Reachable := (Session.Reachable.start {} 0).runAll storedInt
  have confined := reached.operation_confined.1 op none
  have stops : ∃ stop, (s.performOp op none).1 = .stopped stop := by
    have caught : (match (s.performOp op none).1 with | .stopped _ => true | .reply _ => false) =
        true := by decide +kernel
    cases outcome : (s.performOp op none).1 with
    | stopped stop => exact ⟨stop, rfl⟩
    | reply r =>
      rw [outcome] at caught
      cases caught
  obtain ⟨stop, stopped⟩ := stops
  obtain ⟨-, target, kept, releases⟩ := confined.stopped stop stopped
  cases target with
  | none => exact ⟨reached, confined, ⟨stop, stopped⟩, kept⟩
  | some h =>
    obtain ⟨e, released, -⟩ := releases h rfl
    change Op.array _ = Op.object _ at released
    cases released

/-- The destructor of its table empties an array that is neither stored into nor released. -/
theorem element_lost_to_destructor :
    let s := ((Session.withVerbosity {} 0).runAll storedInt).2
    let op : Op := .table (.destroy (.ofClass (.array (.named (.primitive .int)))) (.variable "a"))
    let s' := (s.performOp op none).2
    s.Reachable ∧ (∀ h, ¬ op.Releases s h) ∧ (∀ id p, ¬ op.Stores s id p) ∧
      (s.world.body? 6).bind (fun body => body.at? (.cell 0)) = some (.int 7) ∧
      (s'.world.body? 6).bind (fun body => body.at? (.cell 0)) = none ∧
      (s'.world.object? 6).map Obj.released = some false := by
  intro s op s'
  refine ⟨(Session.Reachable.start {} 0).runAll storedInt, ?_, ?_, ?_⟩
  · rintro h ⟨e, released, -⟩
    change Op.table _ = Op.object _ at released
    cases released
  · intro id p stores
    change Op.Stores s id (.table _) p at stores
    cases stores
  · decide +kernel

end Script

end ObjectModel
