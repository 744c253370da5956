import ObjectModel.Proofs.Contract.Command
import ObjectModel.Script.Operand

/-!
Contracts of script evaluation. An evaluation evolves the world of the session and keeps the
variables; its result satisfies a condition in the world that is left, and an exception it stops
with is an exception. Operands are in order whenever the variables are.
-/

namespace ObjectModel

theorem Handle.eq_of_as? {h : Handle} {view : View} {id : ObjectId}
    (leads : h.as? view = some id) : h = .object id view := by
  cases h with
  | object home v =>
    simp only [as?] at leads
    split at leads
    · rename_i same
      cases leads
      rw [same]
    · cases leads
  | _ => cases leads

namespace Script

def Value.Valid (w : World) : Value → Prop
  | .handle h => h.Valid w
  | .table t => ∀ level ∈ t, level.Valid w
  | .row grid _ => ∃ cells, w.body? grid = some (.grid cells)
  | _ => True

theorem Value.Valid.mono {w w' : World} {v : Value} (valid : v.Valid w) (grown : Grows w w') :
    v.Valid w' := by
  cases v with
  | handle h => exact Handle.Valid.mono valid grown
  | table t => exact fun t' member => (valid t' member).mono grown
  | row grid i =>
    obtain ⟨cells, has⟩ := valid
    obtain ⟨body, has', kin⟩ := grown.kin has
    cases kin with
    | same => exact ⟨cells, has'⟩
    | grid _ storage => exact ⟨_, has'⟩
  | _ => trivial

def Stop.Valid : Stop → World → Prop
  | .fault e, w => e.Valid w
  | _, _ => True

structure Session.Valid (s : Session) : Prop where
  well : s.world.WellFormed
  bindings : ∀ b ∈ s.bindings, b.2.Valid s.world

theorem Session.Valid.evolve {P : Policy} {s s' : Session} (valid : s.Valid)
    (evolved : Evolves P s.world s'.world) (same : s'.bindings = s.bindings) : s'.Valid := by
  refine ⟨evolved.wellFormed valid.well, fun b member => ?_⟩
  rw [same] at member
  exact (valid.bindings b member).mono evolved.grows

namespace Eval

/-- Run in a session that is in order, the evaluation evolves its world, keeps its variables and
ends as described. -/
def Ends {α : Type} (P : Policy) (e : Eval α) (s : Session) (Q : α → World → Prop) : Prop :=
  s.Valid → Evolves P s.world (e.run s).2.world ∧ (e.run s).2.bindings = s.bindings ∧
    Concludes (fun x s' => Q x s'.world) (fun stop s' => stop.Valid s'.world) (e.run s)

theorem run_act {α : Type} (a : Action α) (s : Session) : (act a).run s =
    ((a.run s.world).1.mapError Stop.fault, { s with world := (a.run s.world).2 }) :=
  rfl

namespace Ends
variable {α β : Type} {P : Policy} {s : Session} {Q : α → World → Prop}

theorem bind_run {e : Eval α} {f : α → Eval β} {R : β → World → Prop} (first : Ends P e s Q)
    (next : ∀ x s', e.run s = (.ok x, s') → s'.Valid → Q x s'.world → Ends P (f x) s' R) :
    Ends P (e >>= f) s R := by
  intro valid
  obtain ⟨evolved, same, result⟩ := first valid
  rw [run_bind]
  cases ran : e.run s with
  | mk r s' =>
    rw [ran] at evolved same result
    cases r with
    | error stop => exact ⟨evolved, same, result⟩
    | ok x =>
      have valid' := valid.evolve evolved same
      obtain ⟨evolved', same', result'⟩ := next x s' ran valid' result valid'
      exact ⟨evolved.trans evolved', same'.trans same, result'⟩

theorem bind {e : Eval α} {f : α → Eval β} {R : β → World → Prop} (first : Ends P e s Q)
    (next : ∀ x s', s'.Valid → Grows s.world s'.world → Q x s'.world → Ends P (f x) s' R) :
    Ends P (e >>= f) s R := by
  intro valid
  refine first.bind_run (fun x s' ran valid' holds => next x s' valid' ?_ holds) valid
  have evolved := (first valid).1
  rw [ran] at evolved
  exact evolved.grows

theorem andThen {e : Eval α} {f : α → Eval β} {R : β → World → Prop} (first : Ends P e s Q)
    (next : ∀ x s', Ends P (f x) s' R) : Ends P (e >>= f) s R :=
  first.bind fun x s' _ _ _ => next x s'

theorem imp {e : Eval α} {R : α → World → Prop} (ends : Ends P e s Q)
    (weaker : ∀ x w, w.WellFormed → Grows s.world w → Q x w → R x w) : Ends P e s R := by
  intro valid
  obtain ⟨evolved, same, result⟩ := ends valid
  refine ⟨evolved, same, ?_⟩
  cases ran : e.run s with
  | mk r s' =>
    rw [ran] at evolved result
    cases r with
    | error stop => exact result
    | ok x => exact weaker x _ (evolved.wellFormed valid.well) evolved.grows result

theorem pure {x : α} (holds : s.Valid → Q x s.world) : Ends P (pure x) s Q :=
  fun valid => ⟨.refl, rfl, holds valid⟩

theorem throw {stop : Stop} (holds : stop.Valid s.world) : Ends P (throw stop) s Q :=
  fun _ => ⟨.refl, rfl, holds⟩

theorem map {e : Eval α} {f : α → β} {R : β → World → Prop}
    (ends : Ends P e s (fun x w => R (f x) w)) : Ends P (f <$> e) s R := by
  rw [map_eq_pure_bind]
  exact ends.bind fun _ _ _ _ holds => .pure fun _ => holds

theorem get_bind {f : Session → Eval α} (next : Ends P (f s) s Q) : Ends P (get >>= f) s Q :=
  fun valid => next valid

theorem world_bind {f : World → Eval α} (next : Ends P (f s.world) s Q) :
    Ends P (world >>= f) s Q :=
  fun valid => next valid

theorem act {a : Action α} (ends : Action.Orderly P a s.world Q) : Ends P (act a) s Q := by
  intro valid
  obtain ⟨evolved, result⟩ := ends valid.well
  rw [run_act]
  refine ⟨evolved, rfl, ?_⟩
  cases ran : a.run s.world with
  | mk r w' =>
    rw [ran] at result
    cases r with
    | error e => exact result
    | ok x => exact result

theorem modify {f : Session → Session} (kept : (f s).world = s.world)
    (same : (f s).bindings = s.bindings) : Ends P (modify f) s (fun _ _ => True) := by
  refine fun _ => ⟨?_, same, trivial⟩
  change Evolves P s.world (f s).world
  rw [kept]
  exact .refl

end Ends

section Operands
variable {P : Policy} {s : Session}

theorem valueOf_ends (name : Name) :
    Ends P (valueOf name) s (fun v w => v.Valid w ∧ s.world = w) := by
  refine .get_bind ?_
  split
  · rename_i v found
    obtain ⟨before, after, shape, _⟩ := List.lookup_eq_some_iff.mp found
    refine .pure fun valid => ⟨valid.bindings (name, v) ?_, rfl⟩
    rw [shape]
    exact List.mem_append_right _ List.mem_cons_self
  · exact .throw trivial

theorem classOfHandle_ends (h : Handle) :
    Ends P (classOfHandle h) s (fun c w => w.Knows c) := by
  unfold classOfHandle
  split
  · exact .pure fun _ _ impossible => nomatch impossible
  · exact .pure fun _ _ impossible => nomatch impossible
  · exact .throw trivial
  · rename_i id _
    refine .world_bind ?_
    split
    · rename_i c holds
      refine .pure fun valid k same => ?_
      cases same
      exact valid.well.metaclass_lt holds
    · exact .throw trivial

variable [P.Samples]

theorem namedClass_ends {w : World} (which : NamedClass) :
    Action.Orderly P (namedClass which) w (fun c w' => c < w'.classes.size) := by
  cases which with
  | core which => exact (Action.coreClass_ends which).imp fun _ _ _ _ => World.lt_of_find?
  | primitive p => exact (Action.primitiveClass_ends p).imp fun _ _ _ _ => World.lt_of_find?
  | point => exact Action.pointClass_ends.imp fun _ _ _ _ => World.lt_of_find?
  | colorPoint => exact Action.colorPointClass_ends.imp fun _ _ _ _ => World.lt_of_find?
  | alphaPoint => exact Action.alphaPointClass_ends.imp fun _ _ _ _ => World.lt_of_find?
  | list => exact Action.listClass_ends.imp fun _ _ _ _ => World.lt_of_find?

theorem classOperand_ends (e : ClassExpr) :
    Ends P (classOperand e) s (fun c w => w.Knows c) := by
  induction e generalizing s with
  | null => exact .pure fun _ _ impossible => nomatch impossible
  | «variable» name =>
    refine (valueOf_ends name).andThen fun v _ => ?_
    split
    · exact classOfHandle_ends _
    · exact .throw trivial
  | named which =>
    exact .map ((Ends.act (namedClass_ends which)).imp fun _ _ _ _ => World.knows_some)
  | kind code =>
    refine .map (Ends.act ?_)
    refine (Action.kindOfCode_ends code).andThen fun k _ => ?_
    exact (Action.kindClass_ends k).imp fun _ _ _ _ found =>
      World.knows_some (World.lt_of_find? found)
  | array component ih =>
    refine ih.bind fun c _ _ _ valid => ?_
    refine .map (Ends.act ?_)
    refine (Action.classOperand_ends c).bind fun k _ _ _ same => ?_
    obtain ⟨rfl, rfl⟩ := same
    obtain ⟨_, known⟩ := World.class?_of_lt (valid k rfl)
    exact (Action.arrayClass_ends known).imp fun _ _ _ _ made =>
      World.knows_some (World.lt_of_find? made.found)
  | grid component ih =>
    refine ih.bind fun c _ _ _ valid => ?_
    refine .map (Ends.act ?_)
    refine (Action.classOperand_ends c).bind fun k _ _ _ same => ?_
    obtain ⟨rfl, rfl⟩ := same
    obtain ⟨_, known⟩ := World.class?_of_lt (valid k rfl)
    exact (Action.gridClass_ends known).imp fun _ _ _ _ made =>
      World.knows_some (World.lt_of_find? made.found)
  | registered key =>
    exact .world_bind (.pure fun _ _ found => World.lt_of_find? found)

omit [P.Samples] in
theorem classHandle_ends (c : Option ClassId) :
    Ends P (classHandle c) s (fun h w => h.Valid w ∧ s.world = w) := by
  refine .world_bind ?_
  split
  · rename_i k found
    obtain ⟨id, _, known⟩ := Option.bind_eq_some_iff.mp found
    exact .pure fun valid => ⟨Action.handle_valid_body (valid.well.linked known).2, rfl⟩
  · exact .pure fun _ => ⟨Action.handle_valid_of_null rfl, rfl⟩

theorem refOperand_ends (e : RefExpr) : Ends P (refOperand e) s (fun h w => h.Valid w) := by
  cases e with
  | null => exact .pure fun _ => Action.handle_valid_of_null rfl
  | «variable» name =>
    refine (valueOf_ends name).bind fun v _ _ _ valid => ?_
    split
    · exact .pure fun _ => valid.1
    · exact .pure fun _ => Action.handle_valid_of_null rfl
    · exact .throw trivial
  | typedNull view => exact .pure fun _ => Action.handle_valid_of_null rfl
  | string text =>
    refine (Ends.act (Action.newString_ends text)).bind fun id _ _ _ has => ?_
    exact .pure fun _ => Action.handle_valid_body has
  | metaclass c =>
    refine (classOperand_ends c).andThen fun k _ => ?_
    exact (classHandle_ends k).imp fun _ _ _ _ valid => valid.1

theorem viewOperand_ends (view : View) (e : RefExpr) :
    Ends P (viewOperand view e) s
      (fun r w => ∀ id, r = some id → (Handle.object id view).Valid w) := by
  refine (refOperand_ends e).bind fun h _ _ _ valid => .pure fun _ id leads => ?_
  rw [← Handle.eq_of_as? leads]
  exact valid

omit [P.Samples] in
theorem tableOfClass_ends {w : World} (c : Option ClassId) :
    Action.Orderly P (tableOfClass c) w (fun t w' => ∀ level ∈ t, level.Valid w') := by
  refine (Action.demand_ends c).bind fun id _ _ _ same => ?_
  obtain ⟨_, rfl⟩ := same
  refine (Action.classOf_orderly id).bind fun k _ well _ same => ?_
  obtain ⟨known, rfl⟩ := same
  refine .pure fun _ t own => well.table_valid id ?_
  rw [World.table?_of_class? known]
  exact own

theorem tableOperand_ends (e : TableExpr) :
    Ends P (tableOperand e) s (fun t w => ∀ level ∈ t, level.Valid w) := by
  have missing {w : World} : ∀ level ∈ (none : Option DispatchTable), level.Valid w :=
    fun _ member => absurd member (Option.not_mem_none _)
  cases e with
  | null => exact .pure fun _ => missing
  | «variable» name =>
    refine (valueOf_ends name).bind fun v _ _ _ valid => ?_
    split
    · exact .pure fun _ => valid.1
    · exact .pure fun _ => missing
    · exact .pure fun _ => missing
    · exact .throw trivial
  | ofClass c => exact (classOperand_ends c).andThen fun k _ => .act (tableOfClass_ends k)

theorem someTable_ends (e : TableExpr) : Ends P (someTable e) s (fun t w => t.Valid w) := by
  refine (tableOperand_ends e).bind fun t _ _ _ valid => .act ?_
  refine (Action.demand_ends t).imp fun t' _ _ _ same => ?_
  obtain ⟨rfl, rfl⟩ := same
  exact valid t' rfl

omit [P.Samples] in
theorem snapshotOperand_ends (e : SnapshotExpr) :
    Ends P (snapshotOperand e) s (fun _ _ => True) := by
  cases e with
  | null => exact .pure fun _ => trivial
  | «variable» name =>
    refine (valueOf_ends name).andThen fun v _ => ?_
    split
    · exact .pure fun _ => trivial
    · exact .pure fun _ => trivial
    · exact .throw trivial
  | literal => exact .pure fun _ => trivial

omit [P.Samples] in
theorem configOperand_ends (name : Name) : Ends P (configOperand name) s (fun _ _ => True) := by
  refine (valueOf_ends name).andThen fun v _ => ?_
  split
  · exact .act ((Action.demand_ends _).imp fun _ _ _ _ _ => trivial)
  · exact .throw trivial

theorem arrayOperand_ends (e : RefExpr) : Ends P (arrayOperand e) s (fun _ _ => True) := by
  refine (refOperand_ends e).andThen fun h _ => ?_
  refine (Ends.act (Action.checkNotNull_ends h)).andThen fun _ _ => ?_
  split
  · exact .pure fun _ => trivial
  · exact .throw trivial

theorem gridOperand_ends (e : RefExpr) : Ends P (gridOperand e) s (fun _ _ => True) := by
  refine (refOperand_ends e).andThen fun h _ => ?_
  refine (Ends.act (Action.checkNotNull_ends h)).andThen fun _ _ => ?_
  split
  · exact .pure fun _ => trivial
  · exact .throw trivial

omit [P.Samples] in
theorem rowOperand_ends (name : Name) : Ends P (rowOperand name) s (fun _ _ => True) := by
  refine (valueOf_ends name).andThen fun v _ => ?_
  split
  · exact .pure fun _ => trivial
  · exact .throw trivial

theorem storedHandle_ends (e : StoredExpr) :
    Ends P (storedHandle e) s (fun h w => h.Valid w) := by
  cases e with
  | word name => exact refOperand_ends _
  | ref e => exact refOperand_ends e
  | _ => exact .pure fun _ => Action.handle_valid_of_null rfl

theorem storedElement_ends (type : ElementType) (e : StoredExpr) :
    Ends P (storedElement type e) s (fun v w => v.hasType type = true ∧ v.handle.Valid w) := by
  have typed {t : ElementType} {view : View}
      (whole : ∀ id, (Element.ref (.object id view)).hasType t = true)
      (null : (Element.ref (.typedNull view)).hasType t = true) :
      Ends P (do storedElement.typed view (← storedHandle e)) s
        (fun v w => v.hasType t = true ∧ v.handle.Valid w) := by
    refine (storedHandle_ends e).bind fun h _ _ _ valid => ?_
    unfold storedElement.typed
    split
    · rename_i id leads
      refine .pure fun _ => ⟨whole id, ?_⟩
      rw [Handle.eq_of_as? leads] at valid
      exact valid
    · exact .pure fun _ => ⟨null, Action.handle_valid_of_null rfl⟩
  cases type with
  | object =>
    exact (storedHandle_ends e).bind fun h _ _ _ valid => .pure fun _ => ⟨rfl, valid⟩
  | string => exact typed (fun _ => rfl) rfl
  | point => exact typed (fun _ => rfl) rfl
  | _ => exact .pure fun _ => ⟨rfl, Action.handle_valid_of_null rfl⟩

end Operands

end Eval

end Script

end ObjectModel
