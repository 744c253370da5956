import ObjectModel.Proofs.Account.Command
import ObjectModel.Proofs.Contract.Script

/-!
Accounts of evaluation. Evaluating an operand may create classes, and allocates a string for each
literal; apart from that the objects that an operation allocates are those of its action. An
evaluation that stops may have evaluated some of its literals only.
-/

namespace ObjectModel

namespace Script

def Session.withLog (s : Session) (l : Log) : Session := { s with world := s.world.withLog l }

instance : HasLog Session := ⟨Session.withLog⟩

def RefExpr.literals : RefExpr → Nat
  | .string _ => 1
  | _ => 0

def StoredExpr.literals : StoredExpr → Nat
  | .ref e => e.literals
  | _ => 0

namespace Stop

def notices (w : World) : Stop → List Notice
  | .fault e => e.notices w
  | _ => []

def charge : Stop → Nat
  | .fault e => e.charge
  | _ => 0

theorem charge_le_one (stop : Stop) : stop.charge ≤ 1 := by
  cases stop with
  | fault e => exact e.charge_le_one
  | _ => exact Nat.zero_le 1

end Stop

namespace Eval
variable {α β : Type}

def noticesOf (r : Except Stop α) (w : World) : List Notice :=
  match r with
  | .ok _ => []
  | .error stop => stop.notices w

/-- With `k` literals evaluated, a run that returns has allocated `n` objects more, and one that
ends with an exception the exception. -/
structure Charged (k n : Nat) (w : World) (r : Except Stop α) (w' : World) : Prop where
  others : w'.others = w.others + k +
    match r with
    | .ok _ => n
    | .error stop => stop.charge
  last : ∀ e, r = .error (.fault (.thrown e)) → e + 1 = w'.objects.size

theorem Charged.trans {k m n : Nat} {w w' w'' : World} {x : α} {r : Except Stop β}
    (first : Charged k 0 w (.ok x) w') (second : Charged m n w' r w'') :
    Charged (k + m) n w r w'' := by
  have others := first.others
  dsimp only at others
  refine ⟨?_, second.last⟩
  rw [second.others, others]
  omega

theorem Charged.error {k m n : Nat} {w w' : World} {stop : Stop}
    (charged : Charged k n w (.error stop : Except Stop α) w') :
    Charged k m w (.error stop : Except Stop β) w' :=
  ⟨charged.others, fun id same => charged.last id (congrArg Except.error (Except.error.inj same))⟩

/-- The account of an evaluation whose action allocates `n` objects. If it returns it has evaluated
all its literals, or all but those that are evaluated for some types of elements only. -/
def Costs (e : Eval α) (least most n : Nat) : Prop :=
  ∀ s, Tells e s fun r s' entries => Told s.world (noticesOf r s'.world) s'.world entries ∧
    ∃ k, Spent least most r k ∧ Charged k n s.world r s'.world

/-- The evaluation has no literals and allocates nothing but the objects of classes. -/
abbrev Free (e : Eval α) : Prop := Costs e 0 0 0

namespace Costs
variable {a b n : Nat}

theorem bind {c d : Nat} {e : Eval α} {f : α → Eval β} (first : Costs e a b 0)
    (next : ∀ x, Costs (f x) c d n) : Costs (e >>= f) (a + c) (b + d) n := by
  intro s
  refine (first s).bind (fun x s' entries _ holds => ?_) fun stop s' entries holds => ?_
  · obtain ⟨told, k, spent, charged⟩ := holds
    refine (next x s').imp fun r s'' rest _ holds' => ?_
    obtain ⟨told', m, spent', charged'⟩ := holds'
    exact ⟨told.trans told', k + m, spent.add spent', charged.trans charged'⟩
  · obtain ⟨told, k, spent, charged⟩ := holds
    exact ⟨told, k, ⟨Nat.le_add_right_of_le spent.1, nofun⟩, charged.error⟩

/-- What comes after an evaluation without literals has the literals of both. -/
theorem andThen {e : Eval α} {f : α → Eval β} (first : Free e) (next : ∀ x, Costs (f x) a b n) :
    Costs (e >>= f) a b n := by
  have both := first.bind next
  rw [Nat.zero_add, Nat.zero_add] at both
  exact both

theorem followed {e : Eval α} {f : α → Eval β} (first : Costs e a b 0)
    (next : ∀ x, Costs (f x) 0 0 n) : Costs (e >>= f) a b n :=
  first.bind next

/-- The object of an evaluation may be counted as a literal. -/
theorem literal {e : Eval α} (costs : Costs e 0 0 1) : Costs e 1 1 0 := by
  intro s
  refine (costs s).imp fun r s' entries _ holds => ?_
  obtain ⟨told, k, spent, charged⟩ := holds
  obtain rfl : k = 0 := Nat.le_zero.mp spent.1
  refine ⟨told, ?_⟩
  cases r with
  | ok x =>
    refine ⟨1, ⟨Nat.le_refl 1, fun _ _ => Nat.le_refl 1⟩, ?_, nofun⟩
    simpa using charged.others
  | error stop => exact ⟨0, ⟨Nat.zero_le 1, nofun⟩, charged.error⟩

theorem bind_pure {e : Eval α} (costs : Costs e a b n) (f : α → β) :
    Costs (e >>= fun x => pure (f x)) a b n := by
  intro s
  refine (costs s).bind (fun x s' entries _ holds => .pure ?_) fun stop s' entries holds => ?_
  · obtain ⟨told, k, spent, charged⟩ := holds
    rw [List.append_nil]
    exact ⟨told, k, ⟨spent.1, fun _ _ => spent.2 x rfl⟩, charged.others, nofun⟩
  · obtain ⟨told, k, spent, charged⟩ := holds
    exact ⟨told, k, ⟨spent.1, nofun⟩, charged.error⟩

theorem map {e : Eval α} (costs : Costs e a b n) (f : α → β) : Costs (f <$> e) a b n := by
  rw [map_eq_pure_bind]
  exact costs.bind_pure f

theorem weaken {a' b' : Nat} {e : Eval α} (costs : Costs e a b n) (less : a' ≤ a) (more : b ≤ b') :
    Costs e a' b' n := by
  intro s
  refine (costs s).imp fun r s' entries _ holds => ?_
  obtain ⟨told, k, spent, charged⟩ := holds
  exact ⟨told, k, ⟨Nat.le_trans spent.1 more, fun x same => Nat.le_trans less (spent.2 x same)⟩,
    charged⟩

theorem get {f : Session → Eval α} (blind : ∀ s l, f (s.withLog l) = f s)
    (next : ∀ s, Costs (f s) a b n) : Costs (get >>= f) a b n :=
  fun s => .get (blind s) (next s s)

theorem world {f : World → Eval α} (blind : ∀ w l, f (w.withLog l) = f w)
    (next : ∀ w, Costs (f w) a b n) : Costs (world >>= f) a b n :=
  fun s => Tells.get (f := fun s => f s.world) (blind s.world) (next s.world s)

theorem pure (x : α) : Free (pure x : Eval α) := by
  refine fun s => .pure ⟨.of_eq rfl, 0, .zero _, ?_, nofun⟩
  simp

theorem unknownVariable (name : Name) : Costs (throw (.unknownVariable name) : Eval α) a b n := by
  refine fun s => .throw ⟨.of_eq rfl, 0, ⟨Nat.zero_le b, nofun⟩, ?_, nofun⟩
  simp [Stop.charge]

theorem unsuitable : Costs (throw .unsuitable : Eval α) a b n := by
  refine fun s => .throw ⟨.of_eq rfl, 0, ⟨Nat.zero_le b, nofun⟩, ?_, nofun⟩
  simp [Stop.charge]

end Costs

/-- The account of an action is that of its evaluation. -/
theorem act_tells {s : Session} {action : Action α}
    {Q : Except Fault α → World → List Entry → Prop}
    {R : Except Stop α → Session → List Entry → Prop} (tells : Tells action s.world Q)
    (lifted : ∀ r w' entries, Q r w' entries →
      R (r.mapError .fault) { s with world := w' } entries) : Tells (act action) s R := by
  obtain ⟨entries, blind, holds⟩ := tells
  refine ⟨entries, fun l => ?_, ?_⟩
  · have same : action.run (s.world.withLog l) = _ := blind l
    change (act action).run (s.withLog l) = _
    rw [run_act, run_act]
    change ((action.run (s.world.withLog l)).1.mapError Stop.fault,
      { s with world := (action.run (s.world.withLog l)).2 }) = _
    rw [same]
    rfl
  · exact lifted _ _ entries holds

theorem act_bind_tells {s : Session} {action : Action α} {f : α → Eval β}
    {Q : Except Fault α → World → List Entry → Prop}
    {R : Except Stop β → Session → List Entry → Prop} (tells : Tells action s.world Q)
    (next : ∀ x w' entries, Q (.ok x) w' entries →
      Tells (f x) { s with world := w' } fun r s'' rest => R r s'' (entries ++ rest))
    (stops : ∀ e w' entries, Q (.error e) w' entries →
      R (.error (.fault e)) { s with world := w' } entries) : Tells (act action >>= f) s R := by
  have acts : Tells (act action) s fun r s' entries => ∃ r' w',
      r = r'.mapError .fault ∧ s' = { s with world := w' } ∧ Q r' w' entries :=
    act_tells tells fun r w' entries holds => ⟨r, w', rfl, rfl, holds⟩
  refine acts.bind (fun x s' entries _ holds => ?_) fun stop s' entries holds => ?_
  · obtain ⟨r, w', same, rfl, holds⟩ := holds
    cases r with
    | error e => cases same
    | ok y =>
      cases same
      exact next x w' entries holds
  · obtain ⟨r, w', same, rfl, holds⟩ := holds
    cases r with
    | ok y => cases same
    | error e =>
      cases same
      exact stops e w' entries holds

theorem act_costs {action : Action α} {n : Nat} (costs : Action.Costs action n) :
    Costs (act action) 0 0 n := by
  intro s
  refine act_tells (costs s.world) fun r w' entries holds => ?_
  obtain ⟨told, charged⟩ := holds
  refine ⟨?_, 0, .zero _, ?_, ?_⟩
  · cases r <;> exact told
  · have others := charged.others
    rw [Int.natCast_zero, Int.add_zero]
    cases r <;> exact others
  · intro e same
    cases r with
    | ok x => cases same
    | error fault =>
      cases same
      exact charged.last e rfl

section Operands

theorem valueOf_free (name : Name) : Free (valueOf name) := by
  refine .get (fun _ _ => rfl) fun s => ?_
  cases s.bindings.lookup name with
  | some v => exact .pure v
  | none => exact .unknownVariable name

theorem classOfHandle_free (h : Handle) : Free (classOfHandle h) := by
  cases h with
  | null => exact .pure none
  | typedNull v => exact .pure none
  | blankFlat => exact .unsuitable
  | object id v =>
    refine .world (fun _ _ => rfl) fun w => ?_
    split
    · exact .pure _
    · exact .unsuitable

theorem namedClass_free (which : NamedClass) : Action.Free (namedClass which) := by
  cases which with
  | core which => exact Action.coreClass_free which
  | primitive which => exact Action.primitiveClass_free which
  | point => exact Action.pointClass_free
  | colorPoint => exact Action.colorPointClass_free
  | alphaPoint => exact Action.alphaPointClass_free
  | list => exact Action.listClass_free

theorem classOperand_free (e : ClassExpr) : Free (classOperand e) := by
  induction e with
  | null => exact .pure none
  | «variable» name =>
    refine (valueOf_free name).andThen fun v => ?_
    split
    · exact classOfHandle_free _
    · exact .unsuitable
  | named which => exact (act_costs (namedClass_free which)).map some
  | kind code =>
    refine (act_costs ?_).map some
    exact (Action.kindOfCode_free code).bind Action.kindClass_free
  | array component ih =>
    refine ih.andThen fun c => (act_costs ?_).map some
    exact (Action.classOperand_free c).bind Action.arrayClass_free
  | grid component ih =>
    refine ih.andThen fun c => (act_costs ?_).map some
    exact (Action.classOperand_free c).bind Action.gridClass_free
  | registered key => exact .world (fun _ _ => rfl) fun w => .pure (w.find? key)

theorem classHandle_free (c : Option ClassId) : Free (classHandle c) := by
  refine .world (fun _ _ => rfl) fun w => ?_
  split
  · exact .pure _
  · exact .pure _

theorem refOperand_costs (e : RefExpr) : Costs (refOperand e) e.literals e.literals 0 := by
  cases e with
  | null => exact .pure _
  | «variable» name =>
    refine (valueOf_free name).andThen fun v => ?_
    split
    · exact .pure _
    · exact .pure _
    · exact .unsuitable
  | typedNull view => exact .pure _
  | string text => exact ((act_costs (Action.newString_costs text)).bind_pure _).literal
  | metaclass c => exact (classOperand_free c).andThen classHandle_free

theorem viewOperand_costs (view : View) (e : RefExpr) :
    Costs (viewOperand view e) e.literals e.literals 0 :=
  (refOperand_costs e).bind_pure _

theorem tableOfClass_free (c : Option ClassId) : Action.Free (tableOfClass c) :=
  (Action.demand_free c).bind fun id => (Action.classOf_free id).bind_pure _

theorem tableOperand_free (e : TableExpr) : Free (tableOperand e) := by
  cases e with
  | null => exact .pure none
  | «variable» name =>
    refine (valueOf_free name).andThen fun v => ?_
    split
    · exact .pure _
    · exact .pure _
    · exact .pure _
    · exact .unsuitable
  | ofClass c => exact (classOperand_free c).andThen fun c => act_costs (tableOfClass_free c)

theorem someTable_free (e : TableExpr) : Free (someTable e) :=
  (tableOperand_free e).andThen fun t => act_costs (Action.demand_free t)

theorem snapshotOperand_free (e : SnapshotExpr) : Free (snapshotOperand e) := by
  cases e with
  | null => exact .pure none
  | «variable» name =>
    refine (valueOf_free name).andThen fun v => ?_
    split
    · exact .pure _
    · exact .pure _
    · exact .unsuitable
  | literal s => exact .pure _

theorem configOperand_free (name : Name) : Free (configOperand name) := by
  refine (valueOf_free name).andThen fun v => ?_
  split
  · exact act_costs (Action.demand_free _)
  · exact .unsuitable

theorem arrayOperand_costs (e : RefExpr) : Costs (arrayOperand e) e.literals e.literals 0 := by
  refine (refOperand_costs e).followed fun h => ?_
  refine (act_costs (Action.checkNotNull_free h)).andThen fun _ => ?_
  split
  · exact .pure _
  · exact .unsuitable

theorem gridOperand_costs (e : RefExpr) : Costs (gridOperand e) e.literals e.literals 0 := by
  refine (refOperand_costs e).followed fun h => ?_
  refine (act_costs (Action.checkNotNull_free h)).andThen fun _ => ?_
  split
  · exact .pure _
  · exact .unsuitable

theorem rowOperand_free (name : Name) : Free (rowOperand name) := by
  refine (valueOf_free name).andThen fun v => ?_
  split
  · exact .pure _
  · exact .unsuitable

theorem storedHandle_costs (e : StoredExpr) : Costs (storedHandle e) e.literals e.literals 0 := by
  cases e with
  | word name => exact refOperand_costs (.variable name)
  | ref e => exact refOperand_costs e
  | _ => exact .pure _

/-- A literal is evaluated only where elements are objects. -/
theorem storedElement_costs (type : ElementType) (e : StoredExpr) :
    Costs (storedElement type e) 0 e.literals 0 := by
  have typed (view : View) :
      Costs (do storedElement.typed view (← storedHandle e)) e.literals e.literals 0 := by
    refine (storedHandle_costs e).followed fun h => ?_
    unfold storedElement.typed
    split
    · exact .pure _
    · exact .pure _
  have skipped (x : Element) : Costs (pure x : Eval Element) 0 e.literals 0 :=
    (Costs.pure x).weaken (Nat.le_refl 0) (Nat.zero_le _)
  cases type with
  | object =>
    exact ((storedHandle_costs e).bind_pure _).weaken (Nat.zero_le _) (Nat.le_refl _)
  | string => exact (typed .string).weaken (Nat.zero_le _) (Nat.le_refl _)
  | point => exact (typed .point).weaken (Nat.zero_le _) (Nat.le_refl _)
  | _ => exact skipped _

end Operands

end Eval

end Script

end ObjectModel
