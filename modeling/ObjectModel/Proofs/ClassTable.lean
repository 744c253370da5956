import ObjectModel.Proofs.Reachable

/-!
The table of classes as scripts see it. A key leads to the one class that has it, classes stand
after what they are made of, every chain of superclasses ends at the root class, and the dispatch
table of a class leads back to it.
-/

namespace ObjectModel

section Resolution
variable {w : World}

theorem Action.register_found {name : Text} {shape : Shape}
    {table : ClassId → Option DispatchTable} {c : ClassId}
    (found : w.find? (shape.key name) = some c) :
    (Action.register name shape table).run w = (.ok c, w) := by
  unfold register
  rw [run_get_bind, found]
  rfl

theorem World.WellFormed.root_found (well : w.WellFormed) {c : ClassId} {k : Class}
    (known : w.class? c = some k) (reference : k.shape ≠ .primitive) :
    ∃ r, w.find? (Core.name .object) = some r := by
  obtain ⟨r, l, _, rooted, shape, _⟩ := well.leads_to_root c known reference
  have key : l.key = Core.name .object := by
    rw [Class.key, shape]
    exact ((well.made rooted).root_name shape).1
  exact ⟨r, key ▸ well.keyed rooted⟩

theorem World.WellFormed.coreClass_found (well : w.WellFormed) {which : Core} {c : ClassId}
    (found : w.find? which.name = some c) : (Action.coreClass which).run w = (.ok c, w) := by
  obtain ⟨k, known, key⟩ := find?_some found
  have reference : k.shape ≠ .primitive :=
    well.not_primitive_of_key known fun p => key ▸ which.name_ne_primitive p
  obtain ⟨r, rooted⟩ := well.root_found known reference
  have under (which : Core) (found : w.find? which.name = some c) :
      (Action.classUnderObject which).run w = (.ok c, w) := by
    unfold Action.classUnderObject
    rw [run_bind, Action.objectClass, Action.register_found rooted]
    exact Action.register_found found
  cases which with
  | object => exact Action.register_found found
  | string => exact under .string found
  | metaclass => exact under .metaclass found

theorem World.WellFormed.owner_resolved (well : w.WellFormed) {t : DispatchTable} {c : ClassId}
    (resolved : w.owner? t = some c) : (Action.owner t).run w = (.ok (some c), w) := by
  unfold owner? at resolved
  unfold Action.owner
  split at resolved
  · rename_i d own
    cases resolved
    rw [own]
    rfl
  · rename_i which own
    rw [own]
    dsimp only
    rw [map_eq_pure_bind, run_bind, well.coreClass_found resolved]
    rfl
  · cases resolved
  · cases resolved

theorem Action.run_object {id : ObjectId} {o : Obj} (found : w.object? id = some o) :
    (object id).run w = (.ok o, w) := by
  unfold object
  rw [run_get_bind, found]
  rfl

theorem Action.run_getClass {id : ObjectId} {o : Obj} (found : w.object? id = some o) (v : View) :
    (objectGetClass (.object id v)).run w = (owner o.table).run w := by
  unfold objectGetClass
  rw [run_bind]
  change (object id >>= fun o => owner o.table).run w = _
  rw [run_bind, run_object found]

theorem World.WellFormed.getClass_resolved (well : w.WellFormed) {id : ObjectId} {c : ClassId}
    (resolved : w.classOf? id = some c) (v : View) :
    (Action.objectGetClass (.object id v)).run w = (.ok (some c), w) := by
  obtain ⟨o, found, own⟩ := Option.bind_eq_some_iff.mp resolved
  rw [Action.run_getClass found]
  exact well.owner_resolved own

/-- The table belongs to a class, which may still have to be created. -/
def DispatchTable.Classed (t : DispatchTable) : Prop := t.own.owner ≠ .absent ∧ t.own.owner ≠ .null

theorem World.WellFormed.classed_of_table (well : w.WellFormed) {c : ClassId} {t : DispatchTable}
    (has : w.table? c = some t) : t.Classed := by
  have resolved := well.owner_of_table has
  unfold owner? at resolved
  constructor <;> intro own <;> simp [own] at resolved

theorem Action.owner_classed (well : w.WellFormed) {t : DispatchTable} (classed : t.Classed) :
    ∃ c w', (Action.owner t).run w = (.ok (some c), w') := by
  unfold Action.owner
  cases own : t.own.owner with
  | absent => exact absurd own classed.1
  | null => exact absurd own classed.2
  | known c => exact ⟨c, w, rfl⟩
  | core which =>
    have contract := (coreClass_ends (P := .any) (E := fun _ _ => False) which) well
    dsimp only
    rw [map_eq_pure_bind, run_bind]
    cases ran : (coreClass which).run w with
    | mk r w' =>
      rw [ran] at contract
      cases r with
      | error e => cases contract.2
      | ok c => exact ⟨c, w', rfl⟩

/-- A table without a class leads to none, or the search for it crashes. -/
theorem Action.owner_unclassed {t : DispatchTable} (unclassed : ¬ t.Classed) :
    (Action.owner t).run w = (.ok none, w) ∨
      (Action.owner t).run w = (.error (.crash .nullDereference), w) := by
  unfold Action.owner
  cases own : t.own.owner with
  | absent => exact .inr rfl
  | null => exact .inl rfl
  | known c => simp [DispatchTable.Classed, own] at unclassed
  | core which => simp [DispatchTable.Classed, own] at unclassed

end Resolution

namespace World

structure TableSound (w : World) : Prop where
  find_iff : ∀ {key c}, w.find? key = some c ↔ ∃ k, w.class? c = some k ∧ k.key = key
  find_injective : ∀ {key key' c}, w.find? key = some c → w.find? key' = some c → key = key'
  no_duplicate : ∀ {c d k l}, w.class? c = some k → w.class? d = some l →
    k.object = l.object → c = d
  /-- The key is the name, marked for two dimensions. -/
  key_eq : ∀ {c k}, w.class? c = some k →
    k.shape.dimensions ≤ 2 ∧ k.key = if k.shape.dimensions = 2 then "2d:" ++ k.name else k.name
  name_dimensions : ∀ {c d k l}, w.class? c = some k → w.class? d = some l →
    k.name = l.name → k.shape.dimensions = l.shape.dimensions → c = d
  superclass_earlier : ∀ {c k s}, w.class? c = some k → k.shape.superclass? = some s → s < c
  component_earlier : ∀ {c k d}, w.class? c = some k → k.shape.component? = some d → d < c
  /-- Superclasses lead to the root class. -/
  rooted : ∀ {c k}, w.class? c = some k → k.shape ≠ .primitive → ∃ r,
    Relation.ReflTransGen w.Above c r ∧ w.find? (Core.name .object) = some r
  top_iff : ∀ {c k}, w.class? c = some k →
    (k.shape.superclass? = none ↔ k.shape = .primitive ∨ k.name = Core.name .object)
  component_iff : ∀ {c k}, w.class? c = some k →
    (k.shape.component?.isSome ↔ k.shape.dimensions = 1 ∨ k.shape.dimensions = 2)
  table_iff : ∀ {c k}, w.class? c = some k → (k.table = none ↔ k.shape = .primitive)
  /-- The table of a class leads back to the class, and looking for it changes nothing. -/
  owner_eq : ∀ {c t}, w.table? c = some t → (Action.owner t).run w = (.ok (some c), w)

section Table
variable {w : World}

theorem WellFormed.find?_iff (well : w.WellFormed) {key : Text} {c : ClassId} :
    w.find? key = some c ↔ ∃ k, w.class? c = some k ∧ k.key = key := by
  refine ⟨find?_some, ?_⟩
  rintro ⟨k, known, rfl⟩
  exact well.keyed known

theorem key_eq_of_dimensions (k : Class) : k.shape.dimensions ≤ 2 ∧
    k.key = if k.shape.dimensions = 2 then "2d:" ++ k.name else k.name := by
  unfold Class.key
  cases k.shape with
  | array rank d s => cases rank <;> exact ⟨by simp [Shape.dimensions, Rank.toNat], rfl⟩
  | _ => exact ⟨by simp [Shape.dimensions], rfl⟩

theorem WellFormed.root_iff (well : w.WellFormed) {c : ClassId} {k : Class}
    (known : w.class? c = some k) : k.shape = .root ↔ k.name = Core.name .object := by
  refine ⟨fun root => ((well.made known).root_name root).1, fun name => ?_⟩
  have plain : k.name.IsPlain := name ▸ Core.name_plain .object
  have own : k.key = Core.name .object := by
    unfold Class.key
    cases shape : k.shape with
    | array rank d s =>
      obtain ⟨l, _, held, _⟩ := (well.made known).array_name shape
      rw [held] at plain
      exact absurd plain (l.arrayName_not_plain rank)
    | _ => exact name
  obtain ⟨l, found, shape, _⟩ := well.root_of_find (own ▸ well.keyed known)
  rw [known] at found
  cases found
  exact shape

theorem WellFormed.superclass?_none_iff (well : w.WellFormed) {c : ClassId} {k : Class}
    (known : w.class? c = some k) :
    k.shape.superclass? = none ↔ k.shape.isPrimitive = true ∨ k.name = Core.name .object := by
  rw [← well.root_iff known]
  cases k.shape <;> simp [Shape.superclass?, Shape.isPrimitive]

theorem WellFormed.superclass_there (well : w.WellFormed) {c d : ClassId} {k : Class}
    (known : w.class? c = some k) (above : k.shape.superclass? = some d) :
    ∃ l, w.class? d = some l :=
  class?_of_lt (Nat.lt_trans ((well.made known).superclass above) (lt_of_class? known))

end Table

end World

/-- In every session that a script reaches the table of classes is in order. -/
theorem Script.Session.Reachable.tableSound {s : Script.Session} (reached : s.Reachable) :
    s.world.TableSound := by
  have well := reached.valid.well
  constructor
  case find_iff => exact well.find?_iff
  case find_injective => exact World.find?_injective
  case no_duplicate =>
    intro c d k l known known' same
    have one := (well.linked known).2
    rw [same, (well.linked known').2] at one
    cases one
    rfl
  case key_eq => exact fun {_ k} _ => World.key_eq_of_dimensions k
  case name_dimensions =>
    intro c d k l known known' name dimensions
    have same : k.key = l.key := by
      rw [(World.key_eq_of_dimensions k).2, (World.key_eq_of_dimensions l).2, name, dimensions]
    have found := well.keyed known
    rw [same, well.keyed known'] at found
    exact (Option.some.inj found).symm
  case superclass_earlier => exact fun known => (well.made known).superclass
  case component_earlier => exact fun known => (well.made known).component
  case rooted =>
    intro c k known reference
    obtain ⟨r, l, chain, top, shape, _⟩ := well.leads_to_root c known reference
    refine ⟨r, chain, well.find?_iff.mpr ⟨l, top, ?_⟩⟩
    rw [Class.key, shape]
    exact (well.root_iff top).mp shape
  case top_iff =>
    intro c k known
    rw [← well.root_iff known]
    cases k.shape <;> simp [Shape.superclass?]
  case component_iff =>
    intro c k known
    cases k.shape with
    | array rank d s => cases rank <;> simp [Shape.component?, Shape.dimensions, Rank.toNat]
    | _ => simp [Shape.component?, Shape.dimensions]
  case table_iff => exact fun known => (well.made known).table_none_iff
  case owner_eq => exact fun own => well.owner_resolved (well.owner_of_table own)

namespace Script

/-- A script that gives a class of its own the key of an array class, then asks for that class. -/
def takenKey : List Step :=
  [.perform (.classes (.define "2d:[[I" .null ["draw"])) none none,
    .perform (.array (.newGrid none (.named (.primitive .int)) 2 2)) (some "a") none,
    .perform (.classes (.value (.array (.grid (.named (.primitive .int)))))) none none]

theorem tableSound_takenKey :
    let s := ((Session.withVerbosity {} 2).runAll takenKey).2
    s.Reachable ∧ s.world.classes.size = 5 ∧ s.world.find? "2d:[[I" = some 1 ∧
      s.world.TableSound :=
  have reached := (Session.Reachable.start {} 2).runAll takenKey
  ⟨reached, by decide +kernel, by decide +kernel, reached.tableSound⟩

end Script

end ObjectModel
