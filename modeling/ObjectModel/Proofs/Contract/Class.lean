import ObjectModel.Proofs.Contract.Basic

/-!
Contracts of the actions that find or create classes. Each of them ends with the class that is
registered under the key it stands for; none of them fails but a definition.
-/

namespace ObjectModel

/-- At most the given keys are in use in `w'` and not in `w`. -/
def World.Adds (keys : List Text) (w w' : World) : Prop :=
  ∀ key c, w'.find? key = some c → w.find? key = some c ∨ key ∈ keys

theorem World.Adds.refl (keys : List Text) (w : World) : w.Adds keys w :=
  fun _ _ found => .inl found

theorem World.Adds.trans {keys : List Text} {w₁ w₂ w₃ : World} (first : w₁.Adds keys w₂)
    (second : w₂.Adds keys w₃) : w₁.Adds keys w₃ := by
  intro key c found
  rcases second key c found with before | new
  · exact first key c before
  · exact .inr new

def rootKeys : List Text := [Core.name .object, Rank.rootKey .one, Rank.rootKey .two]

/-- The class `a` of `w'` is registered for arrays of a component. If `w` lacks it, it was made for
exactly that component, or it is one of the arrays of the root class. -/
structure ArrayClassFor (rank : Rank) (component : ClassId) (k : Class) (w : World) (a : ClassId)
    (w' : World) : Prop where
  found : w'.find? (k.arrayKey rank) = some a
  origin : w.find? (k.arrayKey rank) = some a ∨ k.arrayKey rank ∈ rootKeys ∨
    ∃ l s, w'.class? a = some l ∧ l.shape = .array rank component s

theorem ArrayClassFor.mono {rank : Rank} {component a : ClassId} {k : Class} {w w' w'' : World}
    (made : ArrayClassFor rank component k w a w') (grown : Grows w' w'') :
    ArrayClassFor rank component k w a w'' := by
  refine ⟨grown.find? made.found, made.origin.imp_right (.imp_right ?_)⟩
  rintro ⟨l, s, known, shape⟩
  exact ⟨l, s, grown.class? known, shape⟩

namespace Action

section Register
variable {P : Policy} {w : World} {E : Fault → World → Prop}

theorem create_ends {cause : Option Event} {name : Text} {shape : Shape}
    {table : ClassId → Option DispatchTable} (fresh : w.find? (shape.key name) = none)
    (made : Creation w cause name shape table) (allowed : ∀ e ∈ cause, P.allows w e) :
    Ends P (create name shape table) w
      (fun c w' => w'.find? (shape.key name) = some c ∧ w.Adds [shape.key name] w' ∧
        ∃ k, w'.class? c = some k ∧ k.shape = shape) E := by
  intro _
  rw [run_create]
  refine ⟨.tail (.single (.create fresh made allowed)) (.log _), ?_, fun key c found => ?_, ?_⟩
  · rw [World.find?, World.classes_logged, ← World.find?, World.find?_pushClass, fresh]
    simp
  · rw [World.find?, World.classes_logged, ← World.find?, World.find?_pushClass] at found
    cases before : w.find? key with
    | some d =>
      rw [before] at found
      exact .inl found
    | none =>
      rw [before, Option.none_or] at found
      split at found
      · rename_i same
        exact .inr (List.mem_singleton.mpr (eq_of_beq same).symm)
      · cases found
  · rw [World.class?, World.classes_logged, ← World.class?, World.class?_pushClass, if_pos rfl]
    exact ⟨_, rfl, rfl⟩

theorem register_ends {cause : Option Event} {name : Text} {shape : Shape}
    {table : ClassId → Option DispatchTable} (made : Creation w cause name shape table)
    (allowed : ∀ e ∈ cause, P.allows w e) :
    Ends P (register name shape table) w
      (fun c w' => w'.find? (shape.key name) = some c ∧ w.Adds [shape.key name] w' ∧
        (w.find? (shape.key name) = some c ∨ ∃ k, w'.class? c = some k ∧ k.shape = shape)) E := by
  refine .get_bind ?_
  split
  · rename_i c found
    exact .pure fun _ => ⟨found, .refl _ w, .inl found⟩
  · rename_i fresh
    exact (create_ends fresh made allowed).imp fun _ _ _ _ new => ⟨new.1, new.2.1, .inr new.2.2⟩

theorem register_builtin_ends {name : Text} {shape : Shape}
    {table : ClassId → Option DispatchTable} (made : Creation w none name shape table) :
    Ends P (register name shape table) w (fun c w' => w'.find? (shape.key name) = some c) E :=
  (register_ends made fun _ impossible => nomatch impossible).imp fun _ _ _ _ found => found.1

theorem objectClass_ends :
    Ends P objectClass w
      (fun c w' => w'.find? (Core.name .object) = some c ∧ w.Adds rootKeys w') E := by
  refine (register_ends .root fun _ impossible => nomatch impossible).imp fun c w' _ _ found => ?_
  refine ⟨found.1, fun key d there => (found.2.1 key d there).imp_right fun same => ?_⟩
  rw [List.mem_singleton.mp same]
  exact List.mem_cons_self

theorem coreClass_ends (which : Core) :
    Ends P (coreClass which) w (fun c w' => w'.find? which.name = some c) E := by
  have below (lower : Core) (proper : lower ≠ .object) :
      Ends P (classUnderObject lower) w (fun c w' => w'.find? lower.name = some c) E :=
    objectClass_ends.bind fun _ _ _ _ above => register_builtin_ends (.core lower proper above.1)
  cases which with
  | object => exact objectClass_ends.imp fun _ _ _ _ found => found.1
  | string => exact below .string (by decide)
  | metaclass => exact below .metaclass (by decide)

theorem primitiveClass_ends (p : Primitive) :
    Ends P (primitiveClass p) w (fun c w' => w'.find? p.name = some c) E :=
  register_builtin_ends (.primitive p)

end Register

section Kinds
variable {P : Policy} {w : World} {E : Fault → World → Prop}

theorem kindClassUnder_ends {s : ClassId} {k : Kind} (above : w.find? k.superclassKey = some s) :
    Ends P (kindClassUnder s k) w (fun c w' => w'.find? k.name = some c) E := by
  refine .of_wellFormed fun well => ?_
  obtain ⟨t, inherited⟩ := well.table_of_find above k.superclassKey_ne_primitive
  refine .get_bind ?_
  rw [inherited]
  exact register_builtin_ends (.kind k above inherited)

/-- Each kind of the list stands directly below the one before it, the first below the key. -/
def Descends : Text → List Kind → Prop
  | _, [] => True
  | key, k :: rest => k.superclassKey = key ∧ Descends k.name rest

theorem kindClasses_ends (kinds : List Kind) {key : Text} (descends : Descends key kinds)
    {s : ClassId} (above : w.find? key = some s) :
    Ends P (kinds.foldlM kindClassUnder s) w
      (fun c w' => w'.find? (kinds.foldl (fun _ k => k.name) key) = some c) E := by
  induction kinds generalizing key s w with
  | nil => exact .pure fun _ => above
  | cons k rest ih =>
    rw [List.foldlM_cons]
    refine (kindClassUnder_ends (descends.1 ▸ above)).bind fun c w' _ _ found => ?_
    exact ih descends.2 found

theorem kindClass_ends (k : Kind) :
    Ends P (kindClass k) w (fun c w' => w'.find? k.name = some c) E := by
  have descends : Descends (Core.name .object) (k :: k.above).reverse := by
    cases k <;> simp [Kind.above, Descends] <;> decide
  have last : (k :: k.above).reverse.foldl (fun _ k => k.name) (Core.name .object) = k.name := by
    rw [List.reverse_cons, List.foldl_append]
    rfl
  refine objectClass_ends.bind fun root w' _ _ above => ?_
  exact last ▸ kindClasses_ends _ descends above.1

end Kinds

section Owner
variable {P : Policy} {w : World}

theorem owner_ends (t : DispatchTable) :
    Orderly P (owner t) w (fun c w' => w'.owner? t = c) := by
  unfold owner World.owner?
  cases t.own.owner with
  | absent => exact crash_ends _
  | null => exact .pure fun _ => rfl
  | known c => exact .pure fun _ => rfl
  | core which =>
    exact (coreClass_ends which).bind fun c w' _ _ found => .pure fun _ => found

end Owner

section Arrays
variable {P : Policy} {w : World} {E : Fault → World → Prop}

theorem registerArray_ends {component s : ClassId} {k : Class} (rank : Rank)
    (known : w.class? component = some k)
    (above : w.find? (k.arraySuperclassKey rank) = some s) :
    Ends P (registerArray rank component s k) w
      (fun c w' => w'.find? (k.arrayKey rank) = some c ∧ w.Adds [k.arrayKey rank] w' ∧
        (w.find? (k.arrayKey rank) = some c ∨
          ∃ l, w'.class? c = some l ∧ l.shape = .array rank component s)) E :=
  register_ends (.array rank known above) fun _ impossible => nomatch impossible

theorem root_arrayKey {k : Class} (root : k.shape = .root) (name : k.name = Core.name .object)
    (rank : Rank) : k.arrayKey rank = rank.rootKey := by
  simp only [Class.arrayKey, Class.arrayName, Class.descriptor, root, name, Rank.rootKey,
    rootDescriptor]

theorem root_arraySuperclassKey {k : Class} (root : k.shape = .root) (rank : Rank) :
    k.arraySuperclassKey rank = rank.baseKey := by
  simp [Class.arraySuperclassKey, root]

theorem registerRootArray_ends {r s : ClassId} {k : Class} (rank : Rank)
    (found : w.find? (Core.name .object) = some r) (known : w.class? r = some k)
    (above : w.find? rank.baseKey = some s) :
    Ends P (registerArray rank r s k) w
      (fun c w' => w'.find? rank.rootKey = some c ∧ w.Adds rootKeys w') E := by
  refine .of_wellFormed fun well => ?_
  obtain ⟨l, same, root, name, _⟩ := well.root_of_find found
  rw [known] at same
  cases same
  refine (registerArray_ends rank known (root_arraySuperclassKey root rank ▸ above)).imp
    fun c w' _ _ made => ?_
  rw [root_arrayKey root name] at made
  refine ⟨made.1, fun key d there => (made.2.1 key d there).imp_right fun same => ?_⟩
  rw [List.mem_singleton.mp same]
  cases rank <;> simp [rootKeys]

theorem objectArrayClass_ends :
    Ends P objectArrayClass w
      (fun c w' => w'.find? (Rank.rootKey .one) = some c ∧ w.Adds rootKeys w') E := by
  refine objectClass_ends.bind fun r w' well _ found => ?_
  obtain ⟨k, known, _⟩ := World.find?_some found.1
  refine (classOf_ends known).read fun _ same => ?_
  cases same
  exact (registerRootArray_ends .one found.1 known found.1).imp
    fun _ _ _ _ made => ⟨made.1, found.2.trans made.2⟩

theorem objectGridClass_ends :
    Ends P objectGridClass w
      (fun c w' => w'.find? (Rank.rootKey .two) = some c ∧ w.Adds rootKeys w') E := by
  refine objectClass_ends.bind fun r w₁ _ _ found => ?_
  refine objectArrayClass_ends.bind fun rows w₂ well grown above => ?_
  obtain ⟨k, known, _⟩ := World.find?_some (grown.find? found.1)
  refine (classOf_ends known).read fun _ same => ?_
  cases same
  exact (registerRootArray_ends .two (grown.find? found.1) known above.1).imp
    fun _ _ _ _ made => ⟨made.1, (found.2.trans above.2).trans made.2⟩

/-- Choosing between the lowest superclass that an array class may have and the class of arrays of
the root class, which `higher` finds. -/
theorem chooseSuperclass_ends (rank : Rank) {component r lowest : ClassId} {k : Class}
    {higher : Action ClassId} (found : w.find? (Core.name .object) = some r)
    (known : w.class? component = some k) (low : w.find? rank.baseKey = some lowest)
    (high : Ends P higher w (fun s w' => w'.find? rank.rootKey = some s ∧ w.Adds rootKeys w') E) :
    Ends P (if k.shape.isPrimitive || component == r then pure lowest else higher) w
      (fun s w' => w'.find? (k.arraySuperclassKey rank) = some s ∧ w.Adds rootKeys w') E := by
  refine .of_wellFormed fun well => ?_
  have same : (component == r) = (k.shape == .root) := by
    rw [Bool.eq_iff_iff, beq_iff_eq, beq_iff_eq]
    exact well.eq_root_iff found known
  rw [same, Class.arraySuperclassKey]
  split
  · exact .pure fun _ => ⟨low, .refl _ w⟩
  · exact high

theorem arraySuperclass_ends {component : ClassId} {k : Class}
    (known : w.class? component = some k) :
    Ends P (arraySuperclass component k) w
      (fun s w' => w'.find? (k.arraySuperclassKey .one) = some s ∧ w.Adds rootKeys w') E := by
  refine objectClass_ends.bind fun r w₁ _ grown root => ?_
  exact (chooseSuperclass_ends .one root.1 (grown.class? known) root.1 objectArrayClass_ends).imp
    fun _ _ _ _ chosen => ⟨chosen.1, root.2.trans chosen.2⟩

theorem gridSuperclass_ends {component : ClassId} {k : Class}
    (known : w.class? component = some k) :
    Ends P (gridSuperclass component k) w
      (fun s w' => w'.find? (k.arraySuperclassKey .two) = some s ∧ w.Adds rootKeys w') E := by
  refine objectArrayClass_ends.bind fun rows w₁ _ grown₁ low => ?_
  refine objectClass_ends.bind fun r w₂ _ grown₂ root => ?_
  exact (chooseSuperclass_ends .two root.1 ((grown₁.trans grown₂).class? known)
    (grown₂.find? low.1) objectGridClass_ends).imp
    fun _ _ _ _ chosen => ⟨chosen.1, (low.2.trans root.2).trans chosen.2⟩

theorem findArrayClass_ends (rank : Rank) {component : ClassId} {k : Class}
    {superclass : ClassId → Class → Action ClassId} (known : w.class? component = some k)
    (above : Ends P (superclass component k) w (fun s w' =>
      w'.find? (k.arraySuperclassKey rank) = some s ∧ w.Adds rootKeys w') E) :
    Ends P (findArrayClass rank superclass component) w (ArrayClassFor rank component k w) E := by
  refine (classOf_ends known).read fun _ same => ?_
  cases same
  refine .get_bind ?_
  split
  · rename_i a found
    exact .pure fun _ => ⟨found, .inl found⟩
  · refine above.bind fun s w₁ _ grown found => ?_
    refine (registerArray_ends rank (grown.class? known) found.1).imp fun a w₂ _ _ made => ?_
    refine ⟨made.1, ?_⟩
    rcases made.2.2 with before | ⟨l, new, shape⟩
    · exact (found.2 _ a before).imp_right .inl
    · exact .inr (.inr ⟨l, s, new, shape⟩)

theorem arrayClass_ends {component : ClassId} {k : Class} (known : w.class? component = some k) :
    Ends P (arrayClass component) w (ArrayClassFor .one component k w) E :=
  findArrayClass_ends .one known (arraySuperclass_ends known)

theorem gridClass_ends {component : ClassId} {k : Class} (known : w.class? component = some k) :
    Ends P (gridClass component) w (ArrayClassFor .two component k w) E :=
  findArrayClass_ends .two known (gridSuperclass_ends known)

end Arrays

section Exceptions
variable {P : Policy} {w : World} {E : Fault → World → Prop}

theorem initialise_ends {table : Option DispatchTable} {body : Body}
    (born : ∀ t, table = some t → Allocation w t body) :
    Orderly P (initialise table body) w
      (fun id w' => ∃ t, table = some t ∧ w'.object? id = some { table := t, body } ∧
        w.object? id = none) := by
  cases table with
  | none => exact crash_ends _
  | some t => exact (allocate_ends (born t rfl)).imp fun _ _ _ _ new => ⟨t, rfl, new⟩

theorem newException_ends (k : Kind) (message : Text) :
    Ends P (newException k message) w
      (fun id w' => w'.body? id = some (.exception k message)) E := by
  refine (kindClass_ends k).bind fun c w' well _ found => ?_
  obtain ⟨t, own⟩ := well.table_of_find found k.name_ne_primitive
  refine .get_bind ?_
  rw [own]
  refine (allocate_ends (.exception k message found own)).imp fun id w'' _ _ new => ?_
  rw [World.body?, new.1]
  rfl

theorem raise_ends {α : Type} {Q : α → World → Prop} (k : Kind) (message : Text)
    (thrown : ∀ id w', Grows w w' → w'.body? id = some (.exception k message) →
      E (.thrown id) w') :
    Ends P (raise k message) w Q E := by
  refine (newException_ends k message).bind fun id w₁ _ grown₁ new => ?_
  refine (log_ends _ _ _).bind fun _ w₂ _ grown₂ _ => ?_
  exact .throw (thrown id w₂ (grown₁.trans grown₂) (grown₂.body? new (by simp [Body.view])))

theorem raise_orderly {α : Type} {Q : α → World → Prop} (k : Kind) (message : Text) :
    Orderly P (raise k message) w Q :=
  raise_ends k message fun _ _ _ new => ⟨k, message, new⟩

theorem kindOfCode_ends (code : KindCode) : Orderly P (kindOfCode code) w (fun _ _ => True) := by
  unfold kindOfCode
  split
  · exact .pure fun _ => trivial
  · exact crash_ends _

theorem checkNotNull_ends (h : Handle) :
    Orderly P (checkNotNull h) w (fun _ w' => h.isNull = false ∧ w = w') := by
  unfold checkNotNull
  split
  · exact raise_orderly _ _
  · rename_i something
    exact .pure fun _ => ⟨eq_false_of_ne_true something, rfl⟩

theorem checkIndex_ends (k : Kind) (i : Int32) (length : Nat) :
    Orderly P (checkIndex k i length) w
      (fun _ w' => (0 ≤ i.toInt ∧ i.toInt < length) ∧ w = w') := by
  unfold checkIndex
  split
  · rename_i inside
    exact .pure fun _ => ⟨inside, rfl⟩
  · exact raise_orderly _ _

theorem classOperand_ends (c : Option ClassId) :
    Orderly P (classOperand c) w (fun x w' => c = some x ∧ w = w') := by
  cases c with
  | none => exact raise_orderly _ _
  | some c => exact .pure fun _ => ⟨rfl, rfl⟩

end Exceptions

section Definitions
variable {P : Policy} {w : World}

theorem defineClass_placed {name : Text} {superclass : Option ClassId} {slots : List Text}
    (allowed : ∀ s w', Grows w w' → (superclass = some s ∨
      superclass = none ∧ w'.find? (Core.name .object) = some s) →
      P.allows w' (.define name s slots)) :
    Orderly P (defineClass name superclass slots) w (fun c w' => w'.find? name = some c ∧
      ∃ s, (superclass = some s ∨ superclass = none ∧ w'.find? (Core.name .object) = some s) ∧
        w'.Above c s) := by
  have parent : Orderly P (orObjectClass superclass) w (fun s w' => superclass = some s ∨
      superclass = none ∧ w'.find? (Core.name .object) = some s) := by
    cases superclass with
    | none => exact objectClass_ends.imp fun _ _ _ _ found => .inr ⟨rfl, found.1⟩
    | some s => exact .pure fun _ => .inl rfl
  refine parent.bind fun s w₁ _ grown₁ origin => ?_
  refine (classOf_orderly s).read fun p known => ?_
  split
  · exact crash_ends _
  · rename_i t inherited
    have has : w₁.table? s = some t := by rw [World.table?_of_class? known, inherited]
    refine (register_ends (.definition name slots has) ?_).bind fun c w₂ _ grown₂ found => ?_
    · rintro _ ⟨rfl⟩
      exact allowed s w₁ grown₁ origin
    · refine .get_bind ?_
      dsimp only
      split
      · rename_i below
        exact .pure fun _ =>
          ⟨found.1, s, origin.imp_right fun root => ⟨root.1, grown₂.find? root.2⟩, below⟩
      · exact (className_ends _).andThen fun _ _ => crash_ends _

theorem defineClass_ends {name : Text} {superclass : Option ClassId} {slots : List Text}
    (allowed : ∀ s w', Grows w w' → (superclass = some s ∨
      superclass = none ∧ w'.find? (Core.name .object) = some s) →
      P.allows w' (.define name s slots)) :
    Orderly P (defineClass name superclass slots) w (fun c w' => w'.find? name = some c) :=
  (defineClass_placed allowed).imp fun _ _ _ _ placed => placed.1

variable [P.Samples]

theorem sampleClass_ends {s : Sample} {superclass : Option ClassId}
    (above : ∀ c, superclass = some c → w.find? s.superclassKey = some c)
    (default : superclass = none → s.superclassKey = Core.name .object) :
    Orderly P (sampleClass s superclass) w (fun c w' => w'.find? s.name = some c) := by
  apply defineClass_ends
  intro c w' grown origin
  apply Policy.Samples.allow
  rcases origin with given | ⟨missing, root⟩
  · exact grown.find? (above c given)
  · rw [default missing]
    exact root

theorem pointClass_ends : Orderly P pointClass w
    (fun c w' => w'.find? (Sample.name .point) = some c) :=
  sampleClass_ends (fun _ impossible => nomatch impossible) fun _ => rfl

theorem colorPointClass_ends : Orderly P colorPointClass w
    (fun c w' => w'.find? (Sample.name .colorPoint) = some c) :=
  pointClass_ends.bind fun _ _ _ _ found =>
    sampleClass_ends (fun _ same => Option.some.inj same ▸ found) fun absent => nomatch absent

theorem alphaPointClass_ends : Orderly P alphaPointClass w
    (fun c w' => w'.find? (Sample.name .alphaPoint) = some c) :=
  colorPointClass_ends.bind fun _ _ _ _ found =>
    sampleClass_ends (fun _ same => Option.some.inj same ▸ found) fun absent => nomatch absent

theorem listClass_ends : Orderly P listClass w
    (fun c w' => w'.find? (Sample.name .list) = some c) :=
  sampleClass_ends (fun _ impossible => nomatch impossible) fun _ => rfl

end Definitions

end Action

end ObjectModel
