import ObjectModel.Proofs.Contract.Object

/-!
Contracts of arrays. A new array carries the table of the class that is registered for its
component, and only elements that pass the store check are written.
-/

namespace ObjectModel.Action

section Reading
variable {P : Policy} {w : World}

theorem checkElement_ends (e : ElementType) (c : Class) :
    Orderly P (checkElement e c) w
      (fun _ w' => (c.shape.isPrimitive || e.holdsObjects) = true ∧ w = w') := by
  unfold checkElement
  split
  · rename_i fit
    exact .pure fun _ => ⟨fit, rfl⟩
  · exact crash_ends _

theorem checkDimension_ends (n : Int32) : Orderly P (checkDimension n) w (fun _ w' => w = w') := by
  refine .get_bind ?_
  dsimp only
  split
  · exact raise_orderly _ _
  · exact .pure fun _ => rfl

theorem cells_ends (id : ObjectId) :
    Orderly P (cells id) w (fun c w' => w.body? id = some (.array c) ∧ w = w') := by
  refine (object_ends id).read fun o found => ?_
  split
  · rename_i c held
    exact .pure fun _ => ⟨by rw [World.body?_of_object? found, held], rfl⟩
  · exact crash_ends _

theorem gridCells_ends (id : ObjectId) :
    Orderly P (gridCells id) w (fun g w' => w.body? id = some (.grid g) ∧ w = w') := by
  refine (object_ends id).read fun o found => ?_
  split
  · rename_i g held
    exact .pure fun _ => ⟨by rw [World.body?_of_object? found, held], rfl⟩
  · exact crash_ends _

theorem element_ends {α : Type} (xs : List α) (i : Int32) :
    Orderly P (element xs i) w (fun x w' => xs[i.toInt.toNat]? = some x ∧ w = w') := by
  unfold element
  split
  · rename_i x here
    exact .pure fun _ => ⟨here, rfl⟩
  · exact crash_ends _

theorem arrayGet_ends (id : ObjectId) (i : Int32) :
    Orderly P (arrayGet id i) w (fun e w' => e.handle.Valid w') := by
  refine (cells_ends id).bind fun c _ well _ same => ?_
  obtain ⟨has, rfl⟩ := same
  refine (checkIndex_ends _ _ _).read fun _ _ => ?_
  refine (element_ends c.storage i).imp fun e _ _ _ same => ?_
  obtain ⟨here, rfl⟩ := same
  obtain ⟨o, found, held⟩ := Option.map_eq_some_iff.mp has
  have filled := well.filled found
  rw [held] at filled
  exact (filled e (List.mem_of_getElem? here)).valid

theorem gridGet_ends (id : ObjectId) (i j : Int32) :
    Orderly P (gridGet id i j) w (fun e w' => e.handle.Valid w') := by
  refine (gridCells_ends id).bind fun g _ well _ same => ?_
  obtain ⟨has, rfl⟩ := same
  refine (checkIndex_ends _ _ _).read fun _ _ => ?_
  refine (checkIndex_ends _ _ _).read fun _ _ => ?_
  refine (element_ends g.storage i).read fun row here => ?_
  refine (element_ends row j).imp fun e _ _ _ same => ?_
  obtain ⟨there, rfl⟩ := same
  obtain ⟨o, found, held⟩ := Option.map_eq_some_iff.mp has
  have filled := well.filled found
  rw [held] at filled
  exact (filled row (List.mem_of_getElem? here) e (List.mem_of_getElem? there)).valid

theorem gridRow_ends (id : ObjectId) (i : Int32) :
    Orderly P (gridRow id i) w (fun _ w' => (∃ g, w'.body? id = some (.grid g)) ∧ w = w') := by
  refine (gridCells_ends id).read fun g has => ?_
  refine (checkIndex_ends _ _ _).imp fun _ _ _ _ same => ?_
  obtain ⟨_, rfl⟩ := same
  exact ⟨⟨g, has⟩, rfl⟩

theorem charAt_ends (s : Option ObjectId) (i : Int32) :
    Orderly P (charAt s i) w (fun _ w' => w = w') := by
  refine (stringContent_ends s).observe fun c => ?_
  refine (checkIndex_ends _ _ _).read fun _ _ => ?_
  split
  · exact .pure fun _ => rfl
  · exact crash_ends _

theorem stringLength_ends (s : Option ObjectId) :
    Orderly P (stringLength s) w (fun _ w' => w = w') := by
  refine (stringContent_ends s).observe fun c => ?_
  exact .pure fun _ => rfl

end Reading

section Stores
variable {P : Policy} {w : World}

theorem fitsComponent_ends (k : Class) (value : Handle) :
    Orderly P (fitsComponent k value) w (fun fits w' => fits = true →
      ∃ component id v c, k.shape.component? = some component ∧ value = .object id v ∧
        w'.classOf? id = some c ∧ w'.isSubclass c component = true) := by
  unfold fitsComponent
  split
  · refine .pure fun _ impossible => ?_
    cases impossible
  · rename_i component holds
    refine (isInstance_ends _ value).imp fun _ _ _ _ found fits => ?_
    obtain ⟨id, v, c, d, leads, same, resolved, below⟩ := found fits
    cases same
    exact ⟨component, id, v, c, holds, leads, resolved, below⟩

theorem checkStore_ends (array value : Handle) :
    Orderly P (checkStore array value) w
      (fun _ w' => ∀ id v, array = .object id v → w'.Fits id value) := by
  unfold checkStore
  split
  · rename_i null
    exact .pure fun _ _ _ _ => .null null
  · refine (checkNotNull_ends _).read fun _ _ => ?_
    refine (objectGetClass_ends _).bind fun a w₁ _ _ leads => ?_
    obtain ⟨home, _, rfl, arrays⟩ := leads
    refine (demand_ends a).read fun a same => ?_
    cases same
    refine (classOf_orderly a).read fun k known => ?_
    refine (fitsComponent_ends k value).bind fun fits w₂ _ grown found => ?_
    cases fits with
    | false =>
      refine (objectGetClass_ends value).andThen fun _ _ => ?_
      exact (className_ends _).andThen fun _ _ => raise_orderly _ _
    | true =>
      obtain ⟨component, id, v, c, holds, rfl, resolved, below⟩ := found rfl
      refine .pure fun _ id' v' same => ?_
      cases same
      exact .member (grown.classOf? arrays) (grown.class? known) holds resolved below

theorem checkStoreIf_ends (checked : Bool) (array : ObjectId) (view : View) (value : Handle) :
    Orderly P (checkStoreIf checked (.object array view) value) w
      (fun _ w' => checked = true → w'.Fits array value) := by
  unfold checkStoreIf
  split
  · exact (checkStore_ends _ value).imp fun _ _ _ _ fits _ => fits array view rfl
  · rename_i unchecked
    exact .pure fun _ checked => absurd checked unchecked

theorem arraySet_ends {id : ObjectId} {i : Int32} {value : Element} {e : ElementType}
    (allowed : ∀ w', P.allows w' (.store id i.toInt.toNat value)) (valid : value.handle.Valid w)
    (holds : w.element? id = some e) (typed : value.hasType e = true) :
    Orderly P (arraySet id i value) w (fun _ _ => True) := by
  refine (cells_ends id).read fun c has => ?_
  rw [World.element?, has] at holds
  cases holds
  refine (checkIndex_ends _ _ _).read fun _ _ => ?_
  refine (Ends.still fun P => checkStoreIf_ends c.checked id .array value.handle).bind
    fun _ w₁ _ grown same => ?_
  obtain ⟨fits, still⟩ := same
  refine (element_ends c.storage i).read fun _ here => ?_
  exact .modify (.store (still.body? has) (List.getElem?_eq_some_iff.mp here).1 typed
    (valid.mono grown) fits (allowed w₁)) trivial

theorem gridSet_ends {id : ObjectId} {i j : Int32} {value : Element} {e : ElementType}
    (allowed : ∀ w', P.allows w' (.storeAt id i.toInt.toNat j.toInt.toNat value))
    (valid : value.handle.Valid w) (holds : w.element? id = some e)
    (typed : value.hasType e = true) :
    Orderly P (gridSet id i j value) w (fun _ _ => True) := by
  refine (gridCells_ends id).read fun g has => ?_
  rw [World.element?, has] at holds
  cases holds
  refine (checkIndex_ends _ _ _).read fun _ _ => ?_
  refine (checkIndex_ends _ _ _).read fun _ _ => ?_
  refine (Ends.still fun P => checkStoreIf_ends g.checked id .grid value.handle).bind
    fun _ w₁ _ grown same => ?_
  obtain ⟨fits, still⟩ := same
  refine (element_ends g.storage i).read fun row here => ?_
  refine (element_ends row j).read fun _ there => ?_
  exact .modify (.storeAt (still.body? has) here (List.getElem?_eq_some_iff.mp there).1
    typed (valid.mono grown) fits (allowed w₁)) trivial

end Stores

section Allocation
variable {P : Policy} {w : World}

theorem initialise_instance_ends {c : ClassId} {body : Body}
    (born : ∀ t, w.table? c = some t → Allocation w t body) :
    Orderly P (initialise (w.table? c) body) w
      (fun id w' => w'.classOf? id = some c ∧ w'.body? id = some body ∧ w.object? id = none) := by
  refine .of_wellFormed fun well => ?_
  refine (initialise_ends born).imp fun id w' _ grown new => ?_
  obtain ⟨t, own, found, fresh⟩ := new
  refine ⟨?_, ?_, fresh⟩
  · rw [World.classOf?, found]
    exact grown.owner? (well.owner_of_table own)
  · rw [World.body?, found]
    rfl

theorem newArray_ends {element : Option ElementType} {component : Option ClassId} {n : Int32}
    (valid : w.Knows component) :
    Orderly P (newArray element component n) w (fun id w' => ∃ c k a,
      component = some c ∧ w'.class? c = some k ∧ ArrayClassFor .one c k w a w' ∧
      w'.classOf? id = some a ∧ w'.body? id = some (.array
        (.blank (elementFor element k) n.toInt.toNat !k.shape.isPrimitive)) ∧
      w.object? id = none) := by
  refine (classOperand_ends component).read fun c given => ?_
  obtain ⟨k, known⟩ := World.class?_of_lt (valid c given)
  refine (arrayClass_ends known).bind fun a w₁ _ grown₁ made => ?_
  have known₁ := grown₁.class? known
  refine (classOf_ends known₁).read fun _ same => ?_
  cases same
  dsimp only
  refine (checkElement_ends _ _).read fun _ fit => ?_
  refine (checkDimension_ends _).observe fun _ => ?_
  refine .get_bind ?_
  refine (initialise_instance_ends fun t own => .array _ _ fit known₁ made.found own).imp
    fun id w₂ _ grown₂ new => ?_
  obtain ⟨own, has, fresh⟩ := new
  exact ⟨c, _, a, given, grown₂.class? known₁, made.mono grown₂, own, has, grown₁.absent fresh⟩

theorem newGrid_ends {element : Option ElementType} {component : Option ClassId} {n m : Int32}
    (valid : w.Knows component) :
    Orderly P (newGrid element component n m) w (fun id w' => ∃ c k a,
      component = some c ∧ w'.class? c = some k ∧ ArrayClassFor .two c k w a w' ∧
      w'.classOf? id = some a ∧ w'.body? id = some (.grid
        (.blank (elementFor element k) n.toInt.toNat m.toInt.toNat !k.shape.isPrimitive)) ∧
      w.object? id = none) := by
  refine (classOperand_ends component).read fun c given => ?_
  obtain ⟨k, known⟩ := World.class?_of_lt (valid c given)
  refine (gridClass_ends known).bind fun a w₁ _ grown₁ made => ?_
  have known₁ := grown₁.class? known
  refine (classOf_ends known₁).read fun _ same => ?_
  cases same
  dsimp only
  refine (checkElement_ends _ _).read fun _ fit => ?_
  refine (checkDimension_ends _).observe fun _ => ?_
  refine (checkDimension_ends _).observe fun _ => ?_
  refine .get_bind ?_
  refine (initialise_instance_ends fun t own => .grid _ _ _ fit known₁ made.found own).imp
    fun id w₂ _ grown₂ new => ?_
  obtain ⟨own, has, fresh⟩ := new
  exact ⟨c, _, a, given, grown₂.class? known₁, made.mono grown₂, own, has, grown₁.absent fresh⟩

theorem newInstance_ends {find : Action ClassId} {body : Body} {Q : ClassId → World → Prop}
    (finds : Orderly P find w Q) (sound : body.InOrder w) :
    Orderly P (newInstance find body) w (fun id w' => w'.body? id = some body) := by
  refine finds.bind fun c w₁ well₁ grown _ => ?_
  refine .get_bind ?_
  exact (initialise_instance_ends fun t own =>
    .member (well₁.table_valid c own) (sound.mono grown)).imp fun _ _ _ _ new => new.2.1

end Allocation

end ObjectModel.Action
