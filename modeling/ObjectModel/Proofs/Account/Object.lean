import ObjectModel.Proofs.Account.Class
import ObjectModel.Proofs.Dispatch

/-!
Accounts of the actions on objects, arrays and casts. Constructors allocate one object, after all
that can fail; only the text of a coloured point takes three, and it cannot fail in between. A
release that goes through is told.
-/

namespace ObjectModel

namespace World

theorem superclasses_withLog (w : World) (l : Log) (c : ClassId) :
    (w.withLog l).superclasses c = w.superclasses c := by
  induction c using Nat.strongRecOn with
  | ind c ih =>
    have same : (w.withLog l).superclass? c = w.superclass? c := rfl
    rw [superclasses, superclasses, same]
    cases w.superclass? c with
    | none => rfl
    | some s =>
      by_cases below : s < c
      · simp [below, ih s below]
      · simp [below]

theorem isSubclassOf_withLog (w : World) (l : Log) (c d : Option ClassId) :
    (w.withLog l).isSubclassOf c d = w.isSubclassOf c d := by
  cases c with
  | none => rfl
  | some c =>
    cases d with
    | none => rfl
    | some d => simp [isSubclassOf, isSubclass_eq, superclasses_withLog]

end World

namespace Action

section Reading

theorem referent_free (h : Handle) : Free (referent h) := by
  cases h with
  | object id v => exact .pure (some id)
  | blankFlat => exact .pure none
  | null => exact .crash _
  | typedNull v => exact .crash _

theorem target_free (h : Handle) : Free (target h) := (referent_free h).bind demand_free

theorem stringContent_free (s : Option ObjectId) : Free (stringContent s) := by
  refine .get (fun _ _ => rfl) fun w => ?_
  exact (demand_free s).bind fun id => demand_free (w.content? id)

theorem stringText_free (s : Option ObjectId) : Free (stringText s) :=
  (stringContent_free s).bind_pure _

theorem printedContent_free (s : Option ObjectId) : Free (printedContent s) := by
  cases s with
  | none => exact .pure _
  | some s => exact stringContent_free (some s)

theorem printedText_free (s : Option ObjectId) : Free (printedText s) :=
  (printedContent_free s).bind_pure _

theorem concat_costs (s other : Option ObjectId) : Costs (concat s other) 1 := by
  refine (stringContent_free s).bind fun left => ?_
  exact (printedContent_free other).bind fun right => newContent_costs _

theorem objectHashCode_free (h : Handle) : Free (objectHashCode h) := (target_free h).bind_pure _

theorem objectEquals_free (h other : Handle) : Free (objectEquals h other) := by
  unfold objectEquals
  split
  · exact .pure false
  · exact (referent_free h).bind fun this => (referent_free other).bind_pure _

theorem objectGetClass_free (h : Handle) : Free (objectGetClass h) := by
  refine (target_free h).bind fun id => ?_
  exact (object_free id).bind fun o => owner_free o.table

theorem hashCode_free (h : Handle) : Free (hashCode h) := by
  refine (target_free h).bind fun id => ?_
  refine (object_free id).bind fun o => ?_
  split
  · exact .pure _
  · split <;> exact .pure _
  · exact .pure _

theorem objectToString_costs (h : Handle) : Costs (objectToString h) 1 := by
  refine (objectGetClass_free h).bind fun c => ?_
  refine (className_free c).bind fun name => ?_
  exact (hashCode_free h).bind fun hash => newString_costs _

theorem stringEquals_free (s : Option ObjectId) (other : Handle) : Free (stringEquals s other) := by
  unfold stringEquals
  cases other.as? .string with
  | none => exact .pure false
  | some that =>
    refine (stringText_free s).bind fun left => ?_
    exact (stringText_free (some that)).bind_pure _

theorem equals_free (h other : Handle) : Free (equals h other) := by
  unfold equals
  split
  · exact stringEquals_free _ other
  · rename_i id
    cases other.as? .alphaPoint with
    | none => exact .pure false
    | some that =>
      exact (object_free id).bind fun o => (object_free that).bind_pure _
  · exact objectEquals_free h other

theorem horizontal_free (h : Handle) : Free (horizontal h) := by
  refine (target_free h).bind fun id => ?_
  refine (object_free id).bind fun o => ?_
  exact (demand_free _).bind_pure _

theorem isInstance_free (k : Option ClassId) (h : Handle) : Free (isInstance k h) := by
  unfold isInstance
  split
  · exact .pure false
  · refine (objectGetClass_free h).bind fun c => ?_
    refine .get (fun w l => ?_) fun w => .pure _
    rw [w.isSubclassOf_withLog]

theorem outermost_free (h : Handle) : Free (outermost h) :=
  (target_free h).bind fun id => (object_free id).bind_pure _

end Reading

section Texts
variable {w : World}

def textCounts (n : Nat) : Prop := n = 0 ∨ n = 1 ∨ n = 3

/-- The text of a coloured point takes three strings, if its colour is a string. -/
theorem coloredToString_accounts {color : Option ObjectId}
    (colored : ∀ s ∈ color, w.IsString s) (x y : Int32) :
    Accounts (coloredToString x y color) w noticesOf textCounts := by
  have run (l : Log) := run_coloredToString (w := w.withLog l) colored x y
  refine ⟨[], fun l => ?_, ?_⟩
  · exact (run l).trans (by rw [run_coloredToString colored]; rfl)
  · rw [run_coloredToString colored]
    refine ⟨.of_eq rfl, 3, .inr (.inr rfl), ?_, nofun⟩
    simp only [withPartTexts, World.others_push]
    omega

theorem toString_accounts (well : w.WellFormed) (h : Handle) :
    Accounts (toString h) w noticesOf textCounts := by
  have faults {α : Type} (e : Fault) (w : World) :
      noticesOf (.error e : Except Fault α) w = e.notices w := rfl
  have listed : ∃ n, textCounts n := ⟨0, .inl rfl⟩
  have none {w : World} (x : ObjectId) : Accounts (pure x) w noticesOf textCounts :=
    (Costs.pure x).accounts (.inl rfl) w
  have one {w : World} {a : Action ObjectId} (costs : Costs a 1) :
      Accounts a w noticesOf textCounts :=
    costs.accounts (.inr (.inl rfl)) w
  refine (target_free h).before faults listed fun id w' ran => ?_
  obtain ⟨-, -, rfl⟩ := (target_ends (P := .any) h).of_ok well ran
  refine (object_free id).before faults listed fun o w' ran => ?_
  obtain ⟨-, found, rfl⟩ := (object_ends (P := .any) id).of_ok well ran
  have colored : ∀ s ∈ o.body.color?, w.IsString s := by
    intro s member
    refine (well.point_with_parts found ?_).2 s member
    cases shape : o.body with
    | colorPoint | alphaPoint => exact List.cons_ne_nil _ _
    | _ =>
      rw [shape] at member
      cases member
  have painted : Accounts (demand o.body.coordinates? >>= fun p =>
      coloredToString p.1 p.2 o.body.color?) w noticesOf textCounts := by
    refine (demand_free _).before faults listed fun p w' ran => ?_
    obtain ⟨-, -, rfl⟩ := (demand_ends (P := .any) _).of_ok well ran
    exact coloredToString_accounts colored p.1 p.2
  split
  · exact none id
  · refine (classOf_free _).before faults listed fun k w' _ => ?_
    split
    · exact none k.nameObject
    · exact one (newString_costs _)
  · exact one (newString_costs _)
  · exact one ((demand_free _).bind fun p => newString_costs _)
  · exact painted
  · exact painted
  · exact one (objectToString_costs _)

end Texts

section Release
variable {w : World}

theorem modifyObject_free (id : ObjectId) (f : Obj → Obj) :
    Free (modify fun w => w.modifyObject id f) :=
  .modify (fun _ _ => rfl) (fun _ => rfl) fun _ => Array.size_modify

theorem dropStorage_free (h : Handle) : Free (dropStorage h) := by
  unfold dropStorage
  split
  · exact modifyObject_free _ _
  · exact modifyObject_free _ _
  · exact .crash _
  · exact .crash _
  · exact .pure ()

theorem runDestructor_free (d : Destructor) (h : Handle) : Free (runDestructor d h) := by
  cases d with
  | dropStorage => exact dropStorage_free h
  | fail => exact raise_costs _ _ _
  | record name => exact .modify (fun _ _ => rfl) (fun _ => rfl) fun _ => rfl

/-- A release that goes through is told, like the exception of one that does not. -/
def releaseNotices (r : Except Fault Bool) (w : World) : List Notice :=
  match r with
  | .ok true => [.released]
  | .ok false => []
  | .error e => e.notices w

theorem destroy_free (o : Obj) (h : Handle) : Free (destroy o h) := by
  unfold destroy
  split
  · exact runDestructor_free _ h
  · exact .pure ()

theorem finishRelease_accounts (id : ObjectId) (o : Obj) :
    Accounts (finishRelease id o) w releaseNotices (· = 0) := by
  have faults (e : Fault) (w : World) : releaseNotices (.error e) w = e.notices w := rfl
  refine (modifyObject_free id _).before faults ⟨0, rfl⟩ fun _ w _ => ?_
  refine (owner_free o.table).before faults ⟨0, rfl⟩ fun c w _ => ?_
  refine (className_free c).before faults ⟨0, rfl⟩ fun name w _ => ?_
  refine (log_tells _ _ _).bind (fun _ w' entries _ sent => .pure ?_) fun _ _ _ sent => by
    cases sent.1
  obtain ⟨-, rfl, rfl⟩ := sent
  simp only [List.append_assoc, List.append_nil]
  refine ⟨⟨?_, ?_, ?_⟩, 0, rfl, ?_, nofun⟩
  · rw [World.names_logged]
    simp [Entry.definition?, Entry.message?, Message.definition?_released]
  · simp [Entry.notice?, Entry.message?, Message.notice?_released, releaseNotices]
  · simp [Entry.message?]
  · rw [World.others_logged]
    simp

theorem release_accounts (h : Handle) : Accounts (release h) w releaseNotices (· = 0) := by
  have faults (e : Fault) (w : World) : releaseNotices (.error e) w = e.notices w := rfl
  have nothing (w : World) : Accounts (pure false) w releaseNotices (· = 0) :=
    .pure ⟨.of_eq rfl, 0, rfl, (Int.add_zero _).symm, nofun⟩
  unfold release releaseWith
  split
  · exact nothing w
  · refine (target_free h).before faults ⟨0, rfl⟩ fun id w _ => ?_
    refine (object_free id).before faults ⟨0, rfl⟩ fun o w _ => ?_
    split
    · exact nothing w
    · refine (destroy_free o h).before faults ⟨0, rfl⟩ fun _ w _ => ?_
      exact finishRelease_accounts id o

theorem setOptions_free (options : Options) : Free (setOptions options) := by
  have set : Free (modify fun w => { w with options }) :=
    .modify (fun _ _ => rfl) (fun _ => rfl) fun _ => rfl
  exact set.bind fun _ => log_free (Message.unremarkable rfl (by decide))

end Release

section Arrays

theorem checkElement_free (e : ElementType) (c : Class) : Free (checkElement e c) := by
  unfold checkElement
  split
  · exact .pure ()
  · exact .crash _

theorem checkDimension_free (n : Int32) : Free (checkDimension n) := by
  refine .get (fun _ _ => rfl) fun w => ?_
  dsimp only
  split
  · exact raise_costs _ _ _
  · exact .pure ()

theorem fitsComponent_free (k : Class) (value : Handle) : Free (fitsComponent k value) := by
  unfold fitsComponent
  cases k.shape.component? with
  | none => exact .pure false
  | some component => exact isInstance_free _ value

theorem checkStore_free (array value : Handle) : Free (checkStore array value) := by
  unfold checkStore
  split
  · exact .pure ()
  · refine (checkNotNull_free array).bind fun _ => ?_
    refine (objectGetClass_free array).bind fun a => ?_
    refine (demand_free a).bind fun a => ?_
    refine (classOf_free a).bind fun k => ?_
    refine (fitsComponent_free k value).bind fun fits => ?_
    cases fits with
    | true => exact .pure ()
    | false =>
      refine (objectGetClass_free value).bind fun c => ?_
      exact (className_free c).bind fun name => raise_costs _ _ _

theorem checkStoreIf_free (checked : Bool) (array value : Handle) :
    Free (checkStoreIf checked array value) := by
  cases checked with
  | true => exact checkStore_free array value
  | false => exact .pure ()

theorem newArray_costs (element : Option ElementType) (component : Option ClassId) (n : Int32) :
    Costs (newArray element component n) 1 := by
  refine (classOperand_free component).bind fun c => ?_
  refine (arrayClass_free c).bind fun arrays => ?_
  refine (classOf_free c).bind fun k => ?_
  refine (checkElement_free _ k).bind fun _ => ?_
  refine (checkDimension_free n).bind fun _ => ?_
  exact .get (fun _ _ => rfl) fun w => initialise_costs _ _

theorem newGrid_costs (element : Option ElementType) (component : Option ClassId) (n m : Int32) :
    Costs (newGrid element component n m) 1 := by
  refine (classOperand_free component).bind fun c => ?_
  refine (gridClass_free c).bind fun grids => ?_
  refine (classOf_free c).bind fun k => ?_
  refine (checkElement_free _ k).bind fun _ => ?_
  refine (checkDimension_free n).bind fun _ => ?_
  refine (checkDimension_free m).bind fun _ => ?_
  exact .get (fun _ _ => rfl) fun w => initialise_costs _ _

theorem cells_free (id : ObjectId) : Free (cells id) := by
  refine (object_free id).bind fun o => ?_
  cases o.body with
  | array c => exact .pure c
  | _ => exact .crash _

theorem gridCells_free (id : ObjectId) : Free (gridCells id) := by
  refine (object_free id).bind fun o => ?_
  cases o.body with
  | grid g => exact .pure g
  | _ => exact .crash _

theorem element_free {α : Type} (xs : List α) (index : Int32) : Free (element xs index) := by
  unfold element
  cases xs[index.toInt.toNat]? with
  | some x => exact .pure x
  | none => exact .crash _

theorem arrayGet_free (id : ObjectId) (i : Int32) : Free (arrayGet id i) := by
  refine (cells_free id).bind fun c => ?_
  exact (checkIndex_free _ i c.length).bind fun _ => element_free c.storage i

theorem arraySet_free (id : ObjectId) (i : Int32) (value : Element) :
    Free (arraySet id i value) := by
  refine (cells_free id).bind fun c => ?_
  refine (checkIndex_free _ i c.length).bind fun _ => ?_
  refine (checkStoreIf_free c.checked _ _).bind fun _ => ?_
  exact (element_free c.storage i).bind fun _ => modifyObject_free id _

theorem gridGet_free (id : ObjectId) (i j : Int32) : Free (gridGet id i j) := by
  refine (gridCells_free id).bind fun g => ?_
  refine (checkIndex_free _ i g.rows).bind fun _ => ?_
  refine (checkIndex_free _ j g.columns).bind fun _ => ?_
  exact (element_free g.storage i).bind fun row => element_free row j

theorem gridSet_free (id : ObjectId) (i j : Int32) (value : Element) :
    Free (gridSet id i j value) := by
  refine (gridCells_free id).bind fun g => ?_
  refine (checkIndex_free _ i g.rows).bind fun _ => ?_
  refine (checkIndex_free _ j g.columns).bind fun _ => ?_
  refine (checkStoreIf_free g.checked _ _).bind fun _ => ?_
  refine (element_free g.storage i).bind fun row => ?_
  exact (element_free row j).bind fun _ => modifyObject_free id _

theorem gridRow_free (id : ObjectId) (i : Int32) : Free (gridRow id i) :=
  (gridCells_free id).bind fun g => checkIndex_free _ i g.rows

theorem charAt_free (s : Option ObjectId) (i : Int32) : Free (charAt s i) := by
  refine (stringContent_free s).bind fun c => (checkIndex_free _ i c.length).bind fun _ => ?_
  split
  · exact .pure _
  · exact .crash _

theorem stringLength_free (s : Option ObjectId) : Free (stringLength s) :=
  (stringContent_free s).bind_pure _

end Arrays

section Casts

theorem checkInstance_free (c : ClassId) (h : Handle) : Free (checkInstance c h) := by
  refine (isInstance_free (some c) h).bind fun fits => ?_
  cases fits with
  | true => exact .pure ()
  | false =>
    refine (objectGetClass_free h).bind fun k => ?_
    refine (className_free k).bind fun actual => ?_
    exact (className_free (some c)).bind fun wanted => raise_costs _ _ _

theorem represent_free (t : CastTarget) (h : Handle) : Free (represent t h) := by
  refine (target_free h).bind fun id => ?_
  refine (object_free id).bind fun o => ?_
  split
  · exact .pure _
  · refine (objectGetClass_free h).bind fun k => ?_
    exact (className_free k).bind fun actual => raise_costs _ _ _

theorem cast_free (t : CastTarget) (k : Option ClassId) (h : Handle) : Free (cast t k h) := by
  refine (classOperand_free k).bind fun c => ?_
  split
  · exact .pure t.null
  · exact (checkInstance_free c h).bind fun _ => represent_free t h

end Casts

end Action

end ObjectModel
