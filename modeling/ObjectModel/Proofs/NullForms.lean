import ObjectModel.Proofs.ArrayAccess
import ObjectModel.Proofs.Blind

/-!
The forms of null. Besides the bare null there is a null of each type, and operations that take null
into account treat all of them alike. Two worlds are alike if they differ at most in the forms of
null that their arrays hold; an action run in both, with handles that differ in the same way, ends
alike: with the same fault, or with results that are again alike.
-/

namespace ObjectModel

section Lists
variable {α : Type} {R : α → α → Prop} {xs ys : List α}

theorem forall₂_getElem? (each : List.Forall₂ R xs ys) (n : Nat) :
    xs[n]? = none ∧ ys[n]? = none ∨ ∃ x y, xs[n]? = some x ∧ ys[n]? = some y ∧ R x y := by
  induction each generalizing n with
  | nil => exact .inl ⟨rfl, rfl⟩
  | cons related _ ih =>
    cases n with
    | zero => exact .inr ⟨_, _, rfl, rfl, related⟩
    | succ n => exact ih n

theorem forall₂_modify (each : List.Forall₂ R xs ys) {f g : α → α}
    (both : ∀ x y, R x y → R (f x) (g y)) (n : Nat) :
    List.Forall₂ R (xs.modify n f) (ys.modify n g) := by
  induction each generalizing n with
  | nil => cases n <;> exact .nil
  | cons related rest ih =>
    cases n with
    | zero => exact .cons (both _ _ related) rest
    | succ n => exact .cons related (ih n)

theorem forall₂_set (each : List.Forall₂ R xs ys) {x y : α} (related : R x y) (n : Nat) :
    List.Forall₂ R (xs.set n x) (ys.set n y) := by
  rw [List.set_eq_modify, List.set_eq_modify]
  exact forall₂_modify each (fun _ _ _ => related) n

end Lists

/-- The same handle, or two forms of null. -/
inductive Handle.Alike : Handle → Handle → Prop where
  | same (h : Handle) : Alike h h
  | null {h h' : Handle} (null : h.isNull = true) (null' : h'.isNull = true) : Alike h h'

inductive Element.Alike : Element → Element → Prop where
  | same (e : Element) : Alike e e
  | ref {h h' : Handle} (alike : h.Alike h') : Alike (.ref h) (.ref h')

inductive Cells.Alike : Cells → Cells → Prop where
  | intro (element : ElementType) (length : Nat) (checked : Bool) {storage storage' : List Element}
      (each : List.Forall₂ Element.Alike storage storage') :
      Alike ⟨element, length, checked, storage⟩ ⟨element, length, checked, storage'⟩

inductive Grid.Alike : Grid → Grid → Prop where
  | intro (element : ElementType) (rows columns : Nat) (checked : Bool)
      {storage storage' : List (List Element)}
      (each : List.Forall₂ (List.Forall₂ Element.Alike) storage storage') :
      Alike ⟨element, rows, columns, checked, storage⟩ ⟨element, rows, columns, checked, storage'⟩

/-- Bodies that differ at most in the forms of null that an array holds. -/
inductive Body.Alike : Body → Body → Prop where
  | other {b : Body} (plain : b.format? = none) : Alike b b
  | array {cells cells' : Cells} (alike : cells.Alike cells') : Alike (.array cells) (.array cells')
  | grid {cells cells' : Grid} (alike : cells.Alike cells') : Alike (.grid cells) (.grid cells')

inductive Obj.Alike : Obj → Obj → Prop where
  | intro (table : DispatchTable) {body body' : Body} (released : Bool) (alike : body.Alike body') :
      Alike ⟨table, body, released⟩ ⟨table, body', released⟩

theorem Handle.Alike.isNull_eq {h h' : Handle} (alike : h.Alike h') : h'.isNull = h.isNull := by
  cases alike with
  | same => rfl
  | null null null' => rw [null, null']

theorem Handle.as?_null {h : Handle} (null : h.isNull = true) (view : View) :
    h.as? view = none := by
  cases h with
  | null | typedNull => rfl
  | blankFlat | object => cases null

theorem Handle.Alike.as?_eq {h h' : Handle} (alike : h.Alike h') (view : View) :
    h'.as? view = h.as? view := by
  cases alike with
  | same => rfl
  | null null null' => rw [as?_null null, as?_null null']

theorem Element.Alike.handle {e e' : Element} (alike : e.Alike e') : e.handle.Alike e'.handle := by
  cases alike with
  | same => exact .same _
  | ref alike => exact alike

namespace Obj.Alike

theorem refl (o : Obj) : o.Alike o := by
  obtain ⟨table, body, released⟩ := o
  refine .intro table released ?_
  have same (xs : List Element) : List.Forall₂ Element.Alike xs xs :=
    List.forall₂_same.mpr fun e _ => .same e
  cases body with
  | array cells => exact .array (.intro _ _ _ (same cells.storage))
  | grid cells => exact .grid (.intro _ _ _ _ (List.forall₂_same.mpr fun row _ => same row))
  | _ => exact .other rfl

theorem kin {o o' : Obj} (alike : o.Alike o') : o.Kin o' := by
  cases alike with
  | intro table released alike =>
    refine .intro table released ?_
    cases alike with
    | other => exact .same _
    | array alike =>
      obtain ⟨element, length, checked, _⟩ := alike
      exact .array ⟨element, length, checked, _⟩ _
    | grid alike =>
      obtain ⟨element, rows, columns, checked, _⟩ := alike
      exact .grid ⟨element, rows, columns, checked, _⟩ _

theorem setElement {o o' : Obj} (alike : o.Alike o') {e e' : Element} (value : e.Alike e')
    (i : Nat) : (o.setElement i e).Alike (o'.setElement i e') := by
  cases alike with
  | @intro table body _ released alike =>
    cases alike with
    | other plain =>
      cases body with
      | array => cases plain
      | _ => exact .intro table released (.other plain)
    | array alike =>
      obtain ⟨element, length, checked, each⟩ := alike
      have stored := forall₂_set each value i
      exact .intro table released (.array (.intro element length checked stored))
    | grid alike => exact .intro table released (.grid alike)

theorem setGridElement {o o' : Obj} (alike : o.Alike o') {e e' : Element} (value : e.Alike e')
    (i j : Nat) : (o.setGridElement i j e).Alike (o'.setGridElement i j e') := by
  cases alike with
  | @intro table body _ released alike =>
    cases alike with
    | other plain =>
      cases body with
      | grid => cases plain
      | _ => exact .intro table released (.other plain)
    | array alike => exact .intro table released (.array alike)
    | grid alike =>
      obtain ⟨element, rows, columns, checked, each⟩ := alike
      have stored := forall₂_modify each (fun _ _ row => forall₂_set row value j) i
      exact .intro table released (.grid (.intro element rows columns checked stored))

theorem withoutStorage {o o' : Obj} (alike : o.Alike o') :
    o.withoutStorage.Alike o'.withoutStorage := by
  cases alike with
  | @intro table body _ released alike =>
    cases alike with
    | other plain =>
      cases body with
      | array | grid => cases plain
      | _ => exact .intro table released (.other plain)
    | array alike =>
      obtain ⟨element, length, checked, _⟩ := alike
      exact .intro table released (.array (.intro element length checked .nil))
    | grid alike =>
      obtain ⟨element, rows, columns, checked, _⟩ := alike
      exact .intro table released (.grid (.intro element rows columns checked .nil))

theorem asReleased {o o' : Obj} (alike : o.Alike o') : o.asReleased.Alike o'.asReleased := by
  cases alike with
  | intro table _ alike => exact .intro table true alike

end Obj.Alike

/-- Worlds that differ at most in the forms of null that arrays hold. -/
abbrev World.Alike (w w' : World) : Prop := w.Matched Obj.Alike w'

section Runs
variable {ε σ α β : Type}

/-- Runs that end alike: with the same error, or with results that are related. -/
inductive EndAlike (S : σ → σ → Prop) (R : α → α → Prop) :
    Except ε α × σ → Except ε α × σ → Prop where
  | ok {x x' : α} {s s' : σ} (result : R x x') (state : S s s') :
      EndAlike S R (.ok x, s) (.ok x', s')
  | error (e : ε) {s s' : σ} (state : S s s') : EndAlike S R (.error e, s) (.error e, s')

/-- Run in related states, the two computations end alike. -/
def Agree (S : σ → σ → Prop) (R : α → α → Prop) (a a' : ExceptT ε (StateM σ) α) : Prop :=
  ∀ s s', S s s' → EndAlike S R (a.run s) (a'.run s')

namespace Agree
variable {S : σ → σ → Prop} {R : α → α → Prop} {T : β → β → Prop}

theorem pure {x x' : α} (result : R x x') : Agree S R (pure x : ExceptT ε (StateM σ) α) (pure x') :=
  fun _ _ state => .ok result state

theorem throw (e : ε) : Agree S R (throw e : ExceptT ε (StateM σ) α) (throw e) :=
  fun _ _ state => .error e state

theorem bind {a a' : ExceptT ε (StateM σ) α} {f f' : α → ExceptT ε (StateM σ) β}
    (first : Agree S R a a') (next : ∀ x x', R x x' → Agree S T (f x) (f' x')) :
    Agree S T (a >>= f) (a' >>= f') := by
  intro s s' state
  have begun := first s s' state
  rw [run_bind, run_bind]
  generalize a.run s = r at begun
  generalize a'.run s' = r' at begun
  cases begun with
  | ok result state => exact next _ _ result _ _ state
  | error e state => exact .error e state

/-- After a first part that gives the same in both runs. -/
theorem after {a a' : ExceptT ε (StateM σ) α} {f f' : α → ExceptT ε (StateM σ) β}
    (first : Agree S Eq a a') (next : ∀ x, Agree S T (f x) (f' x)) :
    Agree S T (a >>= f) (a' >>= f') := by
  refine first.bind ?_
  rintro x _ rfl
  exact next x

theorem imp {a a' : ExceptT ε (StateM σ) α} {U : α → α → Prop} (agree : Agree S R a a')
    (weaker : ∀ x x', R x x' → U x x') : Agree S U a a' := by
  intro s s' state
  have ended := agree s s' state
  generalize a.run s = r at ended
  generalize a'.run s' = r' at ended
  cases ended with
  | ok result state => exact .ok (weaker _ _ result) state
  | error e state => exact .error e state

theorem get {f f' : σ → ExceptT ε (StateM σ) α}
    (each : ∀ s s', S s s' → Agree S R (f s) (f' s')) : Agree S R (get >>= f) (get >>= f') :=
  fun s s' state => each s s' state s s' state

theorem modify {f f' : σ → σ} (each : ∀ s s', S s s' → S (f s) (f' s')) :
    Agree S Eq (modify f : ExceptT ε (StateM σ) PUnit) (modify f') :=
  fun s s' state => .ok rfl (each s s' state)

end Agree

end Runs

namespace Action
variable {α β : Type}

/-- What arrays hold has no influence on an action that keeps away from arrays. -/
theorem Blind.agree {a : Action α} (blind : Blind a) : Agree World.Alike Eq a a := by
  induction blind with
  | pure x => exact .pure rfl
  | throw e => exact .throw e
  | bind _ _ first next => exact first.after next
  | @read _ f same _ each =>
    refine .get fun w w' matched => ?_
    rw [same (matched.mono fun alike => alike.kin)]
    exact each w
  | log severity logger text =>
    exact fun _ _ matched => .ok rfl (matched.logged ⟨severity, logger, text⟩)
  | @allocate table body other =>
    intro w w' matched
    change EndAlike _ _ (.ok w.objects.size, w.push table body)
      (.ok w'.objects.size, w'.push table body)
    exact .ok matched.size.symm (matched.push table body (.refl _))
  | create name shape table =>
    intro w w' matched
    rw [run_create, run_create]
    refine .ok (congrArg _ matched.classes.symm) (.logged ?_ _)
    exact matched.pushClass (fun o _ => .refl o) name shape table

theorem raise_agree {R : α → α → Prop} (k : Kind) (message : Text) :
    Agree World.Alike R (raise k message) (raise k message) :=
  (newException_blind k message).agree.after fun _ =>
    (Blind.log _ _ _).agree.after fun _ => .throw _

theorem object_agree (id : ObjectId) :
    Agree World.Alike Obj.Alike (object id) (object id) := by
  refine .get fun w w' matched => ?_
  cases found : w.object? id with
  | none =>
    rw [matched.object?_none found]
    exact .throw _
  | some o =>
    obtain ⟨o', found', alike⟩ := matched.objects id o found
    rw [found']
    exact .pure alike

theorem modifyObject_agree {f f' : Obj → Obj} (id : ObjectId)
    (each : ∀ o o', o.Alike o' → (f o).Alike (f' o')) :
    Agree World.Alike Eq (modify fun w => w.modifyObject id f : Action PUnit)
      (modify fun w => w.modifyObject id f') := by
  refine .modify fun w w' matched => { matched with size := ?_, objects := fun j o found => ?_ }
  · simp [World.modifyObject, matched.size]
  · rw [World.object?_modifyObject] at found ⊢
    by_cases here : id = j
    · rw [if_pos here] at found ⊢
      obtain ⟨o₁, found₁, rfl⟩ := Option.map_eq_some_iff.mp found
      obtain ⟨o₂, found₂, alike⟩ := matched.objects j o₁ found₁
      rw [found₂]
      exact ⟨_, rfl, each o₁ o₂ alike⟩
    · rw [if_neg here] at found ⊢
      exact matched.objects j o found

section Null
variable {p : Handle} (null : p.isNull = true)
include null

theorem checkNotNull_null : checkNotNull p = raise .nullPointer [] := if_pos null

theorem objectEquals_null (h : Handle) : objectEquals h p = pure false := if_pos null

theorem stringEquals_null (s : Option ObjectId) : stringEquals s p = pure false := by
  rw [stringEquals, Handle.as?_null null]

theorem equals_null (h : Handle) : equals h p = pure false := by
  unfold equals
  split
  · exact stringEquals_null null _
  · rw [Handle.as?_null null]
  · exact objectEquals_null null h

theorem isInstance_null (k : Option ClassId) : isInstance k p = pure false := if_pos null

theorem cast_null (t : CastTarget) (k : Option ClassId) :
    cast t k p = (do let _ ← classOperand k; return t.null) := by
  unfold cast
  simp [null]

theorem checkStore_null (array : Handle) : checkStore array p = pure ⟨⟩ := if_pos null

theorem release_null : release p = pure false := if_pos null

end Null

section Alike
variable {h h' other other' : Handle}

/-- Past a check for null, handles that are alike are the same. -/
theorem checkNotNull_agree (alike : h.Alike h') :
    Agree World.Alike (fun _ _ => h = h') (checkNotNull h) (checkNotNull h') := by
  cases alike with
  | same => exact (checkNotNull_blind h).agree.imp fun _ _ _ => rfl
  | null null null' =>
    rw [checkNotNull_null null, checkNotNull_null null']
    exact raise_agree _ _

theorem referent_agree (alike : h.Alike h') : Agree World.Alike Eq (referent h) (referent h') := by
  cases alike with
  | same => exact (referent_blind h).agree
  | null null null' =>
    have crashes {p : Handle} (null : p.isNull = true) :
        referent p = crash .nullDereference := by
      cases p with
      | null | typedNull => rfl
      | blankFlat | object => cases null
    rw [crashes null, crashes null']
    exact .throw _

theorem objectEquals_agree (alike : h.Alike h') (alike' : other.Alike other') :
    Agree World.Alike Eq (objectEquals h other) (objectEquals h' other') := by
  cases alike' with
  | null null null' =>
    rw [objectEquals_null null, objectEquals_null null']
    exact .pure rfl
  | same =>
    unfold objectEquals
    split
    · exact .pure rfl
    · exact (referent_agree alike).after fun _ => (referent_blind other).agree.after fun _ =>
        .pure rfl

theorem equals_agree (h : Handle) (alike : other.Alike other') :
    Agree World.Alike Eq (equals h other) (equals h other') := by
  cases alike with
  | same => exact (equals_blind h other).agree
  | null null null' =>
    rw [equals_null null, equals_null null']
    exact .pure rfl

theorem stringEquals_agree (s : Option ObjectId) (alike : other.Alike other') :
    Agree World.Alike Eq (stringEquals s other) (stringEquals s other') := by
  cases alike with
  | same => exact (stringEquals_blind s other).agree
  | null null null' =>
    rw [stringEquals_null null, stringEquals_null null']
    exact .pure rfl

theorem isInstance_agree (k : Option ClassId) (alike : h.Alike h') :
    Agree World.Alike Eq (isInstance k h) (isInstance k h') := by
  cases alike with
  | same => exact (isInstance_blind k h).agree
  | null null null' =>
    rw [isInstance_null null, isInstance_null null']
    exact .pure rfl

theorem cast_agree (t : CastTarget) (k : Option ClassId) (alike : h.Alike h') :
    Agree World.Alike Eq (cast t k h) (cast t k h') := by
  cases alike with
  | same => exact (cast_blind t k h).agree
  | null null null' =>
    rw [cast_null null, cast_null null']
    exact (classOperand_blind k).agree.after fun _ => .pure rfl

theorem checkStore_agree (alike : h.Alike h') (alike' : other.Alike other') :
    Agree World.Alike Eq (checkStore h other) (checkStore h' other') := by
  cases alike' with
  | null null null' =>
    rw [checkStore_null null, checkStore_null null']
    exact .pure rfl
  | same =>
    cases alike with
    | same => exact (checkStore_blind h other).agree
    | null null null' =>
      unfold checkStore
      split
      · exact .pure rfl
      · rw [checkNotNull_null null, checkNotNull_null null']
        exact (raise_agree (R := fun _ _ => False) _ _).bind nofun

theorem dropStorage_agree (h : Handle) : Agree World.Alike Eq (dropStorage h) (dropStorage h) := by
  unfold dropStorage
  split
  · exact modifyObject_agree _ fun _ _ alike => alike.withoutStorage
  · exact modifyObject_agree _ fun _ _ alike => alike.withoutStorage
  · exact .throw _
  · exact .throw _
  · exact .pure rfl

theorem runDestructor_agree (d : Destructor) (h : Handle) :
    Agree World.Alike Eq (runDestructor d h) (runDestructor d h) := by
  cases d with
  | dropStorage => exact dropStorage_agree h
  | fail => exact raise_agree _ _
  | record name =>
    exact .modify fun _ _ matched =>
      { matched with destroyed := congrArg (·.push (name, h)) matched.destroyed }

theorem release_agree (alike : h.Alike h') :
    Agree World.Alike Eq (release h) (release h') := by
  cases alike with
  | null null null' =>
    rw [release_null null, release_null null']
    exact .pure rfl
  | same =>
    unfold release releaseWith
    split
    · exact .pure rfl
    refine (target_blind h).agree.after fun id => (object_agree id).bind fun o o' alike => ?_
    obtain ⟨table, released, alike⟩ := alike
    dsimp only
    split
    · exact .pure rfl
    have destroyed (body body' : Body) : Agree World.Alike Eq (destroy ⟨table, body, released⟩ h)
        (destroy ⟨table, body', released⟩ h) := by
      unfold destroy
      cases table.destructor? with
      | none => exact .pure rfl
      | some d => exact runDestructor_agree d h
    refine (destroyed _ _).after fun _ => ?_
    exact (modifyObject_agree id fun _ _ alike => alike.asReleased).after fun _ =>
      (owner_blind table).agree.after fun c => (className_blind c).agree.after fun _ =>
        (Blind.log _ _ _).agree.after fun _ => .pure rfl

end Alike

section Arrays

theorem cells_agree (id : ObjectId) : Agree World.Alike Cells.Alike (cells id) (cells id) := by
  refine (object_agree id).bind fun o o' alike => ?_
  obtain @⟨table, body, _, released, alike⟩ := alike
  cases alike with
  | other plain =>
    cases body with
    | array => cases plain
    | _ => exact .throw _
  | array alike => exact .pure alike
  | grid => exact .throw _

theorem gridCells_agree (id : ObjectId) :
    Agree World.Alike Grid.Alike (gridCells id) (gridCells id) := by
  refine (object_agree id).bind fun o o' alike => ?_
  obtain @⟨table, body, _, released, alike⟩ := alike
  cases alike with
  | other plain =>
    cases body with
    | grid => cases plain
    | _ => exact .throw _
  | array => exact .throw _
  | grid alike => exact .pure alike

theorem element_agree {R : α → α → Prop} {xs ys : List α} (each : List.Forall₂ R xs ys)
    (i : Int32) : Agree World.Alike R (element xs i) (element ys i) := by
  unfold element
  rcases forall₂_getElem? each i.toInt.toNat with ⟨none, none'⟩ | ⟨x, y, found, found', related⟩
  · rw [none, none', each.length_eq]
    exact .throw _
  · rw [found, found']
    exact .pure related

theorem checkStoreIf_agree (checked : Bool) (array : Handle) {h h' : Handle} (alike : h.Alike h') :
    Agree World.Alike Eq (checkStoreIf checked array h) (checkStoreIf checked array h') := by
  cases checked with
  | true => exact checkStore_agree (.same array) alike
  | false => exact .pure rfl

theorem arrayGet_agree (id : ObjectId) (i : Int32) :
    Agree World.Alike Element.Alike (arrayGet id i) (arrayGet id i) := by
  refine (cells_agree id).bind fun c c' alike => ?_
  obtain ⟨element, length, checked, each⟩ := alike
  exact (checkIndex_blind _ i length).agree.after fun _ => element_agree each i

theorem arraySet_agree (id : ObjectId) (i : Int32) {e e' : Element} (value : e.Alike e') :
    Agree World.Alike Eq (arraySet id i e) (arraySet id i e') := by
  refine (cells_agree id).bind fun c c' alike => ?_
  obtain ⟨element, length, checked, each⟩ := alike
  refine (checkIndex_blind _ i length).agree.after fun _ => ?_
  refine (checkStoreIf_agree checked _ value.handle).after fun _ => ?_
  refine (element_agree each i).bind fun _ _ _ => ?_
  exact modifyObject_agree id fun _ _ alike => alike.setElement value _

theorem gridGet_agree (id : ObjectId) (i j : Int32) :
    Agree World.Alike Element.Alike (gridGet id i j) (gridGet id i j) := by
  refine (gridCells_agree id).bind fun g g' alike => ?_
  obtain ⟨element, rows, columns, checked, each⟩ := alike
  refine (checkIndex_blind _ i rows).agree.after fun _ => ?_
  refine (checkIndex_blind _ j columns).agree.after fun _ => ?_
  exact (element_agree each i).bind fun _ _ row => element_agree row j

theorem gridSet_agree (id : ObjectId) (i j : Int32) {e e' : Element} (value : e.Alike e') :
    Agree World.Alike Eq (gridSet id i j e) (gridSet id i j e') := by
  refine (gridCells_agree id).bind fun g g' alike => ?_
  obtain ⟨element, rows, columns, checked, each⟩ := alike
  refine (checkIndex_blind _ i rows).agree.after fun _ => ?_
  refine (checkIndex_blind _ j columns).agree.after fun _ => ?_
  refine (checkStoreIf_agree checked _ value.handle).after fun _ => ?_
  refine (element_agree each i).bind fun _ _ row => (element_agree row j).bind fun _ _ _ => ?_
  exact modifyObject_agree id fun _ _ alike => alike.setGridElement value _ _

end Arrays

theorem raise_bind {f : α → Action β} (k : Kind) (message : Text) :
    (raise k message >>= f) = raise k message := by
  refine ext fun w => ?_
  rw [raise, raise, bind_assoc, run_bind, run_bind]
  cases (newException k message).run w with
  | mk r w' => cases r <;> rfl

end Action

/-- What the operations that take null into account make of a form of null. Those that refuse it
throw the exception `e` and leave the world `w'`. -/
structure World.TreatsNull (w : World) (e : ObjectId) (w' : World) (p : Handle) : Prop where
  checkNotNull : (Action.checkNotNull p).run w = (.error (.thrown e), w')
  hashCode : (do Action.checkNotNull p; Action.hashCode p).run w = (.error (.thrown e), w')
  getClass : (do Action.checkNotNull p; Action.objectGetClass p).run w = (.error (.thrown e), w')
  toString : (do Action.checkNotNull p; Action.toString p).run w = (.error (.thrown e), w')
  equals : ∀ other,
    (do Action.checkNotNull p; Action.equals p other).run w = (.error (.thrown e), w')
  equals_to : ∀ h, (Action.equals h p).run w = (.ok false, w)
  objectEquals_to : ∀ h, (Action.objectEquals h p).run w = (.ok false, w)
  isInstance : ∀ k, (Action.isInstance k p).run w = (.ok false, w)
  cast : ∀ t c, (Action.cast t (some c) p).run w = (.ok t.null, w)
  cast_null : ∀ t, (Action.cast t none p).run w = (.error (.thrown e), w')
  checkStore : ∀ array, (Action.checkStore array p).run w = (.ok ⟨⟩, w)
  checkStore_into : ∀ value, value.isNull = false →
    (Action.checkStore p value).run w = (.error (.thrown e), w')
  release : (Action.release p).run w = (.ok false, w)

theorem World.treatsNull {w w' : World} {e : ObjectId}
    (raised : (Action.raise .nullPointer [] : Action Unit).run w = (.error (.thrown e), w'))
    {p : Handle} (null : p.isNull = true) : w.TreatsNull e w' p := by
  have refused : (Action.checkNotNull p).run w = (.error (.thrown e), w') := by
    rw [Action.checkNotNull_null null, raised]
  have dispatched {α : Type} (f : Action α) :
      (do Action.checkNotNull p; f).run w = (.error (.thrown e), w') := by
    rw [run_bind, refused]
  refine ⟨refused, dispatched _, dispatched _, dispatched _, fun _ => dispatched _, fun h => ?_,
    fun h => ?_, fun k => ?_, fun t c => ?_, fun t => ?_, fun array => ?_,
    fun value other => ?_, ?_⟩
  · rw [Action.equals_null null]
    rfl
  · rw [Action.objectEquals_null null]
    rfl
  · rw [Action.isInstance_null null]
    rfl
  · rw [Action.cast_null null]
    rfl
  · have thrown : (Action.classOperand none).run w = (.error (.thrown e), w') := by
      rw [Action.classOperand, ← Action.raise_bind (α := Unit) (f := fun _ => pure 0), run_bind,
        raised]
    rw [Action.cast_null null, run_bind, thrown]
  · rw [Action.checkStore_null null]
    rfl
  · rw [Action.checkStore, other]
    exact dispatched _
  · rw [Action.release_null null]
    rfl

end ObjectModel
