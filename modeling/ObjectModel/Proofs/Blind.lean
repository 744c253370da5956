import ObjectModel.Proofs.Contract.Basic
import ObjectModel.Sample

/-!
Actions that keep away from arrays. They read at most what two worlds have in common that differ in
the contents of their arrays, and they add classes, messages and objects other than arrays. Making
classes, throwing and looking up classes, strings and points are of this kind, so such an action
makes no array, and what arrays hold has no influence on it.
-/

namespace ObjectModel

/-- Objects that differ at most in what an array holds. -/
inductive Obj.Kin : Obj → Obj → Prop where
  | intro (table : DispatchTable) {body body' : Body} (released : Bool) (kin : body.Kin body') :
      Kin ⟨table, body, released⟩ ⟨table, body', released⟩

namespace Body.Kin
variable {b b' : Body}

theorem alpha?_eq (kin : b.Kin b') : b'.alpha? = b.alpha? := by
  cases kin <;> rfl

theorem viewOf?_eq (kin : b.Kin b') (t : CastTarget) (h : Handle) :
    t.viewOf? (h.viewOn b') b' = t.viewOf? (h.viewOn b) b := by
  have accepts (v : View) : t.accepts v b' = t.accepts v b := by
    cases kin with
    | same => rfl
    | array => cases t <;> rfl
    | grid => cases t <;> rfl
  have here : h.viewOn b' = h.viewOn b := by
    cases h with
    | object id v => rfl
    | _ => exact kin.view_eq
  simp only [CastTarget.viewOf?, accepts, here, kin.view_eq]

end Body.Kin

theorem World.body?_logged (w : World) (m : Message) (id : ObjectId) :
    (w.logged m).body? id = w.body? id := by
  unfold logged
  split <;> rfl

/-- Worlds that differ at most in their objects, which correspond to each other. -/
structure World.Matched (R : Obj → Obj → Prop) (w w' : World) : Prop where
  classes : w'.classes = w.classes
  options : w'.options = w.options
  threshold : w'.threshold = w.threshold
  messages : w'.messages = w.messages
  destroyed : w'.destroyed = w.destroyed
  size : w'.objects.size = w.objects.size
  objects : ∀ id o, w.object? id = some o → ∃ o', w'.object? id = some o' ∧ R o o'

namespace World.Matched
variable {R : Obj → Obj → Prop} {w w' : World}

theorem mono {S : Obj → Obj → Prop} (matched : w.Matched R w')
    (weaker : ∀ {o o'}, R o o' → S o o') : w.Matched S w' := by
  refine { matched with objects := fun id o found => ?_ }
  obtain ⟨o', found', related⟩ := matched.objects id o found
  exact ⟨o', found', weaker related⟩

theorem object?_none (matched : w.Matched R w') {id : ObjectId} (missing : w.object? id = none) :
    w'.object? id = none := by
  rw [World.object?, Array.getElem?_eq_none_iff] at missing ⊢
  exact matched.size ▸ missing

theorem find? (matched : w.Matched R w') (key : Text) : w'.find? key = w.find? key := by
  rw [World.find?, matched.classes, World.find?]

theorem class? (matched : w.Matched R w') (c : ClassId) : w'.class? c = w.class? c := by
  rw [World.class?, matched.classes, World.class?]

theorem table? (matched : w.Matched R w') (c : ClassId) : w'.table? c = w.table? c := by
  rw [World.table?, matched.class?, World.table?]

theorem superclass? (matched : w.Matched R w') (c : ClassId) :
    w'.superclass? c = w.superclass? c := by
  rw [World.superclass?, matched.class?, World.superclass?]

theorem superclasses (matched : w.Matched R w') (c : ClassId) :
    w'.superclasses c = w.superclasses c := by
  induction c using Nat.strongRecOn with
  | ind c ih =>
    rw [World.superclasses, World.superclasses, matched.superclass?]
    cases w.superclass? c with
    | none => rfl
    | some s =>
      by_cases below : s < c
      · simp [below, ih s below]
      · simp [below]

theorem isSubclassOf (matched : w.Matched R w') (c d : Option ClassId) :
    w'.isSubclassOf c d = w.isSubclassOf c d := by
  cases c with
  | none => rfl
  | some c =>
    cases d with
    | none => rfl
    | some d => simp [World.isSubclassOf, World.isSubclass_eq, matched.superclasses]

theorem content? (matched : w.Matched Obj.Kin w') (id : ObjectId) :
    w'.content? id = w.content? id := by
  simp only [World.content?, World.body?]
  cases found : w.object? id with
  | none => rw [matched.object?_none found]
  | some o =>
    obtain ⟨o', found', kin⟩ := matched.objects id o found
    rw [found', Option.map_some, Option.map_some]
    obtain ⟨_, _, kin⟩ := kin
    cases kin <;> rfl

theorem push (matched : w.Matched R w') (table : DispatchTable) (body : Body)
    (related : R { table, body } { table, body }) :
    (w.push table body).Matched R (w'.push table body) := by
  have sizes : (w'.push table body).objects.size = (w.push table body).objects.size := by
    simp [World.push, matched.size]
  refine { matched with size := sizes, objects := fun id o found => ?_ }
  rw [object?_push] at found ⊢
  rw [matched.size]
  by_cases last : id = w.objects.size
  · rw [if_pos last] at found ⊢
    cases found
    exact ⟨_, rfl, related⟩
  · rw [if_neg last] at found ⊢
    exact matched.objects id o found

theorem pushClass (matched : w.Matched R w') (refl : ∀ o, o.body.format? = none → R o o)
    (name : Text) (shape : Shape) (table : ClassId → Option DispatchTable) :
    (w.pushClass name shape table).Matched R (w'.pushClass name shape table) := by
  have added := (matched.push .string (.string name) (refl _ rfl)).push .metaclass
    (.metaclass w.classes.size) (refl _ rfl)
  unfold World.pushClass
  dsimp only
  rw [matched.classes, matched.size]
  exact { added with classes := rfl }

theorem logged (matched : w.Matched R w') (m : Message) :
    (w.logged m).Matched R (w'.logged m) := by
  unfold World.logged
  by_cases passes : m.severity.passes w.threshold = true
  · rw [matched.threshold, if_pos passes, if_pos passes]
    exact { matched with threshold := rfl, messages := congrArg (·.push m) matched.messages }
  · rw [matched.threshold, if_neg passes, if_neg passes]
    exact matched

end World.Matched

namespace Action

theorem ext {α : Type} {a b : Action α} (same : ∀ w, a.run w = b.run w) : a = b := funext same

/-- The action neither looks into arrays nor makes any. -/
inductive Blind : {α : Type} → Action α → Prop where
  | pure {α : Type} (x : α) : Blind (pure x)
  | throw {α : Type} (e : Fault) : Blind (throw e : Action α)
  | bind {α β : Type} {a : Action α} {f : α → Action β} (first : Blind a)
      (next : ∀ x, Blind (f x)) : Blind (a >>= f)
  | read {α : Type} {f : World → Action α}
      (same : ∀ {w w'}, w.Matched Obj.Kin w' → f w' = f w) (each : ∀ w, Blind (f w)) :
      Blind (get >>= f)
  | log (severity : Severity) (logger : Logger) (text : Text) : Blind (log severity logger text)
  | allocate (table : DispatchTable) {body : Body} (other : body.format? = none) :
      Blind (allocate table body)
  | create (name : Text) (shape : Shape) (table : ClassId → Option DispatchTable) :
      Blind (create name shape table)

namespace Blind
variable {α β : Type}

theorem map {a : Action α} (blind : Blind a) (f : α → β) : Blind (f <$> a) :=
  blind.bind fun x => .pure (f x)

theorem ite {p : Prop} [Decidable p] {a b : Action α} (yes : Blind a) (no : Blind b) :
    Blind (if p then a else b) := by
  split
  · exact yes
  · exact no

theorem crash (cause : Crash) : Blind (crash cause : Action α) := .throw _

/-- Looking at an object, but not into an array. -/
theorem object {f : Obj → Action α} (same : ∀ {o o'}, o.Kin o' → f o' = f o)
    (each : ∀ o, Blind (f o)) (id : ObjectId) : Blind (Action.object id >>= f) := by
  have opened : (Action.object id >>= f) =
      (get >>= fun w => (w.object? id).elim (Action.crash .nullDereference) f) := by
    refine ext fun w => ?_
    rw [Action.object, bind_assoc, run_get_bind, run_get_bind]
    cases w.object? id <;> rfl
  rw [opened]
  refine .read (fun {w w'} matched => ?_) fun w => ?_
  · cases found : w.object? id with
    | none => rw [matched.object?_none found]
    | some o =>
      obtain ⟨o', found', kin⟩ := matched.objects id o found
      rw [found']
      exact same kin
  · cases w.object? id with
    | none => exact .crash _
    | some o => exact each o

theorem foldlM {f : β → α → Action β} (each : ∀ y x, Blind (f y x)) (xs : List α) (start : β) :
    Blind (xs.foldlM f start) := by
  induction xs generalizing start with
  | nil => exact .pure start
  | cons x rest ih =>
    rw [List.foldlM_cons]
    exact (each start x).bind fun y => ih y

theorem demand (value : Option α) : Blind (demand value) := by
  cases value with
  | none => exact .crash _
  | some x => exact .pure x

/-- Every array that is there afterwards was there before, as it is. -/
theorem arrays {a : Action α} (blind : Blind a) (w : World) {id : ObjectId} {body : Body}
    (held : (a.run w).2.body? id = some body) (array : body.format? ≠ none) :
    w.body? id = some body := by
  induction blind generalizing w with
  | pure x => exact held
  | throw e => exact held
  | @bind _ _ a f _ _ first next =>
    rw [run_bind] at held
    cases ran : a.run w with
    | mk r w' =>
      rw [ran] at held
      have before := first w
      rw [ran] at before
      cases r with
      | error e => exact before held
      | ok x => exact before (next x w' held)
  | read _ _ each => exact each w w held
  | log severity logger text =>
    change (w.logged ⟨severity, logger, text⟩).body? id = some body at held
    rw [World.body?_logged] at held
    exact held
  | @allocate table new other =>
    change (w.push table new).body? id = some body at held
    rw [World.body?, World.object?_push] at held
    split at held
    · cases held
      exact absurd other array
    · exact held
  | create name shape table =>
    rw [run_create] at held
    change ((w.pushClass name shape table).logged _).body? id = some body at held
    rw [World.body?_logged, World.body?, World.object?_pushClass] at held
    split at held
    · cases held
      exact absurd rfl array
    · split at held
      · cases held
        exact absurd rfl array
      · exact held

end Blind

section Classes

theorem classOf_blind (c : ClassId) : Blind (classOf c) := by
  refine .read (fun matched => by rw [matched.class?]) fun w => ?_
  cases w.class? c with
  | none => exact .crash _
  | some k => exact .pure k

theorem className_blind (c : Option ClassId) : Blind (className c) :=
  (Blind.demand c).bind fun c => (classOf_blind c).map _

theorem register_blind (name : Text) (shape : Shape) (table : ClassId → Option DispatchTable) :
    Blind (register name shape table) := by
  refine .read (fun matched => by rw [matched.find?]) fun w => ?_
  cases w.find? (shape.key name) with
  | some c => exact .pure c
  | none => exact .create name shape table

theorem objectClass_blind : Blind objectClass := register_blind _ _ _

theorem coreClass_blind (which : Core) : Blind (coreClass which) := by
  cases which with
  | object => exact objectClass_blind
  | string => exact objectClass_blind.bind fun _ => register_blind _ _ _
  | metaclass => exact objectClass_blind.bind fun _ => register_blind _ _ _

theorem kindClassUnder_blind (superclass : ClassId) (k : Kind) :
    Blind (kindClassUnder superclass k) :=
  .read (fun matched => by rw [matched.table?]) fun _ => register_blind _ _ _

theorem kindClass_blind (k : Kind) : Blind (kindClass k) :=
  objectClass_blind.bind fun root => .foldlM kindClassUnder_blind _ root

theorem owner_blind (t : DispatchTable) : Blind (owner t) := by
  unfold owner
  cases t.own.owner with
  | absent => exact .crash _
  | null => exact .pure none
  | core which => exact (coreClass_blind which).map some
  | known c => exact .pure (some c)

theorem objectArrayClass_blind : Blind objectArrayClass :=
  objectClass_blind.bind fun root => (classOf_blind root).bind fun _ => register_blind _ _ _

theorem objectGridClass_blind : Blind objectGridClass :=
  objectClass_blind.bind fun root => objectArrayClass_blind.bind fun _ =>
    (classOf_blind root).bind fun _ => register_blind _ _ _

theorem findArrayClass_blind (rank : Rank) {superclass : ClassId → Class → Action ClassId}
    (above : ∀ c k, Blind (superclass c k)) (component : ClassId) :
    Blind (findArrayClass rank superclass component) := by
  refine (classOf_blind component).bind fun c => ?_
  refine .read (fun matched => by rw [matched.find?]) fun w => ?_
  cases w.find? (c.arrayKey rank) with
  | some found => exact .pure found
  | none => exact (above component c).bind fun _ => register_blind _ _ _

theorem arrayClass_blind (component : ClassId) : Blind (arrayClass component) :=
  findArrayClass_blind .one
    (fun _ _ => objectClass_blind.bind fun _ => .ite (.pure _) objectArrayClass_blind) component

theorem gridClass_blind (component : ClassId) : Blind (gridClass component) :=
  findArrayClass_blind .two
    (fun _ _ => objectArrayClass_blind.bind fun _ => objectClass_blind.bind fun _ =>
      .ite (.pure _) objectGridClass_blind) component

theorem defineClass_blind (name : Text) (superclass : Option ClassId) (slots : List Text) :
    Blind (defineClass name superclass slots) := by
  have parent : Blind (orObjectClass superclass) := by
    cases superclass with
    | none => exact objectClass_blind
    | some c => exact .pure c
  refine parent.bind fun parent => (classOf_blind parent).bind fun p => ?_
  cases p.table with
  | none => exact .crash _
  | some inherited =>
    refine (register_blind _ _ _).bind fun c => ?_
    refine .read (fun matched => by rw [matched.superclass?]) fun w => ?_
    exact .ite (.pure c) ((className_blind _).bind fun _ => .crash _)

end Classes

section Exceptions
variable {α : Type}

theorem newException_blind (k : Kind) (message : Text) : Blind (newException k message) := by
  refine (kindClass_blind k).bind fun c => ?_
  refine .read (fun matched => by rw [matched.table?]) fun w => ?_
  cases w.table? c with
  | none => exact .crash _
  | some t => exact .allocate t rfl

theorem raise_blind (k : Kind) (message : Text) : Blind (raise k message : Action α) :=
  (newException_blind k message).bind fun _ => (Blind.log _ _ _).bind fun _ => .throw _

theorem classOperand_blind (c : Option ClassId) : Blind (classOperand c) := by
  cases c with
  | none => exact raise_blind _ _
  | some c => exact .pure c

theorem checkNotNull_blind (h : Handle) : Blind (checkNotNull h) := .ite (raise_blind _ _) (.pure _)

theorem checkIndex_blind (k : Kind) (i : Int32) (n : Nat) : Blind (checkIndex k i n) :=
  .ite (.pure _) (raise_blind _ _)

theorem checkElement_blind (e : ElementType) (c : Class) : Blind (checkElement e c) :=
  .ite (.pure _) (.crash _)

theorem checkDimension_blind (n : Int32) : Blind (checkDimension n) :=
  .read (fun matched => by rw [matched.options]) fun _ => .ite (raise_blind _ _) (.pure _)

end Exceptions

section Objects

theorem referent_blind (h : Handle) : Blind (referent h) := by
  cases h with
  | object id v => exact .pure (some id)
  | blankFlat => exact .pure none
  | null => exact .crash _
  | typedNull v => exact .crash _

theorem target_blind (h : Handle) : Blind (target h) := (referent_blind h).bind .demand

theorem stringContent_blind (s : Option ObjectId) : Blind (stringContent s) := by
  refine .read (fun matched => ?_) fun w => (Blind.demand s).bind fun _ => .demand _
  simp only [matched.content?]

theorem stringText_blind (s : Option ObjectId) : Blind (stringText s) :=
  (stringContent_blind s).map _

theorem printedContent_blind (s : Option ObjectId) : Blind (printedContent s) := by
  cases s with
  | none => exact .pure _
  | some id => exact stringContent_blind (some id)

theorem newString_blind (t : Text) : Blind (newString t) := .allocate _ rfl

theorem concat_blind (s other : Option ObjectId) : Blind (concat s other) :=
  (stringContent_blind s).bind fun _ => (printedContent_blind other).bind fun _ => .allocate _ rfl

theorem objectEquals_blind (h other : Handle) : Blind (objectEquals h other) :=
  .ite (.pure _) ((referent_blind h).bind fun _ => (referent_blind other).map _)

theorem objectGetClass_blind (h : Handle) : Blind (objectGetClass h) :=
  (target_blind h).bind <| .object (fun ⟨_, _, _⟩ => rfl) fun o => owner_blind o.table

theorem hashCode_blind (h : Handle) : Blind (hashCode h) := by
  refine (target_blind h).bind fun id => .object (fun {o o'} kin => ?_) (fun o => ?_) id
  · obtain ⟨_, _, kin⟩ := kin
    cases kin with
    | same => rfl
    | array cells storage => cases h with
      | object id view => cases view <;> rfl
      | _ => rfl
    | grid cells storage => cases h with
      | object id view => cases view <;> rfl
      | _ => rfl
  · split
    · exact .pure _
    · split <;> exact .pure _
    · exact .pure _

theorem objectToString_blind (h : Handle) : Blind (objectToString h) :=
  (objectGetClass_blind h).bind fun c => (className_blind c).bind fun _ =>
    (hashCode_blind h).bind fun _ => newString_blind _

theorem toString_blind (h : Handle) : Blind (toString h) := by
  refine (target_blind h).bind fun id => .object (fun {o o'} kin => ?_) (fun o => ?_) id
  · obtain ⟨_, _, kin⟩ := kin
    cases kin with
    | same => rfl
    | array cells storage => cases h with
      | object id view => cases view <;> rfl
      | _ => rfl
    | grid cells storage => cases h with
      | object id view => cases view <;> rfl
      | _ => rfl
  · have colored (p : Int32 × Int32) : Blind (do
        let position ← pointToString p.1 p.2
        let color ← newString (" " ++ (← printedText o.body.color?))
        concat (some position) (some color)) :=
      (newString_blind _).bind fun _ => ((printedContent_blind _).map _).bind fun _ =>
        (newString_blind _).bind fun _ => concat_blind _ _
    split
    · exact .pure _
    · exact (classOf_blind _).bind fun _ => .ite (.pure _) (newString_blind _)
    · exact newString_blind _
    · exact (Blind.demand _).bind fun _ => newString_blind _
    · exact (Blind.demand _).bind colored
    · exact (Blind.demand _).bind colored
    · exact objectToString_blind _

theorem stringEquals_blind (s : Option ObjectId) (other : Handle) :
    Blind (stringEquals s other) := by
  unfold stringEquals
  cases other.as? .string with
  | none => exact .pure _
  | some that => exact (stringText_blind s).bind fun _ => (stringText_blind _).map _

theorem equals_blind (h other : Handle) : Blind (equals h other) := by
  unfold equals
  split
  · exact stringEquals_blind _ _
  · split
    · exact .pure _
    · refine .object (fun ⟨_, _, kin⟩ => ?_) (fun o => ?_) _
      · simp only [kin.alpha?_eq]
      · refine .object (fun ⟨_, _, kin⟩ => ?_) (fun _ => .pure _) _
        simp only [kin.alpha?_eq]
  · exact objectEquals_blind h other

theorem isInstance_blind (k : Option ClassId) (h : Handle) : Blind (isInstance k h) := by
  refine .ite (.pure _) ((objectGetClass_blind h).bind fun c => ?_)
  exact .read (fun matched => by rw [matched.isSubclassOf]) fun _ => .pure _

theorem fitsComponent_blind (k : Class) (value : Handle) : Blind (fitsComponent k value) := by
  unfold fitsComponent
  cases k.shape.component? with
  | none => exact .pure _
  | some c => exact isInstance_blind _ _

theorem checkStore_blind (array value : Handle) : Blind (checkStore array value) := by
  refine .ite (.pure _) ((checkNotNull_blind array).bind fun _ => ?_)
  refine (objectGetClass_blind array).bind fun c => (Blind.demand c).bind fun c => ?_
  refine (classOf_blind c).bind fun k => (fitsComponent_blind k value).bind fun fits => ?_
  refine .ite ?_ (.pure _)
  exact (objectGetClass_blind value).bind fun c => (className_blind c).bind fun _ => raise_blind _ _

theorem checkInstance_blind (c : ClassId) (h : Handle) : Blind (checkInstance c h) := by
  refine (isInstance_blind _ h).bind fun _ => .ite ?_ (.pure _)
  exact (objectGetClass_blind h).bind fun c => (className_blind c).bind fun _ =>
    (className_blind _).bind fun _ => raise_blind _ _

theorem represent_blind (t : CastTarget) (h : Handle) : Blind (represent t h) := by
  refine (target_blind h).bind fun id => .object (fun ⟨_, _, kin⟩ => ?_) (fun o => ?_) id
  · simp only [kin.viewOf?_eq]
  · split
    · exact .pure _
    · exact (objectGetClass_blind h).bind fun c => (className_blind c).bind fun _ => raise_blind _ _

theorem cast_blind (t : CastTarget) (k : Option ClassId) (h : Handle) : Blind (cast t k h) :=
  (classOperand_blind k).bind fun c =>
    .ite (.pure _) ((checkInstance_blind c h).bind fun _ => represent_blind t h)

end Objects

end Action

end ObjectModel
