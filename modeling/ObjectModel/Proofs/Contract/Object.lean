import ObjectModel.Cast
import ObjectModel.Proofs.Contract.Class

/-!
Contracts of the operations on handles: reading what a handle leads to, the four dispatched
operations, the instance test, casts and release. Handles and strings that come out of them are in
order, and an instance test that succeeds says where the class of the object stands.
-/

namespace ObjectModel

def Policy.AllowsDestructor (P : Policy) (h : Handle) : Prop :=
  ∀ w, (∀ id v, h = .object id v → P.allows w (.drop id)) ∧ ∀ name, P.allows w (.record name h)

def Policy.AllowsMark (P : Policy) (h : Handle) : Prop :=
  ∀ w id v, h = .object id v → P.allows w (.release id)

def World.IsString (w : World) (id : ObjectId) : Prop := ∃ t, w.body? id = some (.string t)

namespace Action

section Reading
variable {P : Policy} {w : World}

theorem referent_ends (h : Handle) :
    Orderly P (referent h) w
      (fun r w' => (∀ id, r = some id → ∃ v, h = .object id v) ∧ w = w') := by
  cases h with
  | null => exact crash_ends _
  | typedNull => exact crash_ends _
  | blankFlat => exact .pure fun _ => ⟨fun _ impossible => (nomatch impossible), rfl⟩
  | object id v =>
    refine .pure fun _ => ⟨?_, rfl⟩
    rintro _ ⟨rfl⟩
    exact ⟨v, rfl⟩

theorem target_ends (h : Handle) :
    Orderly P (target h) w (fun id w' => (∃ v, h = .object id v) ∧ w = w') := by
  refine (referent_ends h).read fun r leads => ?_
  exact (demand_ends r).imp fun id _ _ _ found => ⟨leads id found.1, found.2⟩

theorem stringContent_ends (s : Option ObjectId) :
    Orderly P (stringContent s) w (fun _ w' => w = w') := by
  refine .get_bind ?_
  refine (demand_ends s).read fun id _ => ?_
  exact (demand_ends _).imp fun _ _ _ _ found => found.2

theorem stringText_ends (s : Option ObjectId) :
    Orderly P (stringText s) w (fun _ w' => w = w') := by
  refine (stringContent_ends s).observe fun _ => ?_
  exact .pure fun _ => rfl

theorem printedContent_ends (s : Option ObjectId) :
    Orderly P (printedContent s) w (fun _ w' => w = w') := by
  cases s with
  | none => exact .pure fun _ => rfl
  | some id => exact stringContent_ends _

theorem printedText_ends (s : Option ObjectId) :
    Orderly P (printedText s) w (fun _ w' => w = w') := by
  refine (printedContent_ends s).observe fun _ => ?_
  exact .pure fun _ => rfl

theorem newString_orderly (t : Text) : Orderly P (newString t) w (fun id w' => w'.IsString id) :=
  (newString_ends t).imp fun _ _ _ _ new => ⟨t, new⟩

theorem concat_ends (s other : Option ObjectId) :
    Orderly P (concat s other) w (fun id w' => w'.IsString id) := by
  refine (stringContent_ends s).andThen fun left _ => ?_
  refine (printedContent_ends other).andThen fun right _ => ?_
  exact (newContent_ends (left ++ right)).imp fun _ _ _ _ new => ⟨_, new⟩

theorem objectHashCode_ends (h : Handle) :
    Orderly P (objectHashCode h) w (fun _ w' => w = w') := by
  refine (target_ends h).read fun id _ => ?_
  exact .pure fun _ => rfl

theorem objectEquals_ends (h other : Handle) :
    Orderly P (objectEquals h other) w (fun _ w' => w = w') := by
  unfold objectEquals
  split
  · exact .pure fun _ => rfl
  · refine (referent_ends h).read fun this _ => ?_
    refine (referent_ends other).read fun that _ => ?_
    exact .pure fun _ => rfl

theorem objectGetClass_ends (h : Handle) :
    Orderly P (objectGetClass h) w
      (fun c w' => ∃ id v, h = .object id v ∧ w'.classOf? id = c) := by
  refine (target_ends h).read fun id found => ?_
  obtain ⟨v, leads⟩ := found
  refine (object_ends id).read fun o found => ?_
  refine (owner_ends o.table).imp fun c w' _ grown resolved => ⟨id, v, leads, ?_⟩
  obtain ⟨o', found', table, _⟩ := grown.objects found
  rw [World.classOf?, found', Option.bind_some, table]
  exact resolved

theorem hashCode_ends (h : Handle) : Orderly P (hashCode h) w (fun _ w' => w = w') := by
  refine (target_ends h).read fun id _ => ?_
  refine (object_ends id).read fun o _ => ?_
  split
  · exact .pure fun _ => rfl
  · split <;> exact .pure fun _ => rfl
  · exact .pure fun _ => rfl

theorem objectToString_ends (h : Handle) :
    Orderly P (objectToString h) w (fun id w' => w'.IsString id) := by
  refine (objectGetClass_ends h).andThen fun c _ => ?_
  refine (className_ends c).andThen fun name _ => ?_
  refine (hashCode_ends h).andThen fun hash _ => ?_
  exact newString_orderly _

theorem pointToString_ends (x y : Int32) :
    Orderly P (pointToString x y) w (fun id w' => w'.IsString id) :=
  newString_orderly _

theorem colorPointToString_ends (body : Body) :
    Orderly P (do
      let (x, y) ← demand body.coordinates?
      let position ← pointToString x y
      let color ← newString (" " ++ (← printedText body.color?))
      concat (some position) (some color)) w (fun id w' => w'.IsString id) := by
  refine (demand_ends _).andThen fun position _ => ?_
  refine (pointToString_ends _ _).andThen fun s _ => ?_
  refine (printedText_ends _).andThen fun color _ => ?_
  exact (newString_orderly _).andThen fun t _ => concat_ends _ _

theorem toString_ends (h : Handle) :
    Orderly P (toString h) w (fun id w' => w'.IsString id) := by
  refine (target_ends h).read fun id _ => ?_
  refine (object_ends id).bind fun o _ well _ same => ?_
  obtain ⟨found, rfl⟩ := same
  split
  · rename_i text body _
    exact .pure fun _ => ⟨text, by rw [World.body?, found, Option.map_some, body]⟩
  · rename_i c body _
    refine (classOf_orderly c).read fun k known => ?_
    split
    · exact .pure fun _ => ⟨k.name, (well.linked known).1⟩
    · exact newString_orderly _
  · exact newString_orderly _
  · exact (demand_ends _).andThen fun _ _ => pointToString_ends _ _
  · exact colorPointToString_ends _
  · exact colorPointToString_ends _
  · exact objectToString_ends _

theorem stringEquals_ends (s : Option ObjectId) (other : Handle) :
    Orderly P (stringEquals s other) w (fun _ w' => w = w') := by
  unfold stringEquals
  split
  · exact .pure fun _ => rfl
  · refine (stringText_ends s).observe fun _ => ?_
    refine (stringText_ends _).observe fun _ => ?_
    exact .pure fun _ => rfl

theorem equals_ends (h other : Handle) : Orderly P (equals h other) w (fun _ w' => w = w') := by
  unfold equals
  split
  · exact stringEquals_ends _ other
  · split
    · exact .pure fun _ => rfl
    · refine (object_ends _).read fun _ _ => ?_
      refine (object_ends _).read fun _ _ => ?_
      exact .pure fun _ => rfl
  · exact objectEquals_ends h other

theorem horizontal_ends (h : Handle) : Orderly P (horizontal h) w (fun _ w' => w = w') := by
  refine (target_ends h).read fun id _ => ?_
  refine (object_ends id).read fun o _ => ?_
  refine (demand_ends _).read fun _ _ => ?_
  exact .pure fun _ => rfl

theorem isInstance_ends (k : Option ClassId) (h : Handle) :
    Orderly P (isInstance k h) w (fun holds w' => holds = true → ∃ id v c d, h = .object id v ∧
      k = some d ∧ w'.classOf? id = some c ∧ w'.isSubclass c d = true) := by
  unfold isInstance
  split
  · exact .pure fun _ impossible => nomatch impossible
  · refine (objectGetClass_ends h).bind fun c w' _ _ leads => ?_
    obtain ⟨id, v, leads, resolved⟩ := leads
    refine .get_bind (.pure fun _ holds => ?_)
    cases c with
    | none => cases holds
    | some c =>
      cases k with
      | none => cases holds
      | some d => exact ⟨id, v, c, d, leads, rfl, resolved, holds⟩

end Reading

section Views
variable {P : Policy} {w : World}

theorem handle_valid_of_null {h : Handle} (null : h.isNull = true) : h.Valid w := by
  rintro id v rfl
  cases null

theorem handle_valid_whole {id : ObjectId} {o : Obj} (found : w.object? id = some o) :
    (Handle.object id o.body.view).Valid w := by
  rintro _ _ ⟨rfl⟩
  exact ⟨o, found, List.mem_cons_self⟩

theorem handle_valid_body {id : ObjectId} {body : Body} (has : w.body? id = some body) :
    (Handle.object id body.view).Valid w := by
  obtain ⟨o, found, rfl⟩ := Option.map_eq_some_iff.mp has
  exact handle_valid_whole found

theorem outermost_ends (h : Handle) : Orderly P (outermost h) w (fun h' w' => h'.Valid w') := by
  refine (target_ends h).read fun id _ => ?_
  refine (object_ends id).read fun o found => ?_
  exact .pure fun _ => handle_valid_whole found

theorem cast_null_valid (t : CastTarget) : t.null.Valid w := by
  intro id v same
  cases t with
  | view view => cases view <;> cases same
  | _ => cases same

theorem viewOf_mem {t : CastTarget} {here v : View} {body : Body}
    (own : here ∈ body.view :: body.view.embedded) (chosen : t.viewOf? here body = some v) :
    v ∈ body.view :: body.view.embedded := by
  rcases List.mem_cons.mp (CastTarget.viewOf?_some chosen).1 with rfl | member
  · exact own
  · exact member

theorem checkInstance_ends (c : ClassId) (h : Handle) :
    Orderly P (checkInstance c h) w (fun _ _ => True) := by
  refine (isInstance_ends _ h).andThen fun holds _ => ?_
  split
  · refine (objectGetClass_ends h).andThen fun actual _ => ?_
    refine (className_ends _).andThen fun _ _ => ?_
    exact (className_ends _).andThen fun _ _ => raise_orderly _ _
  · exact .pure fun _ => trivial

theorem represent_ends (t : CastTarget) {h : Handle} (valid : h.Valid w) :
    Orderly P (represent t h) w (fun h' w' => h'.Valid w') := by
  refine (target_ends h).read fun id found => ?_
  obtain ⟨v, rfl⟩ := found
  refine (object_ends id).read fun o found => ?_
  obtain ⟨o', found', own⟩ := valid id v rfl
  rw [found] at found'
  cases found'
  split
  · rename_i chosen
    refine .pure fun _ => ?_
    rintro _ _ ⟨rfl⟩
    exact ⟨o, found, viewOf_mem own chosen⟩
  · refine (objectGetClass_ends _).andThen fun actual _ => ?_
    exact (className_ends _).andThen fun _ _ => raise_orderly _ _

theorem cast_ends (t : CastTarget) (k : Option ClassId) {h : Handle} (valid : h.Valid w) :
    Orderly P (cast t k h) w (fun h' w' => h'.Valid w') := by
  refine (classOperand_ends k).read fun c _ => ?_
  split
  · exact .pure fun _ => cast_null_valid t
  · exact (checkInstance_ends c h).bind fun _ _ _ grown _ => represent_ends t (valid.mono grown)

end Views

section Release
variable {P : Policy} {w : World}

theorem dropStorage_ends {h : Handle} (allowed : P.AllowsDestructor h) :
    Orderly P (dropStorage h) w (fun _ _ => True) := by
  have dropped (id : ObjectId) (v : View) (same : h = .object id v) :
      Orderly P (modify fun w => w.modifyObject id Obj.withoutStorage) w (fun _ _ => True) :=
    .modify (.drop id ((allowed w).1 id v same)) trivial
  unfold dropStorage
  split
  · exact dropped _ _ rfl
  · exact dropped _ _ rfl
  · exact crash_ends _
  · exact crash_ends _
  · exact .pure fun _ => trivial

theorem runDestructor_ends (d : Destructor) {h : Handle} (allowed : P.AllowsDestructor h) :
    Orderly P (runDestructor d h) w (fun _ _ => True) := by
  cases d with
  | dropStorage => exact dropStorage_ends allowed
  | fail => exact raise_orderly _ _
  | record name => exact .modify (.record name h ((allowed w).2 name)) trivial

theorem destroy_ends (o : Obj) {h : Handle} (allowed : P.AllowsDestructor h) :
    Orderly P (destroy o h) w (fun _ _ => True) := by
  unfold destroy
  split
  · exact runDestructor_ends _ allowed
  · exact .pure fun _ => trivial

theorem reportRelease_ends (id : ObjectId) (o : Obj) :
    Orderly P (reportRelease id o) w (fun _ _ => True) := by
  refine (owner_ends _).andThen fun _ _ => ?_
  refine (className_ends _).andThen fun _ _ => ?_
  exact (log_ends _ _ _).andThen fun _ _ => .pure fun _ => trivial

theorem release_ends {h : Handle} (allowed : P.AllowsDestructor h) (marked : P.AllowsMark h) :
    Orderly P (release h) w (fun _ _ => True) := by
  unfold release releaseWith
  split
  · exact .pure fun _ => trivial
  · refine (target_ends h).read fun id found => ?_
    obtain ⟨v, leads⟩ := found
    refine (object_ends id).read fun o _ => ?_
    split
    · exact .pure fun _ => trivial
    · refine (destroy_ends o allowed).andThen fun _ w' => ?_
      refine (Ends.modify (Q := fun _ _ => True)
        (.release id (marked w' id v leads)) trivial).andThen fun _ _ => ?_
      exact reportRelease_ends id o

theorem setOptions_ends {options : Options} (allowed : P.allows w (.options options)) :
    Orderly P (setOptions options) w (fun _ _ => True) :=
  (Ends.modify (Q := fun _ _ => True) (.options options allowed) trivial).andThen
    fun _ _ => log_ends _ _ _

end Release

end Action

end ObjectModel
