import ObjectModel.Proofs.ArrayAccess
import ObjectModel.Proofs.Release
import ObjectModel.Proofs.Trail

/-!
Arrays through whole runs. The contents of an array are what the stores of the run have made of it:
at each place the element of the last store there that returned, or the zero of the element type.
Nothing else changes them but a release, which takes all of them, and the extent never changes. So
in every state of a run the array is to programs the finite map that its history gives.
-/

namespace ObjectModel

def Index.place : Index → Place
  | .cell i => .cell i.toInt.toNat
  | .square i j => .square i.toInt.toNat j.toInt.toNat

/-- The body of a new array. -/
def Extent.blank (e : ElementType) (checked : Bool) : Extent → Body
  | .line n => .array (.blank e n checked)
  | .sheet n m => .grid (.blank e n m checked)

theorem Extent.extent?_blank (x : Extent) (e : ElementType) (checked : Bool) :
    (x.blank e checked).extent? = some x := by
  cases x <;> rfl

theorem Extent.tabulates_blank (x : Extent) (e : ElementType) (checked : Bool) :
    ∃ f, (x.blank e checked).format? = some f ∧
      (x.blank e checked).Tabulates fun _ => .zero f.element := by
  cases x with
  | line n => exact ⟨_, rfl, by simp [blank, Cells.blank, Body.Tabulates]⟩
  | sheet n m => exact ⟨_, rfl, by simp [blank, Grid.blank, Body.Tabulates]⟩

theorem Grows.plainNames {w w' : World} (grown : Grows w w') (plain : w'.PlainNames) :
    w.PlainNames := by
  obtain ⟨more, classes⟩ := grown.classes
  intro k member
  exact plain k (by rw [classes]; exact Array.mem_append_left _ member)

namespace Script

namespace Op

def isStore : Op → Bool
  | .array (.set _ _ _) | .array (.setAt _ _ _ _) | .array (.rowSet _ _ _) => true
  | _ => false

end Op

namespace Eval

/-- The store that an operation asks for: the array, the index and the element. -/
def requested : Op → Eval (ObjectId × Index × Element)
  | .array (.set e i value) => do
    let id ← arrayOperand e
    let cells ← act (Action.cells id)
    return (id, .cell i, ← storedElement cells.element value)
  | .array (.setAt e i j value) => do
    let id ← gridOperand e
    let cells ← act (Action.gridCells id)
    return (id, .square i j, ← storedElement cells.element value)
  | .array (.rowSet name j value) => do
    let (id, i) ← rowOperand name
    let cells ← act (Action.gridCells id)
    return (id, .square i j, ← storedElement cells.element value)
  | _ => throw .unsuitable

theorem requested_of_other {op : Op} (other : op.isStore = false) :
    requested op = throw .unsuitable := by
  unfold requested
  split
  · cases other
  · cases other
  · cases other
  · rfl

theorem perform_store {op : Op} (store : op.isStore = true) :
    perform op = requested op >>= fun r => nothing (Action.assign r.1 r.2.1 r.2.2) := by
  unfold Op.isStore at store
  split at store
  · simp only [perform, array, requested, bind_assoc, pure_bind, Action.assign]
  · simp only [perform, array, requested, bind_assoc, pure_bind, Action.assign]
  · simp only [perform, array, requested, bind_assoc, pure_bind, Action.assign]
  · cases store

theorem requested_ends {P : Policy} [P.Samples] {s : Session} (op : Op) :
    Ends P (requested op) s (fun r w => ∃ body, w.body? r.1 = some body) := by
  have element {s' : Session} {id : ObjectId} {body : Body} (type : ElementType) (index : Index)
      (value : StoredExpr) (held : s'.world.body? id = some body) :
      Ends P (do return (id, index, ← storedElement type value)) s'
        (fun r w => ∃ body, w.body? r.1 = some body) := by
    refine (storedElement_ends type value).bind fun v _ _ grown _ => .pure fun _ => ?_
    obtain ⟨body', held', -⟩ := grown.kin held
    exact ⟨body', held'⟩
  have square {s' : Session} (id : ObjectId) (i j : Int32) (value : StoredExpr) :
      Ends P (do
        let cells ← act (Action.gridCells id)
        return (id, Index.square i j, ← storedElement cells.element value)) s'
        (fun r w => ∃ body, w.body? r.1 = some body) := by
    refine (Ends.act (Action.gridCells_ends id)).bind fun g _ _ _ held => ?_
    exact element g.element (.square i j) value (held.2 ▸ held.1)
  unfold requested
  split
  · refine (arrayOperand_ends _).andThen fun id _ => ?_
    refine (Ends.act (Action.cells_ends id)).bind fun c _ _ _ held => ?_
    exact element c.element _ _ (held.2 ▸ held.1)
  · exact (gridOperand_ends _).andThen fun id _ => square id _ _ _
  · exact (rowOperand_ends _).andThen fun place _ => square place.1 place.2 _ _
  · exact .throw trivial

theorem assign_atomic {w : World} {s : Session} (id : ObjectId) (index : Index) (value : Element) :
    Atomic w (nothing (Action.assign id index value)) s (fun _ w' => ∃ w₁,
      w.Framed none w₁ ∧ w' = w₁.modifyObject id (Obj.put index.place value)) := by
  cases index with
  | cell i =>
    refine (arraySet_atomic id i value).imp fun _ _ stored => ?_
    obtain ⟨w₁, n, same, kept, rfl⟩ := stored
    have place : (Index.cell i).place = .cell n := by rw [Index.place, same]; rfl
    exact ⟨w₁, kept, by rw [place]⟩
  | square i j =>
    refine (gridSet_atomic id i j value).imp fun _ _ stored => ?_
    obtain ⟨w₁, n, m, row, column, kept, rfl⟩ := stored
    have place : (Index.square i j).place = .square n m := by rw [Index.place, row, column]; rfl
    exact ⟨w₁, kept, by rw [place]⟩

end Eval

/-- The store that the operation made, if it returned. -/
def Performed.store? (p : Performed) : Option (ObjectId × Place × Element) :=
  match p.outcome, (Eval.requested p.op).run p.before with
  | .reply _, (.ok (id, index, value), _) => some (id, index.place, value)
  | _, _ => none

/-- The element that the operation stored at the place of the array. -/
def Performed.storedAt? (id : ObjectId) (place : Place) (p : Performed) : Option Element :=
  match p.store? with
  | some (id', place', value) => if id' = id ∧ place' = place then some value else none
  | none => none

/-- What the operations have made of a new array: the elements stored last, and zeros. -/
def contents (done : List Performed) (id : ObjectId) (e : ElementType) (place : Place) : Element :=
  (done.reverse.findSome? (Performed.storedAt? id place)).getD (.zero e)

section Contents
variable {done : List Performed} {id : ObjectId} {e : ElementType} {p : Performed}

theorem contents_of_none (none : p.store? = none) :
    contents (done ++ [p]) id e = contents done id e := by
  funext place
  simp [contents, Performed.storedAt?, none]

theorem contents_of_other {id' : ObjectId} {place : Place} {value : Element}
    (store : p.store? = some (id', place, value)) (other : id' ≠ id) :
    contents (done ++ [p]) id e = contents done id e := by
  funext q
  simp [contents, Performed.storedAt?, store, other]

theorem contents_of_store {place : Place} {value : Element}
    (store : p.store? = some (id, place, value)) :
    contents (done ++ [p]) id e = Function.update (contents done id e) place value := by
  funext q
  by_cases same : place = q
  · subst same
    simp [contents, Performed.storedAt?, store]
  · have other : q ≠ place := fun same' => same same'.symm
    simp [contents, Performed.storedAt?, store, same, other]

end Contents

end Script

section Release
variable {w w' : World} {id : ObjectId} {o : Obj}

theorem Obj.emptied_withoutStorage {x : Extent} (extent : o.body.extent? = some x) :
    o.withoutStorage.body.Emptied := by
  unfold Obj.withoutStorage
  cases held : o.body with
  | array c => rfl
  | grid g => rfl
  | _ =>
    rw [held] at extent
    cases extent

/-- Releasing an array drops its storage and marks it, and does not fail. -/
theorem Action.release_array {d : ClassId} {x : Extent} (found : w.object? id = some o)
    (array : w.ArrayOf id o d) (extent : o.body.extent? = some x) (fresh : o.released = false) :
    ∃ w', (release (.object id o.body.view)).run w = (.ok true, w') ∧
      w'.object? id = some o.withoutStorage.asReleased := by
  obtain ⟨⟨a, l, -, known, -, table⟩, -⟩ := array
  have own : o.table = .extend (some .object) ⟨.known a, some .dropStorage, []⟩ :=
    Option.some.inj table
  have destructor : o.table.destructor? = some .dropStorage := by rw [own]; rfl
  have dropped : (runDestructor .dropStorage (.object id o.body.view)).run w =
      (.ok ⟨⟩, w.modifyObject id Obj.withoutStorage) := by
    obtain ⟨f, -, -, ⟨-, view⟩ | ⟨-, view⟩⟩ := Body.view_of_extent extent <;> rw [view] <;> rfl
  let marked := (w.modifyObject id Obj.withoutStorage).modifyObject id Obj.asReleased
  have owned : (owner o.table).run marked = (.ok (some a), marked) := by rw [own]; rfl
  have named : (className (some a)).run marked = (.ok l.name, marked) := run_className known
  rw [← destroy_some destructor] at dropped
  rw [release, releaseWith_finishes found fresh dropped, run_finishRelease, reportRelease, run_bind,
    owned]
  dsimp only
  rw [run_bind, named]
  refine ⟨marked.logged ⟨.debug, .runtime, "released " ++ l.name ++ "@" ++
    Text.numeral 16 (identity id).toUInt32.toNat⟩, rfl, World.Still.logged marked _ id _ ?_⟩
  simp [marked, World.object?_modifyObject, found]

end Release

namespace Script

section Steps
variable {s : Session} {op : Op} {id : ObjectId} {o : Obj} {x : Extent}

theorem store_of_error {stop : Stop} {s' : Session}
    (ran : (Eval.perform op).run s = (.error stop, s')) (result : Option Name) :
    (s.performed op result).store? = none := by
  simp only [Performed.store?, Session.performed, Session.performOp, ran]

theorem store_of_other (other : op.isStore = false) (result : Option Name) :
    (s.performed op result).store? = none := by
  have asked : (Eval.requested op).run s = (.error .unsuitable, s) := by
    rw [Eval.requested_of_other other]
    rfl
  unfold Performed.store? Session.performed
  dsimp only
  rw [asked]
  cases (s.performOp op result).1 <;> rfl

theorem store_of_ok {r : Reply} {s' s₁ : Session} {index : Index} {value : Element}
    (ran : (Eval.perform op).run s = (.ok r, s'))
    (asked : (Eval.requested op).run s = (.ok (id, index, value), s₁)) (result : Option Name) :
    (s.performed op result).store? = some (id, index.place, value) := by
  cases r <;> simp only [Performed.store?, Session.performed, Session.performOp, ran, asked]

/-- The array as it is after the operation: the same, or with the store that the operation made. -/
theorem performOp_store (valid : s.Valid) (store : op.isStore = true) (result : Option Name)
    (found : s.world.object? id = some o) :
    ∃ o', (s.performOp op result).2.world.object? id = some o' ∧
      match (s.performed op result).store? with
      | some (id', place, value) => o' = if id' = id then o.put place value else o
      | none => o' = o := by
  rw [Session.performOp_world]
  obtain ⟨run, same, -⟩ := Eval.requested_ends (P := .framing s.world none) op valid
  have kept := run.framed (.refl s.world none)
  cases asked : (Eval.requested op).run s with
  | mk r s₁ =>
    rw [asked] at run same kept
    cases r with
    | error stop =>
      have performed : (Eval.perform op).run s = (.error stop, s₁) := by
        rw [Eval.perform_store store, run_bind, asked]
      rw [store_of_error performed, performed]
      exact ⟨o, kept.still id o found, rfl⟩
    | ok r =>
      obtain ⟨id', index, value⟩ := r
      have performed : (Eval.perform op).run s =
          (Eval.nothing (Action.assign id' index value)).run s₁ := by
        rw [Eval.perform_store store, run_bind, asked]
      have ended := Eval.assign_atomic id' index value (valid.evolve run same) kept
      cases ran : (Eval.nothing (Action.assign id' index value)).run s₁ with
      | mk r s' =>
        rw [ran] at ended performed
        cases r with
        | error stop =>
          rw [store_of_error performed, performed]
          exact ⟨o, ended.still id o found, rfl⟩
        | ok reply =>
          obtain ⟨w₁, kept', after⟩ := ended
          rw [store_of_ok performed asked, performed, after]
          dsimp only
          rw [World.object?_modifyObject, kept'.still id o found]
          split
          · exact ⟨_, rfl, rfl⟩
          · exact ⟨_, rfl, rfl⟩

/-- An operation that neither stores nor destroys nor releases leaves the object alone. -/
theorem performOp_other (valid : s.Valid) (other : op.isStore = false) (result : Option Name)
    (whole : ∀ v, ¬ op.Destroys s (.object id v)) (kept : ∀ v, ¬ op.Releases s (.object id v))
    (found : s.world.object? id = some o) :
    (s.performOp op result).2.world.object? id = some o := by
  rw [Session.performOp_world]
  have ended := Eval.perform_effect valid op
  obtain ⟨run, -, -⟩ := Eval.perform_ends (P := .any) op (fun _ _ _ => trivial) valid
  obtain ⟨o', found', -⟩ := run.grows.objects found
  cases ran : (Eval.perform op).run s with
  | mk r s' =>
    rw [ran] at ended found'
    have same : o' = o := by
      cases r with
      | error stop =>
        rcases ended.object found found' with same | ⟨v, releases⟩
        · exact same
        · exact absurd releases (kept v)
      | ok reply =>
        rcases ended.object found found' with
          same | ⟨p, value, stores, -⟩ | ⟨v, destroys, -⟩ | ⟨v, releases⟩
        · exact same
        · cases stores <;> cases other
        · exact absurd destroys (whole v)
        · exact absurd releases (kept v)
    rw [found', same]

theorem performOp_release (valid : s.Valid) {d : ClassId} (array : s.world.ArrayOf id o d)
    (found : s.world.object? id = some o) (extent : o.body.extent? = some x) {v : View}
    (releases : op.Releases s (.object id v)) (result : Option Name) :
    ∃ o', (s.performOp op result).2.world.object? id = some o' ∧ o'.released = true ∧
      (o' = o ∨ o' = o.withoutStorage.asReleased) := by
  obtain ⟨e, rfl, s₁, led⟩ := releases
  obtain ⟨run, same, sound⟩ := Eval.refOperand_ends (P := .framing s.world none) e valid
  rw [led] at run same sound
  have found₁ := (run.framed (.refl s.world none)).still id o found
  obtain ⟨f, -, single, -⟩ := Body.view_of_extent extent
  have view : v = o.body.view := by
    obtain ⟨o', there, own⟩ := sound id v rfl
    rw [found₁] at there
    cases there
    rw [single, List.mem_singleton] at own
    exact own
  subst view
  rw [performOp_release_world led]
  cases before : o.released with
  | true =>
    rw [Action.release_released found₁ before]
    exact ⟨o, found₁, before, .inl rfl⟩
  | false =>
    obtain ⟨w', ran, after⟩ :=
      Action.release_array found₁ (array.mono (Evolves.grows run)) extent before
    rw [ran]
    exact ⟨_, after, rfl, .inr rfl⟩

/-- The object is an array as the operations have left it. -/
structure Session.Charts (s : Session) (done : List Performed) (id : ObjectId) (x : Extent)
    (o : Obj) (f : Format) : Prop where
  found : s.world.object? id = some o
  extent : o.body.extent? = some x
  formed : o.body.format? = some f
  holds : o.body.Holds o.released (contents done id f.element)
  released : o.released = true ↔ ∃ q ∈ done, ∃ v, q.op.Releases q.before (.object id v)

theorem releases_append {done : List Performed} {p : Performed} :
    (∃ q ∈ done ++ [p], ∃ v, q.op.Releases q.before (.object id v)) ↔
      (∃ q ∈ done, ∃ v, q.op.Releases q.before (.object id v)) ∨
        ∃ v, p.op.Releases p.before (.object id v) := by
  simp only [List.mem_append, List.mem_singleton, or_and_right, exists_or, exists_eq_left]

/-- What an operation makes of an array is what its store makes of the contents. -/
theorem performOp_charts (valid : s.Valid) (plain : s.world.PlainNames) {done : List Performed}
    {f : Format} (charts : s.Charts done id x o f) (whole : ∀ v, ¬ op.Destroys s (.object id v))
    (result : Option Name) :
    ∃ o', (s.performOp op result).2.Charts (done ++ [s.performed op result]) id x o' f := by
  obtain ⟨found, extent, formed, holds, released⟩ := charts
  have grown := s.performOp_grows valid op result
  -- Only the contents and the mark are left to follow.
  have charted {o' : Obj} (found' : (s.performOp op result).2.world.object? id = some o')
      (holds' : o'.body.Holds o'.released (contents (done ++ [s.performed op result]) id f.element))
      (released' : o'.released = true ↔ o.released = true ∨ ∃ v, op.Releases s (.object id v)) :
      (s.performOp op result).2.Charts (done ++ [s.performed op result]) id x o' f := by
    obtain ⟨o'', found'', -, kin⟩ := grown.objects found
    rw [found'] at found''
    cases found''
    refine ⟨found', kin.extent?_eq.trans extent, kin.format?_eq.trans formed, holds', ?_⟩
    rw [releases_append, ← released]
    exact released'
  cases store : op.isStore with
  | true =>
    obtain ⟨o', found', changed⟩ := performOp_store valid store result found
    have no : ¬ ∃ v, op.Releases s (.object id v) := by
      rintro ⟨v, e, rfl, -⟩
      cases store
    refine ⟨o', charted found' ?_ ?_⟩
    · cases made : (s.performed op result).store? with
      | none =>
        rw [made] at changed
        subst changed
        rw [contents_of_none made]
        exact holds
      | some made' =>
        obtain ⟨id', place, value⟩ := made'
        rw [made] at changed
        dsimp only at changed
        split at changed
        · rename_i same
          subst changed same
          rw [contents_of_store made, Obj.put_released]
          exact Obj.holds_put holds place value
        · rename_i other
          subst changed
          rw [contents_of_other made other]
          exact holds
    · have same : o'.released = o.released := by
        split at changed
        · rw [changed]
          split
          · exact o.put_released _ _
          · rfl
        · rw [changed]
      rw [same, or_iff_left no]
  | false =>
    by_cases releases : ∃ v, op.Releases s (.object id v)
    · obtain ⟨v, releases⟩ := releases
      obtain ⟨d, array⟩ := valid.well.arrayOf plain found extent
      obtain ⟨o', found', marked, changed⟩ :=
        performOp_release valid array found extent releases result
      refine ⟨o', charted found' ?_ (iff_of_true marked (.inr ⟨v, releases⟩))⟩
      rw [contents_of_none (store_of_other store result)]
      rcases changed with rfl | rfl
      · exact holds
      · exact Obj.emptied_withoutStorage extent
    · have kept : ∀ v, ¬ op.Releases s (.object id v) := fun v named => releases ⟨v, named⟩
      refine ⟨o, charted (performOp_other valid store result whole kept found) ?_ ?_⟩
      · rw [contents_of_none (store_of_other store result)]
        exact holds
      · rw [or_iff_left releases]

end Steps

def Outcome.handle? : Outcome → Option Handle
  | .reply (.ok (.handle h)) => some h
  | _ => none

/-- The operation made an array of the extent. -/
inductive Performed.Makes (p : Performed) (id : ObjectId) : Extent → Prop where
  | line {element : Option ElementType} {c : ClassExpr} {n : Int32}
      (asked : p.op = .array (.newArray element c n))
      (made : p.outcome.handle? = some (.object id .array)) :
      Makes p id (.line n.toInt.toNat)
  | sheet {element : Option ElementType} {c : ClassExpr} {n m : Int32}
      (asked : p.op = .array (.newGrid element c n m))
      (made : p.outcome.handle? = some (.object id .grid)) :
      Makes p id (.sheet n.toInt.toNat m.toInt.toNat)

section Creation
variable {s s' : Session} {id : ObjectId} {x : Extent}

/-- The reply is a handle of a new array of the extent. -/
def Session.Offers (s : Session) (x : Extent) (r : Reply) (w : World) : Prop :=
  ∀ id v, r = .ok (.handle (.object id v)) → s.world.object? id = none ∧
    ∃ e checked, w.body? id = some (x.blank e checked)

theorem allocated_offers {view : View} {a : Action ObjectId} (grown : Grows s.world s'.world)
    (ends : Action.Orderly .quiet a s'.world (fun id w => s'.world.object? id = none ∧
      ∃ e checked, w.body? id = some (x.blank e checked))) :
    Eval.Ends .quiet (Eval.allocated view a) s' (s.Offers x) := by
  refine (Eval.Ends.act ends).bind fun id _ _ _ new => .pure fun _ => ?_
  rintro _ _ ⟨rfl⟩
  exact ⟨grown.absent new.1, new.2⟩

theorem newArray_offers (element : Option ElementType) (c : ClassExpr) (n : Int32) :
    Eval.Ends .quiet (Eval.array (.newArray element c n)) s (s.Offers (.line n.toInt.toNat)) := by
  refine (Eval.classOperand_ends c).bind fun k _ _ grown valid => ?_
  refine allocated_offers grown ((Action.newArray_ends valid).imp fun _ _ _ _ new => ?_)
  obtain ⟨_, _, _, _, _, _, _, has, fresh⟩ := new
  exact ⟨fresh, _, _, has⟩

theorem newGrid_offers (element : Option ElementType) (c : ClassExpr) (n m : Int32) :
    Eval.Ends .quiet (Eval.array (.newGrid element c n m)) s
      (s.Offers (.sheet n.toInt.toNat m.toInt.toNat)) := by
  refine (Eval.classOperand_ends c).bind fun k _ _ grown valid => ?_
  refine allocated_offers grown ((Action.newGrid_ends valid).imp fun _ _ _ _ new => ?_)
  obtain ⟨_, _, _, _, _, _, _, has, fresh⟩ := new
  exact ⟨fresh, _, _, has⟩

theorem Session.ok_of_handle {op : Op} {result : Option Name} {h : Handle}
    (given : (s.performOp op result).1.handle? = some h) :
    ∃ s', (Eval.perform op).run s = (.ok (.ok (.handle h)), s') := by
  unfold Session.performOp at given
  split at given
  · rename_i v s' ran
    cases v with
    | handle h' =>
      cases given
      exact ⟨s', ran⟩
    | _ => cases given
  · cases given
  · cases given

/-- A new array holds zeros. -/
theorem performOp_makes (valid : s.Valid) {op : Op} {result : Option Name}
    (makes : (s.performed op result).Makes id x) :
    ∃ o f, (s.performOp op result).2.world.object? id = some o ∧ o.body.extent? = some x ∧
      o.body.format? = some f ∧ o.released = false ∧ o.body.Tabulates fun _ => .zero f.element := by
  have offered {v : View} (ends : Eval.Ends .quiet (Eval.perform op) s (s.Offers x))
      (made : (s.performed op result).outcome.handle? = some (.object id v)) :
      ∃ o f, (s.performOp op result).2.world.object? id = some o ∧ o.body.extent? = some x ∧
        o.body.format? = some f ∧ o.released = false ∧
        o.body.Tabulates fun _ => .zero f.element := by
    obtain ⟨s', ran⟩ := Session.ok_of_handle made
    obtain ⟨run, -, offers⟩ := ends valid
    rw [ran] at run offers
    obtain ⟨fresh, e, checked, held⟩ := offers id v rfl
    obtain ⟨o, found, body⟩ := Option.map_eq_some_iff.mp held
    obtain ⟨f, formed, tabulates⟩ := x.tabulates_blank e checked
    refine ⟨o, f, ?_, ?_, ?_, ?_, ?_⟩
    · rw [Session.performOp_world, ran]
      exact found
    · rw [body, Extent.extent?_blank]
    · rw [body, formed]
    · refine Bool.eq_false_iff.mpr fun released => ?_
      have spared : ∀ w, ¬ Policy.quiet.allows w (.release id) := by
        rintro w ⟨_, _, _, impossible⟩
        cases impossible
      obtain ⟨o', before, -⟩ := run.unmarked spared found released
      rw [fresh] at before
      cases before
    · rw [body]
      exact tabulates
  cases makes with
  | line asked made =>
    have asked' : op = _ := asked
    subst asked'
    exact offered (newArray_offers _ _ _) made
  | sheet asked made =>
    have asked' : op = _ := asked
    subst asked'
    exact offered (newGrid_offers _ _ _ _) made

end Creation

section History
variable {s s' : Session} {id : ObjectId} {x : Extent}

/-- The operations of a run make of an array what its history says. -/
theorem Session.Runs.charts {done : List Performed} (run : s.Runs done s') (valid : s.Valid)
    (plain : s'.world.PlainNames) {o : Obj} {f : Format} (new : s.Charts [] id x o f)
    (whole : ∀ q ∈ done, ∀ v, ¬ q.op.Destroys q.before (.object id v)) :
    ∃ o', s'.Charts done id x o' f := by
  induction run with
  | refl => exact ⟨o, new⟩
  | @perform done s' run op result ih =>
    have valid' := run.valid valid
    have plain' := (s'.performOp_grows valid' op result).plainNames plain
    obtain ⟨o', charts⟩ := ih plain' fun q member => whole q (List.mem_append_left _ member)
    exact performOp_charts valid' plain' charts (whole _ List.mem_concat_self) result
  | bind _ name _ ih =>
    rw [Session.bind_world] at plain
    obtain ⟨o', charts⟩ := ih plain whole
    exact ⟨o', { charts with found := by rw [Session.bind_world]; exact charts.found }⟩

/-- An array made in a run is to programs the finite map that the later operations have made of its
zeros, as long as no defined class takes the key of an array class and no destructor is run on it
but by a release. The map is gone once the array has been released. -/
theorem Session.Runs.array_refines {files : FileSystem} {verbosity : Int}
    {earlier later : List Performed}
    (begun : (Session.withVerbosity { files } verbosity).Runs earlier s)
    {op : Op} {result : Option Name} (makes : (s.performed op result).Makes id x)
    (run : (s.performOp op result).2.Runs later s') (plain : s'.world.PlainNames)
    (whole : ∀ q ∈ later, ∀ v, ¬ q.op.Destroys q.before (.object id v)) :
    ∃ o f d, s'.world.object? id = some o ∧ o.body.format? = some f ∧ s'.world.ArrayOf id o d ∧
      (o.released = true ↔ ∃ q ∈ later, ∃ v, q.op.Releases q.before (.object id v)) ∧
      s'.world.Refines id ⟨x, d, contents later id f.element, o.released⟩ := by
  have valid := begun.valid (Session.Reachable.start files verbosity).valid
  have valid' := (Session.Runs.perform .refl op result).valid valid
  obtain ⟨o, f, found, extent, formed, fresh, tabulates⟩ := performOp_makes valid makes
  have new : (s.performOp op result).2.Charts [] id x o f := by
    refine ⟨found, extent, formed, ?_, ?_⟩
    · rw [fresh]
      exact tabulates
    · rw [fresh]
      simp
  obtain ⟨o', charts⟩ := run.charts valid' plain new whole
  have well := (run.valid valid').well
  obtain ⟨d, array⟩ := well.arrayOf plain charts.found charts.extent
  exact ⟨o', f, d, charts.found, charts.formed, array, charts.released,
    well.refines charts.found array charts.extent charts.holds⟩

end History

/-- A script that makes an object with a class, and one without. -/
def mixedObjects : List Step :=
  [.perform (.object (.newColorPoint 1 2 (.string "red"))) (some "p") none,
    .perform (.object (.view (.variable "p") .point)) (some "q") none,
    .perform (.table (.new none .null none [])) (some "t") none,
    .perform (.object (.newBareOf (.variable "t"))) (some "o") none]

/-- Stores into a sheet: two at one place, and three that fail. -/
def sheetStores : List Step :=
  [.perform (.array (.setAt (.variable "g") 1 2 (.ref (.variable "p")))) none none,
    .perform (.array (.setAt (.variable "g") 1 2 (.ref (.variable "q")))) none none,
    .perform (.array (.setAt (.variable "g") 1 2 (.ref (.string "blue")))) none none,
    .perform (.array (.setAt (.variable "g") 1 2 (.ref (.variable "o")))) none none,
    .perform (.array (.setAt (.variable "g") 1 3 (.ref (.variable "p")))) none none]

theorem array_refines_sheetStores :
    let s := ((Session.withVerbosity {} 0).runAll mixedObjects).2
    let op : Op := .array (.newGrid none (.named .point) 2 3)
    let made := (s.performOp op (some "g")).2
    let later := made.trail sheetStores
    let w := (made.runAll sheetStores).2.world
    (s.performed op (some "g")).Makes 15 (.sheet 2 3) ∧ w.PlainNames ∧
      (∀ q ∈ later, ∀ v, ¬ q.op.Destroys q.before (.object 15 v)) ∧
      later.map (fun q => q.store?.isSome) = [true, true, false, false, false] ∧
      (Action.fetch 15 (.square 1 2)).run w = (.ok (.ref (.object 7 .point)), w) ∧
      (Action.fetch 15 (.square 1 0)).run w = (.ok (.ref .null), w) ∧
      (Action.fetch 15 (.square 1 3)).Refuses w .arrayIndexOutOfBounds (Action.boundsText 3 3) := by
  intro s op made later w
  have start : (Session.withVerbosity {} 0).Valid := (Session.Reachable.start {} 0).valid
  have begun : (Session.withVerbosity {} 0).Runs _ s := Session.runs_trail mixedObjects start
  have valid : made.Valid := (begun.perform op (some "g")).valid start
  have makes : (s.performed op (some "g")).Makes 15 (.sheet 2 3) :=
    .sheet (n := 2) (m := 3) rfl (by decide +kernel)
  have plain : w.PlainNames := by decide +kernel
  have stores : ∀ q ∈ later, q.op.isStore = true := by decide +kernel
  have whole : ∀ q ∈ later, ∀ v, ¬ q.op.Destroys q.before (.object 15 v) := by
    rintro q member v ⟨e, operand, t, s', destroys, -⟩
    have store := stores q member
    rw [destroys] at store
    cases store
  have run : made.Runs later (made.runAll sheetStores).2 := Session.runs_trail sheetStores valid
  obtain ⟨o, f, d, found, formed, -, -, refines⟩ := begun.array_refines makes run plain whole
  have shown : (w.object? 15).map (fun o => (o.released, o.body.format?)) =
      some (false, some ⟨.two, .object, true⟩) := by decide +kernel
  rw [found, Option.map_some, formed] at shown
  obtain ⟨fresh, same⟩ := Prod.mk.inj (Option.some.inj shown)
  cases same
  rw [fresh] at refines
  have read {i j : Int32} {p : Place} {e : Element}
      (inside : (Extent.sheet 2 3).Inside (.square i j) p)
      (last : contents later 15 .object p = e) :
      (Action.fetch 15 (.square i j)).run w = (.ok e, w) := by
    have ran := refines.read inside
    dsimp only at ran
    rw [if_neg Bool.false_ne_true, last] at ran
    exact ran
  have stored : later.map (fun q => q.store?.isSome) = [true, true, false, false, false] := by
    decide +kernel
  refine ⟨makes, plain, whole, stored, ?_, ?_, ?_⟩
  · exact read (.square (by decide) (by decide)) (by decide +kernel)
  · exact read (.square (by decide) (by decide)) (by decide +kernel)
  · exact (refines.outside (.column (by decide) (by decide))).1

end Script

end ObjectModel
