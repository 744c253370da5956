import ObjectModel.Proofs.Description
import ObjectModel.Proofs.Displacement
import ObjectModel.Proofs.Effect
import ObjectModel.Proofs.HeapTyping
import ObjectModel.Proofs.Views

/-!
Reading and writing one array. An array of either rank is a finite map from the places within its
extent to elements. An index out of bounds is refused before anything else; within bounds a read
gives the element at the place, and a write first asks whether the element may be stored. A refused
call changes nothing that was there. Once the storage is gone the bounds and the store check are as
before, and what passes them crashes.
-/

namespace ObjectModel

/-- A position as a program gives it. -/
inductive Index where
  | cell (i : Int32)
  | square (i j : Int32)

def Index.first : Index → Int32
  | .cell i | .square i _ => i

inductive Extent where
  | line (length : Nat)
  | sheet (rows columns : Nat)
deriving DecidableEq, Repr

def Bounded (i : Int32) (n : Nat) : Prop := 0 ≤ i.toInt ∧ i.toInt < n

instance (i : Int32) (n : Nat) : Decidable (Bounded i n) := inferInstanceAs (Decidable (_ ∧ _))

namespace Extent

/-- The first of the indices that is out of its bounds, and the length that it exceeds. -/
inductive Outside : Extent → Index → Int32 → Nat → Prop where
  | cell {i : Int32} {n : Nat} (out : ¬ Bounded i n) : Outside (.line n) (.cell i) i n
  | row {i j : Int32} {n m : Nat} (out : ¬ Bounded i n) : Outside (.sheet n m) (.square i j) i n
  | column {i j : Int32} {n m : Nat} (within : Bounded i n) (out : ¬ Bounded j m) :
      Outside (.sheet n m) (.square i j) j m

/-- The place that the indices lead to when they are within bounds. -/
inductive Inside : Extent → Index → Place → Prop where
  | cell {i : Int32} {n : Nat} (within : Bounded i n) :
      Inside (.line n) (.cell i) (.cell i.toInt.toNat)
  | square {i j : Int32} {n m : Nat} (row : Bounded i n) (column : Bounded j m) :
      Inside (.sheet n m) (.square i j) (.square i.toInt.toNat j.toInt.toNat)

end Extent

namespace Body

def extent? : Body → Option Extent
  | .array cells => some (.line cells.length)
  | .grid cells => some (.sheet cells.rows cells.columns)
  | _ => none

/-- The storage holds the elements of the map, at every place of the extent. -/
def Tabulates (contents : Place → Element) : Body → Prop
  | .array cells => cells.storage = (List.range cells.length).map fun i => contents (.cell i)
  | .grid cells => cells.storage = (List.range cells.rows).map fun i =>
      (List.range cells.columns).map fun j => contents (.square i j)
  | _ => False

def Emptied : Body → Prop
  | .array cells => cells.storage = []
  | .grid cells => cells.storage = []
  | _ => False

/-- What is left of the map: all of it, or nothing after a release. -/
def Holds (released : Bool) (contents : Place → Element) (body : Body) : Prop :=
  if released then body.Emptied else body.Tabulates contents

theorem Kin.extent?_eq {a b : Body} (kin : Kin a b) : b.extent? = a.extent? := by
  cases kin <;> rfl

/-- The view of an array as a whole. -/
theorem view_of_extent {body : Body} {x : Extent} (extent : body.extent? = some x) :
    ∃ f, body.format? = some f ∧ body.view.embedded = [] ∧
      (f.rank = .one ∧ body.view = .array ∨ f.rank = .two ∧ body.view = .grid) := by
  cases body with
  | array cells => exact ⟨_, rfl, rfl, .inl ⟨rfl, rfl⟩⟩
  | grid cells => exact ⟨_, rfl, rfl, .inr ⟨rfl, rfl⟩⟩
  | _ => cases extent

end Body

theorem Bounded.toNat_lt {i : Int32} {n : Nat} (within : Bounded i n) : i.toInt.toNat < n := by
  unfold Bounded at within
  omega

section Storage
variable {contents : Place → Element} {i j : Int32}

theorem Body.tabulates_cell {c : Cells} (tabulates : (Body.array c).Tabulates contents)
    (within : Bounded i c.length) :
    c.storage[i.toInt.toNat]? = some (contents (.cell i.toInt.toNat)) := by
  have storage : c.storage = _ := tabulates
  rw [storage, List.getElem?_map, List.getElem?_range within.toNat_lt]
  rfl

theorem Body.tabulates_square {g : Grid} (tabulates : (Body.grid g).Tabulates contents)
    (row : Bounded i g.rows) (column : Bounded j g.columns) :
    ∃ cells, g.storage[i.toInt.toNat]? = some cells ∧
      cells[j.toInt.toNat]? = some (contents (.square i.toInt.toNat j.toInt.toNat)) := by
  have storage : g.storage = _ := tabulates
  refine ⟨(List.range g.columns).map fun j => contents (.square i.toInt.toNat j), ?_, ?_⟩
  · rw [storage, List.getElem?_map, List.getElem?_range row.toNat_lt]
    rfl
  · rw [List.getElem?_map, List.getElem?_range column.toNat_lt]
    rfl

end Storage

theorem modify_map_range {α : Type} (f : Nat → α) (n i : Nat) (g : α → α) :
    ((List.range n).map f).modify i g = (List.range n).map (Function.update f i (g (f i))) := by
  apply List.ext_getElem?
  intro k
  by_cases same : i = k
  · subst same
    by_cases below : i < n <;> simp [below]
  · have other : k ≠ i := fun same' => same same'.symm
    by_cases below : k < n <;> simp [same, below, other]

/-- A store changes the map at one place. -/
theorem Obj.tabulates_put {o : Obj} {contents : Place → Element}
    (tabulates : o.body.Tabulates contents) (p : Place) (value : Element) :
    (o.put p value).body.Tabulates (Function.update contents p value) := by
  cases held : o.body with
  | array cells =>
    rw [held] at tabulates
    have storage : cells.storage = _ := tabulates
    cases p with
    | cell i =>
      simp only [Obj.put, Obj.setElement, held, Body.Tabulates]
      rw [storage, List.set_eq_modify, modify_map_range]
      apply List.map_congr_left
      intro k _
      simp [Function.update_apply]
    | square i j =>
      simp only [Obj.put, Obj.setGridElement, held, Body.Tabulates]
      rw [storage]
      apply List.map_congr_left
      intro k _
      simp
  | grid cells =>
    rw [held] at tabulates
    have storage : cells.storage = _ := tabulates
    cases p with
    | cell i =>
      simp only [Obj.put, Obj.setElement, held, Body.Tabulates]
      rw [storage]
      apply List.map_congr_left
      intro k _
      simp
    | square i j =>
      simp only [Obj.put, Obj.setGridElement, held, Body.Tabulates]
      rw [storage, modify_map_range]
      apply List.map_congr_left
      intro k _
      by_cases row : k = i
      · subst row
        rw [Function.update_self, List.set_eq_modify, modify_map_range]
        apply List.map_congr_left
        intro l _
        simp [Function.update_apply]
      · simp [row]
  | _ =>
    rw [held] at tabulates
    cases tabulates

theorem Obj.emptied_put {o : Obj} (emptied : o.body.Emptied) (p : Place) (value : Element) :
    (o.put p value).body.Emptied := by
  cases held : o.body with
  | array cells =>
    rw [held] at emptied
    have storage : cells.storage = [] := emptied
    cases p <;> simp [Obj.put, Obj.setElement, Obj.setGridElement, held, Body.Emptied, storage]
  | grid cells =>
    rw [held] at emptied
    have storage : cells.storage = [] := emptied
    cases p <;> simp [Obj.put, Obj.setElement, Obj.setGridElement, held, Body.Emptied, storage]
  | _ =>
    rw [held] at emptied
    cases emptied

theorem Obj.holds_put {o : Obj} {contents : Place → Element} {released : Bool}
    (holds : o.body.Holds released contents) (p : Place) (value : Element) :
    (o.put p value).body.Holds released (Function.update contents p value) := by
  cases released with
  | true => exact Obj.emptied_put holds p value
  | false => exact Obj.tabulates_put holds p value

theorem World.Framed.trans {w w₁ w₂ : World} (first : w.Framed none w₁) (rest : w₁.Framed none w₂) :
    w.Framed none w₂ :=
  first.step rest.still rest.options rest.threshold (rest.destroyed rfl)

namespace Action
variable {α β : Type} {w w₁ : World} {id : ObjectId}

def fetch (id : ObjectId) : Index → Action Element
  | .cell i => arrayGet id i
  | .square i j => gridGet id i j

def assign (id : ObjectId) (index : Index) (value : Element) : Action Unit :=
  match index with
  | .cell i => arraySet id i value
  | .square i j => gridSet id i j value

/-- The action throws an exception of this kind with this message, and all that was there is as it
was. -/
def Refuses (a : Action α) (w : World) (k : Kind) (message : Text) : Prop :=
  ∃ e w', a.run w = (.error (.thrown e), w') ∧ w'.exception? e = some (k, message) ∧
    w.Framed none w'

theorem raise_refuses (well : w.WellFormed) (k : Kind) (message : Text) :
    (raise k message : Action α).Refuses w k message := by
  obtain ⟨e, w', ran, exception⟩ := raise_throws (α := α) well k message
  have kept := (raise_orderly (Q := fun _ _ => True) (P := .framing w none) (α := α) k message)
    well |>.1.framed (.refl w none)
  rw [ran] at kept
  exact ⟨e, w', ran, exception, kept⟩

theorem Refuses.after {a : Action α} {f : α → Action β} {x : α} {k : Kind} {message : Text}
    (ran : a.run w = (.ok x, w₁)) (kept : w.Framed none w₁)
    (refuses : (f x).Refuses w₁ k message) : (a >>= f).Refuses w k message := by
  obtain ⟨e, w', ended, exception, kept'⟩ := refuses
  refine ⟨e, w', ?_, exception, kept.trans kept'⟩
  rw [run_bind, ran]
  exact ended

theorem Refuses.read {a : Action α} {f : α → Action β} {x : α} {k : Kind} {message : Text}
    (ran : a.run w = (.ok x, w)) (refuses : (f x).Refuses w k message) :
    (a >>= f).Refuses w k message :=
  .after ran (.refl w none) refuses

theorem Refuses.first {a : Action α} {f : α → Action β} {k : Kind} {message : Text}
    (refuses : a.Refuses w k message) : (a >>= f).Refuses w k message := by
  obtain ⟨e, w', ended, rest⟩ := refuses
  refine ⟨e, w', ?_, rest⟩
  rw [run_bind, ended]

def boundsText (i : Int32) (n : Nat) : Text :=
  "index " ++ Text.ofInt i.toInt ++ " out of bounds for length " ++ Text.ofNat n

theorem run_checkIndex {k : Kind} {i : Int32} {n : Nat} (within : Bounded i n) :
    (checkIndex k i n).run w = (.ok ⟨⟩, w) := by
  unfold Bounded at within
  unfold checkIndex
  rw [if_pos within]
  rfl

theorem checkIndex_refuses (well : w.WellFormed) {k : Kind} {i : Int32} {n : Nat}
    (out : ¬ Bounded i n) : (checkIndex k i n).Refuses w k (boundsText i n) := by
  unfold Bounded at out
  unfold checkIndex
  rw [if_neg out]
  exact raise_refuses well _ _

theorem run_cells {c : Cells} (held : w.body? id = some (.array c)) :
    (cells id).run w = (.ok c, w) := by
  obtain ⟨o, found, body⟩ := Option.map_eq_some_iff.mp held
  unfold cells
  rw [run_bind, run_object found]
  dsimp only
  rw [body]
  rfl

theorem run_gridCells {g : Grid} (held : w.body? id = some (.grid g)) :
    (gridCells id).run w = (.ok g, w) := by
  obtain ⟨o, found, body⟩ := Option.map_eq_some_iff.mp held
  unfold gridCells
  rw [run_bind, run_object found]
  dsimp only
  rw [body]
  rfl

theorem run_element {xs : List α} {i : Int32} {x : α} (here : xs[i.toInt.toNat]? = some x) :
    (element xs i).run w = (.ok x, w) := by
  unfold element
  rw [here]
  rfl

section Places
variable {body : Body} {x : Extent} {index : Index} {p : Place} {released : Bool}
  {contents : Place → Element}

/-- Reads and writes out of bounds are refused alike, a row before a column. -/
theorem refuses_outside (well : w.WellFormed) (held : w.body? id = some body)
    (extent : body.extent? = some x) {i : Int32} {n : Nat} (outside : x.Outside index i n) :
    (fetch id index).Refuses w .arrayIndexOutOfBounds (boundsText i n) ∧
      ∀ value, (assign id index value).Refuses w .arrayIndexOutOfBounds (boundsText i n) := by
  cases body with
  | array c =>
    cases extent
    cases outside with
    | cell out =>
      have refused := checkIndex_refuses (k := .arrayIndexOutOfBounds) well out
      exact ⟨.read (run_cells held) refused.first, fun _ => .read (run_cells held) refused.first⟩
  | grid g =>
    cases extent
    cases outside with
    | row out =>
      have refused := checkIndex_refuses (k := .arrayIndexOutOfBounds) well out
      exact ⟨.read (run_gridCells held) refused.first,
        fun _ => .read (run_gridCells held) refused.first⟩
    | column within out =>
      have refused := checkIndex_refuses (k := .arrayIndexOutOfBounds) well out
      have row := run_checkIndex (k := .arrayIndexOutOfBounds) (w := w) within
      exact ⟨.read (run_gridCells held) (.read row refused.first),
        fun _ => .read (run_gridCells held) (.read row refused.first)⟩
  | _ => cases extent

/-- Within bounds an access to an array goes on with its cells. -/
theorem run_line {i : Int32} {c : Cells} {next : Cells → Action β}
    (held : w.body? id = some (.array c)) (within : Bounded i c.length) :
    (cells id >>= fun c => checkIndex .arrayIndexOutOfBounds i c.length >>= fun _ => next c).run w =
      (next c).run w := by
  rw [run_bind, run_cells held]
  dsimp only
  rw [run_bind, run_checkIndex within]

theorem run_sheet {i j : Int32} {g : Grid} {next : Grid → Action β}
    (held : w.body? id = some (.grid g)) (row : Bounded i g.rows) (column : Bounded j g.columns) :
    (gridCells id >>= fun g => checkIndex .arrayIndexOutOfBounds i g.rows >>= fun _ =>
      checkIndex .arrayIndexOutOfBounds j g.columns >>= fun _ => next g).run w =
      (next g).run w := by
  rw [run_bind, run_gridCells held]
  dsimp only
  rw [run_bind, run_checkIndex row]
  dsimp only
  rw [run_bind, run_checkIndex column]

/-- A read within bounds gives the element at the place, or crashes when the storage is gone. -/
theorem run_fetch (held : w.body? id = some body) (extent : body.extent? = some x)
    (holds : body.Holds released contents) (inside : x.Inside index p) :
    (fetch id index).run w =
      if released then (.error (.crash (.indexOutOfRange index.first.toInt 0)), w)
      else (.ok (contents p), w) := by
  cases inside with
  | @cell i n within =>
    cases body with
    | array c =>
      cases extent
      unfold fetch arrayGet
      rw [run_line held within]
      cases released with
      | true =>
        have storage : c.storage = [] := holds
        rw [storage]
        rfl
      | false => exact run_element (Body.tabulates_cell holds within)
    | _ => cases extent
  | @square i j n m row column =>
    cases body with
    | grid g =>
      cases extent
      unfold fetch gridGet
      rw [run_sheet held row column]
      cases released with
      | true =>
        have storage : g.storage = [] := holds
        rw [storage]
        rfl
      | false =>
        obtain ⟨cells, line, here⟩ := Body.tabulates_square holds row column
        rw [run_bind, run_element line]
        exact run_element here
    | _ => cases extent

/-- A write within bounds makes the store check and then stores, or crashes when the storage is
gone. -/
theorem run_assign {f : Format} (held : w.body? id = some body) (extent : body.extent? = some x)
    (formed : body.format? = some f) (holds : body.Holds released contents)
    (inside : x.Inside index p) (value : Element) {r : Except Fault Unit}
    (checked : (checkStoreIf f.checked (.object id body.view) value.handle).run w = (r, w₁)) :
    (assign id index value).run w =
      match r with
      | .error e => (.error e, w₁)
      | .ok _ =>
        if released then (.error (.crash (.indexOutOfRange index.first.toInt 0)), w₁)
        else (.ok ⟨⟩, w₁.modifyObject id (Obj.put p value)) := by
  cases inside with
  | @cell i n within =>
    cases body with
    | array c =>
      cases extent
      cases formed
      unfold assign arraySet
      rw [run_line held within]
      have asked : (checkStoreIf c.checked (.object id .array) value.handle).run w = (r, w₁) :=
        checked
      rw [run_bind, asked]
      cases r with
      | error e => rfl
      | ok _ =>
        dsimp only
        cases released with
        | true =>
          have storage : c.storage = [] := holds
          rw [storage]
          rfl
        | false =>
          rw [run_bind, run_element (Body.tabulates_cell holds within)]
          rfl
    | _ => cases extent
  | @square i j n m row column =>
    cases body with
    | grid g =>
      cases extent
      cases formed
      unfold assign gridSet
      rw [run_sheet held row column]
      have asked : (checkStoreIf g.checked (.object id .grid) value.handle).run w = (r, w₁) :=
        checked
      rw [run_bind, asked]
      cases r with
      | error e => rfl
      | ok _ =>
        dsimp only
        cases released with
        | true =>
          have storage : g.storage = [] := holds
          rw [storage]
          rfl
        | false =>
          obtain ⟨cells, line, here⟩ := Body.tabulates_square holds row column
          rw [run_bind, run_element line]
          dsimp only
          rw [run_bind, run_element here]
          rfl
    | _ => cases extent

end Places

/-- May the handle be stored in an array of the class? Anything may where elements are no objects,
and so may null; an object must be an instance of the class. -/
def admits (component : ClassId) (h : Handle) : Action Bool := do
  let k ← classOf component
  if k.shape.isPrimitive || h.isNull then return true else isInstance (some component) h

def checkAdmits (component : ClassId) (h : Handle) : Action Unit := do
  if !(← admits component h) then raise .arrayStore (← className (← objectGetClass h))

end Action

/-- The class of the array, its component class, and whether stores are checked. -/
structure World.ArrayOf (w : World) (id : ObjectId) (o : Obj) (component : ClassId) : Prop where
  classed : ∃ a l, w.classOf? id = some a ∧ w.class? a = some l ∧
    l.shape.component? = some component ∧ some o.table = Action.arrayTable a
  checked : ∃ m f, w.class? component = some m ∧ o.body.format? = some f ∧
    f.checked = !m.shape.isPrimitive

section Checks
variable {w w₁ : World} {id : ObjectId} {o : Obj} {d : ClassId} {h : Handle}

theorem World.ArrayOf.mono (array : w.ArrayOf id o d) (grown : Grows w w₁) :
    w₁.ArrayOf id o d := by
  obtain ⟨⟨a, l, resolved, known, rest⟩, m, f, inside, formed⟩ := array
  exact ⟨⟨a, l, grown.classOf? resolved, grown.class? known, rest⟩, m, f, grown.class? inside,
    formed⟩

/-- As long as no defined class takes the key of an array class, an array has a class for arrays. -/
theorem World.WellFormed.arrayOf (well : w.WellFormed) (plain : w.PlainNames)
    (found : w.object? id = some o) {x : Extent} (extent : o.body.extent? = some x) :
    ∃ d, w.ArrayOf id o d := by
  obtain ⟨f, formed, -⟩ := Body.view_of_extent extent
  obtain ⟨c, k, a, given, registered, resolved, checked, -⟩ := well.array_born found formed
  obtain ⟨l, d, s, m, known, shape, inside, descriptor⟩ := well.array_of_key plain registered
  have table : w.table? a = some o.table := by
    obtain ⟨b, has⟩ : ∃ b, w.table? b = some o.table := by
      have carried := well.table_of_body found
      cases held : o.body with
      | array | grid =>
        rw [held] at carried
        exact carried
      | _ =>
        rw [held] at extent
        cases extent
    have own := well.owner_of_table has
    rw [World.classOf?, found, Option.bind_some, own] at resolved
    cases resolved
    exact has
  rw [World.table?_of_class? known, (well.made known).array_table shape] at table
  obtain ⟨-, primitive⟩ := well.name_of_descriptor inside given descriptor
  refine ⟨d, ⟨a, l, resolved, known, by rw [shape]; rfl, table.symm⟩, m, f, inside, formed, ?_⟩
  rw [checked, primitive]

namespace Action

theorem admits_framed (well : w.WellFormed) {r : Except Fault Bool}
    (ran : (admits d h).run w = (r, w₁)) : Evolves (.framing w none) w w₁ := by
  have contract : Orderly (.framing w none) (admits d h) w (fun _ _ => True) := by
    refine (classOf_orderly d).andThen fun k _ => ?_
    split
    · exact .pure fun _ => trivial
    · exact (isInstance_ends _ _).imp fun _ _ _ _ _ => trivial
  have run := (contract well).1
  rw [ran] at run
  exact run

/-- Asking an object that has no class changes nothing. -/
theorem getClass_none (well : w.WellFormed) (ran : (objectGetClass h).run w = (.ok none, w₁)) :
    w₁ = w := by
  obtain ⟨t, w₂, led, rest⟩ := run_bind_ok ran
  obtain ⟨-, -, rfl⟩ := (target_ends (P := .any) h).of_ok well led
  obtain ⟨o, w₃, read, own⟩ := run_bind_ok rest
  obtain ⟨-, -, rfl⟩ := (object_ends (P := .any) t).of_ok well read
  unfold owner at own
  split at own
  · cases own
  · cases own
    rfl
  · rw [map_eq_pure_bind] at own
    obtain ⟨c, w₄, -, last⟩ := run_bind_ok own
    cases last
  · cases own

theorem run_admits {m : Class} (inside : w.class? d = some m) :
    (admits d h).run w = (if m.shape.isPrimitive || h.isNull then pure true
      else isInstance (some d) h : Action Bool).run w := by
  unfold admits
  rw [run_bind, run_classOf inside]

/-- The store check of an array asks its component class, and throws with the class of what was to
be stored if the answer is no. -/
theorem run_checkStoreIf (well : w.WellFormed) (array : w.ArrayOf id o d) {f : Format}
    (formed : o.body.format? = some f) (v : View) (h : Handle) :
    (checkStoreIf f.checked (.object id v) h).run w = (checkAdmits d h).run w := by
  obtain ⟨⟨a, l, resolved, known, component, -⟩, m, f', inside, formed', checked⟩ := array
  rw [formed] at formed'
  cases formed'
  rw [checkAdmits, run_bind, run_admits inside, checked]
  unfold checkStoreIf
  cases m.shape.isPrimitive with
  | true => rfl
  | false =>
    change (checkStore (.object id v) h).run w = _
    unfold checkStore
    cases null : h.isNull with
    | true => rfl
    | false =>
      simp only [Bool.false_eq_true, if_false, Bool.or_self]
      rw [run_bind]
      change (objectGetClass (.object id v) >>= _).run w = _
      rw [run_bind, well.getClass_resolved resolved]
      change (classOf a >>= _).run w = _
      rw [run_bind, run_classOf known]
      dsimp only
      unfold fitsComponent
      rw [component, run_bind]

end Action

end Checks

/-- A finite map from the places of an extent to elements, to be stored under the eyes of a
component class, until it is released. -/
structure ArrayMap where
  extent : Extent
  component : ClassId
  contents : Place → Element
  released : Bool

/-- To programs the array is the map. -/
structure World.Refines (w : World) (id : ObjectId) (m : ArrayMap) : Prop where
  /-- An array of one dimension has its length, and shows its elements in order. -/
  line : ∀ {n}, m.extent = .line n → ∃ c, (Action.cells id).run w = (.ok c, w) ∧ c.length = n ∧
    c.storage = if m.released then [] else (List.range n).map fun i => m.contents (.cell i)
  /-- An array of two dimensions hands out the rows within bounds. -/
  sheet : ∀ {n k}, m.extent = .sheet n k → (∃ g, (Action.gridCells id).run w = (.ok g, w) ∧
    g.rows = n ∧ g.columns = k) ∧ ∀ i, (Bounded i n → (Action.gridRow id i).run w = (.ok ⟨⟩, w)) ∧
      (¬ Bounded i n → (Action.gridRow id i).Refuses w .arrayIndexOutOfBounds
        (Action.boundsText i n))
  /-- Out of bounds, reads and writes are refused, whatever is to be written. -/
  outside : ∀ {index i n}, m.extent.Outside index i n →
    (Action.fetch id index).Refuses w .arrayIndexOutOfBounds (Action.boundsText i n) ∧
      ∀ value, (Action.assign id index value).Refuses w .arrayIndexOutOfBounds
        (Action.boundsText i n)
  read : ∀ {index p}, m.extent.Inside index p → (Action.fetch id index).run w =
    if m.released then (.error (.crash (.indexOutOfRange index.first.toInt 0)), w)
    else (.ok (m.contents p), w)
  write : ∀ {index p value w₁}, m.extent.Inside index p →
    (Action.admits m.component value.handle).run w = (.ok true, w₁) → w.Framed none w₁ ∧
      (Action.assign id index value).run w =
        if m.released then (.error (.crash (.indexOutOfRange index.first.toInt 0)), w₁)
        else (.ok ⟨⟩, w₁.modifyObject id (Obj.put p value))
  /-- A rejected object is named by its class; one that has no class crashes the write. -/
  reject : ∀ {index p value w₁}, m.extent.Inside index p →
    (Action.admits m.component value.handle).run w = (.ok false, w₁) →
      (∃ c l, (Action.objectGetClass value.handle).run w = (.ok (some c), w₁) ∧
        w₁.class? c = some l ∧ (Action.assign id index value).Refuses w .arrayStore l.name) ∨
      (Action.objectGetClass value.handle).run w = (.ok none, w) ∧
        (Action.assign id index value).run w = (.error (.crash .nullDereference), w)
  /-- A write fails as the question fails whether it is allowed. -/
  fail : ∀ {index p value e w₁}, m.extent.Inside index p →
    (Action.admits m.component value.handle).run w = (.error e, w₁) → w.Framed none w₁ ∧
      (Action.assign id index value).run w = (.error e, w₁)

section Refinement
variable {w w₁ : World} {id : ObjectId} {o : Obj} {d : ClassId} {h : Handle}

namespace Action

theorem run_checkAdmits_true (admitted : (admits d h).run w = (.ok true, w₁)) :
    (checkAdmits d h).run w = (.ok ⟨⟩, w₁) := by
  rw [checkAdmits, run_bind, admitted]
  rfl

theorem run_checkAdmits_error {e : Fault} (failed : (admits d h).run w = (.error e, w₁)) :
    (checkAdmits d h).run w = (.error e, w₁) := by
  rw [checkAdmits, run_bind, failed]

/-- What is not admitted was asked for its class, which is no subclass of the component. -/
theorem getClass_of_admits_false (rejected : (admits d h).run w = (.ok false, w₁)) :
    ∃ c, (objectGetClass h).run w = (.ok c, w₁) := by
  obtain ⟨k, w₂, asked, rest⟩ := run_bind_ok rejected
  obtain ⟨-, rfl⟩ := class?_of_run_classOf asked
  split at rest
  · cases rest
  · unfold isInstance at rest
    split at rest
    · rename_i no null
      rw [null, Bool.or_true] at no
      exact absurd rfl no
    · obtain ⟨c, w₃, led, answered⟩ := run_bind_ok rest
      obtain rfl : w₃ = w₁ := congrArg Prod.snd answered
      exact ⟨c, led⟩

theorem checkAdmits_false (well : w.WellFormed) (rejected : (admits d h).run w = (.ok false, w₁)) :
    (∃ c l, (objectGetClass h).run w = (.ok (some c), w₁) ∧ w₁.class? c = some l ∧
      (checkAdmits d h).Refuses w .arrayStore l.name) ∨
    (objectGetClass h).run w = (.ok none, w) ∧
      (checkAdmits d h).run w = (.error (.crash .nullDereference), w) := by
  obtain ⟨c, led⟩ := getClass_of_admits_false rejected
  cases c with
  | none =>
    obtain rfl := getClass_none well led
    refine .inr ⟨led, ?_⟩
    rw [checkAdmits, run_bind, rejected]
    change (objectGetClass h >>= _).run _ = _
    rw [run_bind, led]
    rfl
  | some c =>
    obtain ⟨-, id, v, rfl, -⟩ := (objectGetClass_ends (P := .any) h).of_ok well led
    obtain ⟨-, well', resolved, l, known⟩ := getClass_settled well led
    have kept := (admits_framed well rejected).framed (.refl w none)
    refine .inl ⟨c, l, led, known, .after rejected kept ?_⟩
    apply Refuses.read (well'.getClass_resolved resolved v)
    apply Refuses.read (run_className known)
    exact raise_refuses well' _ _

end Action

/-- An array object that holds the map is the map. -/
theorem World.WellFormed.refines (well : w.WellFormed) (found : w.object? id = some o)
    (array : w.ArrayOf id o d) {x : Extent} (extent : o.body.extent? = some x)
    {contents : Place → Element} (holds : o.body.Holds o.released contents) :
    w.Refines id ⟨x, d, contents, o.released⟩ := by
  have held := World.body?_of_object? found
  obtain ⟨f, formed, -⟩ := Body.view_of_extent extent
  have written {index : Index} {p : Place} {value : Element} {r : Except Fault Unit} {w₁ : World}
      (inside : x.Inside index p) (checked : (Action.checkAdmits d value.handle).run w = (r, w₁)) :=
    Action.run_assign held extent formed holds inside value
      ((Action.run_checkStoreIf well array formed o.body.view value.handle).trans checked)
  constructor
  case line =>
    rintro n rfl
    generalize o.body = body at held extent holds
    cases body with
    | array c =>
      cases extent
      refine ⟨c, Action.run_cells held, rfl, ?_⟩
      cases released : o.released <;> rw [released] at holds <;> exact holds
    | _ => cases extent
  case sheet =>
    rintro n k rfl
    generalize o.body = body at held extent
    cases body with
    | grid g =>
      cases extent
      have read := Action.run_gridCells held
      refine ⟨⟨g, read, rfl, rfl⟩, fun i => ⟨fun within => ?_, fun out => ?_⟩⟩
      · rw [Action.gridRow, run_bind, read]
        exact Action.run_checkIndex within
      · exact .read read (Action.checkIndex_refuses well out)
    | _ => cases extent
  case outside =>
    intro index i n outside
    exact Action.refuses_outside well held extent outside
  case read =>
    intro index p inside
    exact Action.run_fetch held extent holds inside
  case write =>
    intro index p value w₁ inside admitted
    have kept := (Action.admits_framed well admitted).framed (.refl w none)
    exact ⟨kept, written inside (Action.run_checkAdmits_true admitted)⟩
  case reject =>
    intro index p value w₁ inside rejected
    rcases Action.checkAdmits_false well rejected with ⟨c, l, led, known, refuses⟩ | ⟨led, crashed⟩
    · obtain ⟨e, w', ran, rest⟩ := refuses
      exact .inl ⟨c, l, led, known, e, w', written inside ran, rest⟩
    · exact .inr ⟨led, written inside crashed⟩
  case fail =>
    intro index p value e w₁ inside failed
    have kept := (Action.admits_framed well failed).framed (.refl w none)
    exact ⟨kept, written inside (Action.run_checkAdmits_error failed)⟩

end Refinement

end ObjectModel
