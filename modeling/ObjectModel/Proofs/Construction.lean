import ObjectModel.Proofs.ArrayHistory
import ObjectModel.Proofs.Blind

/-!
Which arrays can be made. A construction makes the array class, checks the type of the elements and
then the dimensions, in order, against the options of the world. All that it does before it
allocates the array keeps away from arrays, so a construction that is refused makes none.
-/

namespace ObjectModel

/-- A dimension is positive, or zero where the options allow it. -/
def Options.Admits (options : Options) (n : Int32) : Prop :=
  0 < n.toInt ∨ n.toInt = 0 ∧ options.allowZeroLength = true

instance (options : Options) (n : Int32) : Decidable (options.Admits n) :=
  inferInstanceAs (Decidable (_ ∨ _))

theorem not_admits_iff (options : Options) (n : Int32) :
    (n < 0 ∨ (n = 0 ∧ options.allowZeroLength = false)) ↔ ¬ options.Admits n := by
  have zero : (0 : Int32).toInt = 0 := rfl
  rw [Int32.lt_iff_toInt_lt, ← Int32.toInt_inj, Options.Admits, zero]
  cases options.allowZeroLength <;> grind

/-- The dimensions that are asked for, one or two. -/
inductive Dimensions where
  | line (n : Int32)
  | sheet (n m : Int32)
deriving DecidableEq, Repr

namespace Dimensions

def rank : Dimensions → Rank
  | .line _ => .one
  | .sheet _ _ => .two

def all : Dimensions → List Int32
  | .line n => [n]
  | .sheet n m => [n, m]

def extent : Dimensions → Extent
  | .line n => .line n.toInt.toNat
  | .sheet n m => .sheet n.toInt.toNat m.toInt.toNat

/-- The first dimension that the options do not admit. -/
def offending? (d : Dimensions) (options : Options) : Option Int32 :=
  d.all.find? fun n => !decide (options.Admits n)

end Dimensions

namespace Action

/-- Makes an array of the class's instances with the dimensions. -/
def construct (element : Option ElementType) (c : ClassId) : Dimensions → Action ObjectId
  | .line n => newArray element (some c) n
  | .sheet n m => newGrid element (some c) n m

/-- All that a construction does before it allocates the array. -/
def prepare (element : Option ElementType) (c : ClassId) (d : Dimensions) :
    Action (ClassId × Class) := do
  let arrays ← arraysOf d.rank c
  let k ← classOf c
  checkElement (elementFor element k) k
  d.all.forM checkDimension
  return (arrays, k)

section Construction
variable {w : World} {element : Option ElementType} {c : ClassId} {k : Class} {d : Dimensions}

theorem construct_eq (element : Option ElementType) (c : ClassId) (d : Dimensions) :
    construct element c d = (do
      let p ← prepare element c d
      initialise ((← get).table? p.1)
        (d.extent.blank (elementFor element p.2) !p.2.shape.isPrimitive)) := by
  cases d with
  | line n => simp [construct, newArray, prepare, classOperand, Dimensions.rank, Dimensions.all,
      Dimensions.extent, Extent.blank, arraysOf]
  | sheet n m => simp [construct, newGrid, prepare, classOperand, Dimensions.rank, Dimensions.all,
      Dimensions.extent, Extent.blank, arraysOf]

theorem prepare_blind (element : Option ElementType) (c : ClassId) (d : Dimensions) :
    Blind (prepare element c d) := by
  have arrays : Blind (arraysOf d.rank c) := by
    cases d with
    | line n => exact arrayClass_blind c
    | sheet n m => exact gridClass_blind c
  have dimensions : Blind (d.all.forM checkDimension) := by
    cases d with
    | line n => exact (checkDimension_blind n).bind fun _ => .pure _
    | sheet n m =>
      exact (checkDimension_blind n).bind fun _ => (checkDimension_blind m).bind fun _ => .pure _
  exact arrays.bind fun _ => (classOf_blind c).bind fun _ => (checkElement_blind _ _).bind fun _ =>
    dimensions.bind fun _ => .pure _

theorem checkElement_iff {e : ElementType} :
    (checkElement e k).run w = (.ok ⟨⟩, w) ↔ (k.shape.isPrimitive || e.holdsObjects) = true := by
  unfold checkElement
  split
  · rename_i fit
    exact ⟨fun _ => fit, fun _ => rfl⟩
  · rename_i unfit
    exact ⟨nofun, fun fit => absurd fit unfit⟩

theorem run_checkDimension {n : Int32} (admitted : w.options.Admits n) :
    (checkDimension n).run w = (.ok ⟨⟩, w) := by
  rw [checkDimension, run_get_bind]
  dsimp only
  rw [if_neg ((not_admits_iff w.options n).not.mpr (not_not_intro admitted))]
  rfl

theorem checkDimension_refuses (well : w.WellFormed) {n : Int32}
    (refused : ¬ w.options.Admits n) :
    (checkDimension n).Refuses w .negativeArraySize (Text.ofInt n.toInt) := by
  have raises : (checkDimension n).run w =
      (raise .negativeArraySize (Text.ofInt n.toInt) : Action Unit).run w := by
    rw [checkDimension, run_get_bind]
    dsimp only
    rw [if_pos ((not_admits_iff w.options n).mpr refused)]
  rw [Refuses, raises]
  exact raise_refuses well _ _

theorem run_checkDimensions {dims : List Int32} (admitted : ∀ n ∈ dims, w.options.Admits n) :
    (dims.forM checkDimension).run w = (.ok ⟨⟩, w) := by
  induction dims with
  | nil => rfl
  | cons n rest ih =>
    change (checkDimension n >>= fun _ => rest.forM checkDimension).run w = _
    rw [run_bind, run_checkDimension (admitted n List.mem_cons_self)]
    exact ih fun m inside => admitted m (List.mem_cons_of_mem n inside)

theorem checkDimensions_refuses (well : w.WellFormed) {dims : List Int32} {n : Int32}
    (first : dims.find? (fun n => !decide (w.options.Admits n)) = some n) :
    (dims.forM checkDimension).Refuses w .negativeArraySize (Text.ofInt n.toInt) := by
  induction dims with
  | nil => cases first
  | cons m rest ih =>
    change (checkDimension m >>= fun _ => rest.forM checkDimension).Refuses w _ _
    by_cases admitted : w.options.Admits m
    · rw [List.find?_cons_of_neg (by simp [admitted])] at first
      exact .read (run_checkDimension admitted) (ih first)
    · rw [List.find?_cons_of_pos (by simp [admitted])] at first
      cases first
      exact (checkDimension_refuses well admitted).first

/-- The array class is there or is made, whatever the options say. -/
theorem run_arraysOf (well : w.WellFormed) (rank : Rank) (known : w.class? c = some k) :
    ∃ a w₁, (arraysOf rank c).run w = (.ok a, w₁) ∧ w₁.WellFormed ∧ Grows w w₁ ∧
      w.Framed none w₁ ∧ ∃ t, w₁.table? a = some t := by
  have ends : Ends (.framing w none) (arraysOf rank c) w (ArrayClassFor rank c k w)
      fun _ _ => False := by
    cases rank with
    | one => exact arrayClass_ends known
    | two => exact gridClass_ends known
  obtain ⟨a, w₁, ran, evolved, made⟩ := ends.returns well
  have well₁ := evolved.wellFormed well
  exact ⟨a, w₁, ran, well₁, evolved.grows, evolved.framed (.refl w none),
    well₁.table_of_find made.found fun p => (p.name_plain.ne_arrayKey rank k)⟩

theorem construct_returns (well : w.WellFormed) (known : w.class? c = some k)
    (fit : (checkElement (elementFor element k) k).run w = (.ok ⟨⟩, w))
    (admitted : ∀ n ∈ d.all, w.options.Admits n) :
    ∃ id w', (construct element c d).run w = (.ok id, w') ∧ w.object? id = none ∧
      w'.body? id = some (d.extent.blank (elementFor element k) !k.shape.isPrimitive) := by
  obtain ⟨a, w₁, ran, well₁, grown, framed, t, own⟩ := run_arraysOf well d.rank known
  have fit₁ := (checkElement_iff (w := w₁)).mpr (checkElement_iff.mp fit)
  rw [← framed.options] at admitted
  have prepared : (prepare element c d).run w = (.ok (a, k), w₁) := by
    rw [prepare, run_bind, ran]
    dsimp only
    rw [run_bind, run_classOf (grown.class? known)]
    dsimp only
    rw [run_bind, fit₁]
    dsimp only
    rw [run_bind, run_checkDimensions admitted]
    rfl
  let made := w₁.push t (d.extent.blank (elementFor element k) !k.shape.isPrimitive)
  refine ⟨w₁.objects.size, made, ?_, grown.absent ?_, ?_⟩
  · rw [construct_eq, run_bind, prepared]
    dsimp only
    rw [run_get_bind, own]
    rfl
  · exact Array.getElem?_eq_none (Nat.le_refl _)
  · rw [World.body?, World.object?_push, if_pos rfl]
    rfl

/-- A dimension that is not admitted is refused before the array is allocated. -/
theorem construct_refuses (well : w.WellFormed) (known : w.class? c = some k)
    (fit : (checkElement (elementFor element k) k).run w = (.ok ⟨⟩, w)) {n : Int32}
    (offending : d.offending? w.options = some n) :
    (construct element c d).Refuses w .negativeArraySize (Text.ofInt n.toInt) ∧
      ((construct element c d).run w).2 = ((prepare element c d).run w).2 := by
  obtain ⟨a, w₁, ran, well₁, grown, framed, t, own⟩ := run_arraysOf well d.rank known
  have fit₁ := (checkElement_iff (w := w₁)).mpr (checkElement_iff.mp fit)
  rw [Dimensions.offending?, ← framed.options] at offending
  have refused : (prepare element c d).Refuses w .negativeArraySize (Text.ofInt n.toInt) :=
    .after ran framed <| .read (run_classOf (grown.class? known)) <| .read fit₁ <|
      (checkDimensions_refuses well₁ offending).first
  rw [construct_eq]
  refine ⟨refused.first, ?_⟩
  obtain ⟨e, w', stopped, -⟩ := refused
  rw [run_bind, stopped]

end Construction

end Action

/-- How a construction ends if these options rule: it returns a new array exactly if every dimension
is admitted, and else it refuses the first that is not, and no array is made. -/
structure World.Ruled (w : World) (options : Options) (element : Option ElementType) (c : ClassId)
    (k : Class) (d : Dimensions) : Prop where
  returns_iff : (∃ id w', (Action.construct element c d).run w = (.ok id, w')) ↔
    ∀ n ∈ d.all, options.Admits n
  made : ∀ {id w'}, (Action.construct element c d).run w = (.ok id, w') → w.object? id = none ∧
    w'.body? id = some (d.extent.blank (Action.elementFor element k) !k.shape.isPrimitive)
  refuses : ∀ {n}, d.offending? options = some n →
    (Action.construct element c d).Refuses w .negativeArraySize (Text.ofInt n.toInt) ∧
      ∀ id body, body.format? ≠ none →
        (((Action.construct element c d).run w).2.body? id = some body ↔ w.body? id = some body)

/-- The options rule on every construction with a class of the world and a type of elements that
passes the check. -/
def World.Obeys (w : World) (options : Options) : Prop :=
  ∀ element c k d, w.class? c = some k →
    (Action.checkElement (Action.elementFor element k) k).run w = (.ok ⟨⟩, w) →
      w.Ruled options element c k d

theorem Dimensions.offending?_none {d : Dimensions} {options : Options} :
    d.offending? options = none ↔ ∀ n ∈ d.all, options.Admits n := by
  simp [offending?]

theorem World.WellFormed.obeys {w : World} (well : w.WellFormed) : w.Obeys w.options := by
  intro element c k d known fit
  cases offending : d.offending? w.options with
  | none =>
    have admitted := Dimensions.offending?_none.mp offending
    obtain ⟨id, w', ran, made⟩ := Action.construct_returns well known fit admitted
    refine ⟨⟨fun _ => admitted, fun _ => ⟨id, w', ran⟩⟩, fun again => ?_, fun found => ?_⟩
    · rw [ran] at again
      cases again
      exact made
    · rw [offending] at found
      cases found
  | some n =>
    obtain ⟨refuses, prepared⟩ := Action.construct_refuses well known fit offending
    have thrown := refuses
    obtain ⟨e, w', stopped, -, kept⟩ := thrown
    refine ⟨⟨?_, ?_⟩, ?_, ?_⟩
    · rintro ⟨id, w'', ran⟩
      rw [stopped] at ran
      cases ran
    · intro admitted
      rw [Dimensions.offending?_none.mpr admitted] at offending
      cases offending
    · intro id w'' ran
      rw [stopped] at ran
      cases ran
    · intro m found
      rw [offending] at found
      cases found
      refine ⟨refuses, fun id body array => ⟨fun held => ?_, fun held => ?_⟩⟩
      · rw [prepared] at held
        exact (Action.prepare_blind element c d).arrays w held array
      · rw [stopped]
        obtain ⟨o, found, rfl⟩ := Option.map_eq_some_iff.mp held
        exact World.body?_of_object? (kept.still id o found)

end ObjectModel
