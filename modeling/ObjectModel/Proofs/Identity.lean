import ObjectModel.Proofs.Account.Operation
import ObjectModel.Proofs.Trail

/-!
Identities. Objects are numbered in the order in which they are allocated, without gaps, and keep
their numbers. Reduced to 32 bits the numbers tell objects apart as long as there are not too many.
A class takes two numbers, for its name and for itself, and classes come in the order of their
numbers. What an operation adds to the numbers is known from its account, and the object that it
makes or throws has the last number.
-/

namespace ObjectModel

theorem identity_injective {i j n : Nat} (few : n < UInt32.size) (left : i < n) (right : j < n)
    (same : identity i = identity j) : i = j := by
  have bits : BitVec.ofNat 32 (i + 1) = BitVec.ofNat 32 (j + 1) := congrArg Int32.toBitVec same
  have numbers := congrArg BitVec.toNat bits
  simp only [BitVec.toNat_ofNat, UInt32.size] at numbers few
  omega

theorem identity_succ (i : Nat) : identity (i + 1) = identity i + 1 := by
  apply Int32.toBitVec.inj
  change BitVec.ofNat 32 (i + 1 + 1) = BitVec.ofNat 32 (i + 1) + BitVec.ofNat 32 1
  rw [BitVec.ofNat_add]

section Classes
variable {P : Policy} {w w' : World}

/-- The object of a class comes right after its name, and after the objects of the classes before
it. -/
structure World.Numbered (w : World) : Prop where
  pair : ∀ {c k}, w.class? c = some k → k.object = k.nameObject + 1 ∧ k.object < w.objects.size
  order : ∀ {c d k l}, c < d → w.class? c = some k → w.class? d = some l → k.object < l.nameObject

theorem World.Numbered.of_eq (before : w.Numbered) (classes : w'.classes = w.classes)
    (objects : w.objects.size ≤ w'.objects.size) : w'.Numbered := by
  have same (c : ClassId) : w'.class? c = w.class? c := by rw [class?, classes, class?]
  constructor
  · intro c k known
    rw [same] at known
    obtain ⟨next, below⟩ := before.pair known
    exact ⟨next, Nat.lt_of_lt_of_le below objects⟩
  · intro c d k l earlier known known'
    rw [same] at known known'
    exact before.order earlier known known'

theorem World.Numbered.pushClass (before : w.Numbered) (name : Text) (shape : Shape)
    (table : ClassId → Option DispatchTable) : (w.pushClass name shape table).Numbered := by
  have size : (w.pushClass name shape table).objects.size = w.objects.size + 2 := by
    simp [World.pushClass, World.push]
  constructor
  · intro c k known
    rw [class?_pushClass] at known
    rw [size]
    split at known
    · cases known
      simp
    · obtain ⟨next, below⟩ := before.pair known
      exact ⟨next, Nat.lt_add_right 2 below⟩
  · intro c d k l earlier known known'
    have last : d < w.classes.size + 1 := by simpa [World.pushClass] using lt_of_class? known'
    have first : c ≠ w.classes.size :=
      Nat.ne_of_lt (Nat.lt_of_lt_of_le earlier (Nat.le_of_lt_succ last))
    rw [class?_pushClass, if_neg first] at known
    rw [class?_pushClass] at known'
    split at known'
    · cases known'
      exact (before.pair known).2
    · exact before.order earlier known known'

theorem Change.numbered (change : Change P w w') (before : w.Numbered) : w'.Numbered := by
  cases change with
  | log m => exact before.of_eq (w.classes_logged m) (Nat.le_of_eq (w.size_logged m).symm)
  | allocate => exact before.of_eq rfl (by simp [World.push])
  | create => exact before.pushClass _ _ _
  | _ => exact before.of_eq rfl (by simp [World.modifyObject])

theorem Evolves.numbered (run : Evolves P w w') (before : w.Numbered) : w'.Numbered := by
  induction run with
  | refl => exact before
  | tail _ change ih => exact change.numbered ih

theorem World.numbered_of_none (none : w.classes = #[]) : w.Numbered := by
  constructor <;> simp [World.class?, none]

end Classes

section Handles
variable {w : World}

/-- A handle that has an identity leads to an object. -/
theorem object_of_hash {h : Handle} {x : Int32}
    (hash : (Action.objectHashCode h).run w = (.ok x, w)) :
    ∃ id v, h = .object id v ∧ x = identity id := by
  cases h with
  | object id v =>
    cases hash
    exact ⟨id, v, rfl, rfl⟩
  | _ => cases hash

theorem objectEquals_of_hash (few : w.objects.size < UInt32.size) {h other : Handle} {x y : Int32}
    (valid : h.Valid w) (valid' : other.Valid w)
    (hash : (Action.objectHashCode h).run w = (.ok x, w))
    (hash' : (Action.objectHashCode other).run w = (.ok y, w)) :
    (Action.objectEquals h other).run w = (.ok (x == y), w) := by
  obtain ⟨i, v, rfl, rfl⟩ := object_of_hash hash
  obtain ⟨j, v', rfl, rfl⟩ := object_of_hash hash'
  obtain ⟨o, found, -⟩ := valid i v rfl
  obtain ⟨o', found', -⟩ := valid' j v' rfl
  have distinct := identity_injective few (w.lt_of_object? found) (w.lt_of_object? found')
  change (Except.ok (some i == some j), w) = _
  by_cases same : i = j
  · simp [same]
  · have apart : identity i ≠ identity j := fun equal => same (distinct equal)
    simp [same, apart]

end Handles

section Last
variable {ε σ α β : Type} {Q : α → σ → Prop}

/-- What the action returns satisfies the condition in the state that it leaves. -/
def Gives (a : ExceptT ε (StateM σ) α) (Q : α → σ → Prop) : Prop :=
  ∀ s x s', a.run s = (.ok x, s') → Q x s'

theorem Gives.after {a : ExceptT ε (StateM σ) β} {f : β → ExceptT ε (StateM σ) α}
    (next : ∀ y, Gives (f y) Q) : Gives (a >>= f) Q := by
  intro s x s' ran
  rw [run_bind] at ran
  split at ran
  · exact next _ _ _ _ ran
  · cases ran

namespace Action

/-- The action returns the object that was allocated last. -/
def Newest (a : Action ObjectId) : Prop := Gives a fun id w => id + 1 = w.objects.size

theorem allocate_newest (table : DispatchTable) (body : Body) : Newest (allocate table body) := by
  intro w id w' ran
  cases ran
  simp

theorem initialise_newest (table : Option DispatchTable) (body : Body) :
    Newest (initialise table body) := by
  cases table with
  | none => exact fun _ _ _ ran => nomatch ran
  | some t => exact allocate_newest t body

theorem newContent_newest (c : Content) : Newest (newContent c) := allocate_newest _ _

theorem newString_newest (t : Text) : Newest (newString t) := newContent_newest t

theorem newInstance_newest (find : Action ClassId) (body : Body) : Newest (newInstance find body) :=
  .after fun _ => .after fun _ => initialise_newest _ _

theorem newException_newest (k : Kind) (message : Text) : Newest (newException k message) :=
  .after fun _ => .after fun _ => initialise_newest _ _

theorem newArray_newest (element : Option ElementType) (component : Option ClassId) (n : Int32) :
    Newest (newArray element component n) := by
  refine .after fun c => .after fun arrays => .after fun k => .after fun _ => .after fun _ => ?_
  exact .after fun w => initialise_newest _ _

theorem newGrid_newest (element : Option ElementType) (component : Option ClassId) (n m : Int32) :
    Newest (newGrid element component n m) := by
  refine .after fun c => .after fun grids => .after fun k => .after fun _ => .after fun _ => ?_
  exact .after fun _ => .after fun w => initialise_newest _ _

theorem concat_newest (s other : Option ObjectId) : Newest (concat s other) :=
  .after fun _ => .after fun _ => newContent_newest _

theorem objectToString_newest (h : Handle) : Newest (objectToString h) :=
  .after fun _ => .after fun _ => .after fun _ => newString_newest _

end Action

namespace Script.Eval

/-- The evaluation replies with the object that was allocated last. -/
def Newest (e : Eval Reply) : Prop :=
  Gives e fun reply s =>
    ∀ id v, reply = .ok (.handle (.object id v)) → id + 1 = s.world.objects.size

theorem allocated_newest {action : Action ObjectId} (newest : action.Newest) (view : View) :
    Newest (allocated view action) := by
  intro s reply s' ran id v same
  rw [allocated, run_bind, run_act] at ran
  cases acted : action.run s.world with
  | mk r w' =>
    rw [acted] at ran
    cases r with
    | error e => cases ran
    | ok x =>
      cases ran
      cases same
      exact newest _ _ _ acted

theorem perform_newest {op : Op} (constructs : op.constructs = true) : Newest (perform op) := by
  cases op with
  | object op =>
    cases op with
    | newObject => exact allocated_newest (Action.allocate_newest _ _) _
    | newString text => exact allocated_newest (Action.newString_newest _) _
    | newPoint x y => exact allocated_newest (Action.newInstance_newest _ _) _
    | newColorPoint x y color | newAlphaPoint x y color alpha | newList next item =>
      exact .after fun _ => allocated_newest (Action.newInstance_newest _ _) _
    | newBare c | newFlat c | newAlphaPointOf table x y color alpha =>
      exact .after fun _ => .after fun _ => allocated_newest (Action.initialise_newest _ _) _
    | newBareOf table => exact .after fun _ => allocated_newest (Action.initialise_newest _ _) _
    | objectToString e => exact .after fun _ => allocated_newest (Action.objectToString_newest _) _
    | _ => cases constructs
  | string op =>
    cases op with
    | concat e other =>
      exact .after fun _ => .after fun _ => allocated_newest (Action.concat_newest _ _) _
    | _ => cases constructs
  | array op =>
    cases op with
    | newArray element c n =>
      exact .after fun _ => allocated_newest (Action.newArray_newest _ _ _) _
    | newGrid element c n m =>
      exact .after fun _ => allocated_newest (Action.newGrid_newest _ _ _ _) _
    | _ => cases constructs
  | exception op =>
    cases op with
    | new code message =>
      exact allocated_newest (.after fun _ => Action.newException_newest _ _) _
    | _ => cases constructs
  | _ => cases constructs

end Script.Eval

end Last

namespace Script

/-- What an operation that was performed has done to the numbers of objects. -/
structure Performed.Counts (p : Performed) : Prop where
  /-- Objects that were there keep their numbers. -/
  kept : Grows p.before.world p.after.world
  /-- Two numbers went to each new class, one to each literal, and the rest as the operation
  allocates. -/
  added : ∃ c k n, p.after.world.classes.size = p.before.world.classes.size + c ∧
    k ≤ p.op.literals + p.op.storedLiterals ∧
    (∀ reply, p.outcome = .reply reply → p.op.literals ≤ k) ∧ p.op.Allocates p.outcome n ∧
    p.after.world.objects.size = p.before.world.objects.size + 2 * c + k + n
  made : p.op.constructs = true → ∀ id v, p.outcome = .reply (.ok (.handle (.object id v))) →
    id + 1 = p.after.world.objects.size
  thrown : ∀ e, p.outcome = .stopped (.fault (.thrown e)) → e + 1 = p.after.world.objects.size

namespace Session
variable {s : Session}

theorem performed_counts (valid : s.Valid) (op : Op) (result : Option Name) :
    (s.performed op result).Counts := by
  have grows := s.performOp_grows valid op result
  have world := performOp_world s op result
  have outcome : (s.performOp op result).1 = .ofResult ((Eval.perform op).run s).1 :=
    congrArg Prod.fst (performOp_eq s op result)
  have ended {r : Except Stop Reply} (same : (s.performOp op result).1 = .ofResult r) :
      ((Eval.perform op).run s).1 = r := Outcome.ofResult_injective (outcome.symm.trans same)
  obtain ⟨entries, -, account⟩ := Eval.perform_account valid op
  refine ⟨grows, ?_, fun constructs id v same => ?_, fun e same => ?_⟩
  · obtain ⟨more, classes⟩ := grows.classes
    have size :
        (s.performOp op result).2.world.classes.size = s.world.classes.size + more.size := by
      rw [classes, Array.size_append]
    obtain ⟨k, n, spent, allocates, others⟩ := account.others
    refine ⟨more.size, k, n, size, spent.1, fun reply same => spent.2 reply (ended same), ?_, ?_⟩
    · change op.Allocates (s.performOp op result).1 n
      rw [outcome]
      exact allocates
    · rw [← world, World.others, World.others] at others
      change (s.performOp op result).2.world.objects.size = s.world.objects.size + _ + _ + _
      omega
  · have last := Eval.perform_newest constructs s _ _ (Prod.ext (ended same) rfl) id v rfl
    exact last.trans (congrArg (fun w => w.objects.size) world.symm)
  · have last := account.last e (ended same)
    exact last.trans (congrArg (fun w => w.objects.size) world.symm)

theorem Runs.counts {s' : Session} {done : List Performed} (run : s.Runs done s')
    (valid : s.Valid) : ∀ p ∈ done, p.Counts := by
  intro p member
  obtain ⟨earlier, later, result, -, begun, own, -⟩ := run.split member
  rw [own]
  exact performed_counts (begun.valid valid) p.op result

/-- In a run the objects are numbered from one on in the order in which they were allocated, and an
object's identity is its number in 32 bits. With fewer objects than there are identities, different
objects differ in them, and handles are equal exactly if their identities are. The identity of a
class is one more than that of its name, and classes come in the order of their numbers. Every
operation has taken the numbers that it accounts for, and no others. -/
theorem Runs.identities_counted {files : FileSystem} {verbosity : Int} {done : List Performed}
    (run : (Session.withVerbosity { files } verbosity).Runs done s) :
    (∀ id < s.world.objects.size, ∀ v, (Action.objectHashCode (.object id v)).run s.world =
        (.ok (Int32.ofNat (id + 1)), s.world)) ∧
      (s.world.objects.size < UInt32.size →
        (∀ i < s.world.objects.size, ∀ j < s.world.objects.size, i ≠ j → identity i ≠ identity j) ∧
        ∀ {h other x y}, h.Valid s.world → other.Valid s.world →
          (Action.objectHashCode h).run s.world = (.ok x, s.world) →
          (Action.objectHashCode other).run s.world = (.ok y, s.world) →
          (Action.objectEquals h other).run s.world = (.ok (x == y), s.world)) ∧
      (∀ {c k}, s.world.class? c = some k → identity k.object = identity k.nameObject + 1) ∧
      (∀ {c d k l}, c < d → s.world.class? c = some k → s.world.class? d = some l →
        k.object < l.object) ∧
      ∀ p ∈ done, p.Counts := by
  have valid := (Reachable.start files verbosity).valid
  have numbered : s.world.Numbered := (run.evolves valid).1.numbered (World.numbered_of_none rfl)
  refine ⟨fun _ _ _ => rfl, fun few => ⟨?_, objectEquals_of_hash few⟩, ?_, ?_, run.counts valid⟩
  · intro i left j right apart same
    exact apart (identity_injective few left right same)
  · intro c k known
    rw [(numbered.pair known).1, identity_succ]
  · intro c d k l earlier known known'
    have below := numbered.order earlier known known'
    rw [(numbered.pair known').1]
    exact Nat.lt_succ_of_lt below

end Session

/-- A script that makes a coloured point from a literal, fails to make an object without a table,
and fails a check for null. -/
def numberedObjects : List Step :=
  [.perform (.object (.newColorPoint 1 2 (.string "red"))) (some "p") none,
    .perform (.object (.newBareOf .null)) none none,
    .perform (.object (.checkNotNull .null)) none (some "x")]

/-- The point takes eight numbers, with two for each of three classes and one for its colour, and
the exception nine, with two for each of four classes. -/
theorem identities_counted_numberedObjects :
    let start := Session.withVerbosity {} 0
    let w := (start.runAll numberedObjects).2.world
    (start.trail numberedObjects).map (fun p => p.after.world.objects.size) = [8, 8, 17] ∧
      w.objects.size < UInt32.size ∧
      (Action.objectHashCode (.object 16 .exception)).run w = (.ok 17, w) ∧
      (Action.objectEquals (.object 7 .point) (.object 16 .exception)).run w = (.ok false, w) ∧
      (∀ {c k}, w.class? c = some k → identity k.object = identity k.nameObject + 1) ∧
      ∀ p ∈ start.trail numberedObjects, p.Counts := by
  intro start w
  have valid : start.Valid := (Session.Reachable.start {} 0).valid
  have run : start.Runs _ (start.runAll numberedObjects).2 :=
    Session.runs_trail numberedObjects valid
  have few : w.objects.size < UInt32.size := by decide +kernel
  have views : [7, 16].map (fun id => (w.object? id).map fun o => o.body.view) =
      [some .colorPoint, some .exception] := by decide +kernel
  obtain ⟨point, rest⟩ := List.cons.inj views
  obtain ⟨exception, -⟩ := List.cons.inj rest
  have pointValid : (Handle.object 7 .point).Valid w := by
    rintro id v ⟨⟩
    obtain ⟨o, found, view⟩ := Option.map_eq_some_iff.mp point
    exact ⟨o, found, by rw [view]; decide⟩
  have exceptionValid : (Handle.object 16 .exception).Valid w := by
    rintro id v ⟨⟩
    obtain ⟨o, found, view⟩ := Option.map_eq_some_iff.mp exception
    exact ⟨o, found, by rw [view]; decide⟩
  obtain ⟨hashes, distinct, classes, -, counts⟩ := run.identities_counted
  have pointHash := hashes 7 (by decide +kernel) .point
  have exceptionHash := hashes 16 (by decide +kernel) .exception
  exact ⟨by decide +kernel, few, exceptionHash,
    (distinct few).2 pointValid exceptionValid pointHash exceptionHash, classes, counts⟩

end Script

end ObjectModel
