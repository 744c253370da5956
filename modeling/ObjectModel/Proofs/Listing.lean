import ObjectModel.Proofs.Ancestry

/-!
The listing of classes as a report of the snapshot. The listing looks at the classes themselves,
where a superclass, a component or a dispatch table is there or is not. A descriptor gives names
only, and the name of a class may be empty. The table of classes makes up for that: a class has a
superclass unless it is primitive or the root, a component if it has dimensions, and slots unless it
is primitive.
-/

namespace ObjectModel

namespace Descriptor

/-- An empty name of a superclass is written like any other. -/
def listSuperclass (d : Descriptor) : Text :=
  if d.primitive = true ∨ d.name = Core.name .object then [] else " extends " ++ d.superclass

def listComponent (d : Descriptor) : Text :=
  if d.dimensions = 0 then []
  else " (component " ++ d.component ++ ", " ++ Text.ofInt d.dimensions.toInt ++ "D)"

/-- No list of slots is written like an empty one. -/
def listSlots (d : Descriptor) : Text :=
  if d.primitive then []
  else "    slots: " ++ (Text.ofString ", ").intercalate (d.slots.getD []) ++ "\n"

def listed (d : Descriptor) : Text :=
  d.name ++ d.listSuperclass ++ d.listComponent
    ++ (if d.primitive then Text.ofString " (primitive)" else []) ++ "\n" ++ d.listSlots

end Descriptor

def Snapshot.listing (s : Snapshot) : Text := (s.classes.getD []).flatMap Descriptor.listed

namespace World
variable {w : World} {c : ClassId} {k : Class}

theorem toInt_dimensions (w : World) (k : Class) :
    (w.describe k).dimensions.toInt = k.shape.dimensions := by
  have few := (key_eq_of_dimensions k).1
  exact Int64.toInt_ofNat_of_lt (by omega)

theorem WellFormed.listSuperclass_eq (well : w.WellFormed) (known : w.class? c = some k) :
    w.listSuperclass k = (w.describe k).listSuperclass := by
  have top := well.superclass?_none_iff known
  rw [Descriptor.listSuperclass]
  change _ = if k.shape.isPrimitive = true ∨ k.name = Core.name .object then _ else _
  cases above : k.shape.superclass? with
  | none => rw [if_pos (top.mp above), listSuperclass, above]
  | some s =>
    have below : ¬ (k.shape.isPrimitive = true ∨ k.name = Core.name .object) := by
      rw [← top, above]
      exact Option.some_ne_none s
    rw [if_neg below, listSuperclass, describe, above]

theorem listComponent_eq (w : World) (k : Class) :
    w.listComponent k = (w.describe k).listComponent := by
  have flat : k.shape.component? = none ↔ (w.describe k).dimensions = 0 :=
    (component?_none_iff k).trans (Snapshot.dimensions_iff w k (Nat.zero_le 2)).symm
  rw [Descriptor.listComponent, toInt_dimensions]
  cases holds : k.shape.component? with
  | none => rw [if_pos (flat.mp holds), listComponent, holds]
  | some e =>
    have deep : (w.describe k).dimensions ≠ 0 := by
      intro zero
      rw [flat.mpr zero] at holds
      cases holds
    rw [if_neg deep, listComponent, describe, holds]
    rfl

theorem WellFormed.listSlots_eq (well : w.WellFormed) (known : w.class? c = some k) :
    listSlots k = (w.describe k).listSlots := by
  have bare : k.table = none ↔ k.shape.isPrimitive = true := by
    rw [(well.made known).table_none_iff]
    cases k.shape <;> simp [Shape.isPrimitive]
  rw [Descriptor.listSlots]
  change _ = if k.shape.isPrimitive = true then _ else _
  cases own : k.table with
  | none => rw [if_pos (bare.mp own), listSlots, own]
  | some t =>
    have reference : ¬ k.shape.isPrimitive = true := by
      rw [← bare, own]
      exact Option.some_ne_none t
    rw [if_neg reference, listSlots, describe, own]
    rfl

/-- The lines of a class are those of its descriptor. -/
theorem WellFormed.listClass_eq (well : w.WellFormed) (known : w.class? c = some k) :
    w.listClass k = (w.describe k).listed := by
  rw [listClass, well.listSuperclass_eq known, listComponent_eq, well.listSlots_eq known]
  rfl

theorem WellFormed.listing_eq (well : w.WellFormed) :
    w.listing = (Snapshot.capture w).listing := by
  rw [listing, Snapshot.listing]
  change _ = (w.classes.toList.map w.describe).flatMap Descriptor.listed
  rw [List.flatMap_map]
  refine List.flatMap_congr fun k member => ?_
  obtain ⟨c, known⟩ := List.mem_iff_getElem?.mp member
  rw [Array.getElem?_toList] at known
  exact well.listClass_eq known

end World

/-- The command that lists the classes and the one that writes a snapshot of them find the same
table of classes. -/
theorem Action.reports_run {w : World} (well : w.WellFormed) (fs : FileSystem) (path : Text) :
    ∃ r w', (runCommand fs "classes" path).run w =
        (.ok (.ok ⟨(Snapshot.capture w').listing, fs⟩), w') ∧
      (runCommand fs "snapshot" path).run w = (.ok r, w') ∧
      CommandResult.Delivers fs path (Snapshot.encode (some (.capture w'))) r := by
  obtain ⟨r, w', ran, well', booted, delivers⟩ := snapshot_run well fs path
  have command : runCommand fs "classes" path =
      bootstrap >>= fun _ => get >>= fun w => return .ok ⟨w.listing, fs⟩ := rfl
  refine ⟨r, w', ?_, ran, delivers⟩
  rw [command, run_bind, booted, ← well'.listing_eq]
  rfl

namespace Script

/-- In every session that a script reaches, the listing is that of the snapshot, so that sessions
with the same snapshot have the same listing. The commands report on one table of classes. -/
theorem Session.Reachable.listing_of_capture {s : Session} (reached : s.Reachable) :
    s.world.listing = (Snapshot.capture s.world).listing ∧
    (∀ s' : Session, s'.Reachable → Snapshot.capture s'.world = Snapshot.capture s.world →
      s'.world.listing = s.world.listing) ∧
    ∀ fs path, ∃ r w, (Action.runCommand fs "classes" path).run s.world =
        (.ok (.ok ⟨(Snapshot.capture w).listing, fs⟩), w) ∧
      (Action.runCommand fs "snapshot" path).run s.world = (.ok r, w) ∧
      CommandResult.Delivers fs path (Snapshot.encode (some (.capture w))) r := by
  have well := reached.valid.well
  refine ⟨well.listing_eq, ?_, Action.reports_run well⟩
  intro s' reached' same
  rw [reached'.valid.well.listing_eq, same, well.listing_eq]

/-- A script that defines a class without a name and a class below it, with a slot without a name,
makes arrays of the former, and defines a class below one of two array classes with one name. -/
def namelessClasses (rows : ClassExpr) : List Step :=
  [.perform (.classes (.define [] .null [])) none none,
    .perform (.classes (.define "Below" (.registered []) [[]])) none none,
    .perform (.classes (.value (.array (.registered [])))) none none,
    .perform (.classes (.value (.array (.array (.named (.primitive .int)))))) none none,
    .perform (.classes (.value (.grid (.named (.primitive .int))))) none none,
    .perform (.classes (.define "Rows" rows [])) none none]

theorem listing_of_capture_namelessClasses :
    let start := Session.withVerbosity {} 0
    let s := (start.runAll (namelessClasses (.array (.array (.named (.primitive .int)))))).2
    let s' := (start.runAll (namelessClasses (.grid (.named (.primitive .int))))).2
    s.Reachable ∧ s'.Reachable ∧
      s.world.superclass? 9 = some 7 ∧ s'.world.superclass? 9 = some 8 ∧
      Snapshot.capture s'.world = Snapshot.capture s.world ∧
      (s.world.class? 2).map s.world.listClass =
        some "Below extends \n    slots: hashCode, equals, getClass, toString, \n" ∧
      (s.world.class? 4).map s.world.listClass = some
        ("[L; extends [Ljava.lang.Object; (component , 1D)\n" ++
          "    slots: hashCode, equals, getClass, toString\n") ∧
      s'.world.listing = s.world.listing := by
  intro start s s'
  have reached : s.Reachable := (Session.Reachable.start {} 0).runAll _
  have reached' : s'.Reachable := (Session.Reachable.start {} 0).runAll _
  have lists : s'.world.classes.toList.map s'.world.describe =
      s.world.classes.toList.map s.world.describe := by decide +kernel
  have same : Snapshot.capture s'.world = Snapshot.capture s.world := by
    rw [Snapshot.capture, Snapshot.capture, lists]
  exact ⟨reached, reached', by decide +kernel, by decide +kernel, same, by decide +kernel,
    by decide +kernel, reached.listing_of_capture.2.1 s' reached' same⟩

end Script

end ObjectModel
