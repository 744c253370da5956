import ObjectModel.Proofs.Codec
import ObjectModel.Proofs.Files
import ObjectModel.Proofs.Layout

/-!
Snapshots of worlds. Every class but the primitive types has the slots of plain objects, so no list
of slots in a snapshot is empty, and a snapshot is read back exactly if all names and slots are
valid text and neither the classes nor the slots of one class are too many. The names of classes
need not be valid text, but those of the built-in classes are.
-/

namespace ObjectModel

namespace World

/-- What a snapshot needs to be read back. -/
structure Legible (w : World) : Prop where
  names : ∀ k ∈ w.classes, k.name.IsUtf8
  slots : ∀ k ∈ w.classes, ∀ t ∈ k.table, ∀ slot ∈ t.slots, slot.IsUtf8
  few : w.classes.size ≤ Item.maxElements
  fewSlots : ∀ k ∈ w.classes, ∀ t ∈ k.table, t.slots.length ≤ Item.maxElements

theorem WellFormed.object_slots_prefix {w : World} (well : w.WellFormed) (c : ClassId) :
    ∀ {t}, w.table? c = some t → DispatchTable.object.slots <+: t.slots := by
  induction c using Nat.strongRecOn with
  | ind c ih =>
    intro t has
    obtain ⟨k, known, own⟩ := class?_of_table? has
    have earlier {s : ClassId} := (well.made known).superclass (s := s)
    obtain ⟨cause, table, creation, made⟩ := (well.made known).creation
    rw [made] at own
    generalize k.shape = shape at creation earlier
    generalize k.name = name at creation
    cases creation with
    | root =>
      cases own
      exact List.prefix_refl _
    | core which =>
      cases own
      cases which with
      | object => exact List.prefix_refl _
      | string => exact DispatchTable.slots_prefix_extend .object _
      | metaclass => exact DispatchTable.slots_prefix_extend .object _
    | primitive => cases own
    | kind _ _ inherited =>
      cases own
      exact (ih _ (earlier rfl) inherited).trans (DispatchTable.slots_prefix_extend _ _)
    | array =>
      cases own
      exact DispatchTable.slots_prefix_extend .object _
    | definition _ _ inherited =>
      cases own
      exact (ih _ (earlier rfl) inherited).trans (DispatchTable.slots_prefix_extend _ _)

theorem WellFormed.slots_ne_nil {w : World} (well : w.WellFormed) {k : Class}
    (member : k ∈ w.classes) {t : DispatchTable} (has : k.table = some t) : t.slots ≠ [] := by
  obtain ⟨c, known⟩ := Array.getElem?_of_mem member
  have own : w.table? c = some t := by rw [table?_of_class? known, has]
  obtain ⟨more, shape⟩ := well.object_slots_prefix c own
  intro empty
  rw [empty] at shape
  exact absurd (List.append_eq_nil_iff.mp shape).1 (by decide)

end World

namespace Snapshot

theorem capture_norm {w : World} (well : w.WellFormed) : (capture w).norm = capture w := by
  have each : ∀ k ∈ w.classes.toList, (w.describe k).norm = w.describe k := by
    intro k member
    rw [Descriptor.norm, if_neg]
    intro empty
    obtain ⟨t, has, none⟩ := Option.map_eq_some_iff.mp empty
    exact well.slots_ne_nil (Array.mem_toList_iff.mp member) has none
  simp only [norm, capture, Option.map_some, List.map_map, Snapshot.mk.injEq, true_and,
    Option.some.injEq]
  exact List.map_congr_left each

theorem nameOf_eq (w : World) (c : Option ClassId) :
    w.nameOf c = [] ∨ ∃ k ∈ w.classes, w.nameOf c = k.name := by
  unfold World.nameOf
  cases known : c.bind w.class? with
  | none => exact .inl rfl
  | some k =>
    obtain ⟨id, -, found⟩ := Option.bind_eq_some_iff.mp known
    exact .inr ⟨k, Array.mem_of_getElem? found, rfl⟩

theorem mem_texts_capture {w : World} {t : Text} :
    t ∈ (capture w).texts ↔ ∃ k ∈ w.classes, t ∈ (w.describe k).texts := by
  simp [texts, descriptors, capture]

theorem slotList_describe {w : World} {k : Class} :
    (w.describe k).slotList = (k.table.map DispatchTable.slots).getD [] := rfl

theorem short_capture {w : World} : (capture w).Short ↔ w.classes.size ≤ Item.maxElements ∧
    ∀ k ∈ w.classes, ∀ t ∈ k.table, t.slots.length ≤ Item.maxElements := by
  have each (k : Class) : (w.describe k).slotList.length ≤ Item.maxElements ↔
      ∀ t ∈ k.table, t.slots.length ≤ Item.maxElements := by
    rw [slotList_describe]
    cases k.table <;> simp
  simp [Short, descriptors, capture, each]

/-- The names and slots of all classes are valid text if all texts of the snapshot are. -/
theorem legible_of_capture {w : World} (short : (capture w).Short)
    (valid : ∀ t ∈ (capture w).texts, t.IsUtf8) : w.Legible := by
  obtain ⟨few, fewSlots⟩ := short_capture.mp short
  refine ⟨?_, ?_, few, fewSlots⟩
  · intro k member
    exact valid _ (mem_texts_capture.mpr ⟨k, member, List.mem_cons_self⟩)
  · intro k member t has slot inside
    apply valid slot
    rw [mem_texts_capture]
    refine ⟨k, member, ?_⟩
    rw [Descriptor.texts, slotList_describe, Option.mem_def.mp has]
    simp [inside]

theorem isUtf8_of_legible {w : World} (legible : w.Legible) {t : Text}
    (member : t ∈ (capture w).texts) : t.IsUtf8 := by
  obtain ⟨k, known, inside⟩ := mem_texts_capture.mp member
  have named (c : Option ClassId) : (w.nameOf c).IsUtf8 := by
    rcases nameOf_eq w c with none | ⟨l, there, same⟩
    · rw [none]
      exact .nil
    · rw [same]
      exact legible.names l there
  simp only [Descriptor.texts, List.mem_cons] at inside
  rcases inside with rfl | rfl | rfl | slot
  · exact legible.names k known
  · exact named _
  · exact named _
  · rw [slotList_describe] at slot
    cases has : k.table with
    | none =>
      rw [has] at slot
      cases slot
    | some u =>
      rw [has] at slot
      exact legible.slots k known u has t slot

theorem legible_capture {w : World} :
    (capture w).Short ∧ (∀ t ∈ (capture w).texts, t.IsUtf8) ↔ w.Legible := by
  constructor
  · rintro ⟨short, valid⟩
    exact legible_of_capture short valid
  · intro legible
    exact ⟨short_capture.mpr ⟨legible.few, legible.fewSlots⟩, fun t => isUtf8_of_legible legible⟩

/-- All lists and texts are short. -/
def isCompact (s : Snapshot) : Bool :=
  decide s.Short && s.texts.all fun t => decide (t.length < Item.lengthLimit)

def isAscii (s : Snapshot) : Bool := s.texts.all fun t => t.all (· < 0x80)

theorem sized_of_compact {s : Snapshot} (compact : s.isCompact = true) : s.Short ∧ s.Sized := by
  simp only [isCompact, Bool.and_eq_true, decide_eq_true_eq, List.all_eq_true] at compact
  obtain ⟨short, texts⟩ := compact
  have limit : Item.maxElements < Item.lengthLimit := by decide
  refine ⟨short, Nat.lt_of_le_of_lt short.1 limit, ?_⟩
  intro d member
  constructor
  · intro t inside
    exact texts t (List.mem_flatMap.mpr ⟨d, member, inside⟩)
  · exact Nat.lt_of_le_of_lt (short.2 d member) limit

theorem isUtf8_of_ascii {s : Snapshot} (ascii : s.isAscii = true) : ∀ t ∈ s.texts, t.IsUtf8 := by
  simp only [isAscii, List.all_eq_true, decide_eq_true_eq] at ascii
  exact fun t mem => .of_ascii (ascii t mem)

end Snapshot

/-- The bytes are those of a snapshot of the world: they are read as this snapshot if the world is
legible, and refused otherwise. -/
structure World.SavedAs (w : World) (bytes : Text) : Prop where
  read : w.Legible → Snapshot.decode bytes = .ok (.capture w)
  refused : ¬ w.Legible → Snapshot.decode bytes = .error (.malformed .tooManyElements) ∨
    Snapshot.decode bytes = .error (.mismatch .invalidText)

theorem World.WellFormed.savedAs {w : World} (well : w.WellFormed)
    (sized : (Snapshot.capture w).Sized) :
    w.SavedAs (Snapshot.encode (some (.capture w))) := by
  have decoded := sized.decode_encode
  have valid_iff : (Snapshot.capture w).texts.all Text.isUtf8 = true ↔
      ∀ t ∈ (Snapshot.capture w).texts, t.IsUtf8 := by
    simp only [List.all_eq_true, Text.isUtf8_iff]
  constructor
  · intro legible
    obtain ⟨short, valid⟩ := Snapshot.legible_capture.mpr legible
    have current : (Snapshot.capture w).version = Snapshot.currentVersion := rfl
    rw [if_neg (not_not_intro short), if_neg (not_not_intro (valid_iff.mpr valid)), if_pos current,
      Snapshot.capture_norm well] at decoded
    exact decoded
  · intro illegible
    by_cases short : (Snapshot.capture w).Short
    · have stray : ¬ (Snapshot.capture w).texts.all Text.isUtf8 = true := by
        intro valid
        exact illegible (Snapshot.legible_capture.mp ⟨short, valid_iff.mp valid⟩)
      rw [if_neg (not_not_intro short), if_pos stray] at decoded
      exact .inr decoded
    · rw [if_pos short] at decoded
      exact .inl decoded

/-- A command has delivered bytes: to the output if no file was named, else to the file, from which
they are read, unless it cannot be written. -/
def CommandResult.Delivers (fs : FileSystem) (path bytes : Text) :
    Except CommandError CommandResult → Prop
  | .ok result =>
    if path = [] then result.output = bytes ∧ result.files = fs
    else result.output = [] ∧ result.files.read path = .ok bytes
  | .error e =>
    path ≠ [] ∧ ∃ cause, fs.write path bytes = .error cause ∧ e = .cannotWrite path cause

namespace Action

theorem writeSnapshot_run (fs : FileSystem) (path : Text) (w : World) :
    ∃ r, (writeSnapshot fs path).run w = (.ok r, w) ∧
      CommandResult.Delivers fs path (Snapshot.encode (some (.capture w))) r := by
  unfold writeSnapshot
  rw [run_get_bind]
  by_cases unnamed : path = []
  · exact ⟨.ok ⟨_, fs⟩, by rw [unnamed]; rfl, by simp [CommandResult.Delivers, unnamed]⟩
  · have named : path.isEmpty = false := by simpa using unnamed
    simp only [named, Bool.false_eq_true, if_false]
    cases written : fs.write path (Snapshot.encode (some (.capture w))) with
    | ok files =>
      have read := FileSystem.read_write written
      exact ⟨.ok ⟨[], files⟩, rfl, by simp [CommandResult.Delivers, unnamed, read]⟩
    | error cause =>
      exact ⟨.error (.cannotWrite path cause), rfl, unnamed, cause, written, rfl⟩

theorem snapshot_run {w : World} (well : w.WellFormed) (fs : FileSystem) (path : Text) :
    ∃ r w', (runCommand fs "snapshot" path).run w = (.ok r, w') ∧ w'.WellFormed ∧
      bootstrap.run w = (.ok (), w') ∧
      CommandResult.Delivers fs path (Snapshot.encode (some (.capture w'))) r := by
  obtain ⟨_, w', ran, evolved, -⟩ := (bootstrap_ends (P := .any)).returns well
  obtain ⟨r, written, delivers⟩ := writeSnapshot_run fs path w'
  have command : runCommand fs "snapshot" path = bootstrap >>= fun _ => writeSnapshot fs path := rfl
  refine ⟨r, w', ?_, evolved.wellFormed well, ran, delivers⟩
  rw [command, run_bind, ran]
  exact written

/-- The built-in classes alone are legible. -/
theorem bootstrap_legible (threshold : Option Severity) :
    (bootstrap.run { threshold }).2.Legible ∧
      (Snapshot.capture (bootstrap.run { threshold }).2).Sized := by
  have small : (Snapshot.capture (bootstrap.run { threshold }).2).isCompact = true ∧
      (Snapshot.capture (bootstrap.run { threshold }).2).isAscii = true := by
    rcases threshold with _ | severity
    · decide +kernel
    · cases severity <;> decide +kernel
  obtain ⟨short, sized⟩ := Snapshot.sized_of_compact small.1
  exact ⟨Snapshot.legible_capture.mp ⟨short, Snapshot.isUtf8_of_ascii small.2⟩, sized⟩

end Action

/-- In every session that a script reaches, the bytes of a snapshot are read back exactly if the
world is legible; the snapshot command delivers the bytes for the world it leaves, and in a world
without classes it always delivers bytes that are read back. -/
theorem Script.Session.Reachable.snapshot_saved {s : Script.Session} (reached : s.Reachable)
    (fs : FileSystem) (path : Text) (threshold : Option Severity) :
    ((Snapshot.capture s.world).Sized →
      s.world.SavedAs (Snapshot.encode (some (.capture s.world)))) ∧
    (∃ r w, (Action.runCommand fs "snapshot" path).run s.world = (.ok r, w) ∧
      CommandResult.Delivers fs path (Snapshot.encode (some (.capture w))) r ∧
      ((Snapshot.capture w).Sized → w.SavedAs (Snapshot.encode (some (.capture w))))) ∧
    ∃ r w, (Action.runCommand fs "snapshot" path).run { threshold } = (.ok r, w) ∧
      CommandResult.Delivers fs path (Snapshot.encode (some (.capture w))) r ∧
      Snapshot.decode (Snapshot.encode (some (.capture w))) = .ok (.capture w) := by
  have well := reached.valid.well
  constructor
  · exact well.savedAs
  constructor
  · obtain ⟨r, w, ran, well', -, delivers⟩ := Action.snapshot_run well fs path
    exact ⟨r, w, ran, delivers, well'.savedAs⟩
  · obtain ⟨r, w, ran, well', booted, delivers⟩ :=
      Action.snapshot_run (World.wellFormed_empty threshold) fs path
    obtain ⟨legible, sized⟩ := Action.bootstrap_legible threshold
    rw [booted] at legible sized
    exact ⟨r, w, ran, delivers, (well'.savedAs sized).read legible⟩

namespace Script

/-- A script that defines a class whose name is a byte that begins no character. -/
def strayName : List Step := [.perform (.classes (.define [0xFF] .null [])) none none]

theorem snapshot_saved_strayName :
    let s := ((Session.withVerbosity {} 0).runAll strayName).2
    s.Reachable ∧ (Snapshot.capture s.world).Sized ∧ ¬ s.world.Legible ∧
      (Snapshot.decode (Snapshot.encode (some (.capture s.world))) =
          .error (.malformed .tooManyElements) ∨
        Snapshot.decode (Snapshot.encode (some (.capture s.world))) =
          .error (.mismatch .invalidText)) := by
  intro s
  have reached : s.Reachable := (Session.Reachable.start {} 0).runAll strayName
  have compact : (Snapshot.capture s.world).isCompact = true := by decide +kernel
  have sized := (Snapshot.sized_of_compact compact).2
  have defined : ∃ k ∈ s.world.classes, k.name = [0xFF] := by decide +kernel
  have stray : ¬ Text.IsUtf8 [0xFF] := by
    rw [← Text.isUtf8_iff]
    simp [Text.isUtf8, Text.pieces, Text.firstPiece, Text.Piece.isScalar]
  have illegible : ¬ s.world.Legible := by
    intro legible
    obtain ⟨k, known, name⟩ := defined
    exact stray (name ▸ legible.names k known)
  have saved := (reached.snapshot_saved {} [] none).1 sized
  exact ⟨reached, sized, illegible, saved.refused illegible⟩

end Script

end ObjectModel
