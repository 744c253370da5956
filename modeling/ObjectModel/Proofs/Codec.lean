import Mathlib.Logic.Basic
import ObjectModel.Proofs.Item
import ObjectModel.Proofs.Utf8
import ObjectModel.Snapshot.Decoding

/-!
Snapshots written and read again. A descriptor is a map of six entries, of which the empty ones are
left out; each entry fills its own field of the record that is read. Reading undoes writing for
valid text and lists within the limit, and the bytes tell everything about a snapshot but an empty
list of slots.
-/

namespace ObjectModel

namespace Item

/-! Leaves, lists and records are read as they were written. -/

@[simp]
theorem toText_ofText (t : Text) :
    (ofText t).toText = if t.isUtf8 then .ok t else .error .invalidText := by
  by_cases valid : t.isUtf8 = true
  · simp [ofText, toText, content, joinText, valid, bind, Except.bind, pure, Except.pure]
  · simp [ofText, toText, content, joinText, valid, bind, Except.bind]

@[simp]
theorem toBool_ofBool (b : Bool) : (ofBool b).toBool = .ok b := by
  cases b <;> rfl

@[simp]
theorem toInt64_ofInt (n : Int64) : (ofInt n.toInt).toInt64 = .ok n := by
  have low := n.le_toInt
  have high := n.toInt_lt
  have limit : (Text.signedLimit : Int) = 2 ^ 63 := by decide
  have inside : -(Text.signedLimit : Int) ≤ n.toInt ∧ n.toInt < Text.signedLimit := by omega
  have held : (ofInt n.toInt).content = .ok (.integer n.toInt) := by
    unfold ofInt
    split
    · simp only [content]
      congr
      omega
    · simp only [content]
      congr
      omega
  simp only [toInt64, held, bind, Except.bind, if_pos inside, Int64.ofInt_toInt]
  rfl

section Lists
variable {α β : Type}

/-- A list of written values is read in full, or not at all if one of them is refused. -/
theorem toList_array {read : Item → Except Mismatch β} {write : α → Item} {valid : α → Bool}
    {value : α → β} {cause : Mismatch}
    (reads : ∀ a, read (write a) = if valid a then .ok (value a) else .error cause) (as : List α) :
    (Item.array (as.map write)).toList read =
      if as.all valid then .ok (some (as.map value)) else .error cause := by
  have each : (as.map write).mapM read =
      if as.all valid then .ok (as.map value) else .error cause := by
    induction as with
    | nil => rfl
    | cons a as ih =>
      rw [List.map_cons, List.mapM_cons, reads, ih, List.all_cons]
      cases valid a <;> cases as.all valid <;> rfl
  simp only [toList, content, each, bind, Except.bind]
  cases as.all valid <;> rfl

end Lists

section Records
variable {α : Type} (field : α → Nat → Item → Except Mismatch α)

@[simp]
theorem fields_nil (record : α) : toRecord.fields field record [] = .ok record := by
  rfl

/-- An entry fills one field of a record that has it blank; an omitted entry is never refused. -/
theorem fields_entryUnless {β : Type} (fill : Option β → α) (empty : Bool) (key : Nat)
    {value : Item}
    {read : Except Mismatch β} {valid : Bool} {b : β} {cause : Mismatch}
    (reads : read = if valid then .ok b else .error cause)
    (step : field (fill none) key value = (fun b => fill (some b)) <$> read)
    (harmless : empty = true → valid = true) (rest : List Item) :
    toRecord.fields field (fill none) (entryUnless empty key value ++ rest) =
      if valid then toRecord.fields field (fill (if empty then none else some b)) rest
      else .error cause := by
  cases empty with
  | true =>
    rw [harmless rfl]
    rfl
  | false =>
    have first : toRecord.fields field (fill none) (entryUnless false key value ++ rest) =
        field (fill none) key value >>= fun record => toRecord.fields field record rest := rfl
    rw [first, step, reads]
    cases valid <;> rfl

end Records

/-! Arrays that are too long. -/

@[simp]
theorem not_overlong_unsigned (n : Nat) : ¬ (unsigned n).Overlong := nofun

@[simp]
theorem not_overlong_simple (n : Nat) : ¬ (simple n).Overlong := nofun

@[simp]
theorem not_overlong_ofText (t : Text) : ¬ (ofText t).Overlong := nofun

@[simp]
theorem not_overlong_ofInt (n : Int) : ¬ (ofInt n).Overlong := by
  unfold ofInt
  split <;> nofun

@[simp]
theorem not_overlong_ofBool (b : Bool) : ¬ (ofBool b).Overlong := nofun

theorem overlong_array_iff {items : List Item} :
    (array items).Overlong ↔ maxElements < items.length ∨ ∃ item ∈ items, item.Overlong := by
  constructor
  · rintro (many | ⟨mem, long⟩)
    · exact .inl many
    · exact .inr ⟨_, mem, long⟩
  · rintro (many | ⟨_, mem, long⟩)
    · exact .here many
    · exact .element mem long

theorem overlong_map_iff {entries : List Item} :
    (map entries).Overlong ↔ ∃ item ∈ entries, item.Overlong := by
  constructor
  · rintro (_ | _ | ⟨mem, long⟩)
    exact ⟨_, mem, long⟩
  · rintro ⟨_, mem, long⟩
    exact .entry mem long

theorem overlong_entryUnless {empty : Bool} {key : Nat} {value : Item} :
    (∃ item ∈ entryUnless empty key value, item.Overlong) ↔ empty = false ∧ value.Overlong := by
  cases empty <;> simp [entryUnless]

/-! What can be written. -/

/-- Writable map entries, at most so many pairs. -/
def Entries (depth most : Nat) (entries : List Item) : Prop :=
  (∃ pairs ≤ most, entries.length = 2 * pairs) ∧ ∀ item ∈ entries, Writable depth item

theorem Entries.append {depth most most' : Nat} {entries entries' : List Item}
    (front : Entries depth most entries) (back : Entries depth most' entries') :
    Entries depth (most + most') (entries ++ entries') := by
  obtain ⟨⟨pairs, few, length⟩, written⟩ := front
  obtain ⟨⟨pairs', few', length'⟩, written'⟩ := back
  constructor
  · exact ⟨pairs + pairs', by omega, by rw [List.length_append]; omega⟩
  · intro item mem
    exact (List.mem_append.mp mem).elim (written item) (written' item)

theorem Writable.entry {depth : Nat} {value : Item} (written : Writable depth value) (empty : Bool)
    {key : Nat} (small : key < 24) : Entries depth 1 (entryUnless empty key value) := by
  have number : Writable depth (.unsigned key) := .unsigned (by omega)
  cases empty with
  | true => exact ⟨⟨0, by decide, rfl⟩, nofun⟩
  | false => exact ⟨⟨1, by decide, rfl⟩, by simp [entryUnless, number, written]⟩

theorem Entries.map {depth most : Nat} {entries : List Item} (written : Entries depth most entries)
    (few : most ≤ maxElements) : Writable (depth + 1) (.map entries) := by
  obtain ⟨⟨pairs, fewer, length⟩, each⟩ := written
  exact .map length (Nat.le_trans fewer few) each

theorem writable_ofInt (depth : Nat) (n : Int64) : Writable depth (ofInt n.toInt) := by
  have low := n.le_toInt
  have high := n.toInt_lt
  unfold ofInt
  split
  · exact .unsigned (by omega)
  · exact .negative (by omega)

theorem writable_ofBool (depth : Nat) (b : Bool) : Writable depth (ofBool b) := by
  cases b <;> exact .simple (by decide)

theorem writable_textArray {ts : List Text} (few : ts.length < lengthLimit)
    (short : ∀ t ∈ ts, t.length < lengthLimit) (depth : Nat) :
    Writable (depth + 1) (.array (ts.map ofText)) := by
  apply Writable.array
  · rwa [List.length_map]
  · intro item mem
    obtain ⟨t, inside, rfl⟩ := List.mem_map.mp mem
    exact .text (short t inside)

/-! Items tell their contents. -/

/-- The value of the first entry with this number as its key. -/
def value? (key : Nat) : List Item → Option Item
  | .unsigned k :: value :: rest => if k = key then some value else value? key rest
  | _ => none

theorem value?_append (key k : Nat) (empty : Bool) (value : Item) (rest : List Item) :
    value? key (entryUnless empty k value ++ rest) =
      if k = key ∧ empty = false then some value else value? key rest := by
  cases empty <;> simp [entryUnless, value?]

theorem value?_entryUnless (key k : Nat) (empty : Bool) (value : Item) :
    value? key (entryUnless empty k value) =
      if k = key ∧ empty = false then some value else none := by
  cases empty <;> simp [entryUnless, value?]

theorem ofText_injective {t t' : Text} (same : ofText t = ofText t') : t = t' := by
  simpa [ofText] using same

theorem ofBool_injective {b b' : Bool} (same : ofBool b = ofBool b') : b = b' := by
  cases b <;> cases b' <;> simp [ofBool] at same ⊢

theorem ofInt_injective {n n' : Int} (same : ofInt n = ofInt n') : n = n' := by
  unfold ofInt at same
  split at same <;> split at same <;> simp at same <;> omega

theorem textArray_injective {ts ts' : List Text}
    (same : array (ts.map ofText) = array (ts'.map ofText)) : ts = ts' := by
  have items := Item.array.inj same
  exact (List.map_inj_right fun _ _ => ofText_injective).mp items

/-- What is left out when blank is still told by whether it is there. -/
theorem eq_of_unless {α : Type} (write : α → Item) (isBlank : α → Bool) {blank : α}
    (blank_iff : ∀ a, isBlank a = true ↔ a = blank) (injective : ∀ {a b}, write a = write b → a = b)
    {a b : α}
    (same : (if isBlank a = false then some (write a) else none) =
      if isBlank b = false then some (write b) else none) :
    a = b := by
  cases blank_a : isBlank a with
  | true =>
    cases blank_b : isBlank b with
    | true => rw [(blank_iff a).mp blank_a, (blank_iff b).mp blank_b]
    | false => simp [blank_a, blank_b] at same
  | false =>
    cases blank_b : isBlank b with
    | true => simp [blank_a, blank_b] at same
    | false =>
      apply injective
      simpa [blank_a, blank_b] using same

end Item

namespace Descriptor

/-- Encoding does not tell an empty list of slots from none. -/
def norm (d : Descriptor) : Descriptor :=
  { d with slots := if d.slots = some [] then none else d.slots }

abbrev slotList (d : Descriptor) : List Text := d.slots.getD []

def texts (d : Descriptor) : List Text :=
  d.name :: d.superclass :: d.component :: d.slotList

theorem finish_eq_norm (d : Descriptor) :
    Draft.finish ⟨some d.name, if d.superclass.isEmpty then none else some d.superclass,
      if d.component.isEmpty then none else some d.component,
      if !d.primitive then none else some d.primitive,
      if d.dimensions == 0 then none else some d.dimensions,
      if d.slotList.isEmpty then none else some (some d.slotList)⟩ = d.norm := by
  obtain ⟨name, superclass, component, primitive, dimensions, slots⟩ := d
  simp only [Draft.finish, norm, slotList, Option.getD_some, Descriptor.mk.injEq, true_and]
  constructor
  · cases superclass <;> rfl
  constructor
  · cases component <;> rfl
  constructor
  · cases primitive <;> rfl
  constructor
  · by_cases zero : dimensions = 0 <;> simp [zero]
  · rcases slots with _ | _ | ⟨first, rest⟩ <;> rfl

/-- A written descriptor is read back, up to an empty list of slots, if its texts are UTF-8. -/
theorem ofItem_toItem (d : Descriptor) :
    ofItem d.toItem = if d.texts.all Text.isUtf8 then .ok d.norm else .error .invalidText := by
  have flag : (Item.ofBool d.primitive).toBool = if true then _ else .error .wrongType :=
    Item.toBool_ofBool d.primitive
  have number : (Item.ofInt d.dimensions.toInt).toInt64 = if true then _ else .error .wrongType :=
    Item.toInt64_ofInt d.dimensions
  have list := Item.toList_array Item.toText_ofText d.slotList
  rw [List.map_id'] at list
  -- The entries one after another; each leaves the fields of those before it as they are.
  have name := Item.fields_entryUnless Draft.field (fun t => ⟨t, none, none, none, none, none⟩)
    false 1 (Item.toText_ofText d.name) rfl nofun
  have superclass := Item.fields_entryUnless Draft.field
    (fun t => ⟨some d.name, t, none, none, none, none⟩) d.superclass.isEmpty 2
    (Item.toText_ofText d.superclass) rfl (by simp +contextual)
  have component := fun s => Item.fields_entryUnless Draft.field
    (fun t => ⟨some d.name, s, t, none, none, none⟩) d.component.isEmpty 3
    (Item.toText_ofText d.component) rfl (by simp +contextual)
  have primitive := fun s c => Item.fields_entryUnless Draft.field
    (fun b => ⟨some d.name, s, c, b, none, none⟩) (!d.primitive) 4 flag rfl (fun _ => rfl)
  have dimensions := fun s c b => Item.fields_entryUnless Draft.field
    (fun n => ⟨some d.name, s, c, b, n, none⟩) (d.dimensions == 0) 5 number rfl (fun _ => rfl)
  have slots := fun s c b n => Item.fields_entryUnless Draft.field
    (fun l => ⟨some d.name, s, c, b, n, l⟩) d.slotList.isEmpty 6 list rfl
    (by simp +contextual) []
  simp only [List.append_nil, Item.fields_nil] at slots
  simp only [ofItem, toItem, Item.toRecord, Item.content, List.append_assoc, bind, Except.bind]
  rw [name]
  simp only [Bool.false_eq_true, if_false, if_true, superclass, component, primitive, dimensions,
    slots]
  by_cases valid : d.texts.all Text.isUtf8 = true
  · have each := valid
    simp only [texts, List.all_cons, Bool.and_eq_true] at each
    obtain ⟨name_valid, superclass_valid, component_valid, slots_valid⟩ := each
    simp only [name_valid, superclass_valid, component_valid, slots_valid, valid, if_true]
    exact congrArg Except.ok (finish_eq_norm d)
  · have some_bad := (Bool.not_eq_true _).mp valid
    simp only [texts, List.all_cons, Bool.and_eq_false_iff] at some_bad
    rw [if_neg valid]
    rcases some_bad with bad | bad | bad | bad <;>
      simp only [bad, Bool.false_eq_true, if_false, ite_self] <;> rfl

/-- Lengths as they are on a machine with 63 bits for them. -/
structure Sized (d : Descriptor) : Prop where
  texts : ∀ t ∈ d.texts, t.length < Item.lengthLimit
  slots : d.slotList.length < Item.lengthLimit

theorem Sized.writable {d : Descriptor} (sized : d.Sized) : Item.Writable 2 d.toItem := by
  have text : ∀ t ∈ d.texts, Item.Writable 1 (.ofText t) := fun t mem => .text (sized.texts t mem)
  have slots := Item.writable_textArray sized.slots
    (fun t mem => sized.texts t (by simp [Descriptor.texts, mem])) 0
  have name := (text d.name (by simp [Descriptor.texts])).entry false (by decide : 1 < 24)
  have superclass := (text d.superclass (by simp [Descriptor.texts])).entry
    d.superclass.isEmpty (by decide : 2 < 24)
  have component := (text d.component (by simp [Descriptor.texts])).entry
    d.component.isEmpty (by decide : 3 < 24)
  have primitive := (Item.writable_ofBool 1 d.primitive).entry (!d.primitive) (by decide : 4 < 24)
  have dimensions := (Item.writable_ofInt 1 d.dimensions).entry (d.dimensions == 0)
    (by decide : 5 < 24)
  have all := ((((name.append superclass).append component).append primitive).append
    dimensions).append (slots.entry d.slotList.isEmpty (by decide : 6 < 24))
  exact all.map (by decide)

theorem overlong_toItem {d : Descriptor} :
    d.toItem.Overlong ↔ Item.maxElements < d.slotList.length := by
  have texts : ¬ ∃ item ∈ d.slotList.map Item.ofText, item.Overlong := by
    rintro ⟨item, mem, long⟩
    obtain ⟨t, -, rfl⟩ := List.mem_map.mp mem
    exact Item.not_overlong_ofText t long
  have nonempty : Item.maxElements < d.slotList.length → d.slotList.isEmpty = false := by
    intro many
    rw [List.isEmpty_eq_false_iff_exists_mem]
    exact List.exists_mem_of_length_pos (Nat.zero_lt_of_lt many)
  simp only [toItem, Item.overlong_map_iff, List.mem_append, or_and_right, exists_or,
    Item.overlong_entryUnless, Item.overlong_array_iff, Item.not_overlong_ofText,
    Item.not_overlong_ofBool, Item.not_overlong_ofInt, and_false, false_or, texts, or_false,
    List.length_map]
  exact ⟨And.right, fun many => ⟨nonempty many, many⟩⟩

theorem norm_eq_iff {d e : Descriptor} :
    d.norm = e.norm ↔ d.name = e.name ∧ d.superclass = e.superclass ∧ d.component = e.component ∧
      d.primitive = e.primitive ∧ d.dimensions = e.dimensions ∧ d.slotList = e.slotList := by
  obtain ⟨_, _, _, _, _, slots⟩ := d
  obtain ⟨_, _, _, _, _, slots'⟩ := e
  have lists : (if slots = some [] then none else slots) =
      (if slots' = some [] then none else slots') ↔ slots.getD [] = slots'.getD [] := by
    rcases slots with _ | _ | ⟨t, ts⟩ <;> rcases slots' with _ | _ | ⟨t', ts'⟩ <;> simp
  simp only [norm, Descriptor.mk.injEq, lists]

theorem toItem_eq_iff {d e : Descriptor} : d.toItem = e.toItem ↔ d.norm = e.norm := by
  rw [norm_eq_iff]
  constructor
  · intro same
    have entry := fun key => congrArg (Item.value? key) (Item.map.inj same)
    simp only [List.append_assoc, Item.value?_append, Item.value?_entryUnless] at entry
    have name := entry 1
    have superclass := entry 2
    have component := entry 3
    have primitive := entry 4
    have dimensions := entry 5
    have slots := entry 6
    simp only [Nat.reduceEqDiff, true_and, false_and, if_false, if_true]
      at name superclass component
    simp only [Nat.reduceEqDiff, true_and, false_and, if_false] at primitive dimensions slots
    constructor
    · exact Item.ofText_injective (Option.some.inj name)
    constructor
    · exact Item.eq_of_unless Item.ofText List.isEmpty (fun _ => List.isEmpty_iff)
        Item.ofText_injective superclass
    constructor
    · exact Item.eq_of_unless Item.ofText List.isEmpty (fun _ => List.isEmpty_iff)
        Item.ofText_injective component
    constructor
    · exact Item.eq_of_unless Item.ofBool Bool.not (by decide : ∀ b, (!b) = true ↔ b = false)
        Item.ofBool_injective primitive
    constructor
    · exact Item.eq_of_unless (fun n : Int64 => Item.ofInt n.toInt) (· == 0) (fun _ => beq_iff_eq)
        (fun same => Int64.toInt_inj.mp (Item.ofInt_injective same)) dimensions
    · exact Item.eq_of_unless (fun ts => Item.array (ts.map Item.ofText)) List.isEmpty
        (fun _ => List.isEmpty_iff) Item.textArray_injective slots
  · rintro ⟨name, superclass, component, primitive, dimensions, slots⟩
    simp only [toItem, name, superclass, component, primitive, dimensions]
    simp only [slotList] at slots
    rw [slots]

end Descriptor

namespace Snapshot

abbrev descriptors (s : Snapshot) : List Descriptor := s.classes.getD []

/-- The snapshot without empty lists of slots, which encoding does not keep. -/
def norm (s : Snapshot) : Snapshot := { s with classes := s.classes.map (·.map Descriptor.norm) }

def texts (s : Snapshot) : List Text := s.descriptors.flatMap Descriptor.texts

/-- Lists that the reader accepts. -/
def Short (s : Snapshot) : Prop :=
  s.descriptors.length ≤ Item.maxElements ∧
    ∀ d ∈ s.descriptors, d.slotList.length ≤ Item.maxElements

instance (s : Snapshot) : Decidable s.Short := inferInstanceAs (Decidable (_ ∧ _))

structure Sized (s : Snapshot) : Prop where
  classes : s.descriptors.length < Item.lengthLimit
  descriptors : ∀ d ∈ s.descriptors, d.Sized

/-- The list of descriptors as an item; a missing list is null. -/
def classesItem (s : Snapshot) : Item :=
  match s.classes with
  | none => .null
  | some ds => .array (ds.map Descriptor.toItem)

theorem toItem_eq (s : Snapshot) :
    s.toItem = .map (Item.entryUnless false 1 (.ofInt s.version.toInt) ++
      (Item.entryUnless false 2 s.classesItem ++ [])) := by
  rfl

theorem toList_classesItem (s : Snapshot) :
    s.classesItem.toList Descriptor.ofItem =
      if s.texts.all Text.isUtf8 then .ok s.norm.classes else .error .invalidText := by
  obtain ⟨version, classes⟩ := s
  cases classes with
  | none => rfl
  | some ds =>
    have list := Item.toList_array Descriptor.ofItem_toItem ds
    simp only [classesItem, texts, List.all_flatMap]
    exact list

/-- A written snapshot is read back, up to empty lists of slots, if its texts are UTF-8. -/
theorem ofItem_toItem (s : Snapshot) :
    ofItem s.toItem = if s.texts.all Text.isUtf8 then .ok s.norm else .error .invalidText := by
  have number : (Item.ofInt s.version.toInt).toInt64 = if true then _ else .error .wrongType :=
    Item.toInt64_ofInt s.version
  have version := Item.fields_entryUnless Draft.field (fun n => ⟨n, none⟩) false 1 number rfl nofun
  have classes := Item.fields_entryUnless Draft.field (fun ds => ⟨some s.version, ds⟩) false 2
    s.toList_classesItem rfl nofun []
  rw [toItem_eq]
  simp only [ofItem, Item.toRecord, Item.content, bind, Except.bind]
  rw [version]
  simp only [Bool.false_eq_true, if_false, if_true, classes, Item.fields_nil]
  cases s.texts.all Text.isUtf8 <;> rfl

theorem Sized.writable {s : Snapshot} (sized : s.Sized) : Item.Writable 4 s.toItem := by
  have classes : Item.Writable 3 s.classesItem := by
    unfold classesItem
    split
    · exact .simple (by decide)
    · rename_i ds listed
      have here : s.descriptors = ds := by rw [Snapshot.descriptors, listed, Option.getD_some]
      apply Item.Writable.array
      · rw [List.length_map, ← here]
        exact sized.classes
      · intro item mem
        obtain ⟨d, inside, rfl⟩ := List.mem_map.mp mem
        exact (sized.descriptors d (here ▸ inside)).writable
  have version := (Item.writable_ofInt 3 s.version).entry false (by decide : 1 < 24)
  have all := version.append (classes.entry false (by decide : 2 < 24))
  exact all.map (by decide)

theorem overlong_toItem {s : Snapshot} : s.toItem.Overlong ↔ ¬ s.Short := by
  have classes : s.classesItem.Overlong ↔ ¬ s.Short := by
    obtain ⟨version, _ | ds⟩ := s
    · simp [classesItem, Short, descriptors, Item.null]
    · have some_long : (∃ item ∈ ds.map Descriptor.toItem, item.Overlong) ↔
          ∃ d ∈ ds, Item.maxElements < d.slotList.length := by
        simp only [List.mem_map, exists_exists_and_eq_and, Descriptor.overlong_toItem]
      simp only [classesItem, Item.overlong_array_iff, some_long, List.length_map, Short,
        descriptors, Option.getD_some, not_and_or, not_forall, Nat.not_le, exists_prop]
  simp [toItem_eq, Item.overlong_map_iff, or_and_right, exists_or, Item.overlong_entryUnless,
    classes]

theorem map_toItem_eq_iff {ds es : List Descriptor} :
    ds.map Descriptor.toItem = es.map Descriptor.toItem ↔
      ds.map Descriptor.norm = es.map Descriptor.norm := by
  induction ds generalizing es with
  | nil => cases es <;> simp
  | cons d ds ih =>
    cases es with
    | nil => simp
    | cons e es => simp [Descriptor.toItem_eq_iff, ih]

/-- The item of a snapshot tells everything but empty lists of slots. -/
theorem toItem_eq_iff {s t : Snapshot} : s.toItem = t.toItem ↔ s.norm = t.norm := by
  obtain ⟨version, classes⟩ := s
  obtain ⟨version', classes'⟩ := t
  have numbers : Item.ofInt version.toInt = Item.ofInt version'.toInt ↔ version = version' := by
    constructor
    · intro same
      exact Int64.toInt_inj.mp (Item.ofInt_injective same)
    · rintro rfl
      rfl
  rcases classes with _ | ds <;> rcases classes' with _ | es <;>
    simp [toItem, norm, numbers, map_toItem_eq_iff, Item.null]

/-- What becomes of a snapshot that is written and read again. -/
theorem Sized.decode_encode {s : Snapshot} (sized : s.Sized) :
    decode (encode (some s)) =
      if ¬ s.Short then .error (.malformed .tooManyElements)
      else if ¬ s.texts.all Text.isUtf8 then .error (.mismatch .invalidText)
      else if s.version = currentVersion then .ok s.norm
      else .error (.version s.version) := by
  obtain ⟨long, short⟩ := sized.writable.read_encode (by decide)
  rw [overlong_toItem] at long short
  by_cases fits : s.Short
  · have read := short (not_not_intro fits)
    simp only [fits, not_true_eq_false, if_false, decode, encode, read, ofItem_toItem]
    by_cases valid : s.texts.all Text.isUtf8 = true
    · simp only [valid, if_true, not_true_eq_false, if_false]
      rfl
    · simp only [valid, Bool.false_eq_true, if_false, not_false_eq_true, if_true]
  · simp only [fits, not_false_eq_true, if_true, decode, encode, long fits]

theorem Sized.encode_eq_iff {s t : Snapshot} (sized : s.Sized) (sized' : t.Sized) :
    encode (some s) = encode (some t) ↔ s.norm = t.norm := by
  rw [← toItem_eq_iff]
  constructor
  · exact sized.writable.encode_injective sized'.writable
  · exact congrArg Item.encode

/-- A snapshot is read back as it was written, up to empty lists of slots, if its texts are valid,
its lists are within the limit and its version is the current one; otherwise reading says what is
wrong. Two snapshots have the same bytes exactly if they differ in empty lists of slots only. -/
theorem read_back {s : Snapshot} (sized : s.Sized) :
    (¬ s.Short → decode (encode (some s)) = .error (.malformed .tooManyElements)) ∧
    (s.Short → (∃ t ∈ s.texts, ¬ t.IsUtf8) →
      decode (encode (some s)) = .error (.mismatch .invalidText)) ∧
    (s.Short → (∀ t ∈ s.texts, t.IsUtf8) →
      decode (encode (some s)) =
        if s.version = 1 then .ok s.norm else .error (.version s.version)) ∧
    (Refusal.version s.version).message =
      "meta: unsupported snapshot version " ++ Text.ofInt s.version.toInt ∧
    ∀ t : Snapshot, t.Sized → (encode (some s) = encode (some t) ↔ s.norm = t.norm) := by
  have read := sized.decode_encode
  constructor
  · intro long
    rwa [if_pos long] at read
  constructor
  · rintro short ⟨t, mem, stray⟩
    have refused : ¬ s.texts.all Text.isUtf8 = true := by
      intro all
      exact stray (Text.isUtf8_iff.mp (List.all_eq_true.mp all t mem))
    rwa [if_neg (not_not_intro short), if_pos refused] at read
  constructor
  · intro short valid
    have accepted : s.texts.all Text.isUtf8 = true :=
      List.all_eq_true.mpr fun t mem => Text.isUtf8_iff.mpr (valid t mem)
    rwa [if_neg (not_not_intro short), if_neg (not_not_intro accepted)] at read
  constructor
  · rfl
  · intro t sized'
    exact sized.encode_eq_iff sized'

/-- A class whose name is not ASCII and whose list of slots is empty. -/
theorem read_back_accented :
    let accented : Descriptor := { name := [0xC3, 0xA9], dimensions := -300, slots := some [] }
    let plain : Descriptor := { accented with slots := none }
    decode (encode (some ⟨1, some [accented]⟩)) = .ok ⟨1, some [plain]⟩ ∧
      decode (encode (some ⟨7, some [accented]⟩)) = .error (.version 7) ∧
      encode (some ⟨1, some [accented]⟩) = encode (some ⟨1, some [plain]⟩) := by
  intro accented plain
  have valid : ∀ t ∈ accented.texts, t.IsUtf8 := by
    have listed : accented.texts = [[0xC3, 0xA9], [], []] := rfl
    rw [listed, List.forall_mem_cons, List.forall_mem_cons, List.forall_mem_singleton]
    exact ⟨⟨[0xE9], by decide, by decide⟩, ⟨[], by decide, rfl⟩, ⟨[], by decide, rfl⟩⟩
  have sized : accented.Sized ∧ plain.Sized := by
    constructor <;> constructor <;> decide
  have whole : ∀ version d, d.Sized → (⟨version, some [d]⟩ : Snapshot).Sized := by
    intro version d small
    constructor
    · exact (by decide : 1 < Item.lengthLimit)
    · exact List.forall_mem_singleton.mpr small
  have short : (⟨1, some [accented]⟩ : Snapshot).Short := by decide
  obtain ⟨-, -, current, -, same⟩ := read_back (whole 1 accented sized.1)
  obtain ⟨-, -, later, -, -⟩ := read_back (whole 7 accented sized.1)
  constructor
  · exact current short valid
  constructor
  · exact later short valid
  · exact (same _ (whole 1 plain sized.2)).mpr rfl

end Snapshot

end ObjectModel
