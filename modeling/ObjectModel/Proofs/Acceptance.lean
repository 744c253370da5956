import ObjectModel.Proofs.Codec
import ObjectModel.Proofs.Reader

/-!
What the reader of snapshots accepts. However an item spells a snapshot, with texts in chunks, open
lists, tags, nulls, unknown or repeated keys, the snapshot that is read has valid texts no longer
than the input and lists within the limit. So it can be written, and what is written is read as the
same snapshot, up to empty lists of slots.
-/

namespace ObjectModel

theorem Text.IsUtf8.append {s t : Text} (first : s.IsUtf8) (second : t.IsUtf8) :
    (s ++ t).IsUtf8 := by
  obtain ⟨codes, scalars, rfl⟩ := first
  obtain ⟨codes', scalars', rfl⟩ := second
  refine ⟨codes ++ codes', ?_, List.flatMap_append.symm⟩
  intro code member
  exact (List.mem_append.mp member).elim (scalars code) (scalars' code)

theorem Text.IsUtf8.flatten {chunks : List Text} (valid : ∀ t ∈ chunks, t.IsUtf8) :
    Text.IsUtf8 chunks.flatten := by
  induction chunks with
  | nil => exact .nil
  | cons t rest ih =>
    obtain ⟨first, later⟩ := List.forall_mem_cons.mp valid
    exact first.append (ih later)

namespace Item

/-- A result, if there is one, has the property. -/
def Returns {α : Type} (P : α → Prop) (r : Except Mismatch α) : Prop := ∀ a, r = .ok a → P a

namespace Returns
variable {α β : Type} {P : α → Prop} {Q : β → Prop}

theorem pure {a : α} (has : P a) : Returns P (pure a) := by
  rintro _ ⟨rfl⟩
  exact has

theorem error (cause : Mismatch) : Returns P (.error cause) := nofun

theorem any (r : Except Mismatch α) : Returns (fun _ => True) r := fun _ _ => trivial

theorem bind {r : Except Mismatch α} {next : α → Except Mismatch β} (first : Returns P r)
    (later : ∀ a, P a → Returns Q (next a)) : Returns Q (r >>= next) := by
  cases r with
  | error cause => exact .error cause
  | ok a => exact later a (first a rfl)

theorem map {r : Except Mismatch α} {f : α → β} (first : Returns P r) (has : ∀ a, P a → Q (f a)) :
    Returns Q (f <$> r) := by
  cases r with
  | error cause => exact .error cause
  | ok a => exact .pure (has a (first a rfl))

theorem ite {c : Prop} [Decidable c] {r r' : Except Mismatch α} (pos : Returns P r)
    (neg : Returns P r') : Returns P (if c then r else r') := by
  split
  · exact pos
  · exact neg

end Returns

/-- Valid text of at most so many bytes. -/
structure ValidText (limit : Nat) (t : Text) : Prop where
  utf8 : t.IsUtf8
  short : t.length ≤ limit

theorem ValidText.nil (limit : Nat) : ValidText limit [] := ⟨.nil, Nat.zero_le limit⟩

/-- Contents whose texts are valid, and whose parts are within the limits. -/
inductive Content.Sound (limit : Nat) : Content → Prop where
  | integer (value : Int) : Sound limit (.integer value)
  | text {value : Text} (valid : ValidText limit value) : Sound limit (.text value)
  | array {items : List Item} (few : items.length ≤ maxElements)
      (within : ∀ item ∈ items, item.Within limit) : Sound limit (.array items)
  | map {entries : List Item} (within : ∀ item ∈ entries, item.Within limit) :
      Sound limit (.map entries)
  | simple (value : Nat) : Sound limit (.simple value)
  | other : Sound limit .other

section Contents
variable {limit : Nat} {item : Item}

theorem joinText_valid {chunks : List Text} (short : chunks.flatten.length ≤ limit) :
    Returns (ValidText limit) (joinText chunks) := by
  unfold joinText
  split
  · rename_i valid
    apply Returns.pure
    constructor
    · apply Text.IsUtf8.flatten
      intro t member
      exact Text.isUtf8_iff.mp (List.all_eq_true.mp valid t member)
    · exact short
  · exact .error _

theorem text_sound {chunks : List Text} (within : (text chunks).Within limit) :
    Returns (Content.Sound limit) (do return .text (← joinText chunks)) := by
  cases within with
  | text short => exact (joinText_valid short).bind fun t valid => .pure (.text valid)

theorem content_sound (within : item.Within limit) :
    Returns (Content.Sound limit) item.content := by
  fun_induction content item with
  | case4 chunks => exact text_sound within
  | case5 items =>
    cases within with
    | array few inner => exact .pure (.array few inner)
  | case6 entries =>
    cases within with
    | map inner => exact .pure (.map inner)
  | case7 value => exact .pure (.simple value)
  | case9 chunks =>
    cases within with
    | tag _ inner => exact text_sound inner
  | case19 number item =>
    rename_i ih
    cases within with
    | tag _ inner => exact ih inner
  | case3 | case8 | case13 => exact .pure .other
  | case10 | case14 | case16 | case18 => exact .error _
  | _ => exact .pure (.integer _)

theorem toText_valid (within : item.Within limit) : Returns (ValidText limit) item.toText := by
  refine (content_sound within).bind fun c sound => ?_
  cases sound with
  | text valid => exact .pure valid
  | simple value => exact .ite (.pure (.nil limit)) (.error _)
  | _ => exact .error _

variable {α : Type} {P : α → Prop}

theorem mapM_returns {read : Item → Except Mismatch α} {items : List Item}
    (each : ∀ item ∈ items, Returns P (read item)) :
    Returns (fun as => as.length = items.length ∧ ∀ a ∈ as, P a) (items.mapM read) := by
  induction items with
  | nil => exact .pure ⟨rfl, List.forall_mem_nil P⟩
  | cons item rest ih =>
    rw [List.mapM_cons]
    obtain ⟨first, later⟩ := List.forall_mem_cons.mp each
    refine first.bind fun a has => (ih later).bind fun as found => .pure ⟨?_, ?_⟩
    · rw [List.length_cons, List.length_cons, found.1]
    · exact List.forall_mem_cons.mpr ⟨has, found.2⟩

/-- A list, if it is there, has only so many elements, each with the property. -/
def ListOf (P : α → Prop) (list : Option (List α)) : Prop :=
  ∀ as ∈ list, as.length ≤ maxElements ∧ ∀ a ∈ as, P a

theorem toList_returns {read : Item → Except Mismatch α} (within : item.Within limit)
    (each : ∀ item, item.Within limit → Returns P (read item)) :
    Returns (ListOf P) (item.toList read) := by
  refine (content_sound within).bind fun c sound => ?_
  cases sound with
  | array few inner =>
    refine (mapM_returns fun item member => each item (inner item member)).bind fun as found => ?_
    apply Returns.pure
    rintro _ ⟨rfl⟩
    exact ⟨found.1 ▸ few, found.2⟩
  | simple value => exact .ite (.pure fun _ impossible => nomatch impossible) (.error _)
  | _ => exact .error _

section Records
variable {field : α → Nat → Item → Except Mismatch α}
  (step : ∀ record number value, P record → value.Within limit →
    Returns P (field record number value))
include step

theorem fields_returns {entries : List Item} (within : ∀ item ∈ entries, item.Within limit)
    {record : α} (has : P record) : Returns P (toRecord.fields field record entries) := by
  fun_induction toRecord.fields field record entries with
  | case1 record key value rest ih ih' =>
    obtain ⟨-, second, later⟩ : key.Within limit ∧ value.Within limit ∧
        ∀ item ∈ rest, item.Within limit := by simpa using within
    refine (Returns.any key.fieldNumber).bind fun n _ => ?_
    cases n with
    | none => exact ih' later has
    | some n => exact (step record n value has second).bind fun next kept => ih next later kept
  | case2 record => exact .pure has

/-- Reading a record keeps what holds of the blank record and is kept by every field. -/
theorem toRecord_returns {blank : α} (has : P blank) (within : item.Within limit) :
    Returns P (item.toRecord blank field) := by
  refine (content_sound within).bind fun c sound => ?_
  cases sound with
  | map inner => exact fields_returns step inner has
  | simple value => exact .ite (.pure has) (.error _)
  | _ => exact .error _

end Records

end Contents

end Item

namespace Descriptor

/-- A descriptor as it is read from so many bytes. -/
structure Accepted (limit : Nat) (d : Descriptor) : Prop where
  texts : ∀ t ∈ d.texts, Item.ValidText limit t
  slots : d.slotList.length ≤ Item.maxElements

structure Draft.Sound (limit : Nat) (d : Draft) : Prop where
  name : ∀ t ∈ d.name, Item.ValidText limit t
  superclass : ∀ t ∈ d.superclass, Item.ValidText limit t
  component : ∀ t ∈ d.component, Item.ValidText limit t
  slots : ∀ list ∈ d.slots, Item.ListOf (Item.ValidText limit) list

section Drafts
variable {limit : Nat} {d : Draft}

theorem Draft.Sound.field (sound : d.Sound limit) (number : Nat) {value : Item}
    (within : value.Within limit) : Item.Returns (Draft.Sound limit) (d.field number value) := by
  have text := Item.toText_valid within
  have list := Item.toList_returns within fun item => Item.toText_valid
  have filled {α : Type} {P : α → Prop} {a : α} (has : P a) : ∀ b ∈ some a, P b := by
    rintro _ ⟨rfl⟩
    exact has
  unfold Draft.field
  split
  · exact .ite (.pure sound) (text.bind fun t valid => .pure { sound with name := filled valid })
  · exact .ite (.pure sound)
      (text.bind fun t valid => .pure { sound with superclass := filled valid })
  · exact .ite (.pure sound)
      (text.bind fun t valid => .pure { sound with component := filled valid })
  · exact .ite (.pure sound) ((Item.Returns.any _).bind fun b _ => .pure { sound with })
  · exact .ite (.pure sound) ((Item.Returns.any _).bind fun n _ => .pure { sound with })
  · exact .ite (.pure sound) (list.bind fun l valid => .pure { sound with slots := filled valid })
  · exact .pure sound

theorem Draft.Sound.finish (sound : d.Sound limit) : d.finish.Accepted limit := by
  have text {t : Option Text} (valid : ∀ u ∈ t, Item.ValidText limit u) :
      Item.ValidText limit (t.getD []) := by
    cases t with
    | none => exact .nil limit
    | some u => exact valid u rfl
  have slots : d.finish.slotList.length ≤ Item.maxElements ∧
      ∀ t ∈ d.finish.slotList, Item.ValidText limit t := by
    rcases held : d.slots with _ | _ | ts
    · simp [Draft.finish, slotList, held]
    · simp [Draft.finish, slotList, held]
    · have listed := sound.slots _ held ts rfl
      simpa [Draft.finish, slotList, held] using listed
  constructor
  · simp only [Descriptor.texts, List.forall_mem_cons]
    exact ⟨text sound.name, text sound.superclass, text sound.component, slots.2⟩
  · exact slots.1

theorem ofItem_accepted {item : Item} (within : item.Within limit) :
    Item.Returns (Accepted limit) (ofItem item) := by
  have blank : Draft.Sound limit {} := by
    constructor <;> exact fun _ impossible => nomatch impossible
  exact (Item.toRecord_returns (fun _ number _ sound => sound.field number) blank within).map
    fun _ sound => sound.finish

end Drafts

theorem norm_norm (d : Descriptor) : d.norm.norm = d.norm := by
  rcases d with ⟨_, _, _, _, _, _ | _ | _⟩ <;> rfl

end Descriptor

namespace Snapshot

/-- A snapshot as it is read from so many bytes. -/
def Accepted (limit : Nat) (s : Snapshot) : Prop :=
  Item.ListOf (Descriptor.Accepted limit) s.classes

def Draft.Sound (limit : Nat) (s : Draft) : Prop :=
  ∀ list ∈ s.classes, Item.ListOf (Descriptor.Accepted limit) list

section Drafts
variable {limit : Nat} {s : Draft}

theorem Draft.Sound.field (sound : s.Sound limit) (number : Nat) {value : Item}
    (within : value.Within limit) : Item.Returns (Draft.Sound limit) (s.field number value) := by
  have list := Item.toList_returns within fun item => Descriptor.ofItem_accepted
  unfold Draft.field
  split
  · exact .ite (.pure sound) ((Item.Returns.any _).bind fun n _ => .pure sound)
  · refine .ite (.pure sound) (list.bind fun l accepted => .pure ?_)
    rintro _ ⟨rfl⟩
    exact accepted
  · exact .pure sound

theorem Draft.Sound.finish (sound : s.Sound limit) : s.finish.Accepted limit := by
  cases held : s.classes with
  | none => simp [Accepted, Draft.finish, held, Item.ListOf]
  | some list =>
    rw [Accepted, Draft.finish, held]
    exact sound list held

theorem ofItem_accepted {item : Item} (within : item.Within limit) :
    Item.Returns (Accepted limit) (ofItem item) := by
  have blank : Draft.Sound limit {} := fun _ impossible => nomatch impossible
  exact (Item.toRecord_returns (fun _ number _ sound => sound.field number) blank within).map
    fun _ sound => sound.finish

end Drafts

section Accepted
variable {limit : Nat} {s : Snapshot}

theorem Accepted.short (accepted : s.Accepted limit) : s.Short := by
  cases held : s.classes with
  | none => simp [Short, descriptors, held]
  | some ds =>
    obtain ⟨few, each⟩ := accepted ds held
    rw [Short, descriptors, held, Option.getD_some]
    exact ⟨few, fun d member => (each d member).slots⟩

theorem Accepted.descriptor (accepted : s.Accepted limit) {d : Descriptor}
    (member : d ∈ s.descriptors) : d.Accepted limit := by
  cases held : s.classes with
  | none => simp [descriptors, held] at member
  | some ds =>
    rw [descriptors, held] at member
    exact (accepted ds held).2 d member

theorem Accepted.sized (accepted : s.Accepted limit) (held : limit < Item.lengthLimit) :
    s.Sized := by
  have few : Item.maxElements < Item.lengthLimit := by decide
  constructor
  · exact Nat.lt_of_le_of_lt accepted.short.1 few
  · intro d member
    have described := accepted.descriptor member
    constructor
    · intro t inside
      exact Nat.lt_of_le_of_lt (described.texts t inside).short held
    · exact Nat.lt_of_le_of_lt described.slots few

theorem Accepted.utf8 (accepted : s.Accepted limit) : ∀ t ∈ s.texts, t.IsUtf8 := by
  intro t member
  obtain ⟨d, listed, inside⟩ := List.mem_flatMap.mp member
  exact ((accepted.descriptor listed).texts t inside).utf8

end Accepted

theorem norm_norm (s : Snapshot) : s.norm.norm = s.norm := by
  simp [norm, Function.comp_def, Descriptor.norm_norm]

theorem accepted_of_decode {input : Text} {s : Snapshot} (decoded : decode input = .ok s) :
    s.Accepted input.length ∧ s.version = currentVersion := by
  unfold decode at decoded
  split at decoded
  · cases decoded
  · rename_i item whole
    split at decoded
    · cases decoded
    · rename_i t read
      split at decoded
      · rename_i current
        cases decoded
        exact ⟨ofItem_accepted (Item.within_of_read whole) _ read, current⟩
      · cases decoded

/-- Whatever is accepted has the current version, valid texts and lists within the limit; written
and read again it is the same but for empty lists of slots, and from then on the bytes stay the
same. The input has a length that a machine with 63 bits for lengths can hold. -/
theorem accepted_rewritten {input : Text} {s : Snapshot} (held : input.length < Item.lengthLimit)
    (decoded : decode input = .ok s) :
    s.version = 1 ∧ s.Short ∧ (∀ t ∈ s.texts, t.IsUtf8) ∧
      decode (encode (some s)) = .ok s.norm ∧ encode (some s.norm) = encode (some s) := by
  obtain ⟨accepted, current⟩ := accepted_of_decode decoded
  have short := accepted.short
  have valid := accepted.utf8
  have checked : s.texts.all Text.isUtf8 = true :=
    List.all_eq_true.mpr fun t member => Text.isUtf8_iff.mpr (valid t member)
  have again := (accepted.sized held).decode_encode
  rw [if_neg (not_not_intro short), if_neg (not_not_intro checked), if_pos current] at again
  have same : s.norm.toItem = s.toItem := toItem_eq_iff.mpr s.norm_norm
  exact ⟨current, short, valid, again, congrArg Item.encode same⟩

/-- An open map with a version in two bytes, an open list, a name in two chunks, no slots and an
unknown key. -/
theorem accepted_rewritten_openMap :
    let input : Text := [0xBF, 0x01, 0x18, 0x01, 0x02, 0x9F, 0xBF, 0x06, 0x80, 0x01, 0x7F, 0x61,
      0x50, 0x61, 0x74, 0xFF, 0xFF, 0xFF, 0x61, 0x63, 0xF6, 0xFF]
    let s : Snapshot := ⟨1, some [{ name := "Pt", slots := some [] }]⟩
    input.length < Item.lengthLimit ∧ decode input = .ok s ∧
      decode (encode (some s)) = .ok ⟨1, some [{ name := "Pt" }]⟩ ∧
      encode (some ⟨1, some [{ name := "Pt" }]⟩) = encode (some s) := by
  intro input s
  have held : input.length < Item.lengthLimit := by decide
  have read : (decode input).toOption = some s := by decide +kernel
  have decoded : decode input = .ok s := by
    cases ran : decode input with
    | error e =>
      rw [ran] at read
      cases read
    | ok t =>
      rw [ran] at read
      exact congrArg Except.ok (Option.some.inj read)
  obtain ⟨-, -, -, again, same⟩ := accepted_rewritten held decoded
  exact ⟨held, decoded, again, same⟩

end Snapshot

end ObjectModel
