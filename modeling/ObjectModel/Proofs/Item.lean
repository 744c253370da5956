import Mathlib.Algebra.Group.Nat.Defs
import Mathlib.Tactic.SplitIfs
import ObjectModel.Snapshot.Item

/-!
Items written and read again. The reader gets back the head that the writer wrote, and from that,
level by level, the whole item; only an array with too many elements stops it. Encodings are also
uniquely decipherable, too long arrays included, so two items with the same bytes are the same.
-/

namespace ObjectModel.Item

theorem length_bytesOf (n value : Nat) : (bytesOf n value).length = n := by
  induction n generalizing value with
  | zero => rfl
  | succ n ih => simp [bytesOf, ih]

theorem bigEndian_append (front : Text) (b : UInt8) :
    bigEndian (front ++ [b]) = bigEndian front * 256 + b.toNat := by
  simp [bigEndian]

theorem bigEndian_bytesOf {n value : Nat} (fits : value < 256 ^ n) :
    bigEndian (bytesOf n value) = value := by
  induction n generalizing value with
  | zero =>
    have zero : value = 0 := by simpa using fits
    rw [zero]
    rfl
  | succ n ih =>
    have high : value / 256 < 256 ^ n := by
      rw [Nat.pow_succ] at fits
      omega
    have low : (UInt8.ofNat (value % 256)).toNat = value % 256 := by
      simp
    rw [bytesOf, bigEndian_append, ih high, low]
    omega

theorem takeBytes_append (front rest : Text) :
    takeBytes front.length (front ++ rest) = .ok (front, rest) := by
  simp [takeBytes]

/-- The five low bits of the shortest head for an argument. -/
def headInfo (argument : Nat) : Nat :=
  if argument < 24 then argument
  else if argument < 0x100 then 24
  else if argument < 0x10000 then 25
  else if argument < 0x100000000 then 26
  else 27

/-- The heads in use: simple values have a short argument, all others one of 64 bits. -/
def FitsHead (major argument : Nat) : Prop :=
  major < 7 ∧ argument < 0x10000000000000000 ∨ major = 7 ∧ argument < 24

section Heads
variable {major info : Nat}

theorem first_toNat (small : major < 8) (low : info < 32) :
    (UInt8.ofNat (32 * major + info)).toNat = 32 * major + info := by
  rw [UInt8.toNat_ofNat']
  omega

theorem readHead_short (small : major < 8) (low : info < 24) (rest : Text) :
    readHead (UInt8.ofNat (32 * major + info) :: rest) = .ok (⟨major, info, info⟩, rest) := by
  have byte := first_toNat small (Nat.lt_trans low (by decide : 24 < 32))
  have high : (32 * major + info) / 32 = major := by omega
  have rem : (32 * major + info) % 32 = info := by omega
  simp only [readHead, byte, high, rem, if_pos low]
  rfl

theorem readHead_long (small : major < 7) {width argument : Nat} (long : 24 ≤ info)
    (low : info < 32) (wide : argumentWidth info = some width) (fits : argument < 256 ^ width)
    (rest : Text) :
    readHead (UInt8.ofNat (32 * major + info) :: bytesOf width argument ++ rest) =
      .ok (⟨major, info, argument⟩, rest) := by
  have byte := first_toNat (Nat.lt_succ_of_lt small) low
  have high : (32 * major + info) / 32 = major := by omega
  have rem : (32 * major + info) % 32 = info := by omega
  have taken := takeBytes_append (bytesOf width argument) rest
  rw [length_bytesOf] at taken
  have notSimple : ¬ (major = 7 ∧ info = 24 ∧ argument < 32) := by omega
  simp only [List.cons_append, readHead, byte, high, rem, if_neg (Nat.not_lt_of_le long), wide]
  simp only [taken, bind, Except.bind, bigEndian_bytesOf fits, if_neg notSimple]
  rfl

theorem readHead_encodeHead {argument : Nat} (fits : FitsHead major argument) (rest : Text) :
    readHead (encodeHead major argument ++ rest) =
      .ok (⟨major, headInfo argument, argument⟩, rest) := by
  have small : major < 8 := by rcases fits with ⟨_, _⟩ | ⟨_, _⟩ <;> omega
  unfold encodeHead headInfo
  split
  · rename_i short
    exact readHead_short small short rest
  · rename_i long
    have inner : major < 7 ∧ argument < 0x10000000000000000 := by
      rcases fits with fits | ⟨_, short⟩
      · exact fits
      · exact absurd short long
    split
    · rename_i below
      exact readHead_long inner.1 (by decide) (by decide) rfl below rest
    split
    · rename_i below
      exact readHead_long inner.1 (by decide) (by decide) rfl below rest
    split
    · rename_i below
      exact readHead_long inner.1 (by decide) (by decide) rfl below rest
    · exact readHead_long inner.1 (by decide) (by decide) rfl inner.2 rest

end Heads

theorem headInfo_ne_open {argument : Nat} : headInfo argument ≠ 31 := by
  unfold headInfo
  split_ifs <;> omega

theorem eq_of_encodeHead_append {major major' argument argument' : Nat} {rest rest' : Text}
    (fits : FitsHead major argument) (fits' : FitsHead major' argument')
    (same : encodeHead major argument ++ rest = encodeHead major' argument' ++ rest') :
    major = major' ∧ argument = argument' ∧ rest = rest' := by
  have read := readHead_encodeHead fits rest
  rw [same, readHead_encodeHead fits' rest'] at read
  simp only [Except.ok.injEq, Prod.mk.injEq, Head.mk.injEq] at read
  exact ⟨read.1.1.symm, read.1.2.2.symm, read.2.symm⟩

theorem length_encodeHead_pos (major argument : Nat) : 0 < (encodeHead major argument).length := by
  unfold encodeHead
  dsimp only
  split_ifs <;> simp

/-- An item that the writer can write in full, with arrays and maps at most so deep: arguments fit
their heads, strings are in one piece and maps hold pairs. -/
inductive Writable : (depth : Nat) → Item → Prop where
  | unsigned {depth n : Nat} : n < 0x10000000000000000 → Writable depth (.unsigned n)
  | negative {depth n : Nat} : n < 0x10000000000000000 → Writable depth (.negative n)
  | text {depth : Nat} {t : Text} : t.length < lengthLimit → Writable depth (.text [t])
  | simple {depth value : Nat} : value < 24 → Writable depth (.simple value)
  | array {depth : Nat} {items : List Item} : items.length < lengthLimit →
      (∀ item ∈ items, Writable depth item) → Writable (depth + 1) (.array items)
  | map {depth pairs : Nat} {entries : List Item} : entries.length = 2 * pairs →
      pairs ≤ maxElements → (∀ item ∈ entries, Writable depth item) →
      Writable (depth + 1) (.map entries)

/-- Some array in the item has more elements than the reader accepts. -/
inductive Overlong : Item → Prop where
  | here {items : List Item} : maxElements < items.length → Overlong (.array items)
  | element {items : List Item} {item : Item} : item ∈ items → Overlong item →
      Overlong (.array items)
  | entry {entries : List Item} {item : Item} : item ∈ entries → Overlong item →
      Overlong (.map entries)

/-- The argument of an item's head: its value, or the length of what follows. -/
def argument : Item → Nat
  | .unsigned n | .negative n | .simple n | .tag n _ => n
  | .bytes chunks | .text chunks => chunks.flatten.length
  | .array items => items.length
  | .map entries => entries.length / 2
  | .float _ bits => bits

def major : Item → Nat
  | .unsigned _ => 0
  | .negative _ => 1
  | .bytes _ => 2
  | .text _ => 3
  | .array _ => 4
  | .map _ => 5
  | .tag _ _ => 6
  | .simple _ | .float _ _ => 7

/-- What follows the head. -/
def payload : Item → Text
  | .bytes chunks | .text chunks => chunks.flatten
  | .array items | .map items => encodeAll items
  | .tag _ content => content.encode
  | _ => []

namespace Writable
variable {depth : Nat} {item : Item}

theorem encode_eq (writable : Writable depth item) :
    item.encode = encodeHead item.major item.argument ++ item.payload := by
  cases writable <;> simp [encode, encodeText, major, argument, payload]

theorem fits (writable : Writable depth item) : FitsHead item.major item.argument := by
  have length : lengthLimit < 0x10000000000000000 := by decide
  cases writable with
  | unsigned below => exact .inl ⟨Nat.zero_lt_succ 6, below⟩
  | negative below => exact .inl ⟨Nat.one_lt_succ_succ 5, below⟩
  | text short =>
    have inside := Nat.lt_trans short length
    left
    simpa [major, argument] using inside
  | simple small => exact .inr ⟨rfl, small⟩
  | array short _ =>
    have inside := Nat.lt_trans short length
    left
    simpa [major, argument] using inside
  | map paired few _ =>
    have limit : maxElements < 0x10000000000000000 := by decide
    left
    simp only [major, argument]
    omega

theorem length_encode_pos (writable : Writable depth item) : 0 < item.encode.length := by
  have head := length_encodeHead_pos item.major item.argument
  rw [writable.encode_eq, List.length_append]
  omega

theorem readHead_encode (writable : Writable depth item) (rest : Text) :
    readHead (item.encode ++ rest) =
      .ok (⟨item.major, headInfo item.argument, item.argument⟩, item.payload ++ rest) := by
  rw [writable.encode_eq, List.append_assoc, readHead_encodeHead writable.fits]

end Writable

/-- The reader's answer to an encoded item: the item and what follows it, unless it is overlong. -/
def ReadsBack (depth : Nat) (item : Item) : Prop :=
  ∀ fuel level rest, 2 * item.encode.length ≤ fuel → level + depth ≤ maxDepth →
    (item.Overlong → readItem fuel level (item.encode ++ rest) = .error .tooManyElements) ∧
    (¬ item.Overlong → readItem fuel level (item.encode ++ rest) = .ok (item, rest))

section Reading
variable {depth fuel level : Nat} {items : List Item}

/-- The items of an array or map are read one by one, up to the first that is overlong. -/
theorem readMany_encodeAll (major : Nat) (writable : ∀ item ∈ items, Writable depth item)
    (reads : ∀ item ∈ items, ReadsBack depth item) (enough : 2 * (encodeAll items).length < fuel)
    (shallow : level + depth ≤ maxDepth) (rest : Text) (before : List Item) :
    ((∃ item ∈ items, item.Overlong) →
      readMany fuel level major items.length (encodeAll items ++ rest) before =
        .error .tooManyElements) ∧
    ((∀ item ∈ items, ¬ item.Overlong) →
      readMany fuel level major items.length (encodeAll items ++ rest) before =
        .ok (collection major (before.reverse ++ items), rest)) := by
  induction items generalizing fuel before with
  | nil =>
    obtain ⟨fuel, rfl⟩ : ∃ n, fuel = n + 1 := ⟨fuel - 1, by omega⟩
    simp [readMany, encodeAll]
    rfl
  | cons item items ih =>
    obtain ⟨fuel, rfl⟩ : ∃ n, fuel = n + 1 := ⟨fuel - 1, by omega⟩
    have some_byte := (writable item List.mem_cons_self).length_encode_pos
    rw [encodeAll, List.length_append] at enough
    obtain ⟨first_long, first_short⟩ :=
      reads item List.mem_cons_self fuel level (encodeAll items ++ rest) (by omega) shallow
    have room : 2 * (encodeAll items).length < fuel := by omega
    obtain ⟨rest_long, rest_short⟩ :=
      ih (fun i mem => writable i (List.mem_cons_of_mem _ mem))
        (fun i mem => reads i (List.mem_cons_of_mem _ mem)) room (item :: before)
    simp only [encodeAll, List.append_assoc, List.length_cons, readMany]
    by_cases long : item.Overlong
    · have failed := first_long long
      simp [failed, bind, Except.bind, long]
    · have read := first_short long
      simp only [read, bind, Except.bind, List.mem_cons, exists_eq_or_imp, forall_eq_or_imp, long,
        false_or, not_false_eq_true, true_and]
      constructor
      · exact rest_long
      · intro short
        rw [rest_short short]
        simp

theorem ReadsBack.of_leaf {item : Item} (writable : Writable depth item)
    (leaf : ¬ item.Overlong)
    (reads : ∀ fuel level rest,
      readItem (fuel + 1) level (item.encode ++ rest) = .ok (item, rest)) :
    ReadsBack depth item := by
  intro fuel level rest enough _
  have some_byte := writable.length_encode_pos
  obtain ⟨fuel, rfl⟩ : ∃ n, fuel = n + 1 := ⟨fuel - 1, by omega⟩
  exact ⟨fun long => absurd long leaf, fun _ => reads fuel level rest⟩

theorem readItem_collection {item : Item} (writable : Writable depth item)
    (several : item.major = 4 ∨ item.major = 5) (shallow : level < maxDepth) (rest : Text) :
    readItem (fuel + 1) level (item.encode ++ rest) = (do
      let count ← itemCount ⟨item.major, headInfo item.argument, item.argument⟩
      readMany fuel (level + 1) item.major count (item.payload ++ rest) []) := by
  have closed : (headInfo item.argument == 31) = false := by
    simpa using headInfo_ne_open
  rw [readItem, writable.readHead_encode]
  rcases several with array | map
  · simp [array, bind, Except.bind, Nat.not_le_of_lt shallow, Head.isOpen, closed]
  · simp [map, bind, Except.bind, Nat.not_le_of_lt shallow, Head.isOpen, closed]

theorem ofSimple_headInfo {value : Nat} (small : value < 24) :
    ofSimple ⟨7, headInfo value, value⟩ = .simple value := by
  simp only [headInfo, if_pos small]
  unfold ofSimple
  split
  iterate 3
    rename_i wide
    dsimp only at wide
    omega
  rfl

theorem readsBack_text {t : Text} (short : t.length < lengthLimit) :
    ReadsBack depth (.text [t]) := by
  have writable : Writable depth (.text [t]) := .text short
  have closed : (headInfo t.length == 31) = false := by
    simpa using headInfo_ne_open
  apply ReadsBack.of_leaf writable (by rintro ⟨⟩)
  intro fuel level rest
  have taken := takeBytes_append t rest
  rw [readItem, writable.readHead_encode]
  simp [major, argument, payload, readText, Head.isOpen, closed, readString, taken,
    Nat.not_le_of_lt short, bind, Except.bind, pure, Except.pure]

theorem readsBack_array {items : List Item} (short : items.length < lengthLimit)
    (writable : ∀ item ∈ items, Writable depth item)
    (reads : ∀ item ∈ items, ReadsBack depth item) :
    ReadsBack (depth + 1) (.array items) := by
  intro fuel level rest enough shallow
  have whole : Writable (depth + 1) (.array items) := .array short writable
  have some_byte := length_encodeHead_pos 4 items.length
  obtain ⟨fuel, rfl⟩ : ∃ n, fuel = n + 1 := ⟨fuel - 1, by have := whole.length_encode_pos; omega⟩
  have room : 2 * (encodeAll items).length < fuel := by
    rw [encode, List.length_append] at enough
    omega
  have below : level + 1 + depth ≤ maxDepth := by omega
  obtain ⟨long_item, short_items⟩ :=
    readMany_encodeAll 4 writable reads room below rest []
  rw [readItem_collection whole (.inl rfl) (by omega)]
  by_cases few : items.length ≤ maxElements
  · have count : itemCount ⟨4, headInfo items.length, items.length⟩ = .ok items.length := by
      simp [itemCount, Nat.not_le_of_lt short, few]
    simp only [major, argument, payload, count, bind, Except.bind]
    constructor
    · rintro (many | ⟨mem, long⟩)
      · omega
      · exact long_item ⟨_, mem, long⟩
    · intro plain
      exact short_items fun item mem long => plain (.element mem long)
  · have count : itemCount ⟨4, headInfo items.length, items.length⟩ = .error .tooManyElements := by
      simp [itemCount, Nat.not_le_of_lt short, few]
    simp only [major, argument, count, bind, Except.bind]
    exact ⟨fun _ => trivial, fun plain => absurd (.here (Nat.lt_of_not_le few)) plain⟩

theorem readsBack_map {pairs : Nat} {entries : List Item} (paired : entries.length = 2 * pairs)
    (few : pairs ≤ maxElements) (writable : ∀ item ∈ entries, Writable depth item)
    (reads : ∀ item ∈ entries, ReadsBack depth item) :
    ReadsBack (depth + 1) (.map entries) := by
  intro fuel level rest enough shallow
  have whole : Writable (depth + 1) (.map entries) := .map paired few writable
  have some_byte := length_encodeHead_pos 5 (entries.length / 2)
  obtain ⟨fuel, rfl⟩ : ∃ n, fuel = n + 1 := ⟨fuel - 1, by have := whole.length_encode_pos; omega⟩
  have room : 2 * (encodeAll entries).length < fuel := by
    rw [encode, List.length_append] at enough
    omega
  have below : level + 1 + depth ≤ maxDepth := by omega
  obtain ⟨long_item, short_items⟩ :=
    readMany_encodeAll 5 writable reads room below rest []
  have half : entries.length / 2 = pairs := by omega
  have limit : maxElements < lengthLimit := by decide
  have count : itemCount ⟨5, headInfo pairs, pairs⟩ = .ok entries.length := by
    simp [itemCount, Nat.not_le_of_lt (Nat.lt_of_le_of_lt few limit), few, paired]
  rw [readItem_collection whole (.inr rfl) (by omega)]
  simp only [major, argument, payload, half, count, bind, Except.bind]
  constructor
  · rintro (_ | _ | ⟨mem, long⟩)
    exact long_item ⟨_, mem, long⟩
  · intro plain
    exact short_items fun item mem long => plain (.entry mem long)

/-- Every item that can be written is read back. -/
theorem Writable.readsBack {item : Item} (writable : Writable depth item) :
    ReadsBack depth item := by
  induction writable with
  | unsigned below =>
    have written : Writable 0 _ := .unsigned below
    apply ReadsBack.of_leaf (.unsigned below) (by rintro ⟨⟩)
    intro fuel level rest
    rw [readItem, written.readHead_encode]
    rfl
  | negative below =>
    have written : Writable 0 _ := .negative below
    apply ReadsBack.of_leaf (.negative below) (by rintro ⟨⟩)
    intro fuel level rest
    rw [readItem, written.readHead_encode]
    rfl
  | text short => exact readsBack_text short
  | simple small =>
    have written : Writable 0 _ := .simple small
    apply ReadsBack.of_leaf (.simple small) (by rintro ⟨⟩)
    intro fuel level rest
    rw [readItem, written.readHead_encode]
    simp only [major, argument, payload, bind, Except.bind, ofSimple_headInfo small]
    rfl
  | array short inner ih => exact readsBack_array short inner ih
  | map paired few inner ih => exact readsBack_map paired few inner ih

/-- An encoded item is read as that item, unless one of its arrays is too long. -/
theorem Writable.read_encode {item : Item} (writable : Writable depth item)
    (shallow : depth ≤ maxDepth) :
    (item.Overlong → read item.encode = .error .tooManyElements) ∧
    (¬ item.Overlong → read item.encode = .ok item) := by
  have some_byte := writable.length_encode_pos
  have nonempty : item.encode.isEmpty = false := by
    simpa using List.ne_nil_of_length_pos some_byte
  have reads := writable.readsBack (4 * item.encode.length + 4) 0 [] (by omega) (by omega)
  rw [List.append_nil] at reads
  constructor
  · intro long
    simp [read, nonempty, reads.1 long, bind, Except.bind]
  · intro short
    simp [read, nonempty, reads.2 short, bind, Except.bind, pure, Except.pure]

end Reading

/-- Encodings of items that can be written determine the item and what follows it. -/
def Decipherable (item : Item) : Prop :=
  ∀ depth other rest rest', Writable depth other → item.encode ++ rest = other.encode ++ rest' →
    item = other ∧ rest = rest'

theorem encodeAll_decipherable {depth : Nat} {items others : List Item} {rest rest' : Text}
    (decipherable : ∀ item ∈ items, Decipherable item)
    (writable : ∀ item ∈ others, Writable depth item) (aligned : items.length = others.length)
    (same : encodeAll items ++ rest = encodeAll others ++ rest') :
    items = others ∧ rest = rest' := by
  induction items generalizing others with
  | nil =>
    cases others with
    | nil => exact ⟨rfl, same⟩
    | cons other others => simp at aligned
  | cons item items ih =>
    cases others with
    | nil => simp at aligned
    | cons other others =>
      simp only [encodeAll, List.append_assoc] at same
      obtain ⟨first, tails⟩ := decipherable item List.mem_cons_self depth other _ _
        (writable other List.mem_cons_self) same
      have later := ih (fun i mem => decipherable i (List.mem_cons_of_mem _ mem))
        (fun i mem => writable i (List.mem_cons_of_mem _ mem)) (Nat.succ.inj aligned) tails
      rw [first, later.1]
      exact ⟨rfl, later.2⟩

theorem Writable.parts_eq {depth depth' : Nat} {item other : Item} {rest rest' : Text}
    (writable : Writable depth item) (written : Writable depth' other)
    (same : item.encode ++ rest = other.encode ++ rest') :
    item.major = other.major ∧ item.argument = other.argument ∧
      item.payload ++ rest = other.payload ++ rest' := by
  rw [writable.encode_eq, written.encode_eq, List.append_assoc, List.append_assoc] at same
  exact eq_of_encodeHead_append writable.fits written.fits same

/-- Items without parts. -/
theorem Writable.decipherable_leaf {depth : Nat} {item : Item} (writable : Writable depth item)
    (leaf : item.major = 0 ∨ item.major = 1 ∨ item.major = 7) : Decipherable item := by
  intro depth' other rest rest' written same
  obtain ⟨kind, value, after⟩ := writable.parts_eq written same
  cases writable <;> cases written <;> simp_all [major, argument, payload]

theorem Writable.decipherable {depth : Nat} {item : Item} (writable : Writable depth item) :
    Decipherable item := by
  induction writable with
  | unsigned below =>
    have writable : Writable 0 _ := .unsigned below
    exact writable.decipherable_leaf (.inl rfl)
  | negative below =>
    have writable : Writable 0 _ := .negative below
    exact writable.decipherable_leaf (.inr (.inl rfl))
  | simple small =>
    have writable : Writable 0 _ := .simple small
    exact writable.decipherable_leaf (.inr (.inr rfl))
  | text short =>
    intro depth other rest rest' written same
    have written' : Writable 0 _ := .text short
    obtain ⟨kind, size, after⟩ := written'.parts_eq written same
    cases written with
    | text short' =>
      have pieces := List.append_inj after size
      simpa [payload] using pieces
    | _ => simp [major] at kind
  | array short inner ih =>
    intro depth other rest rest' written same
    obtain ⟨kind, size, after⟩ := (Writable.array short inner).parts_eq written same
    cases written with
    | array short' inner' =>
      obtain ⟨items, tails⟩ := encodeAll_decipherable ih inner' size after
      exact ⟨congrArg _ items, tails⟩
    | _ => simp [major] at kind
  | map paired few inner ih =>
    intro depth other rest rest' written same
    obtain ⟨kind, size, after⟩ := (Writable.map paired few inner).parts_eq written same
    cases written with
    | map paired' few' inner' =>
      simp only [argument] at size
      obtain ⟨entries, tails⟩ := encodeAll_decipherable ih inner' (by omega) after
      exact ⟨congrArg _ entries, tails⟩
    | _ => simp [major] at kind

theorem Writable.encode_injective {depth depth' : Nat} {item other : Item}
    (writable : Writable depth item) (written : Writable depth' other)
    (same : item.encode = other.encode) : item = other := by
  apply And.left
  apply writable.decipherable depth' other [] [] written
  rw [same]

end ObjectModel.Item
