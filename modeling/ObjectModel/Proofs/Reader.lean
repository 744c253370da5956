import ObjectModel.Snapshot.Item

/-!
What the reader of items answers. Its answers persist when more input follows: what was read is read
again, with the new input left over, and every complaint is repeated except that the input ends too
early. What was read is no longer than the input it was read from, and no array in it has more
elements than the reader accepts.
-/

namespace ObjectModel.Item

/-- The texts in the item have at most so many bytes, and its arrays are not too long. -/
inductive Within (limit : Nat) : Item → Prop where
  | unsigned (n : Nat) : Within limit (.unsigned n)
  | negative (n : Nat) : Within limit (.negative n)
  | bytes (chunks : List Text) : Within limit (.bytes chunks)
  | text {chunks : List Text} : chunks.flatten.length ≤ limit → Within limit (.text chunks)
  | array {items : List Item} : items.length ≤ maxElements → (∀ item ∈ items, Within limit item) →
      Within limit (.array items)
  | map {entries : List Item} : (∀ item ∈ entries, Within limit item) → Within limit (.map entries)
  | tag {content : Item} (number : Nat) : Within limit content → Within limit (.tag number content)
  | simple (value : Nat) : Within limit (.simple value)
  | float (width bits : Nat) : Within limit (.float width bits)

/-- An answer, and the answer when `more` follows the input. They are the same, except that `more`
is left over and that input which was cut short may be read now. -/
inductive Persists {α : Type} (more : Text) (holds : α → Text → Prop) :
    Except Malformed (α × Text) → Except Malformed (α × Text) → Prop where
  | read {a : α} {rest : Text} (has : holds a rest) :
      Persists more holds (.ok (a, rest)) (.ok (a, rest ++ more))
  | refused (cause : Malformed) : Persists more holds (.error cause) (.error cause)
  | cut {longer : Except Malformed (α × Text)} : Persists more holds (.error .truncated) longer

namespace Persists
variable {α β : Type} {more : Text} {P : α → Text → Prop} {Q : β → Text → Prop}
  {short long short' long' : Except Malformed (α × Text)}

theorem imp {P' : α → Text → Prop} (persists : Persists more P short long)
    (weaker : ∀ a rest, P a rest → P' a rest) : Persists more P' short long := by
  cases persists with
  | read has => exact .read (weaker _ _ has)
  | refused cause => exact .refused cause
  | cut => exact .cut

theorem bind {next next' : α × Text → Except Malformed (β × Text)}
    (first : Persists more P short long)
    (later : ∀ a rest, P a rest → Persists more Q (next (a, rest)) (next' (a, rest ++ more))) :
    Persists more Q (short >>= next) (long >>= next') := by
  cases first with
  | read has => exact later _ _ has
  | refused cause => exact .refused cause
  | cut => exact .cut

theorem ite {c : Prop} [Decidable c] (pos : c → Persists more P short long)
    (neg : ¬ c → Persists more P short' long') :
    Persists more P (if c then short else short') (if c then long else long') := by
  split
  · exact pos ‹_›
  · exact neg ‹_›

/-- A result is not changed by what follows the input. -/
theorem of_ok {a : α} {rest : Text} (persists : Persists more P (.ok (a, rest)) long) :
    P a rest ∧ long = .ok (a, rest ++ more) := by
  cases persists with
  | read has => exact ⟨has, rfl⟩

end Persists

section Strings
variable (more : Text)

theorem takeBytes_persists (n : Nat) (input : Text) :
    Persists more (fun front rest => front.length + rest.length = input.length)
      (takeBytes n input) (takeBytes n (input ++ more)) := by
  by_cases enough : n ≤ input.length
  · have short : takeBytes n input = .ok (input.take n, input.drop n) := by
      simp [takeBytes, enough]
    have long : takeBytes n (input ++ more) = .ok (input.take n, input.drop n ++ more) := by
      simp [takeBytes, List.take_append_of_le_length enough, List.drop_append_of_le_length enough,
        enough]
    rw [short, long]
    refine .read ?_
    rw [← List.length_append, List.take_append_drop]
  · have few : ¬ (input.take n).length = n := by
      rw [List.length_take]
      omega
    have short : takeBytes n input = .error .truncated := if_neg few
    rw [short]
    exact .cut

theorem readHead_persists (input : Text) :
    Persists more (fun _ rest => rest.length < input.length)
      (readHead input) (readHead (input ++ more)) := by
  cases input with
  | nil => exact .cut
  | cons b tail =>
    have next : tail.length < (b :: tail).length := Nat.lt_succ_self _
    rw [List.cons_append, readHead, readHead]
    refine .ite (fun _ => .read next) fun _ => ?_
    cases argumentWidth (b.toNat % 32) with
    | none => exact .ite (fun _ => .read next) fun _ => .refused _
    | some width =>
      refine (takeBytes_persists more width tail).bind fun field rest length => ?_
      refine .ite (fun _ => .refused _) fun _ => .read ?_
      omega

theorem readString_persists (h : Head) (input : Text) :
    Persists more (fun chunk rest => chunk.length + rest.length = input.length)
      (readString h input) (readString h (input ++ more)) :=
  .ite (fun _ => .refused _) fun _ => takeBytes_persists more h.argument input

theorem readChunks_persists (major : Nat) {fuel fuel' : Nat} (enough : fuel ≤ fuel')
    (input : Text) (chunks : List Text) :
    Persists more
      (fun all rest => all.flatten.length + rest.length ≤ chunks.flatten.length + input.length)
      (readChunks major fuel input chunks) (readChunks major fuel' (input ++ more) chunks) := by
  induction fuel generalizing fuel' input chunks with
  | zero => exact .cut
  | succ fuel ih =>
    obtain ⟨fuel', rfl⟩ : ∃ n, fuel' = n + 1 := ⟨fuel' - 1, by omega⟩
    cases input with
    | nil => exact .cut
    | cons b tail =>
      rw [List.cons_append, readChunks, readChunks]
      refine .ite (fun _ => .read ?_) fun _ => .ite (fun _ => .refused _) fun _ => ?_
      · simp
      · refine (readHead_persists more (b :: tail)).bind fun h rest shorter => ?_
        refine (readString_persists more h rest).bind fun chunk rest' length => ?_
        refine (ih (Nat.le_of_succ_le_succ enough) rest' (chunk :: chunks)).imp
          fun all rest'' bound => ?_
        rw [List.flatten_cons, List.length_append] at bound
        omega

theorem readText_persists (h : Head) {fuel fuel' : Nat} (enough : fuel ≤ fuel') (input : Text) :
    Persists more (fun chunks rest => chunks.flatten.length + rest.length ≤ input.length)
      (readText h fuel input) (readText h fuel' (input ++ more)) := by
  unfold readText
  refine .ite (fun _ => ?_) fun _ => ?_
  · refine (readChunks_persists more h.major enough input []).imp fun chunks rest bound => ?_
    simpa using bound
  · refine (readString_persists more h input).bind fun chunk rest length => .read ?_
    rw [List.flatten_singleton]
    exact Nat.le_of_eq length

end Strings

theorem within_ofSimple (limit : Nat) (h : Head) : (ofSimple h).Within limit := by
  unfold ofSimple
  split
  · exact .float _ _
  · exact .float _ _
  · exact .float _ _
  · exact .simple _

theorem within_collection {limit major : Nat} {items : List Item}
    (within : ∀ item ∈ items, item.Within limit) (few : major = 4 → items.length ≤ maxElements) :
    (collection major items).Within limit := by
  unfold collection
  split
  · exact .array (few ‹_›) within
  · exact .map within

theorem itemCount_le {h : Head} {count : Nat} (counted : itemCount h = .ok count)
    (array : h.major = 4) : count ≤ maxElements := by
  unfold itemCount at counted
  split at counted
  · cases counted
  · split at counted
    · cases counted
      assumption
    · cases counted

theorem le_of_not_overfull {major count : Nat} (fits : overfull major count = none)
    (array : major = 4) : count ≤ maxElements := by
  simp only [overfull, if_pos array] at fits
  split at fits
  · cases fits
  · omega

/-- What was read from some input: the rest is not longer, and the item is within the limit. -/
def ReadFrom (limit : Nat) (input : Text) (item : Item) (rest : Text) : Prop :=
  rest.length ≤ input.length ∧ item.Within limit

/-- The answers of all parts of the reader persist, also if it gets more fuel along with more
input. -/
structure Steady (limit : Nat) (more : Text) (fuel : Nat) : Prop where
  item : ∀ {fuel'}, fuel ≤ fuel' → ∀ depth {input}, input.length ≤ limit →
    Persists more (ReadFrom limit input)
      (readItem fuel depth input) (readItem fuel' depth (input ++ more))
  many : ∀ {fuel'}, fuel ≤ fuel' → ∀ depth {major count input items}, input.length ≤ limit →
    (∀ item ∈ items, item.Within limit) → (major = 4 → items.length + count ≤ maxElements) →
    Persists more (ReadFrom limit input)
      (readMany fuel depth major count input items)
      (readMany fuel' depth major count (input ++ more) items)
  unclosed : ∀ {fuel'}, fuel ≤ fuel' → ∀ depth {major input items}, input.length ≤ limit →
    (∀ item ∈ items, item.Within limit) → (major = 4 → items.length ≤ maxElements) →
    Persists more (ReadFrom limit input)
      (readOpen fuel depth major items.length input items)
      (readOpen fuel' depth major items.length (input ++ more) items)
  tagged : ∀ {fuel'}, fuel ≤ fuel' → ∀ depth number {input}, input.length ≤ limit →
    Persists more (ReadFrom limit input)
      (readTagged fuel depth number input) (readTagged fuel' depth number (input ++ more))

section Items
variable {limit fuel fuel' : Nat} {more input : Text} {items : List Item}

theorem ReadFrom.trans {input' rest : Text} {item : Item} (read : ReadFrom limit input' item rest)
    (shorter : input'.length ≤ input.length) : ReadFrom limit input item rest :=
  ⟨Nat.le_trans read.1 shorter, read.2⟩

theorem Steady.readItem_succ (steady : Steady limit more fuel) (enough : fuel ≤ fuel')
    (depth : Nat) (inside : input.length ≤ limit) :
    Persists more (ReadFrom limit input)
      (readItem (fuel + 1) depth input) (readItem (fuel' + 1) depth (input ++ more)) := by
  rw [readItem, readItem]
  refine (readHead_persists more input).bind fun h rest shorter => ?_
  have shorter := Nat.le_of_lt shorter
  have inside' : rest.length ≤ limit := Nat.le_trans shorter inside
  dsimp only
  split
  · exact .read ⟨shorter, .unsigned _⟩
  · exact .read ⟨shorter, .negative _⟩
  · refine (readText_persists more h enough rest).bind fun chunks tail bound => ?_
    have tail_le : tail.length ≤ input.length := by omega
    exact .read ⟨tail_le, .bytes _⟩
  · refine (readText_persists more h enough rest).bind fun chunks tail bound => ?_
    have tail_le : tail.length ≤ input.length := by omega
    have short : chunks.flatten.length ≤ limit := by omega
    exact .read ⟨tail_le, .text short⟩
  · exact (steady.tagged enough depth _ inside').imp fun _ _ read => read.trans shorter
  · exact .read ⟨shorter, within_ofSimple limit h⟩
  · refine .ite (fun _ => .refused _) fun _ => .ite (fun _ => ?_) fun _ => ?_
    · exact (steady.unclosed enough (depth + 1) inside' (List.forall_mem_nil _)
        fun _ => Nat.zero_le _).imp fun _ _ read => read.trans shorter
    · cases counted : itemCount h with
      | error cause => exact .refused cause
      | ok count =>
        have few : h.major = 4 → 0 + count ≤ maxElements := by
          intro array
          rw [Nat.zero_add]
          exact itemCount_le counted array
        exact (steady.many enough (depth + 1) inside' (List.forall_mem_nil _) few).imp
          fun _ _ read => read.trans shorter

theorem Steady.readMany_succ (steady : Steady limit more fuel) (enough : fuel ≤ fuel')
    (depth : Nat) {major count : Nat} (inside : input.length ≤ limit)
    (within : ∀ item ∈ items, item.Within limit)
    (few : major = 4 → items.length + count ≤ maxElements) :
    Persists more (ReadFrom limit input)
      (readMany (fuel + 1) depth major count input items)
      (readMany (fuel' + 1) depth major count (input ++ more) items) := by
  cases count with
  | zero =>
    rw [readMany, readMany]
    refine .read ⟨Nat.le_refl _, within_collection ?_ ?_⟩
    · simpa using within
    · simpa using few
  | succ count =>
    rw [readMany, readMany]
    refine (steady.item enough depth inside).bind fun item rest read => ?_
    refine (steady.many enough depth (Nat.le_trans read.1 inside)
      (List.forall_mem_cons.mpr ⟨read.2, within⟩) fun array => ?_).imp
      fun _ _ later => later.trans read.1
    have room := few array
    rw [List.length_cons]
    omega

theorem Steady.readOpen_succ (steady : Steady limit more fuel) (enough : fuel ≤ fuel')
    (depth : Nat) {major : Nat} (inside : input.length ≤ limit)
    (within : ∀ item ∈ items, item.Within limit)
    (few : major = 4 → items.length ≤ maxElements) :
    Persists more (ReadFrom limit input)
      (readOpen (fuel + 1) depth major items.length input items)
      (readOpen (fuel' + 1) depth major items.length (input ++ more) items) := by
  cases input with
  | nil =>
    rw [readOpen]
    exact .cut
  | cons b tail =>
    rw [List.cons_append, readOpen, readOpen]
    refine .ite (fun _ => .ite (fun _ => .refused _) fun _ => .read ⟨?_, ?_⟩) fun _ => ?_
    · exact Nat.le_succ _
    · apply within_collection
      · simpa using within
      · simpa using few
    · refine (steady.item enough depth inside).bind fun item rest read => ?_
      dsimp only
      cases fits : overfull major (items.length + 1) with
      | some problem => exact .refused problem
      | none =>
        exact (steady.unclosed enough depth (Nat.le_trans read.1 inside)
          (List.forall_mem_cons.mpr ⟨read.2, within⟩) (le_of_not_overfull fits)).imp
          fun _ _ later => later.trans read.1

theorem Steady.readTagged_succ (steady : Steady limit more fuel) (enough : fuel ≤ fuel')
    (depth number : Nat) (inside : input.length ≤ limit) :
    Persists more (ReadFrom limit input)
      (readTagged (fuel + 1) depth number input)
      (readTagged (fuel' + 1) depth number (input ++ more)) := by
  cases input with
  | nil =>
    rw [readTagged]
    exact .cut
  | cons b tail =>
    rw [List.cons_append, readTagged, readTagged]
    refine .ite (fun _ => ?_) fun _ => ?_
    · refine (readHead_persists more (b :: tail)).bind fun h rest shorter => ?_
      have shorter := Nat.le_of_lt shorter
      refine .ite (fun _ => .refused _) fun _ => ?_
      refine (steady.tagged enough (depth + 1) _ (Nat.le_trans shorter inside)).bind
        fun content rest read => ?_
      exact .read ⟨Nat.le_trans read.1 shorter, .tag number read.2⟩
    · refine (steady.item enough depth inside).bind fun content rest read => ?_
      exact .read ⟨read.1, .tag number read.2⟩

theorem steady (limit : Nat) (more : Text) (fuel : Nat) : Steady limit more fuel := by
  induction fuel with
  | zero =>
    constructor
    · intros
      rw [readItem]
      exact .cut
    · intros
      rw [readMany]
      exact .cut
    · intros
      rw [readOpen]
      exact .cut
    · intros
      rw [readTagged]
      exact .cut
  | succ fuel ih =>
    have spare {fuel' : Nat} (enough : fuel + 1 ≤ fuel') : ∃ n, fuel' = n + 1 ∧ fuel ≤ n :=
      ⟨fuel' - 1, by omega, by omega⟩
    constructor
    · intro fuel' enough depth input inside
      obtain ⟨n, rfl, left⟩ := spare enough
      exact ih.readItem_succ left depth inside
    · intro fuel' enough depth major count input items inside within few
      obtain ⟨n, rfl, left⟩ := spare enough
      exact ih.readMany_succ left depth inside within few
    · intro fuel' enough depth major input items inside within few
      obtain ⟨n, rfl, left⟩ := spare enough
      exact ih.readOpen_succ left depth inside within few
    · intro fuel' enough depth number input inside
      obtain ⟨n, rfl, left⟩ := spare enough
      exact ih.readTagged_succ left depth number inside

/-- What the reader answers to some input it also answers when more input follows. -/
theorem readItem_persists (enough : fuel ≤ fuel') (depth : Nat) (input more : Text) :
    Persists more (ReadFrom input.length input)
      (readItem fuel depth input) (readItem fuel' depth (input ++ more)) :=
  (steady input.length more fuel).item enough depth (Nat.le_refl _)

end Items

theorem read_of_ne_nil {input : Text} (some_byte : input ≠ []) :
    read input = (do
      let answer ← readItem (4 * input.length + 4) 0 input
      if answer.2.isEmpty then pure answer.1 else throw .leftover) := by
  have nonempty : input.isEmpty = false := by simpa using some_byte
  simp only [read, nonempty, Bool.false_eq_true, if_false]

/-- An item that is the whole input is within the length of the input. -/
theorem within_of_read {input : Text} {item : Item} (whole : read input = .ok item) :
    item.Within input.length := by
  have some_byte : input ≠ [] := by
    rintro rfl
    cases whole
  rw [read_of_ne_nil some_byte] at whole
  have persists := readItem_persists (Nat.le_refl (4 * input.length + 4)) 0 input []
  cases answer : readItem (4 * input.length + 4) 0 input with
  | error cause =>
    rw [answer] at whole
    cases whole
  | ok found =>
    rw [answer] at whole persists
    have same : found.1 = item := by
      simp only [bind, Except.bind] at whole
      split at whole
      · exact Except.ok.inj whole
      · cases whole
    exact same ▸ persists.of_ok.1.2

end ObjectModel.Item
