import ObjectModel.Proofs.ClassTable

/-!
The contents of strings. Whatever way the pieces of contents are joined, the recorded length is that
of the text and a position leads to the byte of the text. Strings keep their contents for good, and
joining two strings makes one whose text is the one text followed by the other.
-/

namespace ObjectModel

namespace Rope

theorem length_text {r : Rope} (measured : r.Measured) : r.text.length = r.length := by
  induction r with
  | piece t => rfl
  | join n left right left_length right_length =>
    obtain ⟨one, other, sum⟩ := measured
    rw [text, List.length_append, left_length one, right_length other, length, sum]

theorem byte?_eq {r : Rope} (measured : r.Measured) (i : Nat) : r.byte? i = r.text[i]? := by
  induction r generalizing i with
  | piece t => rfl
  | join n left right left_byte right_byte =>
    obtain ⟨one, other, -⟩ := measured
    rw [byte?, text, List.getElem?_append, length_text one, left_byte one, right_byte other]

end Rope

namespace Content

theorem text_append (c d : Content) : (c ++ d).text = c.text ++ d.text := rfl

theorem length_eq (c : Content) : c.length = c.text.length := (Rope.length_text c.measured).symm

theorem byte?_eq (c : Content) (i : Nat) : c.byte? i = c.text[i]? := Rope.byte?_eq c.measured i

end Content

namespace World

/-- The contents of a string as they are printed, null as a word. -/
def printedContent (w : World) : Option ObjectId → Content
  | none => .ofText "null"
  | some s => (w.content? s).getD (.ofText [])

/-- A string as it is printed, null as a word. -/
def printed (w : World) : Option ObjectId → Text
  | none => "null"
  | some s => (w.text? s).getD []

section Strings
variable {w w' : World} {s : ObjectId} {c : Content} {t : Text}

theorem content_of_text? (has : w.text? s = some t) : ∃ c, w.content? s = some c ∧ c.text = t :=
  Option.map_eq_some_iff.mp has

theorem text?_of_content? (has : w.content? s = some c) : w.text? s = some c.text := by
  rw [text?, has, Option.map_some]

theorem content?_iff : w.content? s = some c ↔ w.body? s = some (.string c) := by
  unfold content?
  cases w.body? s with
  | none => simp
  | some body => cases body <;> simp

theorem IsString.text? (string : w.IsString s) : ∃ t, w.text? s = some t := by
  obtain ⟨c, has⟩ := string
  exact ⟨c.text, text?_of_content? (content?_iff.mpr has)⟩

theorem text_printedContent (w : World) (s : Option ObjectId) :
    (w.printedContent s).text = w.printed s := by
  cases s with
  | none => rfl
  | some s =>
    rw [printedContent, printed, World.text?]
    cases w.content? s <;> rfl

theorem content?_new (c : Content) :
    (w.push .string (.string c)).content? w.objects.size = some c := by
  rw [content?_iff, body?, object?_push, if_pos rfl]
  rfl

theorem text?_new (t : Text) : (w.push .string (.string t)).text? w.objects.size = some t :=
  text?_of_content? (content?_new t)

end Strings

end World

section Persistence
variable {w w' : World} {s : ObjectId}

theorem Grows.content? (grown : Grows w w') {c : Content} (has : w.content? s = some c) :
    w'.content? s = some c := by
  rw [World.content?_iff] at has ⊢
  exact grown.body? has (by simp [Body.view])

theorem Grows.text? (grown : Grows w w') {t : Text} (has : w.text? s = some t) :
    w'.text? s = some t := by
  obtain ⟨c, held, rfl⟩ := World.content_of_text? has
  exact World.text?_of_content? (grown.content? held)

theorem World.IsString.mono (string : w.IsString s) (grown : Grows w w') : w'.IsString s := by
  obtain ⟨c, has⟩ := string
  exact ⟨c, grown.body? has (by simp [Body.view])⟩

theorem Grows.printed (grown : Grows w w') {other : Option ObjectId}
    (spelt : ∀ s ∈ other, w.IsString s) : w'.printed other = w.printed other := by
  cases other with
  | none => rfl
  | some s =>
    obtain ⟨t, has⟩ := (spelt s rfl).text?
    rw [World.printed, World.printed, has, grown.text? has]

end Persistence

namespace Action

section Strings
variable {w : World} {s : ObjectId} {c : Content} {t : Text}

theorem run_stringContent (has : w.content? s = some c) :
    (stringContent (some s)).run w = (.ok c, w) := by
  change (demand (w.content? s)).run w = _
  rw [has]
  rfl

theorem run_stringText (has : w.text? s = some t) : (stringText (some s)).run w = (.ok t, w) := by
  obtain ⟨c, held, rfl⟩ := World.content_of_text? has
  unfold stringText
  rw [run_bind, run_stringContent held]
  rfl

theorem run_printedContent {other : Option ObjectId} (spelt : ∀ s ∈ other, w.IsString s) :
    (printedContent other).run w = (.ok (w.printedContent other), w) := by
  cases other with
  | none => rfl
  | some s =>
    obtain ⟨c, has⟩ := spelt s rfl
    have held := World.content?_iff.mpr has
    rw [World.printedContent, held]
    exact run_stringContent held

theorem run_printedText {other : Option ObjectId} (spelt : ∀ s ∈ other, w.IsString s) :
    (printedText other).run w = (.ok (w.printed other), w) := by
  unfold printedText
  rw [run_bind, run_printedContent spelt, ← World.text_printedContent]
  rfl

theorem run_concat {other : Option ObjectId} (has : w.content? s = some c)
    (spelt : ∀ s ∈ other, w.IsString s) : (concat (some s) other).run w =
      (.ok w.objects.size, w.push .string (.string (c ++ w.printedContent other))) := by
  unfold concat
  rw [run_bind, run_stringContent has]
  dsimp only
  rw [run_bind, run_printedContent spelt]
  rfl

end Strings

end Action

end ObjectModel
