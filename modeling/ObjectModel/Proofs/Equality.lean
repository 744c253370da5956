import ObjectModel.Proofs.StringHash
import ObjectModel.Proofs.Trail

/-!
Equality and hash codes. A string is compared by its text, and every other object by what it is,
through whichever of its views; only points with an alpha value have an equality of another kind,
which compares these values alone. So the equality of all other handles says that what they are
compared by is the same. It decides their hash codes too, and an object keeps its hash code for
good.
-/

namespace ObjectModel

namespace View
variable {v whole : View}

theorem string_iff_whole (own : v ∈ whole :: whole.embedded) : v = .string ↔ whole = .string := by
  revert own
  cases whole <;> cases v <;> decide

theorem isPoint_eq_whole (own : v ∈ whole :: whole.embedded) : v.isPoint = whole.isPoint := by
  revert own
  cases whole <;> cases v <;> decide

end View

/-- A handle that leads to an object, but not to a point with an alpha value as such a point. -/
def Handle.Ordinary (w : World) (h : Handle) : Prop :=
  h.Valid w ∧ ∃ id v, h = .object id v ∧ v ≠ .alphaPoint

/-- What a handle is compared by. -/
inductive Comparand where
  | text (text : Option Text)
  | object (id : ObjectId)
  | nothing
deriving DecidableEq, Repr

namespace World

def compared (w : World) : Handle → Comparand
  | .object id .string => .text (w.text? id)
  | .object id _ => .object id
  | _ => .nothing

theorem compared_object {w : World} {id : ObjectId} {v : View} (other : v ≠ .string) :
    w.compared (.object id v) = .object id := by
  cases v with
  | string => exact absurd rfl other
  | _ => rfl

/-- The hash code of an object, which is the same through all of its views. -/
def hashOf (w : World) (id : ObjectId) : Int32 :=
  match w.body? id with
  | some (.string c) => c.text.hash
  | some body =>
    match body.coordinates? with
    | some (x, y) => 31 * x + y
    | none => identity id
  | none => identity id

end World

namespace Action

/-- The dispatched equality of two handles returns this answer. -/
def Equates (w : World) (h x : Handle) (answer : Bool) : Prop :=
  (dispatched (fun h => equals h x) h).run w = (.ok answer, w)

/-- The dispatched hash code of a handle is this number. -/
def Hashes (w : World) (h : Handle) (hash : Int32) : Prop :=
  (dispatched hashCode h).run w = (.ok hash, w)

section Hashes
variable {w w' : World} {id : ObjectId} {v : View} {o : Obj}

theorem hashes_identity (found : w.object? id = some o) (other : v ≠ .string)
    (plain : v.isPoint = false) : Hashes w (.object id v) (identity id) := by
  change (hashCode (.object id v)).run w = _
  unfold hashCode
  rw [run_bind, run_target]
  dsimp only
  rw [run_bind, run_object found]
  cases v with
  | string => exact absurd rfl other
  | point | colorPoint | alphaPoint => cases plain
  | _ => rfl

theorem hashes_hashOf (valid : (Handle.object id v).Valid w) :
    Hashes w (.object id v) (w.hashOf id) := by
  obtain ⟨o, found, own⟩ := valid id v rfl
  have string := View.string_iff_whole own
  have point := View.isPoint_eq_whole own
  have held := World.body?_of_object? found
  unfold World.hashOf
  rw [held]
  cases body : o.body with
  | string c =>
    rw [body] at held string
    rw [string.mpr rfl]
    exact run_hashCode_string (World.text?_of_content? (World.content?_iff.mpr held))
  | point | colorPoint | alphaPoint =>
    rw [body] at point
    exact hashCode_point found point (by rw [body]; rfl)
  | _ =>
    rw [body] at string point
    exact hashes_identity found (fun same => by cases string.mp same) point

end Hashes

section Equates
variable {w : World} {h x : Handle}

theorem equates_null (ordinary : h.Ordinary w) (null : x.isNull = true) : Equates w h x false := by
  obtain ⟨-, id, v, rfl, single⟩ := ordinary
  by_cases string : v = .string
  · subst string
    cases x with
    | null | typedNull => rfl
    | blankFlat | object => cases null
  · have answer : Equates w (.object id v) x (x.refersTo id) := run_equals_plain ⟨string, single⟩ x
    cases x with
    | null | typedNull => exact answer
    | blankFlat | object => cases null

/-- A view of a string and a view of another type belong to different objects. -/
theorem ne_of_string {id other : ObjectId} {v : View} (one : (Handle.object id .string).Valid w)
    (two : (Handle.object other v).Valid w) (notString : v ≠ .string) : id ≠ other := by
  rintro rfl
  obtain ⟨o, found, own⟩ := one id .string rfl
  obtain ⟨o', found', own'⟩ := two id v rfl
  rw [found] at found'
  cases found'
  have whole := (View.string_iff_whole own).mp rfl
  exact notString ((View.string_iff_whole own').mpr whole)

theorem text?_of_valid {id : ObjectId} (valid : (Handle.object id .string).Valid w) :
    ∃ t, w.text? id = some t :=
  World.IsString.text? valid.string

theorem run_stringEquals {id id' : ObjectId} {t t' : Text} (has : w.text? id = some t)
    (has' : w.text? id' = some t') :
    (stringEquals (some id) (.object id' .string)).run w = (.ok (t == t'), w) := by
  change (stringText (some id) >>= fun one =>
    stringText (some id') >>= fun two => return one == two).run w = _
  rw [run_bind, run_stringText has]
  dsimp only
  rw [run_bind, run_stringText has']
  rfl

/-- Two handles are equal if they are compared by the same. -/
theorem equates_compared (ordinary : h.Ordinary w) (other : x.Ordinary w) :
    Equates w h x (decide (w.compared h = w.compared x)) := by
  obtain ⟨valid, id, v, rfl, single⟩ := ordinary
  obtain ⟨valid', id', v', rfl, single'⟩ := other
  by_cases string : v = .string <;> by_cases string' : v' = .string
  · subst string string'
    obtain ⟨t, has⟩ := text?_of_valid valid
    obtain ⟨t', has'⟩ := text?_of_valid valid'
    have same : decide (w.compared (.object id .string) = w.compared (.object id' .string)) =
        (t == t') := by
      rw [World.compared, World.compared, has, has', Bool.eq_iff_iff]
      simp
    rw [same]
    exact run_stringEquals has has'
  · subst string
    rw [World.compared, World.compared_object string']
    cases v' with
    | string => exact absurd rfl string'
    | _ => rfl
  · subst string'
    have apart : id ≠ id' := (ne_of_string valid' valid string).symm
    have answer : Equates w (.object id v) (.object id' .string) (id == id') :=
      run_equals_plain ⟨string, single⟩ _
    rw [beq_eq_false_iff_ne.mpr apart] at answer
    rw [World.compared_object string, World.compared]
    exact answer
  · have same : decide (w.compared (.object id v) = w.compared (.object id' v')) = (id == id') := by
      rw [World.compared_object string, World.compared_object string', Bool.eq_iff_iff]
      simp
    rw [same]
    exact run_equals_plain ⟨string, single⟩ _

theorem Equates.unique {one two : Bool} (answer : Equates w h x one) (answer' : Equates w h x two) :
    one = two := by
  rw [Equates, answer] at answer'
  cases answer'
  rfl

theorem equates_true_iff (ordinary : h.Ordinary w) (other : x.Ordinary w) :
    Equates w h x true ↔ w.compared h = w.compared x := by
  have answer := equates_compared ordinary other
  constructor
  · intro equal
    exact of_decide_eq_true (answer.unique equal)
  · intro same
    rw [decide_eq_true same] at answer
    exact answer

theorem hashes_of_compared (ordinary : h.Ordinary w) (other : x.Ordinary w)
    (same : w.compared h = w.compared x) : ∃ hash, Hashes w h hash ∧ Hashes w x hash := by
  obtain ⟨valid, id, v, rfl, -⟩ := ordinary
  obtain ⟨valid', id', v', rfl, -⟩ := other
  by_cases string : v = .string <;> by_cases string' : v' = .string
  · subst string string'
    obtain ⟨t, has⟩ := text?_of_valid valid
    have text : w.text? id = w.text? id' := Comparand.text.inj same
    exact ⟨t.hash, run_hashCode_string has, run_hashCode_string (text ▸ has)⟩
  · subst string
    rw [World.compared, World.compared_object string'] at same
    cases same
  · subst string'
    rw [World.compared, World.compared_object string] at same
    cases same
  · rw [World.compared_object string, World.compared_object string'] at same
    cases same
    exact ⟨w.hashOf id, hashes_hashOf valid, hashes_hashOf valid'⟩

end Equates

end Action

/-- Whatever happens to a world, an object keeps its hash code. -/
theorem Grows.hashOf {w w' : World} (grown : Grows w w') {id : ObjectId} {o : Obj}
    (found : w.object? id = some o) : w'.hashOf id = w.hashOf id := by
  have held := World.body?_of_object? found
  obtain ⟨body', held', kin⟩ := grown.kin held
  unfold World.hashOf
  rw [held, held']
  generalize o.body = body at kin
  cases kin <;> rfl

/-- The equality of ordinary handles is an equivalence relation that agrees with the hash codes, and
no handle is equal to null. -/
structure World.EqualitySound (w : World) : Prop where
  decided : ∀ {h x}, h.Ordinary w → x.Ordinary w →
    Action.Equates w h x (decide (w.compared h = w.compared x))
  refl : ∀ {h}, h.Ordinary w → Action.Equates w h h true
  symm : ∀ {h x answer}, h.Ordinary w → x.Ordinary w → Action.Equates w h x answer →
    Action.Equates w x h answer
  trans : ∀ {h x y}, h.Ordinary w → x.Ordinary w → y.Ordinary w → Action.Equates w h x true →
    Action.Equates w x y true → Action.Equates w h y true
  null : ∀ {h x}, h.Ordinary w → x.isNull = true → Action.Equates w h x false
  hash : ∀ {h x}, h.Ordinary w → x.Ordinary w → Action.Equates w h x true →
    ∃ hash, Action.Hashes w h hash ∧ Action.Hashes w x hash

namespace Script

/-- In every session that a script reaches, the equality of all handles of objects, points with an
alpha value apart, is an equivalence relation that agrees with the hash codes, and the hash code of
a handle stays what it is through all that is performed afterwards. -/
theorem Session.Reachable.equality_sound {s : Session} (reached : s.Reachable) :
    s.world.EqualitySound ∧ ∀ {h}, h.Ordinary s.world →
      ∃ hash, ∀ {done s'}, s.Runs done s' → Action.Hashes s'.world h hash := by
  constructor
  · constructor
    case decided => exact Action.equates_compared
    case refl => exact fun ordinary => (Action.equates_true_iff ordinary ordinary).mpr rfl
    case symm =>
      intro h x answer ordinary other equal
      have same := equal.unique (Action.equates_compared ordinary other)
      rw [same, decide_eq_decide.mpr eq_comm]
      exact Action.equates_compared other ordinary
    case trans =>
      intro h x y one two three equal equal'
      rw [Action.equates_true_iff one two] at equal
      rw [Action.equates_true_iff two three] at equal'
      exact (Action.equates_true_iff one three).mpr (equal.trans equal')
    case null => exact Action.equates_null
    case hash =>
      intro h x ordinary other equal
      exact Action.hashes_of_compared ordinary other
        ((Action.equates_true_iff ordinary other).mp equal)
  · rintro h ⟨valid, id, v, rfl, -⟩
    refine ⟨s.world.hashOf id, fun {done s'} run => ?_⟩
    have grown := (run.evolves reached.valid).1.grows
    obtain ⟨o, found, -⟩ := valid id v rfl
    rw [← grown.hashOf found]
    exact Action.hashes_hashOf (valid.mono grown)

/-- A script that makes two strings of one text and a coloured point. -/
def equalStrings : List Step :=
  [.perform (.object (.newString "abc")) none none,
    .perform (.object (.newString "abc")) none none,
    .perform (.object (.newColorPoint 1 2 .null)) (some "p") none]

theorem equality_sound_equalStrings :
    let start := Session.withVerbosity {} 0
    let s := (start.runAll equalStrings).2
    let w := s.world
    let later := (s.runAll [.perform (.object (.release (.variable "p"))) none none]).2.world
    s.Reachable ∧
    Action.Equates w (.object 0 .string) (.object 1 .string) true ∧
    Action.Equates w (.object 1 .string) (.object 0 .string) true ∧
    (∃ hash, Action.Hashes w (.object 0 .string) hash ∧ Action.Hashes w (.object 1 .string) hash) ∧
    Action.Equates w (.object 8 .point) (.object 8 .colorPoint) true ∧
    Action.Equates w (.object 0 .string) (.object 8 .point) false ∧
    Action.Equates w (.object 8 .point) (.typedNull .string) false ∧
    ∃ hash, Action.Hashes w (.object 8 .point) hash ∧
      Action.Hashes later (.object 8 .point) hash := by
  intro start s w later
  have reached : s.Reachable := (Session.Reachable.start {} 0).runAll equalStrings
  have views : [0, 1, 8].map (fun id => (w.body? id).map Body.view) =
      [some .string, some .string, some .colorPoint] := by decide +kernel
  obtain ⟨first, rest⟩ := List.cons.inj views
  obtain ⟨second, rest⟩ := List.cons.inj rest
  obtain ⟨third, -⟩ := List.cons.inj rest
  have one : (Handle.object 0 .string).Ordinary w :=
    ⟨World.handle_valid_view first (by decide), _, _, rfl, by decide⟩
  have two : (Handle.object 1 .string).Ordinary w :=
    ⟨World.handle_valid_view second (by decide), _, _, rfl, by decide⟩
  have part : (Handle.object 8 .point).Ordinary w :=
    ⟨World.handle_valid_view third (by decide), _, _, rfl, by decide⟩
  have whole : (Handle.object 8 .colorPoint).Ordinary w :=
    ⟨World.handle_valid_view third (by decide), _, _, rfl, by decide⟩
  obtain ⟨sound, lasting⟩ := reached.equality_sound
  have texts : w.compared (.object 0 .string) = w.compared (.object 1 .string) := by
    decide +kernel
  have equal := sound.decided one two
  rw [decide_eq_true texts] at equal
  obtain ⟨hash, stays⟩ := lasting part
  exact ⟨reached, equal, sound.symm one two equal, sound.hash one two equal,
    sound.decided part whole, sound.decided one part, sound.null part rfl, hash,
    stays .refl, stays (Session.runs_trail _ reached.valid)⟩

end Script

end ObjectModel
