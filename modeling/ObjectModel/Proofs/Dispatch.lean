import ObjectModel.Proofs.Content
import ObjectModel.Proofs.Views

/-!
Dispatched operations through the parts of an object. A view answers with the operations of its own
type, not with those of the whole object. For hash codes this makes no difference, as no type that
embeds another has a hash code of its own. It makes one for the equality of points with an alpha
value, and for the text of a coloured point that is seen as a mere point.
-/

namespace ObjectModel

def Handle.refersTo (id : ObjectId) : Handle → Bool
  | .object other _ => id == other
  | _ => false

def pointText (x y : Int32) : Text :=
  "(" ++ Text.ofInt x.toInt ++ "," ++ Text.ofInt y.toInt ++ ")"

namespace World

/-- Is the handle that of an alpha point with the same alpha value as the object? -/
def alphaAlike (w : World) (id : ObjectId) : Handle → Bool
  | .object other .alphaPoint => (w.body? id).bind Body.alpha? == (w.body? other).bind Body.alpha?
  | _ => false

section Texts
variable {w : World} {id : ObjectId} {o : Obj}

/-- An object with parts has a position, and its colour is a string. -/
theorem WellFormed.point_with_parts (well : w.WellFormed) (found : w.object? id = some o)
    (several : o.body.view.embedded ≠ []) :
    (∃ x y, o.body.coordinates? = some (x, y)) ∧ ∀ s ∈ o.body.color?, w.IsString s := by
  have sound : o.body.InOrder w := by
    cases well.born found with
    | metaclass _ _ _ body =>
      rw [body] at several
      exact absurd rfl several
    | allocation born kin =>
      generalize o.table = table at born
      cases born with
      | member _ sound =>
        generalize o.body = held at kin several
        cases kin with
        | same => exact sound
        | _ => exact absurd rfl several
      | _ =>
        rw [kin.view_eq] at several
        exact absurd rfl several
  cases shape : o.body with
  | colorPoint x y color =>
    rw [shape] at sound
    exact ⟨⟨x, y, rfl⟩, sound⟩
  | alphaPoint x y color alpha =>
    rw [shape] at sound
    exact ⟨⟨x, y, rfl⟩, sound⟩
  | _ =>
    rw [shape] at several
    exact absurd rfl several

end Texts

end World

namespace Action

/-- A dispatched operation as programs call it, on handles that are not null. -/
def dispatched {α : Type} (operation : Handle → Action α) (h : Handle) : Action α := do
  checkNotNull h
  operation h

/-- Run in this world, the text of the handle is the given one. -/
def Renders (w : World) (h : Handle) (t : Text) : Prop :=
  ∃ id w', (dispatched toString h).run w = (.ok id, w') ∧ w'.text? id = some t

section Parts
variable {w : World} {id : ObjectId} {o : Obj} {v : View} {x y : Int32}

theorem run_target (id : ObjectId) (v : View) (w : World) :
    (target (.object id v)).run w = (.ok id, w) :=
  rfl

theorem hashCode_point (found : w.object? id = some o) (point : v.isPoint = true)
    (here : o.body.coordinates? = some (x, y)) :
    (dispatched hashCode (.object id v)).run w = (.ok (31 * x + y), w) := by
  change (hashCode (.object id v)).run w = _
  unfold hashCode
  rw [run_bind, run_target]
  dsimp only
  rw [run_bind, run_object found]
  cases v with
  | point | colorPoint | alphaPoint =>
    simp only [here]
    rfl
  | _ => cases point

theorem Renders.unique {h : Handle} {t t' : Text} (one : Renders w h t) (other : Renders w h t') :
    t = t' := by
  obtain ⟨id, w', ran, has⟩ := one
  obtain ⟨id', w'', ran', has'⟩ := other
  rw [ran] at ran'
  cases ran'
  exact Option.some.inj (has.symm.trans has')

theorem renders_point (found : w.object? id = some o)
    (here : o.body.coordinates? = some (x, y)) : Renders w (.object id .point) (pointText x y) := by
  refine ⟨w.objects.size, w.push .string (.string (pointText x y)), ?_, World.text?_new _⟩
  change (object id >>= fun o =>
    demand o.body.coordinates? >>= fun p => pointToString p.1 p.2).run w = _
  rw [run_bind, run_object found]
  dsimp only
  rw [here]
  rfl

/-- The text of a coloured point is its position and its colour. -/
def coloredText (w : World) (x y : Int32) (color : Option ObjectId) : Text :=
  pointText x y ++ (" " ++ w.printed color)

theorem pointText_ne_coloredText (x y : Int32) (color : Option ObjectId) :
    pointText x y ≠ coloredText w x y color := by
  intro same
  have longer := congrArg List.length same
  have blank : (" " : Text).length = 1 := by decide
  rw [coloredText, List.length_append, List.length_append, blank] at longer
  omega

/-- Makes the text of a coloured point out of those of its position and its colour. -/
def coloredToString (x y : Int32) (color : Option ObjectId) : Action ObjectId := do
  let position ← pointToString x y
  let color ← newString (" " ++ (← printedText color))
  concat (some position) (some color)

/-- The world with the texts of a position and of a colour. -/
def withPartTexts (w : World) (x y : Int32) (color : Option ObjectId) : World :=
  (w.push .string (.string (pointText x y))).push .string
    (.string (.ofText (" " ++ w.printed color)))

def coloredContent (w : World) (x y : Int32) (color : Option ObjectId) : Content :=
  .ofText (pointText x y) ++ .ofText (" " ++ w.printed color)

theorem run_coloredToString {color : Option ObjectId}
    (colored : ∀ s ∈ color, w.IsString s) (x y : Int32) :
    (coloredToString x y color).run w = (.ok (withPartTexts w x y color).objects.size,
      (withPartTexts w x y color).push .string (.string (coloredContent w x y color))) := by
  let w₁ := w.push .string (.string (pointText x y))
  have grown : Grows w w₁ := .push w _ _
  have position : (withPartTexts w x y color).content? w.objects.size = some (pointText x y) :=
    (Grows.push w₁ _ _).content? (World.content?_new _)
  have spoken : (withPartTexts w x y color).content? w₁.objects.size =
      some (.ofText (" " ++ w.printed color)) :=
    World.content?_new _
  have spelt : (printedText color).run w₁ = (.ok (w.printed color), w₁) := by
    rw [run_printedText fun s member => (colored s member).mono grown, grown.printed colored]
  have string : ∀ s ∈ some w₁.objects.size, (withPartTexts w x y color).IsString s := by
    rintro _ ⟨rfl⟩
    exact ⟨_, World.content?_iff.mp spoken⟩
  have joined := run_concat position string
  rw [World.printedContent, spoken] at joined
  change (do
    let color ← newString (" " ++ (← printedText color))
    concat (some w.objects.size) (some color) : Action ObjectId).run w₁ = _
  rw [run_bind, spelt]
  exact joined

theorem renders_colored (found : w.object? id = some o)
    (here : o.body.coordinates? = some (x, y))
    (colored : ∀ s ∈ o.body.color?, w.IsString s)
    (own : v = .colorPoint ∨ v = .alphaPoint) :
    Renders w (.object id v) (coloredText w x y o.body.color?) := by
  have read : (dispatched toString (.object id v)).run w =
      (object id >>= fun o => demand o.body.coordinates? >>= fun p =>
        coloredToString p.1 p.2 o.body.color?).run w := by
    rcases own with rfl | rfl
    · rfl
    · rfl
  rw [run_bind, run_object found] at read
  dsimp only at read
  rw [here] at read
  exact ⟨_, _, read.trans (run_coloredToString colored x y),
    World.text?_of_content? (World.content?_new _)⟩

/-- A view whose type has no equality of its own is equal to the handles of the same object. -/
theorem run_equals_plain (plain : v ≠ .string ∧ v ≠ .alphaPoint) (x : Handle) :
    (dispatched (fun h => equals h x) (.object id v)).run w = (.ok (x.refersTo id), w) := by
  have inherited : (dispatched (fun h => equals h x) (.object id v)).run w =
      (objectEquals (.object id v) x).run w := by
    cases v with
    | string => exact absurd rfl plain.1
    | alphaPoint => exact absurd rfl plain.2
    | _ => rfl
  rw [inherited]
  cases x <;> rfl

theorem run_equals_part (part : v = .point ∨ v = .colorPoint) (x : Handle) :
    (dispatched (fun h => equals h x) (.object id v)).run w = (.ok (x.refersTo id), w) := by
  apply run_equals_plain
  rcases part with rfl | rfl <;> decide

theorem run_equals_alpha (found : w.object? id = some o) {x : Handle} (valid : x.Valid w) :
    (dispatched (fun h => equals h x) (.object id .alphaPoint)).run w =
      (.ok (w.alphaAlike id x), w) := by
  cases x with
  | object other u =>
    obtain ⟨that, there, -⟩ := valid other u rfl
    cases u with
    | alphaPoint =>
      change (object id >>= fun o => object other >>= fun that =>
        return o.body.alpha? == that.body.alpha?).run w = _
      rw [run_bind, run_object found]
      dsimp only
      rw [run_bind, run_object there, World.alphaAlike, World.body?, World.body?, found, there]
      rfl
    | _ => rfl
  | _ => rfl

end Parts

end Action

theorem View.part_of_point {v whole : View} (part : v ∈ whole.embedded) :
    (v = .point ∨ v = .colorPoint) ∧ (whole = .colorPoint ∨ whole = .alphaPoint) := by
  cases whole with
  | colorPoint => simp_all [embedded_eq]
  | alphaPoint => simp_all [embedded_eq, or_comm]
  | _ => cases part

namespace Script

/-- In every session that a script reaches, a part of an object has the hash code of the whole
object. It is equal to the same handles as the whole, unless the object has an alpha value: then it
is equal to the handles of the object itself, and the whole to the alpha points with the same
value. Both have a text. A part that is a mere point has the text of the position alone, and so
another text than the whole object; every other part has the text of the whole. -/
theorem Session.Reachable.dispatch_on_part {s : Session} (reached : s.Reachable) {id : ObjectId}
    {o : Obj} {v : View} (found : s.world.object? id = some o) (part : v ∈ o.body.view.embedded) :
    (∃ hash, (Action.dispatched Action.hashCode (.object id v)).run s.world = (.ok hash, s.world) ∧
      (Action.dispatched Action.hashCode (.object id o.body.view)).run s.world =
        (.ok hash, s.world)) ∧
    (∀ x, x.Valid s.world → ∃ one other,
      (Action.dispatched (fun h => Action.equals h x) (.object id v)).run s.world =
        (.ok one, s.world) ∧
      (Action.dispatched (fun h => Action.equals h x) (.object id o.body.view)).run s.world =
        (.ok other, s.world) ∧
      (one = other ↔ (o.body.view = .alphaPoint → x.refersTo id = s.world.alphaAlike id x))) ∧
    (∃ x y, o.body.coordinates? = some (x, y) ∧
      Action.Renders s.world (.object id v)
        (if v = .point then pointText x y else Action.coloredText s.world x y o.body.color?) ∧
      Action.Renders s.world (.object id o.body.view)
        (Action.coloredText s.world x y o.body.color?)) ∧
    ((∃ t, Action.Renders s.world (.object id v) t ∧
      Action.Renders s.world (.object id o.body.view) t) ↔ v ≠ .point) := by
  obtain ⟨⟨x, y, here⟩, colored⟩ :=
    reached.valid.well.point_with_parts found (List.ne_nil_of_mem part)
  obtain ⟨small, large⟩ := View.part_of_point part
  have whole := Action.renders_colored found here colored large
  have piece : Action.Renders s.world (.object id v)
      (if v = .point then pointText x y else Action.coloredText s.world x y o.body.color?) := by
    rcases small with rfl | rfl
    · exact Action.renders_point found here
    · exact Action.renders_colored found here colored (.inl rfl)
  refine ⟨⟨31 * x + y, ?_, ?_⟩, ?_, ⟨x, y, here, piece, whole⟩, ?_⟩
  · apply Action.hashCode_point found _ here
    rcases small with rfl | rfl <;> rfl
  · apply Action.hashCode_point found _ here
    rcases large with large | large <;> rw [large] <;> rfl
  · intro z valid
    have one : (Action.dispatched (fun h => Action.equals h z) (.object id v)).run s.world =
      (.ok (z.refersTo id), s.world) := Action.run_equals_part small z
    rcases large with large | large
    · rw [large]
      exact ⟨_, _, one, Action.run_equals_part (.inr rfl) z, by simp⟩
    · rw [large]
      exact ⟨_, _, one, Action.run_equals_alpha found valid, by simp⟩
  · constructor
    · rintro ⟨t, one, other⟩ rfl
      rw [if_pos rfl] at piece
      exact Action.pointText_ne_coloredText x y _
        ((piece.unique one).trans (other.unique whole))
    · intro more
      rw [if_neg more] at piece
      exact ⟨_, piece, whole⟩

/-- A script that makes two points of the same alpha value, the first one red. -/
def twoLayeredPoints : List Step :=
  [.perform (.object (.newAlphaPoint 1 2 (.string "red") 3)) none none,
    .perform (.object (.newAlphaPoint 4 5 .null 3)) none none]

theorem dispatch_on_part_twoLayeredPoints :
    let s := ((Session.withVerbosity {} 0).runAll twoLayeredPoints).2
    s.Reachable ∧ s.world.body? 9 = some (.alphaPoint 1 2 (some 0) 3) ∧
    (∃ hash, (Action.dispatched Action.hashCode (.object 9 .point)).run s.world =
        (.ok hash, s.world) ∧
      (Action.dispatched Action.hashCode (.object 9 .alphaPoint)).run s.world =
        (.ok hash, s.world)) ∧
    (∃ one other,
      (Action.dispatched (fun h => Action.equals h (.object 10 .alphaPoint)) (.object 9 .point)).run
        s.world = (.ok one, s.world) ∧
      (Action.dispatched (fun h => Action.equals h (.object 10 .alphaPoint))
        (.object 9 .alphaPoint)).run s.world = (.ok other, s.world) ∧ one ≠ other) ∧
    Action.Renders s.world (.object 9 .point) "(1,2)" ∧
    Action.Renders s.world (.object 9 .alphaPoint) "(1,2) red" ∧
    ¬ ∃ t, Action.Renders s.world (.object 9 .point) t ∧
      Action.Renders s.world (.object 9 .alphaPoint) t := by
  intro s
  have reached : s.Reachable := (Session.Reachable.start {} 0).runAll twoLayeredPoints
  have body : s.world.body? 9 = some (.alphaPoint 1 2 (some 0) 3) := by decide +kernel
  have other : (s.world.body? 10).map Body.view = some .alphaPoint := by decide +kernel
  have alike : s.world.alphaAlike 9 (.object 10 .alphaPoint) = true := by decide +kernel
  have red : s.world.text? 0 = some "red" := by decide +kernel
  obtain ⟨o, found, held⟩ := Option.map_eq_some_iff.mp body
  have view : o.body.view = .alphaPoint := by rw [held]; rfl
  have part : View.point ∈ o.body.view.embedded := by rw [view]; decide
  obtain ⟨hashed, equated, ⟨x, y, here, piece, whole⟩, texts⟩ := reached.dispatch_on_part found part
  rw [view] at hashed equated whole texts
  rw [held] at here whole
  cases here
  have colored : Action.coloredText s.world 1 2 (some 0) = "(1,2) red" := by
    rw [Action.coloredText, World.printed, red]
    decide
  obtain ⟨small, large, ran, ran', agree⟩ :=
    equated _ (World.handle_valid_view other List.mem_cons_self)
  have apart : small ≠ large := by
    intro same
    exact absurd ((agree.mp same rfl).trans alike) (by decide)
  exact ⟨reached, body, hashed, ⟨small, large, ran, ran', apart⟩, piece, colored ▸ whole,
    fun both => texts.mp both rfl⟩

end Script

end ObjectModel
