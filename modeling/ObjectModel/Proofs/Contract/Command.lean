import ObjectModel.Command.Basic
import ObjectModel.Proofs.Contract.Array

/-!
Contracts of configurations and commands. The demonstration stores integers into an array of its
own, a configuration sets the options and the threshold of the log, and the other commands only
create classes.
-/

namespace ObjectModel

/-- A policy under which the demonstration may run: it stores into objects that are new. -/
def Policy.AllowsDemo (P : Policy) (begun : World) : Prop :=
  ∀ w id i n, begun.object? id = none → P.allows w (.store id i (.int n))

theorem Policy.AllowsDemo.mono {P : Policy} {w w' : World} (allowed : P.AllowsDemo w)
    (grown : Grows w w') : P.AllowsDemo w' :=
  fun w id i n missing => allowed w id i n (grown.absent missing)

namespace Action

section Loops
variable {P : Policy} {w : World} {E : Fault → World → Prop} {α β : Type}

theorem forM_ends {f : α → Action PUnit} (xs : List α)
    (each : ∀ x w, Ends P (f x) w (fun _ _ => True) E) :
    Ends P (xs.forM f) w (fun _ _ => True) E := by
  induction xs generalizing w with
  | nil => exact .pure fun _ => trivial
  | cons x rest ih =>
    exact (each x w).andThen fun _ _ => ih

theorem foldlM_ends {f : β → α → Action β} (xs : List α) (start : β)
    (each : ∀ y x w, Orderly P (f y x) w (fun _ _ => True)) :
    Orderly P (xs.foldlM f start) w (fun _ _ => True) := by
  induction xs generalizing w start with
  | nil => exact .pure fun _ => trivial
  | cons x rest ih =>
    rw [List.foldlM_cons]
    exact (each start x w).andThen fun y _ => ih y

theorem mapM_ends {f : α → Action β} (xs : List α)
    (each : ∀ x w, Orderly P (f x) w (fun _ _ => True)) :
    Orderly P (xs.mapM f) w (fun _ _ => True) := by
  induction xs generalizing w with
  | nil =>
    rw [List.mapM_nil]
    exact .pure fun _ => trivial
  | cons x rest ih =>
    rw [List.mapM_cons]
    refine (each x w).andThen fun _ _ => ?_
    exact ih.andThen fun _ _ => .pure fun _ => trivial

end Loops

section Commands
variable {P : Policy} {w : World} {E : Fault → World → Prop}

theorem bootstrap_ends : Ends P bootstrap w (fun _ _ => True) E := by
  refine (coreClass_ends .object).andThen fun _ _ => ?_
  refine (coreClass_ends .string).andThen fun _ _ => ?_
  refine (coreClass_ends .metaclass).andThen fun _ _ => ?_
  refine (forM_ends _ fun p _ => ?_).andThen fun _ _ => ?_
  · exact (primitiveClass_ends p).andThen fun _ _ => .pure fun _ => trivial
  refine (forM_ends _ fun k _ => ?_).andThen fun _ _ => ?_
  · exact (kindClass_ends k).andThen fun _ _ => .pure fun _ => trivial
  exact .get_bind (log_ends _ _ _)

theorem writeSnapshot_ends (fs : FileSystem) (path : Text) :
    Orderly P (writeSnapshot fs path) w (fun _ _ => True) := by
  refine .get_bind ?_
  dsimp only
  split
  · exact .pure fun _ => trivial
  · split <;> exact .pure fun _ => trivial

theorem append_ends (s : ObjectId) (t : Text) : Orderly P (append s t) w (fun _ _ => True) := by
  refine (newString_ends t).andThen fun _ _ => ?_
  exact (concat_ends _ _).imp fun _ _ _ _ _ => trivial

theorem joined_ends (first : Text) (rest : List Text) :
    Orderly P (joined first rest) w (fun _ _ => True) := by
  refine (newString_ends first).andThen fun _ _ => ?_
  exact foldlM_ends _ _ fun s t _ => append_ends s t

theorem printed_ends (s : ObjectId) : Orderly P (printed s) w (fun _ _ => True) := by
  refine (checkNotNull_ends _).andThen fun _ _ => ?_
  exact (stringText_ends _).imp fun _ _ _ _ _ => trivial

theorem printedLine_ends (s : ObjectId) : Orderly P (printedLine s) w (fun _ _ => True) :=
  (printed_ends s).andThen fun _ _ => .pure fun _ => trivial

theorem printedLine_bind {make : Action ObjectId} {β : Type} {next : Text → Action β}
    (makes : Orderly P make w (fun _ _ => True))
    (ends : ∀ t w', Grows w w' → Orderly P (next t) w' (fun _ _ => True)) :
    Orderly P (do let s ← make; let t ← printedLine s; next t) w (fun _ _ => True) :=
  makes.bind fun s _ _ grown _ =>
    (printedLine_ends s).bind fun t w' _ grown' _ => ends t w' (grown.trans grown')

theorem elementNumeral_ends (array : ObjectId) (i : Int32) :
    Orderly P (elementNumeral array i) w (fun _ _ => True) := by
  refine (arrayGet_ends array i).andThen fun e _ => ?_
  split
  · exact .pure fun _ => trivial
  · exact crash_ends _

theorem demoArray_ends (allowed : P.AllowsDemo w) : Orderly P demoArray w (fun _ _ => True) := by
  refine (primitiveClass_ends .int).bind fun c w₁ _ grown₁ found => ?_
  refine (newArray_ends (World.knows_some (World.lt_of_find? found))).bind fun a w₂ _ _ new => ?_
  obtain ⟨_, _, _, _, _, _, _, holds, fresh⟩ := new
  have ints : w₂.element? a = some .int := by
    rw [World.element?, holds]
    rfl
  have store {w' : World} (i n : Int32) (grown : Grows w₂ w') :
      Orderly P (arraySet a i (.int n)) w' (fun _ _ => True) :=
    arraySet_ends (fun w => allowed w a _ n (grown₁.absent fresh)) (handle_valid_of_null rfl)
      (grown.element? ints) rfl
  refine (store 0 2 (.refl _)).bind fun _ w₃ _ grown₃ _ => ?_
  refine (store 1 9 grown₃).bind fun _ w₄ _ grown₄ _ => ?_
  refine (store 2 0 (grown₃.trans grown₄)).andThen fun _ _ => ?_
  refine (newString_ends _).andThen fun _ _ => ?_
  refine (elementNumeral_ends a 0).andThen fun _ _ => ?_
  refine (append_ends _ _).andThen fun _ _ => ?_
  refine (append_ends _ _).andThen fun _ _ => ?_
  refine (elementNumeral_ends a 1).andThen fun _ _ => ?_
  refine (append_ends _ _).andThen fun _ _ => ?_
  refine (append_ends _ _).andThen fun _ _ => ?_
  refine (elementNumeral_ends a 2).andThen fun _ _ => ?_
  refine (append_ends _ _).andThen fun _ _ => ?_
  exact (append_ends _ _).andThen fun _ _ => printedLine_ends _

theorem demoStatements_ends : Orderly P demoStatements w (fun _ _ => True) := by
  have string (t : Text) (w : World) : Orderly P (newString t) w (fun _ _ => True) :=
    (newString_ends t).imp fun _ _ _ _ _ => trivial
  refine printedLine_bind (string _ _) fun _ _ _ => ?_
  refine printedLine_bind (joined_ends _ _) fun _ _ _ => ?_
  refine printedLine_bind (joined_ends _ _) fun _ _ _ => ?_
  refine printedLine_bind (string _ _) fun _ _ _ => ?_
  refine (string _ _).andThen fun _ _ => ?_
  refine (printed_ends _).andThen fun _ _ => ?_
  refine (mapM_ends _ fun _ _ => ?_).andThen fun _ _ => .pure fun _ => trivial
  exact (joined_ends _ _).andThen fun _ _ => printed_ends _

variable [P.Samples]

theorem newPoint_ends (x y : Int32) :
    Orderly P (newPoint x y) w (fun id w' => w'.body? id = some (.point x y)) :=
  newInstance_ends pointClass_ends trivial

theorem newColorPoint_ends (x y : Int32) {color : Option ObjectId}
    (colored : ∀ s ∈ color, w.IsString s) :
    Orderly P (newColorPoint x y color) w
      (fun id w' => w'.body? id = some (.colorPoint x y color)) :=
  newInstance_ends colorPointClass_ends colored

theorem newAlphaPoint_ends (x y : Int32) {color : Option ObjectId} (alpha : Int32)
    (colored : ∀ s ∈ color, w.IsString s) :
    Orderly P (newAlphaPoint x y color alpha) w
      (fun id w' => w'.body? id = some (.alphaPoint x y color alpha)) :=
  newInstance_ends alphaPointClass_ends colored

theorem newList_ends (item : Int32) {next : Option ObjectId}
    (linked : ∀ l ∈ next, ∃ item rest, w.body? l = some (.list item rest)) :
    Orderly P (newList item next) w (fun id w' => w'.body? id = some (.list item next)) :=
  newInstance_ends listClass_ends linked

theorem demoList_ends : Orderly P demoList w (fun _ _ => True) := by
  have newest := newList_ends (P := P) (w := w) 4 fun _ member =>
    absurd member (Option.not_mem_none _)
  refine newest.andThen fun l _ => ?_
  refine (checkNotNull_ends _).andThen fun _ _ => ?_
  refine (object_ends l).andThen fun o _ => ?_
  split
  · exact (joined_ends _ _).andThen fun _ _ => printedLine_ends _
  · exact crash_ends _

theorem demoTypes_ends (allowed : P.AllowsDemo w) : Orderly P demoTypes w (fun _ _ => True) := by
  have string (t : Text) (w : World) : Orderly P (newString t) w (fun _ _ => True) :=
    (newString_ends t).imp fun _ _ _ _ _ => trivial
  refine printedLine_bind (string _ _) fun _ w₁ grown₁ => ?_
  refine (string _ _).bind fun _ w₂ _ grown₂ _ => ?_
  refine (string _ _).bind fun _ w₃ _ grown₃ _ => ?_
  refine (concat_ends _ _).bind fun _ w₄ _ grown₄ _ => ?_
  refine printedLine_bind (append_ends _ _) fun _ w₅ grown₅ => ?_
  refine printedLine_bind (joined_ends _ _) fun _ w₆ grown₆ => ?_
  refine printedLine_bind (joined_ends _ _) fun _ w₇ grown₇ => ?_
  refine printedLine_bind (joined_ends _ _) fun _ w₈ grown₈ => ?_
  refine printedLine_bind (joined_ends _ _) fun _ w₉ grown₉ => ?_
  have texts : Grows w w₄ := grown₁.trans (grown₂.trans (grown₃.trans grown₄))
  have lines : Grows w₄ w₉ := grown₅.trans (grown₆.trans (grown₇.trans (grown₈.trans grown₉)))
  refine (demoArray_ends (allowed.mono (texts.trans lines))).andThen fun _ _ => ?_
  exact demoList_ends.andThen fun _ _ => .pure fun _ => trivial

theorem demo_ends (allowed : P.AllowsDemo w) : Orderly P demo w (fun _ _ => True) := by
  refine (demoTypes_ends allowed).andThen fun _ _ => ?_
  exact demoStatements_ends.andThen fun _ _ => .pure fun _ => trivial

theorem runDemo_ends (allowed : P.AllowsDemo w) (fs : FileSystem) :
    Orderly P (runDemo fs) w (fun _ _ => True) := by
  refine .tryCatch ((demo_ends allowed).andThen fun _ _ => .pure fun _ => trivial)
    fun e _ _ _ valid => ?_
  cases e with
  | thrown id => exact .get_bind (.pure fun _ => trivial)
  | crash cause => exact .throw valid

theorem runCommand_ends (fs : FileSystem) (name output : Text)
    (allowed : name = Text.ofString "demo" → P.AllowsDemo w) :
    Orderly P (runCommand fs name output) w (fun _ _ => True) := by
  unfold runCommand
  split
  · exact bootstrap_ends.andThen fun _ _ => .get_bind (.pure fun _ => trivial)
  split
  · exact bootstrap_ends.andThen fun _ _ => writeSnapshot_ends fs output
  split
  · rename_i named
    exact runDemo_ends (allowed (eq_of_beq named)) fs
  · exact .pure fun _ => trivial

end Commands

section Configurations
variable {P : Policy} {w : World}

theorem loadConfig_ends (fs : FileSystem) (path : Text) :
    Orderly P (loadConfig fs path) w (fun _ _ => True) := by
  unfold loadConfig
  split
  · exact .pure fun _ => trivial
  split
  · exact .pure fun _ => trivial
  · refine (forM_ends _ fun _ _ => log_ends _ _ _).andThen fun _ _ => ?_
    split <;> exact .pure fun _ => trivial

theorem loadConfigIn_ends (fs : FileSystem) (directory : Text) :
    Orderly P (loadConfigIn fs directory) w (fun _ _ => True) :=
  loadConfig_ends fs _

theorem findConfig_ends (fs : FileSystem) (directory : Text) :
    Orderly P (findConfig fs directory) w (fun _ _ => True) := by
  unfold findConfig
  split
  · exact .pure fun _ => trivial
  · exact (loadConfig_ends fs _).andThen fun _ _ => .pure fun _ => trivial

theorem chooseConfig_ends (fs : FileSystem) (path : Text) :
    Orderly P (chooseConfig fs path) w (fun _ _ => True) := by
  unfold chooseConfig
  split
  · exact (findConfig_ends fs _).andThen fun _ _ => .pure fun _ => trivial
  · exact loadConfig_ends fs path

theorem applyConfig_ends {c : Config}
    (threshold : ∀ w t, P.allows w (.threshold t))
    (options : ∀ w, P.allows w (.options c.options)) :
    Orderly P (applyConfig c) w (fun _ _ => True) := by
  refine (Ends.modify (Q := fun _ _ => True) (.threshold _ (threshold _ _)) trivial).andThen
    fun _ _ => ?_
  exact (setOptions_ends (options _)).andThen fun _ _ => log_ends _ _ _

end Configurations

end Action

end ObjectModel
