import ObjectModel.Proofs.Contract.Script
import ObjectModel.Proofs.Embedding
import ObjectModel.Script.Eval

/-!
Contracts of the operations of scripts. Each operation brings about only the events that belong to
it, and the value it answers with is in order.
-/

namespace ObjectModel

/-- The operations that can bring about an event when they are begun in the world. -/
def Script.Op.Causes (w : World) : Script.Op → Event → Prop
  | .classes (.define name _ slots), .define name' _ slots' => name' = name ∧ slots' = slots
  | .array (.set _ i _), .store _ i' _ => i' = i.toInt.toNat
  | .array (.setAt _ i j _), .storeAt _ i' j' _ => i' = i.toInt.toNat ∧ j' = j.toInt.toNat
  | .array (.rowSet _ j _), .storeAt _ _ j' _ => j' = j.toInt.toNat
  | .object (.release _), .drop _ => True
  | .object (.release _), .record _ _ => True
  | .object (.release _), .release _ => True
  | .table (.destroy _ _), .drop _ => True
  | .table (.destroy _ _), .record _ _ => True
  | .config (.setOptions allowZeroLength), .options o => o = { allowZeroLength }
  | .config (.apply _), .options _ => True
  | .config (.apply _), .threshold _ => True
  | .command (.run name _), .store id _ (.int _) =>
    name = Text.ofString "demo" ∧ w.object? id = none
  | _, _ => False

def Policy.Permits (P : Policy) (begun : World) (op : Script.Op) : Prop :=
  ∀ w e, op.Causes begun e → P.allows w e

theorem Handle.Valid.string {w : World} {id : ObjectId}
    (valid : (Handle.object id .string).Valid w) : w.IsString id := by
  obtain ⟨o, found, own⟩ := valid id .string rfl
  rw [World.IsString, World.body?_of_object? found]
  cases body : o.body <;> simp [body, Body.view, View.embedded_eq] at own ⊢

theorem Handle.Valid.list {w : World} {id : ObjectId} (valid : (Handle.object id .list).Valid w) :
    ∃ item rest, w.body? id = some (.list item rest) := by
  obtain ⟨o, found, own⟩ := valid id .list rfl
  rw [World.body?_of_object? found]
  cases body : o.body <;> simp [body, Body.view, View.embedded_eq] at own ⊢

theorem View.embedded_trans {whole here view : View} (own : here ∈ whole :: whole.embedded)
    (inside : view ∈ here.embedded) : view ∈ whole :: whole.embedded := by
  rcases List.mem_cons.mp own with rfl | own
  · exact List.mem_cons_of_mem _ inside
  · rw [embedded_eq] at own inside ⊢
    grind

namespace Script

def Answers (r : Reply) (w : World) : Prop :=
  match r with
  | .ok v => v.Valid w
  | .error _ => True

namespace Eval

section Replies
variable {P : Policy} {s : Session}

theorem allocated_ends {view : View} {a : Action ObjectId}
    (ends : Action.Orderly P a s.world (fun id w => (Handle.object id view).Valid w)) :
    Ends P (allocated view a) s Answers :=
  (Ends.act ends).bind fun _ _ _ _ valid => .pure fun _ => valid

theorem allocated_body_ends {view : View} {body : Body} {a : Action ObjectId}
    (ends : Action.Orderly P a s.world (fun id w => w.body? id = some body))
    (whole : body.view = view) : Ends P (allocated view a) s Answers := by
  subst whole
  exact allocated_ends (ends.imp fun _ _ _ _ has => Action.handle_valid_body has)

theorem allocated_string_ends {a : Action ObjectId}
    (ends : Action.Orderly P a s.world (fun id w => w.IsString id)) :
    Ends P (allocated .string a) s Answers := by
  refine allocated_ends (ends.imp fun id w _ _ string => ?_)
  obtain ⟨t, has⟩ := string
  exact Action.handle_valid_body has

theorem ofClass_ends (c : Option ClassId) : Ends P (ofClass c) s Answers :=
  (classHandle_ends c).bind fun _ _ _ _ valid => .pure fun _ => valid.1

theorem flag_ends {a : Action Bool} {Q : Bool → World → Prop}
    (ends : Action.Orderly P a s.world Q) : Ends P (flag a) s Answers :=
  (Ends.act ends).andThen fun _ _ => .pure fun _ => trivial

theorem number_ends {a : Action Int} {Q : Int → World → Prop}
    (ends : Action.Orderly P a s.world Q) : Ends P (number a) s Answers :=
  (Ends.act ends).andThen fun _ _ => .pure fun _ => trivial

theorem nothing_ends {a : Action Unit} {Q : Unit → World → Prop}
    (ends : Action.Orderly P a s.world Q) : Ends P (nothing a) s Answers :=
  (Ends.act ends).andThen fun _ _ => .pure fun _ => trivial

theorem mapped_ends {α β : Type} {w : World} {a : Action α} {f : α → β} {Q : α → World → Prop}
    (ends : Action.Orderly P a w Q) :
    Action.Orderly P (do return f (← a)) w (fun _ _ => True) :=
  ends.andThen fun _ _ => .pure fun _ => trivial

theorem notNull_ends {α : Type} {w : World} {h : Handle} {a : Action α} {Q : α → World → Prop}
    (ends : Action.Orderly P a w Q) :
    Action.Orderly P (do Action.checkNotNull h; a) w Q :=
  (Action.checkNotNull_ends h).read fun _ _ => ends

end Replies

section Objects
variable {P : Policy} {s : Session}

theorem initialiseAgain_ends {w : World} (h : Handle) (table : Option DispatchTable) :
    Action.Orderly P (initialiseAgain h table) w (fun _ _ => True) := by
  unfold initialiseAgain
  split <;> exact Action.crash_ends _

theorem instanceOf_ends {w : World} {table : Option DispatchTable} {body : Body}
    (valid : ∀ level ∈ table, level.Valid w) (sound : body.InOrder w) :
    Action.Orderly P (Action.initialise table body) w
      (fun id w' => (Handle.object id body.view).Valid w') := by
  refine (Action.initialise_ends fun t own => .member (valid t own) sound).imp fun _ _ _ _ new => ?_
  obtain ⟨_, _, found, _⟩ := new
  exact Action.handle_valid_whole found

theorem headed_ends {w : World} (h : Handle) :
    Action.Orderly P (do Action.object (← Action.target h)) w
      (fun o w' => o.table.Valid w') := by
  refine (Action.target_ends h).read fun id _ => ?_
  refine (Action.object_ends id).imp fun o _ well _ same => ?_
  obtain ⟨found, rfl⟩ := same
  exact well.object_table_valid found

theorem embeddedView_ends {h : Handle} {view : View} (valid : h.Valid s.world) :
    Ends P (embeddedView h view) s (fun h' w => h'.Valid w) := by
  unfold embeddedView
  split
  · rename_i id here
    split
    · rename_i inside
      refine .pure fun _ => ?_
      rintro _ _ ⟨rfl, rfl⟩
      obtain ⟨o, found, own⟩ := valid id here rfl
      exact ⟨o, found, View.embedded_trans own (List.contains_iff_mem.mp inside)⟩
    · exact .throw trivial
  · exact .act (Action.crash_ends _)
  · exact .throw trivial

variable [P.Samples]

theorem object_ends (op : ObjectOp) (permitted : P.Permits s.world (.object op)) :
    Ends P (object op) s Answers := by
  cases op with
  | newObject =>
    exact allocated_ends ((Action.allocate_ends .plain).imp fun _ _ _ _ new =>
      Action.handle_valid_whole new.1)
  | newString text =>
    exact allocated_body_ends (Action.newString_ends text) rfl
  | newPoint x y =>
    exact allocated_body_ends (Action.newPoint_ends x y) rfl
  | newColorPoint x y color =>
    refine (viewOperand_ends .string color).bind fun c _ _ _ valid => ?_
    have colored := fun s member => (valid s member).string
    exact allocated_body_ends (Action.newColorPoint_ends x y colored) rfl
  | newAlphaPoint x y color alpha =>
    refine (viewOperand_ends .string color).bind fun c _ _ _ valid => ?_
    have colored := fun s member => (valid s member).string
    exact allocated_body_ends (Action.newAlphaPoint_ends x y alpha colored) rfl
  | newList next item =>
    refine (viewOperand_ends .list next).bind fun c _ _ _ valid => ?_
    have linked := fun l member => (valid l member).list
    exact allocated_body_ends (Action.newList_ends item linked) rfl
  | newBare c =>
    refine (classOperand_ends c).andThen fun k _ => ?_
    refine (Ends.act (tableOfClass_ends k)).bind fun t _ _ _ valid => ?_
    exact allocated_ends (instanceOf_ends valid trivial)
  | newBareOf table =>
    refine (tableOperand_ends table).bind fun t _ _ _ valid => ?_
    exact allocated_ends (instanceOf_ends valid trivial)
  | newAlphaPointOf table x y color alpha =>
    refine (tableOperand_ends table).bind fun t s₁ _ grown valid => ?_
    refine (viewOperand_ends .string color).bind fun c s₂ _ grown' handle => ?_
    have colored := fun s member => (handle s member).string
    exact allocated_ends (instanceOf_ends (fun t own => (valid t own).mono grown') colored)
  | newFlat c =>
    refine (classOperand_ends c).andThen fun k _ => ?_
    refine (Ends.act (tableOfClass_ends k)).bind fun t _ _ _ valid => ?_
    exact allocated_ends (instanceOf_ends valid trivial)
  | view e view =>
    refine (refOperand_ends e).bind fun h _ _ _ valid => ?_
    exact (embeddedView_ends valid).bind fun _ _ _ _ valid => .pure fun _ => valid
  | value e => exact (refOperand_ends e).bind fun h _ _ _ valid => .pure fun _ => valid
  | initialise e table =>
    have again {s : Session} (h : Handle) : Ends P (do
        let t ← tableOperand table
        nothing (initialiseAgain h t)) s Answers :=
      (tableOperand_ends table).andThen fun t _ => nothing_ends (initialiseAgain_ends h t)
    cases e with
    | null => exact again .null
    | _ =>
      refine (refOperand_ends _).andThen fun h _ => ?_
      split
      · exact (Ends.act (Action.crash_ends (Q := fun _ _ => True) _)).andThen
          fun _ _ => again h
      · exact again h
  | hashCode e =>
    refine (refOperand_ends e).andThen fun h _ => ?_
    exact number_ends (notNull_ends (mapped_ends (Action.hashCode_ends h)))
  | getClass e =>
    refine (refOperand_ends e).andThen fun h _ => ?_
    exact (Ends.act (notNull_ends (Action.objectGetClass_ends h))).andThen
      fun c _ => ofClass_ends c
  | toString e =>
    refine (refOperand_ends e).andThen fun h _ => ?_
    exact allocated_string_ends (notNull_ends (Action.toString_ends h))
  | equals e other =>
    refine (refOperand_ends e).andThen fun h _ => ?_
    refine (refOperand_ends other).andThen fun h' _ => ?_
    exact flag_ends (notNull_ends (Action.equals_ends h h'))
  | objectHashCode e =>
    refine (refOperand_ends e).andThen fun h _ => ?_
    exact number_ends (mapped_ends (Action.objectHashCode_ends h))
  | objectGetClass e =>
    refine (refOperand_ends e).andThen fun h _ => ?_
    exact (Ends.act (Action.objectGetClass_ends h)).andThen fun c _ => ofClass_ends c
  | objectToString e =>
    refine (refOperand_ends e).andThen fun h _ => ?_
    exact allocated_string_ends (Action.objectToString_ends h)
  | objectEquals e other =>
    refine (refOperand_ends e).andThen fun h _ => ?_
    refine (refOperand_ends other).andThen fun h' _ => ?_
    exact flag_ends (Action.objectEquals_ends h h')
  | horizontal e =>
    refine (refOperand_ends e).andThen fun h _ => ?_
    exact number_ends (notNull_ends (mapped_ends (Action.horizontal_ends h)))
  | isNull e => exact (refOperand_ends e).andThen fun h _ => .pure fun _ => trivial
  | checkNotNull e =>
    refine (refOperand_ends e).bind fun h _ _ _ valid => ?_
    exact (Ends.act (Action.checkNotNull_ends h)).bind fun _ _ _ grown _ =>
      .pure fun _ => Handle.Valid.mono valid grown
  | release e =>
    refine (refOperand_ends e).andThen fun h _ => ?_
    exact flag_ends (Action.release_ends
      (fun w => ⟨fun id _ _ => permitted w (.drop id) trivial,
        fun name => permitted w (.record name h) trivial⟩)
      fun w id _ _ => permitted w (.release id) trivial)
  | outermost e =>
    refine (refOperand_ends e).andThen fun h _ => ?_
    exact (Ends.act (Action.outermost_ends h)).bind fun _ _ _ _ valid => .pure fun _ => valid
  | tableOf e =>
    refine (refOperand_ends e).andThen fun h _ => ?_
    refine (Ends.act (headed_ends h)).bind fun o _ _ _ valid => .pure fun _ => ?_
    rintro _ ⟨rfl⟩
    exact valid
  | isReleased e =>
    refine (refOperand_ends e).andThen fun h _ => ?_
    exact (Ends.act (headed_ends h)).andThen fun o _ => .pure fun _ => trivial
  | destroyed => exact .world_bind (.pure fun _ => trivial)
  | cast c e target =>
    refine (classOperand_ends c).andThen fun k _ => ?_
    refine (refOperand_ends e).bind fun h _ _ _ valid => ?_
    exact (Ends.act (Action.cast_ends target k valid)).bind
      fun _ _ _ _ valid => .pure fun _ => valid

end Objects

section Others
variable {P : Policy} [P.Samples] {s : Session}

theorem string_ends (op : StringOp) : Ends P (string op) s Answers := by
  cases op with
  | length e =>
    refine (viewOperand_ends .string e).andThen fun s _ => ?_
    exact number_ends (mapped_ends (Action.stringLength_ends s))
  | charAt e i =>
    refine (viewOperand_ends .string e).andThen fun s _ => ?_
    exact number_ends (mapped_ends (Action.charAt_ends s i))
  | concat e other =>
    refine (viewOperand_ends .string e).andThen fun s _ => ?_
    refine (viewOperand_ends .string other).andThen fun s' _ => ?_
    exact allocated_string_ends (Action.concat_ends s s')
  | text e =>
    refine (viewOperand_ends .string e).andThen fun s _ => ?_
    exact (Ends.act (Action.printedText_ends s)).andThen fun _ _ => .pure fun _ => trivial
  | equals e other =>
    refine (viewOperand_ends .string e).andThen fun s _ => ?_
    refine (refOperand_ends other).andThen fun h _ => ?_
    exact flag_ends (Action.stringEquals_ends s h)
  | hash e =>
    refine (viewOperand_ends .string e).andThen fun s _ => ?_
    exact number_ends (mapped_ends (Action.stringText_ends s))
  | itself e =>
    refine (viewOperand_ends .string e).bind fun s _ _ _ valid => ?_
    split
    · exact .pure fun _ => valid _ rfl
    · exact .pure fun _ => Action.handle_valid_of_null rfl

theorem classes_ends (op : ClassOp) (permitted : P.Permits s.world (.classes op)) :
    Ends P (classes op) s Answers := by
  cases op with
  | value c => exact (classOperand_ends c).andThen fun k _ => ofClass_ends k
  | report c =>
    refine (classOperand_ends c).andThen fun k _ => ?_
    exact (Ends.act (Action.demand_ends k)).andThen fun _ _ => .pure fun _ => trivial
  | define name superclass slots =>
    refine (classOperand_ends superclass).andThen fun k _ => ?_
    refine (Ends.act (Action.defineClass_ends fun s w' _ _ => ?_)).andThen
      fun c _ => ofClass_ends (some c)
    exact permitted w' (.define name s slots) ⟨rfl, rfl⟩
  | isInstance c e =>
    refine (classOperand_ends c).andThen fun k _ => ?_
    refine (refOperand_ends e).andThen fun h _ => ?_
    exact flag_ends (Action.isInstance_ends k h)
  | isSubclassOf c other =>
    refine (classOperand_ends c).andThen fun k _ => ?_
    refine (classOperand_ends other).andThen fun l _ => ?_
    exact .world_bind (.pure fun _ => trivial)
  | bootstrap =>
    refine (Ends.act Action.bootstrap_ends).andThen fun _ _ => ?_
    exact .world_bind (.pure fun _ => trivial)
  | all => exact .world_bind (.pure fun _ => trivial)
  | count => exact .world_bind (.pure fun _ => trivial)
  | has key => exact .world_bind (.pure fun _ => trivial)
  | emptyTable key => exact .pure fun _ => trivial

theorem ownerOperand_ends (e : Option ClassExpr) :
    Ends P (ownerOperand e) s (fun o w => ∀ c, o = .known c → c < w.classes.size) := by
  cases e with
  | none => exact .pure fun _ _ impossible => nomatch impossible
  | some c =>
    refine (classOperand_ends c).bind fun k _ _ _ valid => ?_
    split
    · refine .pure fun _ c same => ?_
      cases same
      exact valid _ rfl
    · exact .pure fun _ _ impossible => nomatch impossible

theorem table_ends (op : TableOp) (permitted : P.Permits s.world (.table op)) :
    Ends P (table op) s Answers := by
  cases op with
  | new owner parent destructor slots =>
    refine (ownerOperand_ends owner).bind fun o _ _ _ owned => ?_
    refine (tableOperand_ends parent).bind fun t _ _ grown valid => .pure fun _ => ?_
    rintro _ ⟨rfl⟩
    exact World.valid_extend valid fun c same =>
      Nat.lt_of_lt_of_le (owned c same) grown.size_le
  | value e => exact (tableOperand_ends e).bind fun t _ _ _ valid => .pure fun _ => valid
  | owner e =>
    refine (someTable_ends e).andThen fun t _ => ?_
    exact (Ends.act (Action.owner_ends t)).andThen fun c _ => ofClass_ends c
  | parent e =>
    refine (someTable_ends e).bind fun t _ _ _ valid => .pure fun _ t' member => ?_
    exact World.valid_parent valid member
  | count e => exact (someTable_ends e).andThen fun t _ => .pure fun _ => trivial
  | index e slot =>
    refine (someTable_ends e).andThen fun t _ => ?_
    split <;> exact .pure fun _ => trivial
  | overrides e slot => exact (someTable_ends e).andThen fun t _ => .pure fun _ => trivial
  | extendsLayout e other =>
    refine (tableOperand_ends e).andThen fun t _ => ?_
    refine (tableOperand_ends other).andThen fun t' _ => ?_
    refine flag_ends (Q := fun _ _ => True) ?_
    refine (Action.demand_ends t).andThen fun _ _ => ?_
    exact (Action.demand_ends t').andThen fun _ _ => .pure fun _ => trivial
  | hasDestructor e => exact (someTable_ends e).andThen fun t _ => .pure fun _ => trivial
  | destroy e operand =>
    refine (someTable_ends e).andThen fun t _ => ?_
    refine (refOperand_ends operand).andThen fun h _ => ?_
    refine nothing_ends (Q := fun _ _ => True) ?_
    refine (Action.demand_ends t.destructor?).andThen fun d _ => ?_
    exact Action.runDestructor_ends d fun w => ⟨fun id _ _ => permitted w (.drop id) trivial,
      fun name => permitted w (.record name h) trivial⟩

theorem ofElement_valid {w : World} {e : Element} (valid : e.handle.Valid w) :
    (Value.ofElement e).Valid w := by
  cases e with
  | ref h => exact valid
  | _ => trivial

theorem storeAt_ends (id : ObjectId) (i j : Int32) (value : StoredExpr)
    (allowed : ∀ w v, P.allows w (.storeAt id i.toInt.toNat j.toInt.toNat v)) :
    Ends P (do
      let cells ← act (Action.gridCells id)
      let v ← storedElement cells.element value
      nothing (Action.gridSet id i j v)) s Answers := by
  refine (Ends.act (Action.gridCells_ends id)).bind fun g s₁ _ _ same => ?_
  have holds : s₁.world.element? id = some g.element := by
    rw [← same.2, World.element?, same.1]
    rfl
  refine (storedElement_ends g.element value).bind fun v _ _ grown stored => ?_
  exact nothing_ends (Action.gridSet_ends (fun w => allowed w v) stored.2 (grown.element? holds)
    stored.1)

theorem array_ends (op : ArrayOp) (permitted : P.Permits s.world (.array op)) :
    Ends P (array op) s Answers := by
  cases op with
  | newArray element c n =>
    refine (classOperand_ends c).bind fun k _ _ _ valid => ?_
    refine allocated_ends ((Action.newArray_ends valid).imp fun _ _ _ _ new => ?_)
    obtain ⟨_, _, _, _, _, _, _, has, _⟩ := new
    exact Action.handle_valid_body has
  | newGrid element c n m =>
    refine (classOperand_ends c).bind fun k _ _ _ valid => ?_
    refine allocated_ends ((Action.newGrid_ends valid).imp fun _ _ _ _ new => ?_)
    obtain ⟨_, _, _, _, _, _, _, has, _⟩ := new
    exact Action.handle_valid_body has
  | length e =>
    refine (arrayOperand_ends e).andThen fun id _ => ?_
    exact number_ends (mapped_ends (Action.cells_ends id))
  | get e i =>
    refine (arrayOperand_ends e).andThen fun id _ => ?_
    exact (Ends.act (Action.arrayGet_ends id i)).bind
      fun _ _ _ _ valid => .pure fun _ => ofElement_valid valid
  | set e i value =>
    refine (arrayOperand_ends e).andThen fun id _ => ?_
    refine (Ends.act (Action.cells_ends id)).bind fun c s₁ _ _ same => ?_
    have holds : s₁.world.element? id = some c.element := by
      rw [← same.2, World.element?, same.1]
      rfl
    refine (storedElement_ends c.element value).bind fun v _ _ grown stored => ?_
    exact nothing_ends (Action.arraySet_ends (fun w => permitted w (.store id _ v) rfl) stored.2
      (grown.element? holds) stored.1)
  | elements e =>
    refine (arrayOperand_ends e).andThen fun id _ => ?_
    exact (Ends.act (Action.cells_ends id)).andThen fun _ _ => .pure fun _ => trivial
  | extent e =>
    refine (gridOperand_ends e).andThen fun id _ => ?_
    exact (Ends.act (Action.gridCells_ends id)).andThen fun _ _ => .pure fun _ => trivial
  | getAt e i j =>
    refine (gridOperand_ends e).andThen fun id _ => ?_
    exact (Ends.act (Action.gridGet_ends id i j)).bind
      fun _ _ _ _ valid => .pure fun _ => ofElement_valid valid
  | setAt e i j value =>
    refine (gridOperand_ends e).andThen fun id _ => ?_
    exact storeAt_ends id i j value fun w v => permitted w (.storeAt id _ _ v) ⟨rfl, rfl⟩
  | row e i =>
    refine (gridOperand_ends e).andThen fun id _ => ?_
    exact (Ends.act (Action.gridRow_ends id i)).bind fun _ _ _ _ same => .pure fun _ => same.1
  | rowLength name =>
    refine (rowOperand_ends name).andThen fun place _ => ?_
    exact number_ends (mapped_ends (Action.gridCells_ends place.1))
  | rowGet name j =>
    refine (rowOperand_ends name).andThen fun place _ => ?_
    exact (Ends.act (Action.gridGet_ends place.1 place.2 j)).bind
      fun _ _ _ _ valid => .pure fun _ => ofElement_valid valid
  | rowSet name j value =>
    refine (rowOperand_ends name).andThen fun place _ => ?_
    exact storeAt_ends place.1 place.2 j value fun w v => permitted w (.storeAt place.1 _ _ v) rfl
  | checkStore e value =>
    refine (refOperand_ends e).andThen fun h _ => ?_
    refine (refOperand_ends value).andThen fun h' _ => ?_
    exact nothing_ends (Action.checkStore_ends h h')

omit [P.Samples] in
theorem exceptionParts_ends {w : World} (id : Option ObjectId) :
    Action.Orderly P (exceptionParts id) w (fun _ _ => True) := by
  refine .get_bind ?_
  refine (Action.demand_ends id).andThen fun _ _ => ?_
  exact (Action.demand_ends _).imp fun _ _ _ _ _ => trivial

theorem exception_ends (op : ExceptionOp) : Ends P (exception op) s Answers := by
  cases op with
  | new code message =>
    refine allocated_ends ((Action.kindOfCode_ends code).andThen fun k _ => ?_)
    exact (Action.newException_ends k message).imp fun _ _ _ _ has => Action.handle_valid_body has
  | throw code message =>
    refine nothing_ends (Q := fun _ _ => True) ?_
    exact (Action.kindOfCode_ends code).andThen fun k _ => Action.raise_orderly k message
  | kindReport code => exact .pure fun _ => trivial
  | kindIsA code other => exact .pure fun _ => trivial
  | sameKind code other => exact .pure fun _ => trivial
  | kindOf e =>
    refine (viewOperand_ends .exception e).andThen fun id _ => ?_
    exact number_ends (mapped_ends (exceptionParts_ends id))
  | message e =>
    refine (viewOperand_ends .exception e).andThen fun id _ => ?_
    refine (Ends.act (exceptionParts_ends id)).andThen fun parts _ => ?_
    dsimp only
    split
    · exact .pure fun _ => Action.handle_valid_of_null rfl
    · exact allocated_body_ends (Action.newString_ends _) rfl
  | text e =>
    refine (viewOperand_ends .exception e).andThen fun id _ => ?_
    exact (Ends.act (exceptionParts_ends id)).andThen fun _ _ => .pure fun _ => trivial
  | isA e code =>
    refine (viewOperand_ends .exception e).andThen fun id _ => ?_
    cases code with
    | none => exact .pure fun _ => trivial
    | some code => exact flag_ends (mapped_ends (exceptionParts_ends id))
  | find source =>
    cases source with
    | operand e =>
      refine (viewOperand_ends .exception e).andThen fun id _ => ?_
      split <;> exact .pure fun _ => trivial
    | _ => exact .pure fun _ => trivial

omit [P.Samples] in
theorem replaceFiles_ends (result : Except Failure FileSystem) :
    Ends P (replaceFiles result) s Answers := by
  cases result with
  | ok files => exact (Ends.modify rfl rfl).andThen fun _ _ => .pure fun _ => trivial
  | error e => exact .pure fun _ => trivial

theorem answers_ofConfig {w : World} (result : Except LoadError (Option Config)) :
    Answers (ofConfig result) w := by
  cases result <;> trivial

omit [P.Samples] in
theorem config_ends (op : ConfigOp) (permitted : P.Permits s.world (.config op)) :
    Ends P (config op) s Answers := by
  cases op with
  | setOptions allowZeroLength =>
    exact nothing_ends (Action.setOptions_ends (permitted _ (.options _) rfl))
  | options => exact .world_bind (.pure fun _ => trivial)
  | makeDirectory path => exact .get_bind (replaceFiles_ends _)
  | writeFile path content => exact .get_bind (replaceFiles_ends _)
  | fileContent path => exact .get_bind (.pure fun _ => trivial)
  | default => exact .pure fun _ => trivial
  | parse content =>
    refine .get_bind ?_
    refine (replaceFiles_ends _).andThen fun _ _ => .get_bind ?_
    exact (Ends.act (Action.loadConfigIn_ends _ _)).andThen
      fun _ _ => .pure fun _ => answers_ofConfig _
  | loadIn directory =>
    exact .get_bind ((Ends.act (Action.loadConfigIn_ends _ _)).andThen
      fun _ _ => .pure fun _ => answers_ofConfig _)
  | load path =>
    exact .get_bind ((Ends.act (Action.loadConfig_ends _ _)).andThen
      fun _ _ => .pure fun _ => answers_ofConfig _)
  | find start =>
    exact .get_bind ((Ends.act (Action.findConfig_ends _ _)).andThen
      fun _ _ => .pure fun _ => answers_ofConfig _)
  | choose path =>
    exact .get_bind ((Ends.act (Action.chooseConfig_ends _ _)).andThen
      fun _ _ => .pure fun _ => answers_ofConfig _)
  | optionsOf name =>
    exact (configOperand_ends name).andThen fun _ _ => .pure fun _ => trivial
  | apply name =>
    refine (configOperand_ends name).andThen fun c _ => ?_
    refine (Ends.act (Action.applyConfig_ends (fun w t => permitted w (.threshold t) trivial)
      fun w => permitted w (.options c.options) trivial)).andThen fun _ _ => ?_
    exact .world_bind (.pure fun _ => trivial)

theorem snapshot_ends (op : SnapshotOp) : Ends P (snapshot op) s Answers := by
  cases op with
  | describe c =>
    refine (classOperand_ends c).andThen fun k _ => ?_
    have read {w : World} : Action.Orderly P (do Action.classOf (← Action.demand k)) w
        (fun _ _ => True) :=
      (Action.demand_ends k).andThen fun id _ =>
        (Action.classOf_orderly id).imp fun _ _ _ _ _ => trivial
    exact (Ends.act read).andThen fun _ _ => .world_bind (.pure fun _ => trivial)
  | capture => exact .world_bind (.pure fun _ => trivial)
  | value e => exact (snapshotOperand_ends e).andThen fun _ _ => .pure fun _ => trivial
  | encode e => exact (snapshotOperand_ends e).andThen fun _ _ => .pure fun _ => trivial
  | decode input =>
    unfold snapshot
    dsimp only
    split <;> exact .pure fun _ => trivial
  | lookup e name dimensions =>
    refine (snapshotOperand_ends e).andThen fun c _ => ?_
    exact (Ends.act (Action.demand_ends c)).andThen fun _ _ => .pure fun _ => trivial

theorem command_ends (op : CommandOp) (permitted : P.Permits s.world (.command op)) :
    Ends P (command op) s Answers := by
  cases op with
  | run name output =>
    refine .get_bind ?_
    refine (Ends.act (Action.runCommand_ends _ name output fun demo w id i n absent =>
      permitted w (.store id i (.int n)) ⟨demo, absent⟩)).andThen fun r _ => ?_
    cases r with
    | error e => exact .pure fun _ => trivial
    | ok result => exact (Ends.modify rfl rfl).andThen fun _ _ => .pure fun _ => trivial
  | program arguments files directory result =>
    refine .get_bind (.get_bind ?_)
    split
    · exact .pure fun _ => trivial
    · exact (Ends.modify rfl rfl).andThen fun _ _ => .pure fun _ => trivial

/-- Every operation brings about only the events that belong to it, and answers in order. -/
theorem perform_ends (op : Op) (permitted : P.Permits s.world op) :
    Ends P (perform op) s Answers := by
  cases op with
  | object op => exact object_ends op permitted
  | string op => exact string_ends op
  | classes op => exact classes_ends op permitted
  | table op => exact table_ends op permitted
  | array op => exact array_ends op permitted
  | exception op => exact exception_ends op
  | config op => exact config_ends op permitted
  | snapshot op => exact snapshot_ends op
  | command op => exact command_ends op permitted

end Others

end Eval

end Script

end ObjectModel
