import ObjectModel.Proofs.Account.Basic
import ObjectModel.Proofs.Definition

/-!
Accounts of the actions that make classes. Creating a class costs nothing beyond its two objects,
and its definition is told. Throwing allocates the exception last, and is told too.
-/

namespace ObjectModel.Action

section Classes

theorem create_free (name : Text) (shape : Shape) (table : ClassId → Option DispatchTable) :
    Free (create name shape table) := by
  intro w
  refine ⟨[.message ⟨.debug, .runtime, "defined class " ++ name⟩], fun l => ?_, ?_⟩
  · have pushed : (w.withLog l).pushClass name shape table =
        (w.pushClass name shape table).withLog l := rfl
    change (create name shape table).run (w.withLog l) = (_, World.withLog _ _)
    rw [run_create, run_create, pushed, World.logged_withLog, World.withLog_logged]
    rfl
  · rw [run_create]
    refine ⟨⟨?_, ?_, ?_⟩, ?_, nofun⟩
    · rw [World.names_logged]
      simp [World.names, World.pushClass, Entry.definition?, Entry.message?,
        Message.definition?_defined]
    · simp [Entry.notice?, Entry.message?, Message.notice?_defined, noticesOf]
    · simp [Entry.message?]
    · rw [World.others_logged, World.others_pushClass]
      simp

theorem register_free (name : Text) (shape : Shape) (table : ClassId → Option DispatchTable) :
    Free (register name shape table) := by
  refine .get (fun _ _ => rfl) fun w => ?_
  cases w.find? (shape.key name) with
  | some c => exact .pure c
  | none => exact create_free name shape table

theorem objectClass_free : Free objectClass := register_free _ _ _

theorem classUnderObject_free (which : Core) : Free (classUnderObject which) :=
  objectClass_free.bind fun _ => register_free _ _ _

theorem coreClass_free (which : Core) : Free (coreClass which) := by
  cases which with
  | object => exact objectClass_free
  | string => exact classUnderObject_free .string
  | metaclass => exact classUnderObject_free .metaclass

theorem primitiveClass_free (p : Primitive) : Free (primitiveClass p) := register_free _ _ _

theorem kindClassUnder_free (superclass : ClassId) (k : Kind) :
    Free (kindClassUnder superclass k) :=
  .get (fun _ _ => rfl) fun _ => register_free _ _ _

theorem kindClass_free (k : Kind) : Free (kindClass k) :=
  objectClass_free.bind fun root => foldlM_free kindClassUnder_free _ root

theorem owner_free (t : DispatchTable) : Free (owner t) := by
  unfold owner
  cases t.own.owner with
  | absent => exact .crash _
  | null => exact .pure none
  | core which => exact (coreClass_free which).map some
  | known c => exact .pure (some c)

theorem bootstrap_free : Free bootstrap := by
  refine (coreClass_free .object).bind fun _ => ?_
  refine (coreClass_free .string).bind fun _ => ?_
  refine (coreClass_free .metaclass).bind fun _ => ?_
  refine (forM_free (fun p => (primitiveClass_free p).map _) Primitive.all).bind fun _ => ?_
  refine (forM_free (fun k => (kindClass_free k).map _) Kind.all).bind fun _ => ?_
  refine .get (fun _ _ => rfl) fun w => log_free ?_
  exact Message.unremarkable rfl (by decide)

end Classes

section Exceptions
variable {w : World} {k : Kind} {message : Text}

theorem newException_costs (k : Kind) (message : Text) : Costs (newException k message) 1 :=
  (kindClass_free k).bind fun _ => .get (fun _ _ => rfl) fun _ => initialise_costs _ _

/-- A new exception is the object allocated last. -/
theorem run_newException {e : ObjectId} {w' : World}
    (ran : (newException k message).run w = (.ok e, w')) :
    e + 1 = w'.objects.size ∧ w'.exceptionText e = exceptionText k message := by
  obtain ⟨c, w₁, -, made⟩ := run_bind_ok ran
  rw [run_get_bind] at made
  cases has : w₁.table? c with
  | none =>
    rw [has] at made
    cases made
  | some t =>
    rw [has] at made
    cases made
    constructor
    · exact (Array.size_push _).symm
    · change (w₁.push t (.exception k message)).exceptionText w₁.objects.size = _
      simp [World.exceptionText, World.exception?, World.body?, World.object?_push]

theorem raise_costs {α : Type} (k : Kind) (message : Text) (n : Nat) :
    Costs (raise k message : Action α) n := by
  intro w
  refine (newException_costs k message w).bind (fun e w' entries ran holds => ?_)
    fun e w' entries holds => ⟨holds.1, holds.2.error⟩
  obtain ⟨last, text⟩ := run_newException ran
  refine (log_tells _ _ _).bind (fun _ w'' rest _ sent => .throw ?_) fun _ _ _ sent => by
    cases sent.1
  obtain ⟨-, rfl, rfl⟩ := sent
  rw [List.append_nil]
  refine ⟨⟨?_, ?_, ?_⟩, ?_, ?_⟩
  · rw [World.names_logged, holds.1.names]
    simp [Entry.definition?, Entry.message?, Message.definition?_thrown]
  · rw [List.filterMap_append, holds.1.notices]
    simp [Entry.notice?, Entry.message?, Message.notice?_thrown, noticesOf, Fault.notices,
      World.exceptionText_logged, text]
  · intro entry member
    rcases List.mem_append.mp member with before | sent
    · exact holds.1.steady entry before
    · cases List.mem_singleton.mp sent
      rfl
  · rw [World.others_logged]
    exact holds.2.others
  · rintro _ ⟨rfl⟩
    rw [World.size_logged]
    exact last

theorem kindOfCode_free (code : KindCode) : Free (kindOfCode code) := by
  unfold kindOfCode
  cases code.kind? with
  | some k => exact .pure k
  | none => exact .crash _

theorem checkNotNull_free (h : Handle) : Free (checkNotNull h) := by
  unfold checkNotNull
  split
  · exact raise_costs _ _ _
  · exact .pure ()

theorem checkIndex_free (k : Kind) (index : Int32) (length : Nat) :
    Free (checkIndex k index length) := by
  unfold checkIndex
  split
  · exact .pure ()
  · exact raise_costs _ _ _

end Exceptions

section Arrays

theorem registerArray_free (rank : Rank) (component superclass : ClassId) (c : Class) :
    Free (registerArray rank component superclass c) :=
  register_free _ _ _

theorem objectArrayClass_free : Free objectArrayClass := by
  refine objectClass_free.bind fun root => ?_
  exact (classOf_free root).bind fun c => registerArray_free .one root root c

theorem objectGridClass_free : Free objectGridClass := by
  refine objectClass_free.bind fun root => ?_
  refine objectArrayClass_free.bind fun rows => ?_
  exact (classOf_free root).bind fun c => registerArray_free .two root rows c

theorem arraySuperclass_free (component : ClassId) (c : Class) :
    Free (arraySuperclass component c) := by
  refine objectClass_free.bind fun root => ?_
  split
  · exact .pure root
  · exact objectArrayClass_free

theorem gridSuperclass_free (component : ClassId) (c : Class) :
    Free (gridSuperclass component c) := by
  refine objectArrayClass_free.bind fun rows => ?_
  refine objectClass_free.bind fun root => ?_
  split
  · exact .pure rows
  · exact objectGridClass_free

theorem findArrayClass_free (rank : Rank) {superclass : ClassId → Class → Action ClassId}
    (free : ∀ component c, Free (superclass component c)) (component : ClassId) :
    Free (findArrayClass rank superclass component) := by
  refine (classOf_free component).bind fun c => ?_
  refine .get (fun _ _ => rfl) fun w => ?_
  cases w.find? (c.arrayKey rank) with
  | some found => exact .pure found
  | none => exact (free component c).bind fun s => registerArray_free rank component s c

theorem arrayClass_free (component : ClassId) : Free (arrayClass component) :=
  findArrayClass_free .one arraySuperclass_free component

theorem gridClass_free (component : ClassId) : Free (gridClass component) :=
  findArrayClass_free .two gridSuperclass_free component

theorem classOperand_free (c : Option ClassId) : Free (classOperand c) := by
  cases c with
  | some c => exact .pure c
  | none => exact raise_costs _ _ _

end Arrays

section Definitions

theorem orObjectClass_free (c : Option ClassId) : Free (orObjectClass c) := by
  cases c with
  | some c => exact .pure c
  | none => exact objectClass_free

theorem defineClass_free (name : Text) (superclass : Option ClassId) (slots : List Text) :
    Free (defineClass name superclass slots) := by
  refine (orObjectClass_free superclass).bind fun parent => ?_
  refine (classOf_free parent).bind fun p => ?_
  cases p.table with
  | none => exact .crash _
  | some inherited =>
    refine (register_free _ _ _).bind fun c => ?_
    refine .get (fun _ _ => rfl) fun w => ?_
    dsimp only
    split
    · exact .pure c
    · exact (className_free _).bind fun _ => .crash _

theorem pointClass_free : Free pointClass := defineClass_free _ _ _

theorem colorPointClass_free : Free colorPointClass :=
  pointClass_free.bind fun _ => defineClass_free _ _ _

theorem alphaPointClass_free : Free alphaPointClass :=
  colorPointClass_free.bind fun _ => defineClass_free _ _ _

theorem listClass_free : Free listClass := defineClass_free _ _ _

theorem newInstance_costs {find : Action ClassId} (free : Free find) (body : Body) :
    Costs (newInstance find body) 1 :=
  free.bind fun _ => .get (fun _ _ => rfl) fun _ => initialise_costs _ _

end Definitions

end ObjectModel.Action
