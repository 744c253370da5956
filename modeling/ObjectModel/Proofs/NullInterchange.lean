import ObjectModel.Proofs.NullForms
import ObjectModel.Proofs.Reachable

/-!
Forms of null in scripts. Two sessions are alike if their worlds are, and if their variables hold
the same values but for the form of null. An operation that takes null into account ends alike in
both, whatever its operands are, so the same script of such operations never tells the forms apart.
-/

namespace ObjectModel.Script

inductive Value.Alike : Value → Value → Prop where
  | same (v : Value) : Alike v v
  | handle {h h' : Handle} (alike : h.Alike h') : Alike (.handle h) (.handle h')

inductive Reply.Alike : Reply → Reply → Prop where
  | ok {v v' : Value} (alike : v.Alike v') : Alike (.ok v) (.ok v')
  | error (e : Failure) : Alike (.error e) (.error e)

inductive Outcome.Alike : Outcome → Outcome → Prop where
  | reply {r r' : Reply} (alike : Reply.Alike r r') : Alike (.reply r) (.reply r')
  | stopped (stop : Stop) : Alike (.stopped stop) (.stopped stop)

/-- Sessions that differ at most in forms of null. -/
structure Session.Alike (s s' : Session) : Prop where
  world : s.world.Alike s'.world
  files : s'.files = s.files
  bindings : List.Forall₂ (fun b b' => b.1 = b'.1 ∧ b.2.Alike b'.2) s.bindings s'.bindings

/-- Operations that take null into account. -/
def Op.isNullAware : Op → Bool
  | .object (.value _) | .object (.isNull _) | .object (.checkNotNull _) | .object (.hashCode _)
  | .object (.getClass _) | .object (.toString _) | .object (.equals _ _)
  | .object (.objectEquals _ _) | .object (.release _) | .object (.cast _ _ _)
  | .string (.equals _ _) | .classes (.isInstance _ _) | .array (.checkStore _ _)
  | .array (.get _ _) | .array (.set _ _ _) | .array (.getAt _ _ _) | .array (.setAt _ _ _ _)
  | .array (.rowGet _ _) | .array (.rowSet _ _ _) => true
  | _ => false

theorem Session.Alike.lookup {s s' : Session} (alike : s.Alike s') (name : Name) :
    s.bindings.lookup name = none ∧ s'.bindings.lookup name = none ∨
      ∃ v v', s.bindings.lookup name = some v ∧ s'.bindings.lookup name = some v' ∧ v.Alike v' := by
  have each := alike.bindings
  generalize s.bindings = bs at each
  generalize s'.bindings = bs' at each
  induction each with
  | nil => exact .inl ⟨rfl, rfl⟩
  | @cons b b' bs bs' related _ ih =>
    obtain ⟨n, v⟩ := b
    obtain ⟨n', v'⟩ := b'
    obtain ⟨same, alike⟩ := related
    cases same
    rw [List.lookup_cons, List.lookup_cons]
    cases name == n with
    | true => exact .inr ⟨v, v', rfl, rfl, alike⟩
    | false => exact ih

namespace Eval
variable {α : Type}

theorem act_agree {R : α → α → Prop} {a a' : Action α} (agree : Agree World.Alike R a a') :
    Agree Session.Alike R (act a) (act a') := by
  intro s s' alike
  have ended := agree s.world s'.world alike.world
  rw [run_act, run_act]
  generalize a.run s.world = r at ended
  generalize a'.run s'.world = r' at ended
  cases ended with
  | ok result world => exact .ok result ⟨world, alike.files, alike.bindings⟩
  | error e world => exact .error _ ⟨world, alike.files, alike.bindings⟩

theorem valueOf_agree (name : Name) :
    Agree Session.Alike Value.Alike (valueOf name) (valueOf name) := by
  refine .get fun s s' alike => ?_
  rcases alike.lookup name with ⟨none, none'⟩ | ⟨v, v', found, found', same⟩
  · rw [none, none']
    exact .throw _
  · rw [found, found']
    exact .pure same

theorem world_agree {R : α → α → Prop} {f f' : World → Eval α}
    (each : ∀ w w', w.Alike w' → Agree Session.Alike R (f w) (f' w')) :
    Agree Session.Alike R (world >>= f) (world >>= f') :=
  fun s s' alike => each s.world s'.world alike.world s s' alike

section Operands

theorem classOfHandle_agree {h h' : Handle} (alike : h.Alike h') :
    Agree Session.Alike Eq (classOfHandle h) (classOfHandle h') := by
  cases alike with
  | null null null' =>
    have absent {p : Handle} (null : p.isNull = true) : classOfHandle p = pure none := by
      cases p with
      | null | typedNull => rfl
      | blankFlat | object => cases null
    rw [absent null, absent null']
    exact .pure rfl
  | same =>
    cases h with
    | null | typedNull => exact .pure rfl
    | blankFlat => exact .throw _
    | object id view =>
      refine world_agree fun w w' matched => ?_
      simp only [World.body?]
      cases found : w.object? id with
      | none =>
        rw [matched.object?_none found]
        exact .throw _
      | some o =>
        obtain ⟨o', found', alike⟩ := matched.objects id o found
        rw [found']
        obtain ⟨_, _, alike⟩ := alike
        cases alike with
        | other =>
          dsimp only [Option.map_some]
          split
          · exact .pure rfl
          · exact .throw _
        | array => exact .throw _
        | grid => exact .throw _

theorem namedClass_blind (which : NamedClass) : Action.Blind (namedClass which) := by
  cases which with
  | core which => exact Action.coreClass_blind which
  | primitive p => exact Action.register_blind _ _ _
  | point => exact Action.defineClass_blind _ _ _
  | colorPoint =>
    exact (Action.defineClass_blind _ _ _).bind fun _ => Action.defineClass_blind _ _ _
  | alphaPoint =>
    exact ((Action.defineClass_blind _ _ _).bind fun _ => Action.defineClass_blind _ _ _).bind
      fun _ => Action.defineClass_blind _ _ _
  | list => exact Action.defineClass_blind _ _ _

theorem act_blind {a : Action α} (blind : Action.Blind a) :
    Agree Session.Alike Eq (act a) (act a) :=
  act_agree blind.agree

theorem some_agree {e : Eval α} (agree : Agree Session.Alike Eq e e) :
    Agree Session.Alike Eq (some <$> e) (some <$> e) :=
  agree.after fun _ => .pure rfl

theorem kindOfCode_blind (code : KindCode) : Action.Blind (Action.kindOfCode code) := by
  unfold Action.kindOfCode
  split
  · exact .pure _
  · exact .crash _

theorem classOperand_agree (e : ClassExpr) :
    Agree Session.Alike Eq (classOperand e) (classOperand e) := by
  induction e with
  | null => exact .pure rfl
  | «variable» name =>
    refine (valueOf_agree name).bind fun v v' alike => ?_
    cases alike with
    | handle alike => exact classOfHandle_agree alike
    | same =>
      cases v with
      | handle h => exact classOfHandle_agree (.same h)
      | _ => exact .throw _
  | named which => exact some_agree (act_blind (namedClass_blind which))
  | kind code =>
    exact some_agree (act_blind ((kindOfCode_blind code).bind fun _ => Action.kindClass_blind _))
  | array component ih =>
    exact ih.after fun c => some_agree <| act_blind <|
      (Action.classOperand_blind c).bind fun _ => Action.arrayClass_blind _
  | grid component ih =>
    exact ih.after fun c => some_agree <| act_blind <|
      (Action.classOperand_blind c).bind fun _ => Action.gridClass_blind _
  | registered key =>
    refine world_agree fun w w' matched => ?_
    rw [matched.find?]
    exact .pure rfl

theorem classHandle_agree (c : Option ClassId) :
    Agree Session.Alike Eq (classHandle c) (classHandle c) := by
  refine world_agree fun w w' matched => ?_
  have same : c.bind w'.class? = c.bind w.class? := by
    cases c with
    | none => rfl
    | some c => exact matched.class? c
  rw [same]
  cases c.bind w.class? with
  | none => exact .pure rfl
  | some k => exact .pure rfl

theorem refOperand_agree (e : RefExpr) :
    Agree Session.Alike Handle.Alike (refOperand e) (refOperand e) := by
  cases e with
  | null => exact .pure (.same _)
  | typedNull view => exact .pure (.same _)
  | «variable» name =>
    refine (valueOf_agree name).bind fun v v' alike => ?_
    cases alike with
    | handle alike => exact .pure alike
    | same =>
      cases v with
      | handle h => exact .pure (.same h)
      | nothing => exact .pure (.same _)
      | _ => exact .throw _
  | string text => exact (act_blind (Action.newString_blind text)).after fun _ => .pure (.same _)
  | metaclass c =>
    refine (classOperand_agree c).after fun k => (classHandle_agree k).imp ?_
    rintro h _ rfl
    exact .same h

theorem viewOperand_agree (view : View) (e : RefExpr) :
    Agree Session.Alike Eq (viewOperand view e) (viewOperand view e) :=
  (refOperand_agree e).bind fun _ _ alike => .pure (alike.as?_eq view).symm

theorem arrayOperand_agree (e : RefExpr) :
    Agree Session.Alike Eq (arrayOperand e) (arrayOperand e) := by
  refine (refOperand_agree e).bind fun h h' alike => ?_
  refine (act_agree (Action.checkNotNull_agree alike)).bind ?_
  rintro _ _ rfl
  split
  · exact .pure rfl
  · exact .throw _

theorem gridOperand_agree (e : RefExpr) :
    Agree Session.Alike Eq (gridOperand e) (gridOperand e) := by
  refine (refOperand_agree e).bind fun h h' alike => ?_
  refine (act_agree (Action.checkNotNull_agree alike)).bind ?_
  rintro _ _ rfl
  split
  · exact .pure rfl
  · exact .throw _

theorem rowOperand_agree (name : Name) :
    Agree Session.Alike Eq (rowOperand name) (rowOperand name) := by
  refine (valueOf_agree name).bind fun v v' alike => ?_
  cases alike with
  | handle => exact .throw _
  | same =>
    cases v with
    | row => exact .pure rfl
    | _ => exact .throw _

theorem storedHandle_agree (e : StoredExpr) :
    Agree Session.Alike Handle.Alike (storedHandle e) (storedHandle e) := by
  cases e with
  | word name => exact refOperand_agree (.variable name)
  | ref e => exact refOperand_agree e
  | _ => exact .pure (.same _)

theorem storedElement_agree (type : ElementType) (e : StoredExpr) :
    Agree Session.Alike Element.Alike (storedElement type e) (storedElement type e) := by
  have typed (view : View) :
      Agree Session.Alike Element.Alike (storedHandle e >>= storedElement.typed view)
        (storedHandle e >>= storedElement.typed view) := by
    refine (storedHandle_agree e).bind fun h h' alike => ?_
    unfold storedElement.typed
    rw [alike.as?_eq]
    split
    · exact .pure (.same _)
    · exact .pure (.same _)
  cases type with
  | object => exact (storedHandle_agree e).bind fun _ _ alike => .pure (.ref alike)
  | string => exact typed .string
  | point => exact typed .point
  | _ => exact .pure (.same _)

end Operands

section Operations

theorem flag_agree {a a' : Action Bool} (agree : Agree World.Alike Eq a a') :
    Agree Session.Alike Reply.Alike (flag a) (flag a') :=
  (act_agree agree).after fun _ => .pure (.ok (.same _))

theorem nothing_agree {a a' : Action Unit} (agree : Agree World.Alike Eq a a') :
    Agree Session.Alike Reply.Alike (nothing a) (nothing a') :=
  (act_agree agree).after fun _ => .pure (.ok (.same _))

theorem ofElement_alike {e e' : Element} (alike : e.Alike e') :
    Reply.Alike (.ok (.ofElement e)) (.ok (.ofElement e')) := by
  cases alike with
  | same => exact .ok (.same _)
  | ref alike => exact .ok (.handle alike)

/-- Dispatch on a receiver: null is refused, and otherwise the receivers are the same. -/
theorem dispatch_agree {β : Type} {f : Handle → Action α} (blind : ∀ h, Action.Blind (f h))
    {R : β → β → Prop} {g : α → Eval β} (each : ∀ x, Agree Session.Alike R (g x) (g x))
    (e : RefExpr) :
    Agree Session.Alike R
      (refOperand e >>= fun h => act (do Action.checkNotNull h; f h) >>= g)
      (refOperand e >>= fun h => act (do Action.checkNotNull h; f h) >>= g) := by
  refine (refOperand_agree e).bind fun h h' alike => (act_agree ?_).after each
  refine (Action.checkNotNull_agree alike).bind ?_
  rintro _ _ rfl
  exact (blind h).agree

theorem object_agree {op : ObjectOp} (aware : Op.isNullAware (.object op) = true) :
    Agree Session.Alike Reply.Alike (object op) (object op) := by
  cases op with
  | value e => exact (refOperand_agree e).bind fun _ _ alike => .pure (.ok (.handle alike))
  | isNull e =>
    refine (refOperand_agree e).bind fun _ _ alike => .pure ?_
    rw [alike.isNull_eq]
    exact .ok (.same _)
  | checkNotNull e =>
    refine (refOperand_agree e).bind fun h h' alike => ?_
    refine (act_agree (Action.checkNotNull_agree alike)).bind ?_
    rintro _ _ rfl
    exact .pure (.ok (.same _))
  | hashCode e =>
    exact dispatch_agree (fun h => (Action.hashCode_blind h).map _)
      (fun _ => .pure (.ok (.same _))) e
  | getClass e =>
    exact dispatch_agree Action.objectGetClass_blind
      (fun c => (classHandle_agree c).after fun _ => .pure (.ok (.same _))) e
  | toString e =>
    exact dispatch_agree Action.toString_blind (fun _ => .pure (.ok (.same _))) e
  | equals e other =>
    refine (refOperand_agree e).bind fun h h' alike => ?_
    refine (refOperand_agree other).bind fun _ _ alike' => flag_agree ?_
    refine (Action.checkNotNull_agree alike).bind ?_
    rintro _ _ rfl
    exact Action.equals_agree h alike'
  | objectEquals e other =>
    exact (refOperand_agree e).bind fun _ _ alike => (refOperand_agree other).bind
      fun _ _ alike' => flag_agree (Action.objectEquals_agree alike alike')
  | release e =>
    exact (refOperand_agree e).bind fun _ _ alike => flag_agree (Action.release_agree alike)
  | cast c e t =>
    refine (classOperand_agree c).after fun k => (refOperand_agree e).bind fun _ _ alike => ?_
    exact (act_agree (Action.cast_agree t k alike)).after fun _ => .pure (.ok (.same _))
  | _ => cases aware

theorem array_agree {op : ArrayOp} (aware : Op.isNullAware (.array op) = true) :
    Agree Session.Alike Reply.Alike (array op) (array op) := by
  have stored {a : Element → Action Unit} (type : ElementType) (e : StoredExpr)
      (each : ∀ x x', x.Alike x' → Agree World.Alike Eq (a x) (a x')) :
      Agree Session.Alike Reply.Alike (storedElement type e >>= fun x => nothing (a x))
        (storedElement type e >>= fun x => nothing (a x)) :=
    (storedElement_agree type e).bind fun x x' alike => nothing_agree (each x x' alike)
  cases op with
  | get e i =>
    exact (arrayOperand_agree e).after fun id => (act_agree (Action.arrayGet_agree id i)).bind
      fun _ _ alike => .pure (ofElement_alike alike)
  | set e i value =>
    refine (arrayOperand_agree e).after fun id => ?_
    refine (act_agree (Action.cells_agree id)).bind fun _ _ alike => ?_
    obtain ⟨element, _, _, _⟩ := alike
    exact stored element value fun _ _ alike => Action.arraySet_agree id i alike
  | getAt e i j =>
    exact (gridOperand_agree e).after fun id => (act_agree (Action.gridGet_agree id i j)).bind
      fun _ _ alike => .pure (ofElement_alike alike)
  | setAt e i j value =>
    refine (gridOperand_agree e).after fun id => ?_
    refine (act_agree (Action.gridCells_agree id)).bind fun _ _ alike => ?_
    obtain ⟨element, _, _, _, _⟩ := alike
    exact stored element value fun _ _ alike => Action.gridSet_agree id i j alike
  | rowGet name j =>
    exact (rowOperand_agree name).after fun p => (act_agree (Action.gridGet_agree p.1 p.2 j)).bind
      fun _ _ alike => .pure (ofElement_alike alike)
  | rowSet name j value =>
    refine (rowOperand_agree name).after fun p => ?_
    refine (act_agree (Action.gridCells_agree p.1)).bind fun _ _ alike => ?_
    obtain ⟨element, _, _, _, _⟩ := alike
    exact stored element value fun _ _ alike => Action.gridSet_agree p.1 p.2 j alike
  | checkStore e value =>
    exact (refOperand_agree e).bind fun _ _ alike => (refOperand_agree value).bind
      fun _ _ alike' => nothing_agree (Action.checkStore_agree alike alike')
  | _ => cases aware

theorem perform_agree {op : Op} (aware : op.isNullAware = true) :
    Agree Session.Alike Reply.Alike (perform op) (perform op) := by
  cases op with
  | object op => exact object_agree aware
  | array op => exact array_agree aware
  | string op =>
    cases op with
    | equals e other =>
      exact (viewOperand_agree .string e).after fun s => (refOperand_agree other).bind
        fun _ _ alike => flag_agree (Action.stringEquals_agree s alike)
    | _ => cases aware
  | classes op =>
    cases op with
    | isInstance c e =>
      exact (classOperand_agree c).after fun k => (refOperand_agree e).bind
        fun _ _ alike => flag_agree (Action.isInstance_agree k alike)
    | _ => cases aware
  | _ => cases aware

end Operations

end Eval

def Step.isNullAware : Step → Bool
  | .perform op _ _ => op.isNullAware
  | .attempt _ _ _ => false

namespace Session
variable {s s' : Session}

theorem Alike.refl (s : Session) : s.Alike s where
  world := ⟨rfl, rfl, rfl, rfl, rfl, rfl, fun _ o found => ⟨o, found, .refl o⟩⟩
  files := rfl
  bindings := List.forall₂_same.mpr fun b _ => ⟨rfl, .same b.2⟩

theorem Alike.bind (alike : s.Alike s') (name : Option Name) {v v' : Value} (value : v.Alike v') :
    (s.bind name v).Alike (s'.bind name v') := by
  cases name with
  | none => exact alike
  | some name => exact { alike with bindings := .cons ⟨rfl, value⟩ alike.bindings }

theorem performOp_alike (alike : s.Alike s') {op : Op} (aware : op.isNullAware = true)
    (result : Option Name) :
    Outcome.Alike (s.performOp op result).1 (s'.performOp op result).1 ∧
      (s.performOp op result).2.Alike (s'.performOp op result).2 := by
  have ended := Eval.perform_agree aware s s' alike
  rw [performOp_eq, performOp_eq]
  generalize (Eval.perform op).run s = r at ended
  generalize (Eval.perform op).run s' = r' at ended
  cases ended with
  | error stop state => exact ⟨.stopped stop, state⟩
  | ok same state =>
    cases same with
    | error e => exact ⟨.reply (.error e), state⟩
    | ok value => exact ⟨.reply (.ok value), state.bind result value⟩

theorem run_alike (alike : s.Alike s') {step : Step} (aware : step.isNullAware = true) :
    Outcome.Alike (s.run step).1 (s'.run step).1 ∧ (s.run step).2.Alike (s'.run step).2 := by
  cases step with
  | attempt => cases aware
  | perform op result caught =>
    obtain ⟨outcome, state⟩ := performOp_alike alike aware result
    unfold run runInner
    generalize s.performOp op result = r at outcome state ⊢
    generalize s'.performOp op result = r' at outcome state ⊢
    obtain ⟨o, t⟩ := r
    obtain ⟨o', t'⟩ := r'
    cases outcome with
    | reply same => exact ⟨.reply same, state⟩
    | stopped stop =>
      cases stop with
      | fault e =>
        cases e with
        | thrown e => exact ⟨.stopped _, state.bind caught (.same _)⟩
        | crash cause => exact ⟨.stopped _, state⟩
      | _ => exact ⟨.stopped _, state⟩

theorem runAll_alike (alike : s.Alike s') {steps : List Step}
    (aware : ∀ step ∈ steps, step.isNullAware = true) :
    List.Forall₂ Outcome.Alike (s.runAll steps).1 (s'.runAll steps).1 ∧
      (s.runAll steps).2.Alike (s'.runAll steps).2 := by
  induction steps generalizing s s' with
  | nil => exact ⟨.nil, alike⟩
  | cons step rest ih =>
    obtain ⟨outcome, state⟩ := run_alike alike (aware step List.mem_cons_self)
    obtain ⟨outcomes, last⟩ := ih state fun next member =>
      aware next (List.mem_cons_of_mem step member)
    exact ⟨.cons outcome outcomes, last⟩

/-- In every session that a script reaches, all forms of null are interchangeable. Each operation
that takes null into account either refuses every form with the same exception, or gives every form
the same result and leaves the world as it is. If a variable holds one form or another, a script of
such operations gives the same outcomes and leaves the same session, but for the form of null where
it was stored or read back. -/
theorem Reachable.nulls_interchangeable {s : Session} (reached : s.Reachable) :
    (∃ e w, w.exception? e = some (.nullPointer, []) ∧ s.world.Framed none w ∧
      ∀ p, p.isNull = true → s.world.TreatsNull e w p) ∧
    ∀ p q : Handle, p.isNull = true → q.isNull = true → ∀ name steps,
      (∀ step ∈ steps, Step.isNullAware step = true) →
        let one := (s.bind (some name) (.handle p)).runAll steps
        let other := (s.bind (some name) (.handle q)).runAll steps
        List.Forall₂ Outcome.Alike one.1 other.1 ∧ one.2.Alike other.2 := by
  constructor
  · obtain ⟨e, w, raised, exception, framed⟩ :=
      Action.raise_refuses (α := Unit) reached.valid.well .nullPointer []
    exact ⟨e, w, exception, framed, fun p null => World.treatsNull raised null⟩
  · intro p q null null' name steps aware
    exact runAll_alike ((Alike.refl s).bind (some name) (.handle (.null null null'))) aware

end Session

/-- A null is stored in an array, read back and used. -/
def storedNull : List Step :=
  [.perform (.array (.set (.variable "a") 0 (.ref (.variable "x")))) none none,
    .perform (.array (.get (.variable "a") 0)) (some "y") none,
    .perform (.object (.equals (.variable "a") (.variable "y"))) none none,
    .perform (.object (.hashCode (.variable "y"))) none (some "e"),
    .perform (.array (.checkStore (.variable "y") (.variable "a"))) none none,
    .perform (.object (.cast (.named (.core .string)) (.variable "y") (.view .string))) none none,
    .perform (.object (.release (.variable "y"))) none none]

theorem nulls_interchangeable_storedNull :
    let s := ((Session.withVerbosity {} 0).runAll
      [.perform (.array (.newArray none (.named (.core .object)) 1)) (some "a") none]).2
    let one := (s.bind (some "x") (.handle .null)).runAll storedNull
    let other := (s.bind (some "x") (.handle (.typedNull .point))).runAll storedNull
    s.Reachable ∧ (one.2.world.body? 4).map Body.elements = some [.ref .null] ∧
      (other.2.world.body? 4).map Body.elements = some [.ref (.typedNull .point)] ∧
      List.Forall₂ Outcome.Alike one.1 other.1 ∧ one.2.Alike other.2 ∧
      ∃ e w, s.world.TreatsNull e w .null ∧ s.world.TreatsNull e w (.typedNull .point) := by
  intro s one other
  have reached : s.Reachable := (Session.Reachable.start {} 0).runAll _
  obtain ⟨⟨e, w, -, -, treats⟩, alike⟩ := reached.nulls_interchangeable
  obtain ⟨outcomes, sessions⟩ := alike .null (.typedNull .point) rfl rfl "x" storedNull (by decide)
  exact ⟨reached, by decide +kernel, by decide +kernel, outcomes, sessions, e, w, treats .null rfl,
    treats (.typedNull .point) rfl⟩

end ObjectModel.Script
