import ObjectModel.Proofs.Account.Script
import ObjectModel.Proofs.Reachable

/-!
Accounts of operations. Every operation tells of the classes that it defines, of the exception that
it ends with and of the release that it carries out; it leaves the threshold of the log alone unless
it puts a configuration into force. What it allocates besides the objects of classes is known from
the operation: the strings of its literals, and the objects that it is there to make, or the
exception that it ends with.
-/

namespace ObjectModel.Script

def ObjectOp.literals : ObjectOp → Nat
  | .newColorPoint _ _ e | .newAlphaPoint _ _ e _ | .newAlphaPointOf _ _ _ e _ | .newList e _
  | .view e _ | .value e | .initialise e _ | .hashCode e | .getClass e | .toString e
  | .objectHashCode e | .objectGetClass e | .objectToString e | .horizontal e | .isNull e
  | .checkNotNull e | .release e | .outermost e | .tableOf e | .isReleased e | .cast _ e _ =>
    e.literals
  | .equals e other | .objectEquals e other => e.literals + other.literals
  | _ => 0

def StringOp.literals : StringOp → Nat
  | .length e | .charAt e _ | .text e | .hash e | .itself e => e.literals
  | .concat e other | .equals e other => e.literals + other.literals

def ArrayOp.literals : ArrayOp → Nat
  | .length e | .get e _ | .set e _ _ | .elements e | .extent e | .getAt e _ _ | .setAt e _ _ _
  | .row e _ => e.literals
  | .checkStore e value => e.literals + value.literals
  | _ => 0

def ExceptionOp.literals : ExceptionOp → Nat
  | .kindOf e | .message e | .text e | .isA e _ | .find (.operand e) => e.literals
  | _ => 0

namespace Op

/-- The string literals among the operands. -/
def literals : Op → Nat
  | .object op => op.literals
  | .string op => op.literals
  | .classes (.isInstance _ e) => e.literals
  | .table (.destroy _ e) => e.literals
  | .array op => op.literals
  | .exception op => op.literals
  | _ => 0

/-- The literals to be stored, which are evaluated if the elements of the array are objects. -/
def storedLiterals : Op → Nat
  | .array (.set _ _ value) | .array (.setAt _ _ _ value) | .array (.rowSet _ _ value) =>
    value.literals
  | _ => 0

/-- The operations that allocate an object and return it. -/
def constructs : Op → Bool
  | .object (.newObject) | .object (.newString _) | .object (.newPoint _ _)
  | .object (.newColorPoint _ _ _) | .object (.newAlphaPoint _ _ _ _) | .object (.newList _ _)
  | .object (.newBare _) | .object (.newBareOf _) | .object (.newAlphaPointOf _ _ _ _ _)
  | .object (.newFlat _) | .object (.objectToString _) | .string (.concat _ _)
  | .array (.newArray _ _ _) | .array (.newGrid _ _ _ _) | .exception (.new _ _) => true
  | _ => false

/-- What an operation that returns may have allocated itself. The text of an object may be there
already, and that of a coloured point takes three strings; an exception may have no message. -/
def Makes (op : Op) (n : Nat) : Prop :=
  match op with
  | .object (.toString _) => Action.textCounts n
  | .exception (.message _) => n = 0 ∨ n = 1
  | .command (.run name _) => n = Action.commandCount name
  | op => n = op.constructs.toNat

/-- What an operation has allocated itself when it ends with the outcome. One that stops has
allocated no more than its exception. A command that fails may have come as far as any other. -/
def Allocates (op : Op) (outcome : Outcome) (n : Nat) : Prop :=
  match op, outcome with
  | op, .reply (.ok _) => op.Makes n
  | .command (.run name _), _ => n ≤ Action.commandCount name + 1
  | op, .reply (.error _) => op.Makes n
  | _, .stopped stop => n = stop.charge

/-- The notice that an operation gives when it ends with the outcome in the world. -/
def notice? (op : Op) (outcome : Outcome) (w : World) : Option Notice :=
  match op, outcome with
  | .object (.release _), .reply (.ok (.flag true)) => some .released
  | .command (.run _ _), .reply (.error (.command (.uncaught text))) => some (.thrown text)
  | _, .stopped (.fault (.thrown e)) => some (.thrown (w.exceptionText e))
  | _, _ => none

/-- The operation puts a configuration into force. -/
def reconfigures (op : Op) (outcome : Outcome) : Bool :=
  match op, outcome with
  | .config (.apply _), .reply _ => true
  | _, _ => false

end Op

/-- The account of an operation that has run from the one session to the other. -/
structure Op.Account (op : Op) (s : Session) (r : Except Stop Reply) (s' : Session)
    (entries : List Entry) : Prop where
  names : s'.world.names = s.world.names ++ entries.filterMap Entry.definition?
  notices : entries.filterMap Entry.notice? = (op.notice? (.ofResult r) s'.world).toList
  /-- The threshold stays, or it is set once. -/
  steady : (∀ e ∈ entries, e.message?.isSome = true) ∨ op.reconfigures (.ofResult r) = true ∧
    ∃ before t rest, entries = before ++ .threshold t :: rest ∧
      ∀ e ∈ before ++ rest, e.message?.isSome = true
  others : ∃ k n, Spent op.literals (op.literals + op.storedLiterals) r k ∧
    op.Allocates (.ofResult r) n ∧ s'.world.others = s.world.others + k + n
  last : ∀ e, r = .error (.fault (.thrown e)) → e + 1 = s'.world.objects.size

namespace Op
variable {op : Op}

/-- Operations that are neither a release nor a command nor the use of a configuration. -/
def isOrdinary : Op → Bool
  | .object (.release _) | .command (.run _ _) | .config (.apply _) => false
  | _ => true

theorem notice?_stopped (op : Op) (stop : Stop) (w : World) :
    (op.notice? (.stopped stop) w).toList = stop.notices w := by
  unfold notice?
  split
  · rename_i same
    cases same
  · rename_i same
    cases same
  · rename_i e same
    cases same
    rfl
  · rename_i unthrown _ _
    cases stop with
    | fault e =>
      cases e with
      | thrown e => exact absurd rfl (unthrown e)
      | crash cause => rfl
    | _ => rfl

theorem notice?_reply (ordinary : op.isOrdinary = true) (reply : Reply) (w : World) :
    op.notice? (.reply reply) w = none := by
  unfold notice?
  split
  · cases ordinary
  · cases ordinary
  · rename_i same
    cases same
  · rfl

theorem allocates_stopped (op : Op) (stop : Stop) : op.Allocates (.stopped stop) stop.charge := by
  unfold Allocates
  split
  · rename_i same
    cases same
  · exact Nat.le_trans stop.charge_le_one (Nat.le_add_left 1 _)
  · rename_i same
    cases same
  · rename_i same
    cases same
    rfl

theorem allocates_reply {n : Nat} (makes : op.Makes n) (reply : Reply) :
    op.Allocates (.reply reply) n := by
  unfold Allocates
  split
  · exact makes
  · exact Nat.le_succ_of_le (Nat.le_of_eq makes)
  · exact makes
  · rename_i same
    cases same

/-- The account of an operation, or of the rest of one, that sets no threshold and has so many
literals. -/
structure Accounted (op : Op) (least most : Nat) (s : Session) (r : Except Stop Reply)
    (s' : Session) (entries : List Entry) : Prop where
  told : Told s.world (op.notice? (.ofResult r) s'.world).toList s'.world entries
  others : ∃ k n, Spent least most r k ∧ op.Allocates (.ofResult r) n ∧
    s'.world.others = s.world.others + k + n
  last : ∀ e, r = .error (.fault (.thrown e)) → e + 1 = s'.world.objects.size

namespace Accounted
variable {s s' : Session} {a b : Nat} {entries : List Entry} {r : Except Stop Reply}

theorem account
    (accounted : op.Accounted op.literals (op.literals + op.storedLiterals) s r s' entries) :
    op.Account s r s' entries :=
  ⟨accounted.told.names, accounted.told.notices, .inl accounted.told.steady, accounted.others,
    accounted.last⟩

/-- An operation stops when one of its operands does. -/
theorem stopped {α : Type} {k n : Nat} {stop : Stop}
    (told : Told s.world (stop.notices s'.world) s'.world entries) (most : k ≤ b)
    (charged : Eval.Charged k n s.world (.error stop : Except Stop α) s'.world) :
    op.Accounted a b s (.error stop) s' entries where
  told := by
    rw [Outcome.ofResult, notice?_stopped]
    exact told
  others := ⟨k, stop.charge, ⟨most, nofun⟩, op.allocates_stopped stop, charged.others⟩
  last := (charged.error (m := n)).last

end Accounted

end Op

namespace Eval

section Accounts
variable {s : Session} {op : Op} {a b : Nat} {α : Type}

def Accounts (op : Op) (e : Eval Reply) (least most : Nat) (s : Session) : Prop :=
  Tells e s (op.Accounted least most s)

theorem Accounts.account {e : Eval Reply}
    (accounts : Accounts op e op.literals (op.literals + op.storedLiterals) s) :
    Tells e s (op.Account s) :=
  Tells.imp accounts fun _ _ _ _ accounted => accounted.account

/-- An ordinary operation tells no more than its evaluation. -/
theorem Costs.accounts {e : Eval Reply} {n : Nat} (costs : Costs e a b n)
    (ordinary : op.isOrdinary = true) (makes : op.Makes n) : Accounts op e a b s := by
  refine (costs s).imp fun r s' entries _ holds => ?_
  obtain ⟨told, k, spent, charged⟩ := holds
  cases r with
  | ok reply =>
    refine ⟨?_, ⟨k, n, spent, op.allocates_reply makes reply, charged.others⟩, nofun⟩
    rw [Outcome.ofResult, op.notice?_reply ordinary]
    exact told
  | error stop => exact .stopped told spent.1 charged

/-- Operands come before the rest of an operation. -/
theorem Costs.before {e : Eval α} {f : α → Eval Reply} (operand : Costs e a b 0)
    (next : ∀ x s', e.run s = (.ok x, s') → Accounts op (f x) 0 0 s') :
    Accounts op (e >>= f) a b s := by
  refine (operand s).bind (fun x s' entries ran holds => ?_) fun stop s' entries holds => ?_
  · obtain ⟨told, k, spent, charged⟩ := holds
    refine (next x s' ran).imp fun r s'' rest _ accounted => ?_
    obtain ⟨m, n, spent', allocates, others⟩ := accounted.others
    refine ⟨told.trans accounted.told, ⟨k + m, n, spent.add spent', allocates, ?_⟩, accounted.last⟩
    have first : s'.world.others = s.world.others + k + (0 : Nat) := charged.others
    rw [others, first]
    omega
  · obtain ⟨told, k, spent, charged⟩ := holds
    exact .stopped told spent.1 charged

/-- An action with an account of its own whose result is the reply. -/
theorem act_accounts {action : Action α} {f : α → Reply}
    {notices : Except Fault α → World → List Notice} {counts : Nat → Prop}
    (accounts : Action.Accounts action s.world notices counts)
    (faults : ∀ e w, notices (.error e) w = e.notices w)
    (replies : ∀ x w, (op.notice? (.reply (f x)) w).toList = notices (.ok x) w)
    (makes : ∀ n, counts n → op.Makes n) :
    Accounts op (act action >>= fun x => pure (f x)) 0 0 s := by
  refine act_bind_tells accounts (fun x w' entries holds => .pure ?_) fun e w' entries holds => ?_
  · obtain ⟨told, n, one, charged⟩ := holds
    refine ⟨?_, ⟨0, n, .zero _, ?_, ?_⟩, nofun⟩
    · rw [List.append_nil, Outcome.ofResult, replies]
      exact told
    · exact op.allocates_reply (makes n one) _
    · simpa using charged.others
  · obtain ⟨told, n, one, charged⟩ := holds
    refine ⟨?_, ⟨0, e.charge, .zero _, op.allocates_stopped _, ?_⟩, ?_⟩
    · rw [Outcome.ofResult, op.notice?_stopped]
      rw [faults] at told
      exact told
    · simpa using charged.others
    · intro id same
      cases same
      exact charged.last id rfl

/-- The account of an ordinary operation. -/
theorem Costs.account {e : Eval Reply} {n : Nat}
    (costs : Costs e op.literals (op.literals + op.storedLiterals) n)
    (ordinary : op.isOrdinary = true) (makes : op.Makes n) : Tells e s (op.Account s) :=
  Accounts.account (costs.accounts ordinary makes)

end Accounts

section Replies

theorem allocated_costs {action : Action ObjectId} {n : Nat} (view : View)
    (costs : Action.Costs action n) : Costs (allocated view action) 0 0 n :=
  (act_costs costs).bind_pure _

theorem ofClass_free (c : Option ClassId) : Free (ofClass c) := (classHandle_free c).bind_pure _

theorem flag_free {action : Action Bool} (free : Action.Free action) : Free (flag action) :=
  (act_costs free).bind_pure _

theorem number_free {action : Action Int} (free : Action.Free action) : Free (number action) :=
  (act_costs free).bind_pure _

theorem nothing_free {action : Action Unit} (free : Action.Free action) : Free (nothing action) :=
  (act_costs free).bind_pure _

theorem notNull_costs {α : Type} {action : Action α} {n : Nat} (h : Handle)
    (costs : Action.Costs action n) : Action.Costs (do Action.checkNotNull h; action) n :=
  (Action.checkNotNull_free h).bind fun _ => costs

end Replies

section Objects
variable {s : Session}

theorem initialiseAgain_free (h : Handle) (table : Option DispatchTable) :
    Action.Free (initialiseAgain h table) := by
  unfold initialiseAgain
  split <;> exact .crash _

theorem embeddedView_free (h : Handle) (view : View) : Free (embeddedView h view) := by
  unfold embeddedView
  split
  · split
    · exact .pure _
    · exact .unsuitable
  · exact act_costs (.crash _)
  · exact .unsuitable

theorem headed_free (h : Handle) : Action.Free (do Action.object (← Action.target h)) :=
  (Action.target_free h).bind Action.object_free

theorem initialise_costs (e : RefExpr) (table : TableExpr) :
    Costs (object (.initialise e table)) e.literals e.literals 0 := by
  have again (h : Handle) : Free (do
      let table ← tableOperand table
      nothing (initialiseAgain h table)) :=
    (tableOperand_free table).andThen fun t => nothing_free (initialiseAgain_free h t)
  have other : Costs (do
      let h ← refOperand e
      if h.isNull then act (Action.crash .nullDereference)
      let table ← tableOperand table
      nothing (initialiseAgain h table)) e.literals e.literals 0 := by
    refine (refOperand_costs e).followed fun h => ?_
    split
    · exact (act_costs (n := 0) (.crash _)).andThen fun _ => again h
    · exact again h
  cases e with
  | null => exact again .null
  | _ => exact other

theorem toString_account (valid : s.Valid) (e : RefExpr) :
    Tells (object (.toString e)) s (Op.Account (.object (.toString e)) s) := by
  refine Accounts.account ((refOperand_costs e).before fun h s' ran => ?_)
  have well := ((refOperand_ends (P := .any) e valid).1).wellFormed valid.well
  rw [ran] at well
  have text : Action.Accounts (do Action.checkNotNull h; Action.toString h) s'.world
      Action.noticesOf Action.textCounts := by
    have listed : ∃ n, Action.textCounts n := ⟨0, .inl rfl⟩
    refine (Action.checkNotNull_free h).before (fun _ _ => rfl) listed fun _ w' checked => ?_
    have well' := ((Action.checkNotNull_ends (P := .any) h well).1).wellFormed well
    rw [checked] at well'
    exact Action.toString_accounts well' h
  exact act_accounts text (fun _ _ => rfl) (fun _ _ => rfl) fun _ one => one

theorem release_account (e : RefExpr) :
    Tells (object (.release e)) s (Op.Account (.object (.release e)) s) := by
  refine Accounts.account ((refOperand_costs e).before fun h s' _ => ?_)
  refine act_accounts (Action.release_accounts h) (fun _ _ => rfl) (fun x _ => ?_) fun _ one => one
  cases x <;> rfl

theorem object_account (valid : s.Valid) (op : ObjectOp) :
    Tells (object op) s (Op.Account (.object op) s) := by
  cases op with
  | newObject => exact (allocated_costs _ (Action.allocate_costs _ _)).account rfl rfl
  | newString text => exact (allocated_costs _ (Action.newString_costs text)).account rfl rfl
  | newPoint x y =>
    exact (allocated_costs _ (Action.newInstance_costs Action.pointClass_free _)).account rfl rfl
  | newColorPoint x y color =>
    refine Costs.account ((viewOperand_costs .string color).followed fun c => ?_) rfl rfl
    exact allocated_costs _ (Action.newInstance_costs Action.colorPointClass_free _)
  | newAlphaPoint x y color alpha =>
    refine Costs.account ((viewOperand_costs .string color).followed fun c => ?_) rfl rfl
    exact allocated_costs _ (Action.newInstance_costs Action.alphaPointClass_free _)
  | newList next item =>
    refine Costs.account ((viewOperand_costs .list next).followed fun l => ?_) rfl rfl
    exact allocated_costs _ (Action.newInstance_costs Action.listClass_free _)
  | newBare c | newFlat c =>
    refine Costs.account ((classOperand_free c).andThen fun k => ?_) rfl rfl
    refine (act_costs (tableOfClass_free k)).andThen fun t => ?_
    exact allocated_costs _ (Action.initialise_costs t _)
  | newBareOf table =>
    refine Costs.account ((tableOperand_free table).andThen fun t => ?_) rfl rfl
    exact allocated_costs _ (Action.initialise_costs t _)
  | newAlphaPointOf table x y color alpha =>
    refine Costs.account ((tableOperand_free table).andThen fun t => ?_) rfl rfl
    refine (viewOperand_costs .string color).followed fun c => ?_
    exact allocated_costs _ (Action.initialise_costs t _)
  | view e view =>
    refine Costs.account ((refOperand_costs e).followed fun h => ?_) rfl rfl
    exact (embeddedView_free h view).bind_pure _
  | value e => exact Costs.account ((refOperand_costs e).bind_pure _) rfl rfl
  | initialise e table => exact (initialise_costs e table).account rfl rfl
  | hashCode e =>
    refine Costs.account ((refOperand_costs e).followed fun h => ?_) rfl rfl
    exact number_free (notNull_costs h ((Action.hashCode_free h).bind_pure _))
  | getClass e =>
    refine Costs.account ((refOperand_costs e).followed fun h => ?_) rfl rfl
    exact (act_costs (notNull_costs h (Action.objectGetClass_free h))).andThen ofClass_free
  | toString e => exact toString_account valid e
  | equals e other =>
    refine Costs.account ((refOperand_costs e).bind fun h => ?_) rfl rfl
    refine (refOperand_costs other).followed fun h' => ?_
    exact flag_free (notNull_costs h (Action.equals_free h h'))
  | objectHashCode e =>
    refine Costs.account ((refOperand_costs e).followed fun h => ?_) rfl rfl
    exact number_free ((Action.objectHashCode_free h).bind_pure _)
  | objectGetClass e =>
    refine Costs.account ((refOperand_costs e).followed fun h => ?_) rfl rfl
    exact (act_costs (Action.objectGetClass_free h)).andThen ofClass_free
  | objectToString e =>
    refine Costs.account ((refOperand_costs e).followed fun h => ?_) rfl rfl
    exact allocated_costs _ (Action.objectToString_costs h)
  | objectEquals e other =>
    refine Costs.account ((refOperand_costs e).bind fun h => ?_) rfl rfl
    refine (refOperand_costs other).followed fun h' => ?_
    exact flag_free (Action.objectEquals_free h h')
  | horizontal e =>
    refine Costs.account ((refOperand_costs e).followed fun h => ?_) rfl rfl
    exact number_free (notNull_costs h ((Action.horizontal_free h).bind_pure _))
  | isNull e => exact Costs.account ((refOperand_costs e).bind_pure _) rfl rfl
  | checkNotNull e =>
    refine Costs.account ((refOperand_costs e).followed fun h => ?_) rfl rfl
    exact (act_costs (Action.checkNotNull_free h)).bind_pure _
  | release e => exact release_account e
  | outermost e =>
    refine Costs.account ((refOperand_costs e).followed fun h => ?_) rfl rfl
    exact (act_costs (Action.outermost_free h)).bind_pure _
  | tableOf e | isReleased e =>
    refine Costs.account ((refOperand_costs e).followed fun h => ?_) rfl rfl
    exact (act_costs (headed_free h)).bind_pure _
  | destroyed => exact Costs.account (.world (fun _ _ => rfl) fun _ => .pure _) rfl rfl
  | cast c e target =>
    refine Costs.account ((classOperand_free c).andThen fun k => ?_) rfl rfl
    refine (refOperand_costs e).followed fun h => ?_
    exact (act_costs (Action.cast_free target k h)).bind_pure _

end Objects

section Families
variable {s : Session}

theorem string_account (op : StringOp) : Tells (string op) s (Op.Account (.string op) s) := by
  cases op with
  | length e =>
    refine Costs.account ((viewOperand_costs .string e).followed fun t => ?_) rfl rfl
    exact number_free ((Action.stringLength_free t).bind_pure _)
  | charAt e i =>
    refine Costs.account ((viewOperand_costs .string e).followed fun t => ?_) rfl rfl
    exact number_free ((Action.charAt_free t i).bind_pure _)
  | concat e other =>
    refine Costs.account ((viewOperand_costs .string e).bind fun t => ?_) rfl rfl
    refine (viewOperand_costs .string other).followed fun t' => ?_
    exact allocated_costs _ (Action.concat_costs t t')
  | text e =>
    refine Costs.account ((viewOperand_costs .string e).followed fun t => ?_) rfl rfl
    exact (act_costs (Action.printedText_free t)).bind_pure _
  | equals e other =>
    refine Costs.account ((viewOperand_costs .string e).bind fun t => ?_) rfl rfl
    refine (refOperand_costs other).followed fun h => ?_
    exact flag_free (Action.stringEquals_free t h)
  | hash e =>
    refine Costs.account ((viewOperand_costs .string e).followed fun t => ?_) rfl rfl
    exact number_free ((Action.stringText_free t).bind_pure _)
  | itself e =>
    refine Costs.account ((viewOperand_costs .string e).followed fun t => ?_) rfl rfl
    cases t with
    | some id => exact .pure _
    | none => exact .pure _

theorem classes_account (op : ClassOp) : Tells (classes op) s (Op.Account (.classes op) s) := by
  cases op with
  | value c => exact Costs.account ((classOperand_free c).andThen ofClass_free) rfl rfl
  | report c =>
    refine Costs.account ((classOperand_free c).andThen fun k => ?_) rfl rfl
    exact (act_costs (Action.demand_free k)).bind_pure _
  | define name superclass slots =>
    refine Costs.account ((classOperand_free superclass).andThen fun parent => ?_) rfl rfl
    exact (act_costs (Action.defineClass_free name parent slots)).andThen fun c => ofClass_free _
  | isInstance c e =>
    refine Costs.account ((classOperand_free c).andThen fun k => ?_) rfl rfl
    refine (refOperand_costs e).followed fun h => ?_
    exact flag_free (Action.isInstance_free k h)
  | isSubclassOf c other =>
    refine Costs.account ((classOperand_free c).andThen fun k => ?_) rfl rfl
    refine (classOperand_free other).andThen fun l => .world (fun w log => ?_) fun w => .pure _
    rw [World.isSubclassOf_withLog]
  | bootstrap =>
    refine Costs.account ((act_costs Action.bootstrap_free).andThen fun _ => ?_) rfl rfl
    exact .world (fun _ _ => rfl) fun w => .pure _
  | all | count | has key =>
    exact Costs.account (.world (fun _ _ => rfl) fun w => .pure _) rfl rfl
  | emptyTable key => exact Costs.account (.pure _) rfl rfl

theorem ownerOperand_free (e : Option ClassExpr) : Free (ownerOperand e) := by
  cases e with
  | none => exact .pure _
  | some c =>
    refine (classOperand_free c).andThen fun k => ?_
    cases k with
    | some id => exact .pure _
    | none => exact .pure _

theorem table_account (op : TableOp) : Tells (table op) s (Op.Account (.table op) s) := by
  cases op with
  | new owner parent destructor slots =>
    refine Costs.account ((ownerOperand_free owner).andThen fun o => ?_) rfl rfl
    exact (tableOperand_free parent).bind_pure _
  | value e => exact Costs.account ((tableOperand_free e).bind_pure _) rfl rfl
  | owner e =>
    refine Costs.account ((someTable_free e).andThen fun t => ?_) rfl rfl
    exact (act_costs (Action.owner_free t)).andThen ofClass_free
  | parent e | count e | overrides e slot | hasDestructor e =>
    exact Costs.account ((someTable_free e).bind_pure _) rfl rfl
  | index e slot =>
    refine Costs.account ((someTable_free e).andThen fun t => ?_) rfl rfl
    split
    · exact .pure _
    · exact .pure _
  | extendsLayout e other =>
    refine Costs.account ((tableOperand_free e).andThen fun t => ?_) rfl rfl
    refine (tableOperand_free other).andThen fun t' => flag_free ?_
    exact (Action.demand_free t).bind fun t => (Action.demand_free t').bind_pure _
  | destroy e operand =>
    refine Costs.account ((someTable_free e).andThen fun t => ?_) rfl rfl
    refine (refOperand_costs operand).followed fun h => nothing_free ?_
    exact (Action.demand_free t.destructor?).bind fun d => Action.runDestructor_free d h

/-- A store evaluates what it stores when it knows the type of the elements. -/
theorem store_costs {α β : Type} {operand : Eval α} {cells : α → Action β} {type : β → ElementType}
    {action : α → Element → Action Unit} {a : Nat} (value : StoredExpr)
    (holds : Costs operand a a 0) (free : ∀ x, Action.Free (cells x))
    (stores : ∀ x v, Action.Free (action x v)) : Costs (do
      let x ← operand
      let c ← act (cells x)
      let v ← storedElement (type c) value
      nothing (action x v)) a (a + value.literals) 0 := by
  have rest (x : α) : Costs (do
      let c ← act (cells x)
      let v ← storedElement (type c) value
      nothing (action x v)) 0 value.literals 0 := by
    refine (act_costs (free x)).andThen fun c => ?_
    exact (storedElement_costs (type c) value).followed fun v => nothing_free (stores x v)
  exact holds.bind rest

theorem array_account (op : ArrayOp) : Tells (array op) s (Op.Account (.array op) s) := by
  cases op with
  | newArray element c n =>
    refine Costs.account ((classOperand_free c).andThen fun k => ?_) rfl rfl
    exact allocated_costs _ (Action.newArray_costs element k n)
  | newGrid element c n m =>
    refine Costs.account ((classOperand_free c).andThen fun k => ?_) rfl rfl
    exact allocated_costs _ (Action.newGrid_costs element k n m)
  | length e =>
    refine Costs.account ((arrayOperand_costs e).followed fun id => ?_) rfl rfl
    exact number_free ((Action.cells_free id).bind_pure _)
  | get e i =>
    refine Costs.account ((arrayOperand_costs e).followed fun id => ?_) rfl rfl
    exact (act_costs (Action.arrayGet_free id i)).bind_pure _
  | set e i value =>
    refine Costs.account (store_costs value (arrayOperand_costs e) Action.cells_free ?_) rfl rfl
    exact fun id v => Action.arraySet_free id i v
  | elements e =>
    refine Costs.account ((arrayOperand_costs e).followed fun id => ?_) rfl rfl
    exact (act_costs (Action.cells_free id)).bind_pure _
  | extent e =>
    refine Costs.account ((gridOperand_costs e).followed fun id => ?_) rfl rfl
    exact (act_costs (Action.gridCells_free id)).bind_pure _
  | getAt e i j =>
    refine Costs.account ((gridOperand_costs e).followed fun id => ?_) rfl rfl
    exact (act_costs (Action.gridGet_free id i j)).bind_pure _
  | setAt e i j value =>
    refine Costs.account (store_costs value (gridOperand_costs e) Action.gridCells_free ?_) rfl rfl
    exact fun id v => Action.gridSet_free id i j v
  | row e i =>
    refine Costs.account ((gridOperand_costs e).followed fun id => ?_) rfl rfl
    exact (act_costs (Action.gridRow_free id i)).bind_pure _
  | rowLength name =>
    refine Costs.account ((rowOperand_free name).andThen fun row => ?_) rfl rfl
    exact number_free ((Action.gridCells_free row.1).bind_pure _)
  | rowGet name j =>
    refine Costs.account ((rowOperand_free name).andThen fun row => ?_) rfl rfl
    exact (act_costs (Action.gridGet_free row.1 row.2 j)).bind_pure _
  | rowSet name j value =>
    refine Costs.account (store_costs value (rowOperand_free name) (fun row => ?_) fun row v => ?_)
      rfl rfl
    · exact Action.gridCells_free row.1
    · exact Action.gridSet_free row.1 row.2 j v
  | checkStore e value =>
    refine Costs.account ((refOperand_costs e).bind fun h => ?_) rfl rfl
    refine (refOperand_costs value).followed fun v => ?_
    exact nothing_free (Action.checkStore_free h v)

theorem exceptionParts_free (id : Option ObjectId) : Action.Free (exceptionParts id) := by
  refine .get (fun _ _ => rfl) fun w => ?_
  exact (Action.demand_free id).bind fun e => Action.demand_free (w.exception? e)

theorem exception_account (op : ExceptionOp) :
    Tells (exception op) s (Op.Account (.exception op) s) := by
  cases op with
  | new code message =>
    refine Costs.account (allocated_costs _ ?_) rfl rfl
    exact (Action.kindOfCode_free code).bind fun k => Action.newException_costs k message
  | throw code message =>
    refine Costs.account (nothing_free ?_) rfl rfl
    exact (Action.kindOfCode_free code).bind fun k => Action.raise_costs k message 0
  | kindReport code => exact Costs.account (.pure _) rfl rfl
  | kindIsA code other => exact Costs.account (.pure _) rfl rfl
  | sameKind code other => exact Costs.account (.pure _) rfl rfl
  | kindOf e =>
    refine Costs.account ((viewOperand_costs .exception e).followed fun id => ?_) rfl rfl
    exact number_free ((exceptionParts_free id).bind_pure _)
  | message e =>
    refine Accounts.account ((viewOperand_costs .exception e).before fun id _ _ => ?_)
    refine (act_costs (exceptionParts_free id)).before fun parts _ _ => ?_
    -- An exception without a message gives no string.
    dsimp only
    split
    · exact (Costs.pure _).accounts rfl (.inl rfl)
    · exact (allocated_costs _ (Action.newString_costs _)).accounts rfl (.inr rfl)
  | text e =>
    refine Costs.account ((viewOperand_costs .exception e).followed fun id => ?_) rfl rfl
    exact (act_costs (exceptionParts_free id)).bind_pure _
  | isA e code =>
    refine Costs.account ((viewOperand_costs .exception e).followed fun id => ?_) rfl rfl
    cases code with
    | none => exact .pure _
    | some code => exact flag_free ((exceptionParts_free id).bind_pure _)
  | find source =>
    cases source with
    | operand e =>
      refine Costs.account ((viewOperand_costs .exception e).followed fun id => ?_) rfl rfl
      cases id with
      | some id => exact .pure _
      | none => exact .pure _
    | kind code => exact Costs.account (.pure _) rfl rfl
    | nowhere => exact Costs.account (.pure _) rfl rfl

theorem snapshot_account (op : SnapshotOp) :
    Tells (snapshot op) s (Op.Account (.snapshot op) s) := by
  cases op with
  | describe c =>
    refine Costs.account ((classOperand_free c).andThen fun id => ?_) rfl rfl
    refine (act_costs ((Action.demand_free id).bind Action.classOf_free)).andThen fun k => ?_
    exact .world (fun _ _ => rfl) fun w => .pure _
  | capture => exact Costs.account (.world (fun _ _ => rfl) fun w => .pure _) rfl rfl
  | value e | encode e => exact Costs.account ((snapshotOperand_free e).bind_pure _) rfl rfl
  | decode input =>
    refine Costs.account ?_ rfl rfl
    simp only [snapshot]
    split
    · exact .pure _
    · exact .pure _
  | lookup e name dimensions =>
    refine Costs.account ((snapshotOperand_free e).andThen fun t => ?_) rfl rfl
    exact (act_costs (Action.demand_free t)).bind_pure _

theorem modifyFiles_tells (files : FileSystem) :
    Tells (modify fun s => { s with files } : Eval PUnit) s fun r s' entries =>
      r = .ok ⟨⟩ ∧ s'.world = s.world ∧ entries = [] :=
  .modify (fun _ => rfl) ⟨rfl, rfl, rfl⟩

theorem modifyFiles_free (files : FileSystem) :
    Free (modify fun s => { s with files } : Eval PUnit) := by
  intro s
  refine (modifyFiles_tells files).imp fun r s' entries _ kept => ?_
  obtain ⟨rfl, same, rfl⟩ := kept
  rw [same]
  refine ⟨.of_eq rfl, 0, .zero _, ?_, nofun⟩
  simp

theorem replaceFiles_free (result : Except Failure FileSystem) : Free (replaceFiles result) := by
  cases result with
  | ok files => exact (modifyFiles_free files).bind_pure _
  | error e => exact .pure _

theorem apply_account (name : Name) :
    Tells (config (.apply name)) s (Op.Account (.config (.apply name)) s) := by
  refine (configOperand_free name s).bind (fun c s' before _ holds => ?_)
    fun stop s' entries holds => ?_
  · obtain ⟨told, k, spent, charged⟩ := holds
    refine act_bind_tells (Action.applyConfig_tells c) (fun _ w' entries holds => ?_)
      fun _ _ _ holds => by cases holds.1
    obtain ⟨-, still, rest, rfl, told'⟩ := holds
    refine .get (fun _ => rfl) (.pure ?_)
    have both := told.trans told'
    rw [List.append_nil]
    refine ⟨?_, ?_, .inr ⟨rfl, before, _, rest, rfl, both.steady⟩, ?_, nofun⟩
    · rw [both.names, List.filterMap_append, List.filterMap_append]
      rfl
    · refine Eq.trans ?_ both.notices
      rw [List.filterMap_append, List.filterMap_append]
      rfl
    · refine ⟨k, 0, ⟨spent.1, fun _ _ => spent.2 c rfl⟩, rfl, ?_⟩
      rw [still.others, charged.others]
      simp
  · obtain ⟨told, k, spent, charged⟩ := holds
    exact (Op.Accounted.stopped told spent.1 charged).account

theorem config_account (op : ConfigOp) : Tells (config op) s (Op.Account (.config op) s) := by
  cases op with
  | setOptions allowZeroLength =>
    exact Costs.account (nothing_free (Action.setOptions_free _)) rfl rfl
  | options => exact Costs.account (.world (fun _ _ => rfl) fun w => .pure _) rfl rfl
  | makeDirectory path | writeFile path content =>
    exact Costs.account (.get (fun _ _ => rfl) fun s => replaceFiles_free _) rfl rfl
  | fileContent path => exact Costs.account (.get (fun _ _ => rfl) fun s => .pure _) rfl rfl
  | default => exact Costs.account (.pure _) rfl rfl
  | parse content =>
    refine Costs.account (.get (fun _ _ => rfl) fun s => ?_) rfl rfl
    refine (replaceFiles_free _).andThen fun _ => .get (fun _ _ => rfl) fun s => ?_
    exact (act_costs (Action.loadConfig_free _ _)).bind_pure _
  | loadIn directory =>
    refine Costs.account (.get (fun _ _ => rfl) fun s => ?_) rfl rfl
    exact (act_costs (Action.loadConfig_free _ _)).bind_pure _
  | load path =>
    refine Costs.account (.get (fun _ _ => rfl) fun s => ?_) rfl rfl
    exact (act_costs (Action.loadConfig_free _ _)).bind_pure _
  | find start =>
    refine Costs.account (.get (fun _ _ => rfl) fun s => ?_) rfl rfl
    exact (act_costs (Action.findConfig_free _ _)).bind_pure _
  | choose path =>
    refine Costs.account (.get (fun _ _ => rfl) fun s => ?_) rfl rfl
    exact (act_costs (Action.chooseConfig_free _ _)).bind_pure _
  | optionsOf name => exact Costs.account ((configOperand_free name).bind_pure _) rfl rfl
  | apply name => exact apply_account name

theorem run_tells (name output : Text) :
    Tells (command (.run name output)) s fun r s' entries =>
      Told s.world (Op.notice? (.command (.run name output)) (.ofResult r) s'.world).toList s'.world
          entries ∧
        (∃ n, Op.Allocates (.command (.run name output)) (.ofResult r) n ∧
          s'.world.others = s.world.others + n) ∧
        ∀ e, r = .error (.fault (.thrown e)) → e + 1 = s'.world.objects.size := by
  refine .get (fun _ => rfl) ?_
  refine act_bind_tells (Action.runCommand_reports s.files name output s.world)
    (fun result w' entries holds => ?_) fun e w' entries holds => ?_
  · obtain ⟨told, ⟨n, most, full, others⟩, -⟩ := holds
    cases result with
    | error e =>
      refine .pure ?_
      rw [List.append_nil]
      refine ⟨?_, ⟨n, most, others⟩, nofun⟩
      cases e <;> exact told
    | ok result =>
      refine (modifyFiles_tells result.files).bind (fun _ s'' rest _ kept => .pure ?_)
        fun _ _ _ kept => by cases kept.1
      obtain ⟨-, same, rfl⟩ := kept
      rw [List.append_nil, List.append_nil, same]
      exact ⟨told, ⟨n, full result rfl, others⟩, nofun⟩
  · obtain ⟨told, ⟨n, most, -, others⟩, last⟩ := holds
    rw [Outcome.ofResult, Op.notice?_stopped]
    refine ⟨told, ⟨n, most, others⟩, fun id same => ?_⟩
    cases same
    exact last id rfl

theorem run_account (name output : Text) :
    Tells (command (.run name output)) s (Op.Account (.command (.run name output)) s) := by
  refine (run_tells name output).imp fun r s' entries _ holds => ?_
  obtain ⟨told, ⟨n, allocates, others⟩, last⟩ := holds
  refine ⟨told.names, told.notices, .inl told.steady, ⟨0, n, .zero r, allocates, ?_⟩, last⟩
  simpa using others

theorem command_account (op : CommandOp) :
    Tells (command op) s (Op.Account (.command op) s) := by
  cases op with
  | run name output => exact run_account name output
  | program arguments files directory result =>
    refine Costs.account (.get (fun _ _ => rfl) fun s => ?_) rfl rfl
    refine .get (fun _ _ => rfl) fun s' => ?_
    dsimp only
    split
    · exact .pure _
    · exact (modifyFiles_free _).bind_pure _

end Families

/-- Every operation has its account. -/
theorem perform_account {s : Session} (valid : s.Valid) (op : Op) :
    Tells (perform op) s (op.Account s) := by
  cases op with
  | object op => exact object_account valid op
  | string op => exact string_account op
  | classes op => exact classes_account op
  | table op => exact table_account op
  | array op => exact array_account op
  | exception op => exact exception_account op
  | config op => exact config_account op
  | snapshot op => exact snapshot_account op
  | command op => exact command_account op

end Eval

end ObjectModel.Script
