import ObjectModel.Exception
import ObjectModel.Proofs.Contract.Basic

/-!
Accounts of actions. What an action sends to the log does not depend on the log that it finds: it
makes the same entries whatever the threshold is, and the threshold only decides which of them are
kept. An account says what these entries tell about the run, namely which classes were defined and
whether an exception was thrown, and how many objects the run has allocated besides the two that
belong to each class. Accounts compose along the sequencing of actions.
-/

namespace ObjectModel

structure Log where
  threshold : Option Severity
  messages : Array Message

/-- What is done to a log: a message is sent to it, or its threshold is set. -/
inductive Entry where
  | message (m : Message)
  | threshold (t : Option Severity)
deriving DecidableEq, Repr

namespace Log

def note (l : Log) : Entry → Log
  | .message m =>
    if m.severity.passes l.threshold then { l with messages := l.messages.push m } else l
  | .threshold t => { l with threshold := t }

def after (l : Log) (entries : List Entry) : Log := entries.foldl note l

theorem after_append (l : Log) (first rest : List Entry) :
    l.after (first ++ rest) = (l.after first).after rest :=
  List.foldl_append

end Log

namespace World

def log (w : World) : Log := ⟨w.threshold, w.messages⟩

def withLog (w : World) (l : Log) : World :=
  { w with threshold := l.threshold, messages := l.messages }

theorem logged_withLog (w : World) (l : Log) (m : Message) :
    (w.withLog l).logged m = w.withLog (l.note (.message m)) := by
  unfold logged Log.note withLog
  dsimp only
  split <;> rfl

theorem withLog_logged (w : World) (l : Log) (m : Message) :
    (w.logged m).withLog l = w.withLog l := by
  unfold logged
  split <;> rfl

def names (w : World) : List Text := w.classes.toList.map Class.name

/-- The number of objects besides the name and the class object of each class. -/
def others (w : World) : Int := w.objects.size - 2 * w.classes.size

theorem others_push (w : World) (table : DispatchTable) (body : Body) :
    (w.push table body).others = w.others + 1 := by
  simp only [others, push, Array.size_push]
  omega

theorem others_pushClass (w : World) (name : Text) (shape : Shape)
    (table : ClassId → Option DispatchTable) :
    (w.pushClass name shape table).others = w.others := by
  simp only [others, pushClass, push, Array.size_push]
  omega

theorem others_logged (w : World) (m : Message) : (w.logged m).others = w.others := by
  unfold logged
  split <;> rfl

theorem size_logged (w : World) (m : Message) : (w.logged m).objects.size = w.objects.size := by
  unfold logged
  split <;> rfl

theorem exceptionText_logged (w : World) (m : Message) (e : ObjectId) :
    (w.logged m).exceptionText e = w.exceptionText e := by
  unfold logged
  split <;> rfl

theorem names_logged (w : World) (m : Message) : (w.logged m).names = w.names := by
  rw [names, classes_logged, names]

end World

/-- What follows the beginning `p` of the text. -/
def Text.after? (p t : Text) : Option Text :=
  if p.isPrefixOf t then some (t.drop p.length) else none

theorem Text.after?_append (p t : Text) : Text.after? p (p ++ t) = some t := by
  simp [Text.after?]

theorem Text.after?_of_head {p t : Text} {b c : UInt8} (first : p.head? = some b)
    (other : t.head? = some c) (apart : b ≠ c) : Text.after? p t = none := by
  cases p with
  | nil => cases first
  | cons b p =>
    cases t with
    | nil => cases other
    | cons c t =>
      cases first
      cases other
      simp [Text.after?, List.isPrefixOf, apart]

/-- A message that tells of an exception, with its text, or of a release. -/
inductive Notice where
  | thrown (text : Text)
  | released
deriving DecidableEq, Repr

namespace Message

/-- The name of the class whose definition the message tells of. -/
def definition? (m : Message) : Option Text :=
  match m.logger with
  | .runtime => Text.after? "defined class " m.text
  | .config => none

def notice? (m : Message) : Option Notice :=
  match m.logger with
  | .runtime =>
    ((Text.after? "throw " m.text).map .thrown).or
      ((Text.after? "released " m.text).map fun _ => .released)
  | .config => none

/-- A message of the runtime that begins with another letter than these three is none of those. -/
theorem unremarkable {severity : Severity} {text : Text} {b : UInt8} (first : text.head? = some b)
    (other : b ≠ 0x64 ∧ b ≠ 0x72 ∧ b ≠ 0x74) :
    definition? ⟨severity, .runtime, text⟩ = none ∧ notice? ⟨severity, .runtime, text⟩ = none := by
  have defined : Text.after? "defined class " text = none :=
    Text.after?_of_head rfl first other.1.symm
  have released : Text.after? "released " text = none :=
    Text.after?_of_head rfl first other.2.1.symm
  have thrown : Text.after? "throw " text = none :=
    Text.after?_of_head rfl first other.2.2.symm
  simp [definition?, notice?, defined, released, thrown]

theorem definition?_defined (severity : Severity) (name : Text) :
    definition? ⟨severity, .runtime, "defined class " ++ name⟩ = some name :=
  Text.after?_append _ name

theorem notice?_defined (severity : Severity) (name : Text) :
    notice? ⟨severity, .runtime, "defined class " ++ name⟩ = none := by
  have released : Text.after? "released " ("defined class " ++ name) = none :=
    Text.after?_of_head rfl rfl (by decide)
  have thrown : Text.after? "throw " ("defined class " ++ name) = none :=
    Text.after?_of_head rfl rfl (by decide)
  simp [notice?, released, thrown]

theorem definition?_thrown (severity : Severity) (text : Text) :
    definition? ⟨severity, .runtime, "throw " ++ text⟩ = none :=
  Text.after?_of_head rfl rfl (by decide)

theorem notice?_thrown (severity : Severity) (text : Text) :
    notice? ⟨severity, .runtime, "throw " ++ text⟩ = some (.thrown text) := by
  simp [notice?, Text.after?_append]

theorem definition?_released (severity : Severity) (text : Text) :
    definition? ⟨severity, .runtime, "released " ++ text⟩ = none :=
  Text.after?_of_head rfl rfl (by decide)

theorem notice?_released (severity : Severity) (text : Text) :
    notice? ⟨severity, .runtime, "released " ++ text⟩ = some .released := by
  have thrown : Text.after? "throw " ("released " ++ text) = none :=
    Text.after?_of_head rfl rfl (by decide)
  simp [notice?, thrown, Text.after?_append]

end Message

namespace Entry

def message? : Entry → Option Message
  | .message m => some m
  | .threshold _ => none

def definition? (e : Entry) : Option Text := e.message?.bind Message.definition?

def notice? (e : Entry) : Option Notice := e.message?.bind Message.notice?

end Entry

namespace Fault

/-- An exception is told of by its text, a crash is not. -/
def notices (w : World) : Fault → List Notice
  | .thrown e => [.thrown (w.exceptionText e)]
  | .crash _ => []

/-- An exception is an object, a crash leaves none. -/
def charge : Fault → Nat
  | .thrown _ => 1
  | .crash _ => 0

theorem charge_le_one (e : Fault) : e.charge ≤ 1 := by
  cases e <;> simp [charge]

end Fault

/-- What the entries of a run tell: the classes it has defined, in order, and these notices. The
threshold is not among them. -/
structure Told (w : World) (notices : List Notice) (w' : World) (entries : List Entry) : Prop where
  names : w'.names = w.names ++ entries.filterMap Entry.definition?
  notices : entries.filterMap Entry.notice? = notices
  steady : ∀ e ∈ entries, e.message?.isSome = true

theorem Told.trans {w w' w'' : World} {notices more : List Notice} {entries rest : List Entry}
    (first : Told w notices w' entries) (second : Told w' more w'' rest) :
    Told w (notices ++ more) w'' (entries ++ rest) where
  names := by rw [second.names, first.names, List.filterMap_append, List.append_assoc]
  notices := by rw [List.filterMap_append, first.notices, second.notices]
  steady e member := by
    rcases List.mem_append.mp member with before | after
    · exact first.steady e before
    · exact second.steady e after

/-- A run that changes no class and makes no entries has nothing to tell. -/
theorem Told.of_eq {w w' : World} (classes : w'.classes = w.classes) : Told w [] w' [] where
  names := by simp [World.names, classes]
  notices := rfl
  steady := by simp

/-- A part, at most `most`, of what a run allocates: one that has returned has come to at least
`least`. -/
def Spent {ε α : Type} (least most : Nat) (r : Except ε α) (k : Nat) : Prop :=
  k ≤ most ∧ ∀ x, r = .ok x → least ≤ k

namespace Spent
variable {ε α β : Type} {a b c d k m : Nat}

theorem zero (r : Except ε α) : Spent 0 0 r 0 := ⟨Nat.le_refl 0, fun _ _ => Nat.le_refl 0⟩

theorem add {x : α} {r : Except ε β} (first : Spent a b (.ok x : Except ε α) k)
    (second : Spent c d r m) : Spent (a + c) (b + d) r (k + m) :=
  ⟨Nat.add_le_add first.1 second.1, fun y same =>
    Nat.add_le_add (first.2 x rfl) (second.2 y same)⟩

end Spent

/-- A state with a log. -/
class HasLog (σ : Type) where
  withLog : σ → Log → σ

instance : HasLog World := ⟨World.withLog⟩

section Runs
variable {ε σ α β : Type} [HasLog σ]

/-- Whatever log it finds, a run makes the same entries and does the same to everything else. Its
end and the entries satisfy the condition. -/
def Tells (a : ExceptT ε (StateM σ) α) (s : σ) (Q : Except ε α → σ → List Entry → Prop) : Prop :=
  ∃ entries, (∀ l, a.run (HasLog.withLog s l) =
      ((a.run s).1, HasLog.withLog (a.run s).2 (l.after entries))) ∧
    Q (a.run s).1 (a.run s).2 entries

namespace Tells
variable {s : σ} {Q : Except ε α → σ → List Entry → Prop}

theorem bind {a : ExceptT ε (StateM σ) α} {f : α → ExceptT ε (StateM σ) β}
    {R : Except ε β → σ → List Entry → Prop} (first : Tells a s Q)
    (next : ∀ x s' entries, a.run s = (.ok x, s') → Q (.ok x) s' entries →
      Tells (f x) s' fun r s'' rest => R r s'' (entries ++ rest))
    (stops : ∀ e s' entries, Q (.error e) s' entries → R (.error e) s' entries) :
    Tells (a >>= f) s R := by
  obtain ⟨entries, blind, holds⟩ := first
  unfold Tells
  cases ran : a.run s with
  | mk r s' =>
    rw [ran] at blind holds
    cases r with
    | error e =>
      refine ⟨entries, fun l => ?_, ?_⟩
      · rw [run_bind, run_bind, blind l, ran]
      · rw [run_bind, ran]
        exact stops e s' entries holds
    | ok x =>
      obtain ⟨rest, blind', holds'⟩ := next x s' entries ran holds
      refine ⟨entries ++ rest, fun l => ?_, ?_⟩
      · rw [run_bind, run_bind, blind l, ran, Log.after_append]
        exact blind' (l.after entries)
      · rw [run_bind, ran]
        exact holds'

theorem tryCatch {a : ExceptT ε (StateM σ) α} {f : ε → ExceptT ε (StateM σ) α}
    {R : Except ε α → σ → List Entry → Prop} (body : Tells a s Q)
    (returns : ∀ x s' entries, Q (.ok x) s' entries → R (.ok x) s' entries)
    (handled : ∀ e s' entries, Q (.error e) s' entries →
      Tells (f e) s' fun r s'' rest => R r s'' (entries ++ rest)) :
    Tells (tryCatch a f) s R := by
  obtain ⟨entries, blind, holds⟩ := body
  unfold Tells
  cases ran : a.run s with
  | mk r s' =>
    rw [ran] at blind holds
    cases r with
    | ok x =>
      refine ⟨entries, fun l => ?_, ?_⟩
      · rw [run_tryCatch, run_tryCatch, blind l, ran]
      · rw [run_tryCatch, ran]
        exact returns x s' entries holds
    | error e =>
      obtain ⟨rest, blind', holds'⟩ := handled e s' entries holds
      refine ⟨entries ++ rest, fun l => ?_, ?_⟩
      · rw [run_tryCatch, run_tryCatch, blind l, ran, Log.after_append]
        exact blind' (l.after entries)
      · rw [run_tryCatch, ran]
        exact holds'

theorem imp {a : ExceptT ε (StateM σ) α} {R : Except ε α → σ → List Entry → Prop}
    (tells : Tells a s Q)
    (weaker : ∀ r s' entries, a.run s = (r, s') → Q r s' entries → R r s' entries) :
    Tells a s R := by
  obtain ⟨entries, blind, holds⟩ := tells
  exact ⟨entries, blind, weaker _ _ _ rfl holds⟩

theorem pure {x : α} (holds : Q (.ok x) s []) : Tells (pure x) s Q := ⟨[], fun _ => rfl, holds⟩

theorem throw {e : ε} (holds : Q (.error e) s []) : Tells (throw e) s Q :=
  ⟨[], fun _ => rfl, holds⟩

theorem get {f : σ → ExceptT ε (StateM σ) α} (blind : ∀ l, f (HasLog.withLog s l) = f s)
    (next : Tells (f s) s Q) : Tells (get >>= f) s Q := by
  obtain ⟨entries, same, holds⟩ := next
  refine ⟨entries, fun l => ?_, holds⟩
  rw [run_get_bind, run_get_bind, blind l]
  exact same l

theorem modify {f : σ → σ} {Q : Except ε PUnit → σ → List Entry → Prop}
    (blind : ∀ l, f (HasLog.withLog s l) = HasLog.withLog (f s) l) (holds : Q (.ok ⟨⟩) (f s) []) :
    Tells (modify f) s Q := by
  refine ⟨[], fun l => ?_, holds⟩
  change (Except.ok PUnit.unit, f (HasLog.withLog s l)) = _
  rw [blind l]
  rfl

end Tells

end Runs

namespace Action
variable {α β : Type} {w : World}

theorem log_tells (severity : Severity) (logger : Logger) (text : Text) :
    Tells (log severity logger text) w fun r w' entries =>
      r = .ok ⟨⟩ ∧ w' = w.logged ⟨severity, logger, text⟩ ∧
        entries = [.message ⟨severity, logger, text⟩] := by
  refine ⟨[.message ⟨severity, logger, text⟩], fun l => ?_, rfl, rfl, rfl⟩
  change (Except.ok PUnit.unit, (w.withLog l).logged ⟨severity, logger, text⟩) =
    (.ok PUnit.unit, (w.logged ⟨severity, logger, text⟩).withLog (l.note (.message _)))
  rw [World.logged_withLog, World.withLog_logged]

/-- What an action tells that is no release: the exception with which it has ended. -/
def noticesOf (r : Except Fault α) (w : World) : List Notice :=
  match r with
  | .ok _ => []
  | .error e => e.notices w

/-- A run that returns has allocated `n` objects besides those of classes. One that ends with an
exception has allocated the exception, last of all, and one that crashes none. -/
structure Charged (n : Nat) (w : World) (r : Except Fault α) (w' : World) : Prop where
  others : w'.others = w.others +
    match r with
    | .ok _ => n
    | .error e => e.charge
  last : ∀ e, r = .error (.thrown e) → e + 1 = w'.objects.size

namespace Charged
variable {n : Nat} {w w' w'' : World} {e : Fault}

theorem trans {x : α} {r : Except Fault β} (first : Charged 0 w (.ok x) w')
    (second : Charged n w' r w'') : Charged n w r w'' := by
  have others := first.others
  dsimp only at others
  refine ⟨?_, second.last⟩
  rw [second.others, others]
  omega

theorem error {m : Nat} (charged : Charged n w (.error e : Except Fault α) w') :
    Charged m w (.error e : Except Fault β) w' :=
  ⟨charged.others, fun id same => charged.last id (congrArg Except.error (Except.error.inj same))⟩

end Charged

/-- The account of an action that allocates `n` objects last of all. -/
def Costs (a : Action α) (n : Nat) : Prop :=
  ∀ w, Tells a w fun r w' entries => Told w (noticesOf r w') w' entries ∧ Charged n w r w'

/-- The action allocates nothing but the objects of classes. -/
abbrev Free (a : Action α) : Prop := Costs a 0

namespace Costs
variable {n : Nat}

theorem bind {a : Action α} {f : α → Action β} (first : Free a) (next : ∀ x, Costs (f x) n) :
    Costs (a >>= f) n := by
  intro w
  refine (first w).bind (fun x w' entries _ holds => ?_) fun e w' entries holds => ?_
  · refine (next x w').imp fun r w'' rest _ holds' => ?_
    exact ⟨holds.1.trans holds'.1, holds.2.trans holds'.2⟩
  · exact ⟨holds.1, holds.2.error⟩

theorem bind_pure {a : Action α} (costs : Costs a n) (f : α → β) :
    Costs (a >>= fun x => pure (f x)) n := by
  intro w
  refine (costs w).bind (fun x w' entries _ holds => .pure ?_) fun e w' entries holds => ?_
  · rw [List.append_nil]
    exact ⟨holds.1, holds.2.others, nofun⟩
  · exact ⟨holds.1, holds.2.error⟩

theorem map {a : Action α} (costs : Costs a n) (f : α → β) : Costs (f <$> a) n := by
  rw [map_eq_pure_bind]
  exact costs.bind_pure f

theorem get {f : World → Action α} (blind : ∀ w l, f (w.withLog l) = f w)
    (next : ∀ w, Costs (f w) n) : Costs (get >>= f) n :=
  fun w => .get (blind w) (next w w)

theorem pure (x : α) : Free (pure x) :=
  fun _ => .pure ⟨.of_eq rfl, (Int.add_zero _).symm, nofun⟩

theorem crash (cause : Crash) : Costs (crash cause : Action α) n :=
  fun _ => .throw ⟨.of_eq rfl, (Int.add_zero _).symm, nofun⟩

theorem modify {f : World → World} (blind : ∀ w l, f (w.withLog l) = (f w).withLog l)
    (classes : ∀ w, (f w).classes = w.classes)
    (objects : ∀ w, (f w).objects.size = w.objects.size) : Free (modify f) := by
  intro w
  refine .modify (blind w) ⟨.of_eq (classes w), ?_, nofun⟩
  simp [World.others, classes w, objects w]

end Costs

/-- The account of one run, with the notices that it gives and the numbers of objects that it may
have allocated when it returns. -/
def Accounts (a : Action α) (w : World) (notices : Except Fault α → World → List Notice)
    (counts : Nat → Prop) : Prop :=
  Tells a w fun r w' entries => Told w (notices r w') w' entries ∧ ∃ n, counts n ∧ Charged n w r w'

theorem Costs.accounts {a : Action α} {n : Nat} {counts : Nat → Prop} (costs : Costs a n)
    (listed : counts n) (w : World) : Accounts a w noticesOf counts :=
  (costs w).imp fun _ _ _ _ holds => ⟨holds.1, n, listed, holds.2⟩

/-- What comes after an action that allocates nothing gives the account of both. -/
theorem Costs.before {a : Action α} {f : α → Action β}
    {notices : Except Fault β → World → List Notice} {counts : Nat → Prop} (free : Free a)
    (faults : ∀ e w, notices (.error e) w = e.notices w) (listed : ∃ n, counts n)
    (next : ∀ x w', a.run w = (.ok x, w') → Accounts (f x) w' notices counts) :
    Accounts (a >>= f) w notices counts := by
  refine (free w).bind (fun x w' entries ran holds => ?_) fun e w' entries holds => ?_
  · refine (next x w' ran).imp fun r w'' rest _ holds' => ?_
    obtain ⟨told, n, one, charged⟩ := holds'
    exact ⟨holds.1.trans told, n, one, holds.2.trans charged⟩
  · obtain ⟨n, one⟩ := listed
    rw [faults]
    exact ⟨holds.1, n, one, holds.2.error⟩

/-- What stopping costs. -/
def chargeOf (r : Except Fault α) : Nat :=
  match r with
  | .ok _ => 0
  | .error e => e.charge

/-- The account of an action that allocates `n` objects one after another. If it stops, it has
allocated some of them, and its exception. -/
def Spends (a : Action α) (n : Nat) : Prop :=
  ∀ w, Tells a w fun r w' entries => Told w (noticesOf r w') w' entries ∧
    ∃ k, Spent n n r k ∧ w'.others = w.others + k + chargeOf r

theorem Costs.spends {a : Action α} {n : Nat} (costs : Costs a n) : Spends a n := by
  intro w
  refine (costs w).imp fun r w' entries _ holds => ?_
  obtain ⟨told, charged⟩ := holds
  refine ⟨told, ?_⟩
  cases r with
  | ok x =>
    refine ⟨n, ⟨Nat.le_refl n, fun _ _ => Nat.le_refl n⟩, ?_⟩
    simpa [chargeOf] using charged.others
  | error e => exact ⟨0, ⟨Nat.zero_le n, nofun⟩, by simpa [chargeOf] using charged.others⟩

namespace Spends
variable {n m : Nat}

theorem bind {a : Action α} {f : α → Action β} (first : Spends a n)
    (next : ∀ x, Spends (f x) m) : Spends (a >>= f) (n + m) := by
  intro w
  refine (first w).bind (fun x w' entries _ holds => ?_) fun e w' entries holds => ?_
  · obtain ⟨told, k, spent, others⟩ := holds
    refine (next x w').imp fun r w'' rest _ holds' => ?_
    obtain ⟨told', l, spent', others'⟩ := holds'
    refine ⟨told.trans told', k + l, spent.add spent', ?_⟩
    simp only [chargeOf] at others others' ⊢
    omega
  · obtain ⟨told, k, spent, others⟩ := holds
    exact ⟨told, k, ⟨Nat.le_add_right_of_le spent.1, nofun⟩, others⟩

theorem after {a : Action α} {f : α → Action β} (first : Free a) (next : ∀ x, Spends (f x) m) :
    Spends (a >>= f) m := by
  have both := first.spends.bind next
  rw [Nat.zero_add] at both
  exact both

end Spends

section Loops
variable {n : Nat}

theorem forM_free {f : α → Action PUnit} (each : ∀ x, Free (f x)) (xs : List α) :
    Free (xs.forM f) := by
  induction xs with
  | nil => exact .pure PUnit.unit
  | cons x rest ih => exact (each x).bind fun _ => ih

theorem foldlM_free {f : β → α → Action β} (each : ∀ y x, Free (f y x)) (xs : List α) (start : β) :
    Free (xs.foldlM f start) := by
  induction xs generalizing start with
  | nil => exact .pure start
  | cons x rest ih =>
    rw [List.foldlM_cons]
    exact (each start x).bind fun y => ih y

theorem foldlM_spends {f : β → α → Action β} (each : ∀ y x, Spends (f y x) n) (xs : List α)
    (start : β) : Spends (xs.foldlM f start) (xs.length * n) := by
  induction xs generalizing start with
  | nil =>
    rw [List.length_nil, Nat.zero_mul]
    exact (Costs.pure start).spends
  | cons x rest ih =>
    rw [List.foldlM_cons, List.length_cons, Nat.succ_mul, Nat.add_comm]
    exact (each start x).bind fun y => ih y

theorem mapM_spends {f : α → Action β} (each : ∀ x, Spends (f x) n) (xs : List α) :
    Spends (xs.mapM f) (xs.length * n) := by
  induction xs with
  | nil =>
    rw [List.length_nil, Nat.zero_mul]
    exact (Costs.pure []).spends
  | cons x rest ih =>
    rw [List.mapM_cons, List.length_cons, Nat.succ_mul, Nat.add_comm]
    refine (each x).bind fun y => ?_
    exact ih.bind fun ys => (Costs.pure (y :: ys)).spends

end Loops

section Basic

/-- A message that tells of no class, exception or release costs nothing. -/
theorem log_free {severity : Severity} {logger : Logger} {text : Text}
    (silent : Message.definition? ⟨severity, logger, text⟩ = none ∧
      Message.notice? ⟨severity, logger, text⟩ = none) :
    Free (log severity logger text) := by
  obtain ⟨undefined, unnoticed⟩ := silent
  intro w
  refine (log_tells severity logger text).imp fun r w' entries _ sent => ?_
  obtain ⟨rfl, rfl, rfl⟩ := sent
  refine ⟨⟨?_, ?_, ?_⟩, ?_, nofun⟩
  · simp [World.names_logged, Entry.definition?, Entry.message?, undefined]
  · simp [Entry.notice?, Entry.message?, unnoticed, noticesOf]
  · simp [Entry.message?]
  · rw [World.others_logged]
    simp

theorem allocate_costs (table : DispatchTable) (body : Body) : Costs (allocate table body) 1 := by
  intro w
  exact ⟨[], fun _ => rfl, .of_eq rfl, w.others_push table body, nofun⟩

theorem initialise_costs (table : Option DispatchTable) (body : Body) :
    Costs (initialise table body) 1 := by
  cases table with
  | none => exact .crash _
  | some t => exact allocate_costs t body

theorem newContent_costs (c : Content) : Costs (newContent c) 1 :=
  allocate_costs .string (.string c)

theorem newString_costs (t : Text) : Costs (newString t) 1 := newContent_costs t

theorem object_free (id : ObjectId) : Free (object id) := by
  refine .get (fun _ _ => rfl) fun w => ?_
  cases w.object? id with
  | some o => exact .pure o
  | none => exact .crash _

theorem classOf_free (c : ClassId) : Free (classOf c) := by
  refine .get (fun _ _ => rfl) fun w => ?_
  cases w.class? c with
  | some k => exact .pure k
  | none => exact .crash _

theorem demand_free (value : Option α) : Free (demand value) := by
  cases value with
  | some x => exact .pure x
  | none => exact .crash _

theorem className_free (c : Option ClassId) : Free (className c) :=
  (demand_free c).bind fun c => (classOf_free c).bind fun k => .pure k.name

end Basic

end Action

end ObjectModel
