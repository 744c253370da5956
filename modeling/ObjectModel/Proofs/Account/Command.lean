import ObjectModel.Command.Basic
import ObjectModel.Proofs.Account.Object

/-!
Accounts of configurations and commands. The demonstration allocates a known number of objects one
after another, unless something stops it; the exception that ends it is caught, but it has been
told. Putting a configuration into force sets the threshold before anything else.
-/

namespace ObjectModel.Action

section Demo

theorem append_spends (s : ObjectId) (t : Text) : Spends (append s t) 2 :=
  (newString_costs t).spends.bind fun _ => (concat_costs _ _).spends

theorem joined_spends (first : Text) (rest : List Text) :
    Spends (joined first rest) (1 + rest.length * 2) :=
  (newString_costs first).spends.bind fun s => foldlM_spends append_spends rest s

theorem printed_free (s : ObjectId) : Free (printed s) :=
  (checkNotNull_free _).bind fun _ => stringText_free (some s)

/-- Makes a string and prints it as a line. -/
theorem line_spends {n m : Nat} {make : Action ObjectId} (spends : Spends make n)
    {next : Text → Action Text} (rest : ∀ t, Spends (next t) m) :
    Spends (do next (← printedLine (← make))) (n + m) :=
  spends.bind fun s => .after ((printed_free s).bind_pure _) rest

theorem elementNumeral_free (array : ObjectId) (i : Int32) : Free (elementNumeral array i) := by
  refine (arrayGet_free array i).bind fun e => ?_
  cases e with
  | int n => exact .pure _
  | _ => exact .crash _

theorem demoArray_spends : Spends demoArray 14 := by
  have numeral {a s : ObjectId} {i : Int32} {n : Nat} {next : ObjectId → Action Text}
      (rest : ∀ s, Spends (next s) n) :
      Spends (do next (← append s (← elementNumeral a i))) (2 + n) :=
    .after (elementNumeral_free a i) fun t => (append_spends s t).bind rest
  refine .after (primitiveClass_free .int) fun c => ?_
  refine (newArray_costs _ _ _).spends.bind (m := 13) fun a => ?_
  refine .after (arraySet_free a 0 _) fun _ => ?_
  refine .after (arraySet_free a 1 _) fun _ => ?_
  refine .after (arraySet_free a 2 _) fun _ => ?_
  refine (newString_costs _).spends.bind (m := 12) fun s => ?_
  refine numeral (n := 10) fun s => ?_
  refine (append_spends _ _).bind (m := 8) fun s => ?_
  refine numeral (n := 6) fun s => ?_
  refine (append_spends _ _).bind (m := 4) fun s => ?_
  refine numeral (n := 2) fun s => ?_
  exact (append_spends _ _).bind fun s => ((printed_free s).bind_pure _).spends

theorem demoList_spends : Spends demoList 6 := by
  refine (newInstance_costs listClass_free _).spends.bind (m := 5) fun l => ?_
  refine .after (checkNotNull_free _) fun _ => ?_
  refine .after (object_free l) fun o => ?_
  cases o.body with
  | list item next =>
    exact (joined_spends _ _).bind fun s => ((printed_free s).bind_pure _).spends
  | _ => exact (Costs.crash _).spends

theorem demoTypes_spends : Spends demoTypes 40 := by
  refine line_spends (m := 39) (newString_costs _).spends fun title => ?_
  refine (newString_costs _).spends.bind (m := 38) fun s => ?_
  refine (newString_costs _).spends.bind (m := 37) fun opening => ?_
  refine (concat_costs _ _).spends.bind (m := 36) fun quoted => ?_
  refine line_spends (m := 34) (append_spends quoted _) fun word => ?_
  refine line_spends (m := 29) (joined_spends _ _) fun letter => ?_
  refine line_spends (m := 26) (joined_spends _ _) fun flag => ?_
  refine line_spends (m := 23) (joined_spends _ _) fun int => ?_
  refine line_spends (m := 20) (joined_spends _ _) fun float => ?_
  refine demoArray_spends.bind (m := 6) fun array => ?_
  exact demoList_spends.bind fun list => (Costs.pure _).spends

theorem demoStatements_spends : Spends demoStatements 39 := by
  refine line_spends (m := 38) (newString_costs _).spends fun title => ?_
  refine line_spends (m := 35) (joined_spends _ _) fun doubled => ?_
  refine line_spends (m := 32) (joined_spends _ _) fun reached => ?_
  refine line_spends (m := 31) (newString_costs _).spends fun compared => ?_
  refine (newString_costs _).spends.bind (m := 30) fun s => ?_
  refine .after (printed_free s) fun count => ?_
  refine (mapM_spends (n := 3) (fun i => ?_) _).bind fun counts => (Costs.pure _).spends
  exact (joined_spends _ _).bind fun s => (printed_free s).spends

/-- The objects that the demonstration allocates, besides those of classes. -/
def demoCount : Nat := 79

theorem demo_spends : Spends demo demoCount :=
  demoTypes_spends.bind fun types => demoStatements_spends.bind fun statements =>
    (Costs.pure (types ++ statements)).spends

end Demo

section Commands
variable {w : World}

/-- The exception that a command has reported is told, like one that it ends with. -/
def commandNotices (r : Except Fault (Except CommandError CommandResult)) (w : World) :
    List Notice :=
  match r with
  | .ok (.error (.uncaught text)) => [.thrown text]
  | .ok _ => []
  | .error e => e.notices w

def commandCount (name : Text) : Nat := if name == Text.ofString "demo" then demoCount else 0

/-- What a command tells and allocates. One that fails has allocated at most as much, and its
exception. -/
def Reports (a : Action (Except CommandError CommandResult)) (count : Nat) : Prop :=
  ∀ w, Tells a w fun r w' entries => Told w (commandNotices r w') w' entries ∧
    (∃ n, n ≤ count + 1 ∧ (∀ x, r = .ok (.ok x) → n = count) ∧ w'.others = w.others + n) ∧
    ∀ e, r = .error (.thrown e) → e + 1 = w'.objects.size

theorem runDemo_reports (fs : FileSystem) : Reports (runDemo fs) demoCount := by
  intro w
  have body : Tells (do return .ok ⟨← demo, fs⟩ : Action (Except CommandError CommandResult)) w
      fun r w' entries => Told w (noticesOf r w') w' entries ∧
        (∀ x, r = .ok x → (∃ y, x = .ok y) ∧ w'.others = w.others + demoCount) ∧
        ∀ e, r = .error e → ∃ n ≤ demoCount + 1, w'.others = w.others + n := by
    refine (demo_spends w).bind (fun t w' entries _ holds => .pure ?_) fun e w' entries holds => ?_
    · obtain ⟨told, k, spent, others⟩ := holds
      obtain rfl : k = demoCount := Nat.le_antisymm spent.1 (spent.2 t rfl)
      rw [List.append_nil]
      refine ⟨told, fun x same => ⟨⟨⟨t, fs⟩, (Except.ok.inj same).symm⟩, ?_⟩, by simp⟩
      simpa [chargeOf] using others
    · obtain ⟨told, k, spent, others⟩ := holds
      refine ⟨told, by simp, fun e' same => ?_⟩
      cases same
      refine ⟨k + e.charge, Nat.add_le_add spent.1 e.charge_le_one, ?_⟩
      simp only [chargeOf] at others
      omega
  refine body.tryCatch (fun x w' entries holds => ?_) fun e w' entries holds => ?_
  · obtain ⟨told, returned, -⟩ := holds
    obtain ⟨⟨y, rfl⟩, others⟩ := returned x rfl
    exact ⟨told, ⟨demoCount, Nat.le_succ _, fun _ _ => rfl, others⟩, by simp⟩
  · obtain ⟨told, -, stopped⟩ := holds
    obtain ⟨n, most, others⟩ := stopped e rfl
    cases e with
    | thrown e =>
      refine .get (fun _ => rfl) (.pure ?_)
      rw [List.append_nil]
      exact ⟨told, ⟨n, most, by simp, others⟩, by simp⟩
    | crash cause =>
      refine .throw ?_
      rw [List.append_nil]
      exact ⟨told, ⟨n, most, by simp, others⟩, by simp⟩

theorem reports_of_accounts {a : Action (Except CommandError CommandResult)}
    (accounts : ∀ w, Accounts a w commandNotices (· = 0)) : Reports a 0 := by
  intro w
  refine (accounts w).imp fun r w' entries _ holds => ?_
  obtain ⟨told, n, rfl, charged⟩ := holds
  refine ⟨told, ?_, charged.last⟩
  cases r with
  | ok x => exact ⟨0, Nat.zero_le 1, fun _ _ => rfl, charged.others⟩
  | error e => exact ⟨e.charge, e.charge_le_one, nofun, charged.others⟩

theorem runCommand_reports (fs : FileSystem) (name output : Text) :
    Reports (runCommand fs name output) (commandCount name) := by
  have gives (w : World) (x : Except CommandError CommandResult)
      (silent : commandNotices (.ok x) w = []) : Accounts (pure x) w commandNotices (· = 0) := by
    refine .pure ⟨?_, 0, rfl, (Int.add_zero _).symm, nofun⟩
    rw [silent]
    exact .of_eq rfl
  have started {a : Action (Except CommandError CommandResult)}
      (next : ∀ w, Accounts a w commandNotices (· = 0)) : Reports (do bootstrap; a) 0 :=
    reports_of_accounts fun w =>
      bootstrap_free.before (fun _ _ => rfl) ⟨0, rfl⟩ fun _ w _ => next w
  unfold runCommand
  split
  · rename_i listed
    rw [eq_of_beq listed]
    exact started fun w => .get (fun _ => rfl) (gives w _ rfl)
  · split
    · rename_i written
      rw [eq_of_beq written]
      refine started fun w => .get (fun _ => rfl) ?_
      dsimp only
      split
      · exact gives w _ rfl
      · split
        · exact gives w _ rfl
        · exact gives w _ rfl
    · split
      · rename_i shown
        rw [commandCount, if_pos shown]
        exact runDemo_reports fs
      · rename_i unknown
        rw [commandCount, if_neg unknown]
        exact reports_of_accounts fun w => gives w _ rfl

end Commands

section Configurations
variable {w : World}

theorem loadConfig_free (fs : FileSystem) (path : Text) : Free (loadConfig fs path) := by
  unfold loadConfig
  cases fs.read path with
  | error cause => exact .pure _
  | ok content =>
    dsimp only
    cases Config.parse content with
    | none => exact .pure _
    | some found =>
      refine (forM_free (fun key => log_free ⟨rfl, rfl⟩) found.2).bind fun _ => ?_
      split
      · exact .pure _
      · exact .pure _

theorem findConfig_free (fs : FileSystem) (directory : Text) : Free (findConfig fs directory) := by
  unfold findConfig
  cases Config.nearest? fs directory with
  | none => exact .pure _
  | some path => exact (loadConfig_free fs path).bind_pure _

theorem chooseConfig_free (fs : FileSystem) (path : Text) : Free (chooseConfig fs path) := by
  unfold chooseConfig
  split
  · exact (findConfig_free fs _).bind_pure _
  · exact loadConfig_free fs path

theorem applyConfig_tells (c : Config) :
    Tells (applyConfig c) w fun r w' entries => r = .ok ⟨⟩ ∧ Charged 0 w r w' ∧
      ∃ rest, entries = .threshold (Severity.ofVerbosity c.verbosity.toInt) :: rest ∧
        Told w [] w' rest := by
  let level := Severity.ofVerbosity c.verbosity.toInt
  have set : Tells (modify fun w => { w with threshold := level } : Action PUnit) w
      fun r w' entries => r = .ok ⟨⟩ ∧ w' = { w with threshold := level } ∧
        entries = [.threshold level] :=
    ⟨[.threshold level], fun _ => rfl, rfl, rfl, rfl⟩
  refine set.bind (fun _ w' entries _ done => ?_) fun _ _ _ done => by cases done.1
  obtain ⟨-, rfl, rfl⟩ := done
  have rest : Free (do
      setOptions c.options
      log .info .config ("applied configuration from " ++ Text.quoted c.path)) :=
    (setOptions_free c.options).bind fun _ => log_free ⟨rfl, rfl⟩
  refine (rest _).imp fun r w' entries ran holds => ?_
  obtain rfl : Except.ok ⟨⟩ = r := congrArg Prod.fst ran
  exact ⟨rfl, ⟨holds.2.others, nofun⟩, entries, rfl,
    ⟨holds.1.names, holds.1.notices, holds.1.steady⟩⟩

end Configurations

end ObjectModel.Action
