import ObjectModel.Proofs.Contract.Operation

/-!
Runs of scripts. A step evolves the world of a session by the events of its operations and leaves
the session in order, whatever it ends with; so every session that a script reaches is in order.
-/

namespace ObjectModel.Script

/-- The operations that occur in a step. -/
inductive Step.Uses : Step → Op → Prop where
  | perform (op : Op) (result caught : Option Name) : Uses (.perform op result caught) op
  | attempt {body : List Step} {inner : Step} {op : Op} (result caught : Option Name)
      (member : inner ∈ body) (uses : inner.Uses op) : Uses (.attempt body result caught) op

def Outcome.Valid : Outcome → World → Prop
  | .reply r, w => Answers r w
  | .stopped stop, w => stop.Valid w

def Outcome.ofResult : Except Stop Reply → Outcome
  | .ok r => .reply r
  | .error stop => .stopped stop

theorem Outcome.ofResult_injective {r r' : Except Stop Reply} (same : ofResult r = ofResult r') :
    r = r' := by
  cases r <;> cases r' <;> cases same <;> rfl

namespace Session

theorem Valid.bind {s : Session} (valid : s.Valid) {name : Option Name} {v : Value}
    (value : v.Valid s.world) : (s.bind name v).Valid := by
  cases name with
  | none => exact valid
  | some name =>
    refine ⟨valid.well, fun b member => ?_⟩
    rcases List.mem_cons.mp member with rfl | member
    · exact value
    · exact valid.bindings b member

theorem bind_world (s : Session) (name : Option Name) (v : Value) :
    (s.bind name v).world = s.world := by
  cases name <;> rfl

/-- The session after an operation, whose result is bound. -/
def bindReply (s : Session) (result : Option Name) : Except Stop Reply → Session
  | .ok (.ok v) => s.bind result v
  | _ => s

theorem bindReply_world (s : Session) (result : Option Name) (r : Except Stop Reply) :
    (s.bindReply result r).world = s.world := by
  unfold bindReply
  split
  · exact bind_world s result _
  · rfl

theorem performOp_eq (s : Session) (op : Op) (result : Option Name) : s.performOp op result =
    (.ofResult ((Eval.perform op).run s).1,
      ((Eval.perform op).run s).2.bindReply result ((Eval.perform op).run s).1) := by
  unfold performOp
  split
  · rename_i ran
    rw [ran]
    rfl
  · rename_i ran
    rw [ran]
    rfl
  · rename_i ran
    rw [ran]
    rfl

/-- The world that an operation leaves, whatever it ended with. -/
theorem performOp_world (s : Session) (op : Op) (result : Option Name) :
    (s.performOp op result).2.world = ((Eval.perform op).run s).2.world := by
  rw [performOp_eq, bindReply_world]

/-- A run of a step from a session evolves its world and ends in order. -/
structure Moves (P : Policy) (s : Session) (r : Outcome × Session) : Prop where
  evolved : Evolves P s.world r.2.world
  valid : r.2.Valid
  outcome : r.1.Valid r.2.world

section Steps
variable {P : Policy}

theorem Moves.trans {s s' : Session} {r : Outcome × Session} (first : Evolves P s.world s'.world)
    (rest : s'.Moves P r) : s.Moves P r :=
  ⟨Relation.ReflTransGen.trans first rest.evolved, rest.valid, rest.outcome⟩

theorem Moves.of_ends {s : Session} (valid : s.Valid) {op : Op}
    (ends : Eval.Ends P (Eval.perform op) s Answers) (result : Option Name) :
    s.Moves P (s.performOp op result) := by
  obtain ⟨evolved, same, ends⟩ := ends valid
  unfold performOp
  cases ran : (Eval.perform op).run s with
  | mk r s' =>
    rw [ran] at evolved same ends
    have valid' := valid.evolve evolved same
    cases r with
    | error stop => exact ⟨evolved, valid', ends⟩
    | ok reply =>
      cases reply with
      | error e => exact ⟨evolved, valid', trivial⟩
      | ok v =>
        refine ⟨?_, valid'.bind ends, ?_⟩
        · rw [bind_world]
          exact evolved
        · rw [bind_world]
          exact ends

theorem performOp_moves [P.Samples] {s : Session} (valid : s.Valid) {op : Op}
    (permitted : P.Permits s.world op) (result : Option Name) :
    s.Moves P (s.performOp op result) :=
  .of_ends valid (Eval.perform_ends op permitted) result

theorem performOp_grows (s : Session) (valid : s.Valid) (op : Op) (result : Option Name) :
    Grows s.world (s.performOp op result).2.world := by
  have permitted : Policy.any.Permits s.world op := fun _ _ _ => trivial
  exact (performOp_moves valid permitted result).evolved.grows

theorem faultHandle_valid {w : World} {fault : Option ObjectId}
    (exception : ∀ e ∈ fault, ∃ k message, w.body? e = some (.exception k message)) :
    (faultHandle fault).Valid w := by
  cases fault with
  | none => exact Action.handle_valid_of_null rfl
  | some e =>
    obtain ⟨k, message, has⟩ := exception e rfl
    exact Action.handle_valid_body has

theorem finishAttempt_moves {s : Session} (valid : s.Valid) {fault : Option ObjectId}
    (exception : ∀ e ∈ fault, ∃ k message, s.world.body? e = some (.exception k message))
    (done : List Reply) (result caught : Option Name) :
    s.Moves P (s.finishAttempt done fault result caught) := by
  have caught_valid : (s.bind caught (.handle (faultHandle fault))).Valid :=
    valid.bind (faultHandle_valid exception)
  refine ⟨?_, caught_valid.bind trivial, trivial⟩
  unfold finishAttempt
  rw [bind_world, bind_world]
  exact .refl

mutual

theorem runInner_moves [P.Samples] : ∀ (step : Step) {s : Session}, s.Valid →
    (∀ op, step.Uses op → ∀ w, P.Permits w op) → s.Moves P (s.runInner step)
  | .perform op result caught, _, valid, permitted =>
    performOp_moves valid (permitted op (.perform op result caught) _) result
  | .attempt body result caught, _, valid, permitted =>
    runBody_moves body valid (fun _ member op uses => permitted op (.attempt _ _ member uses)) []
      result caught

theorem runBody_moves [P.Samples] : ∀ (body : List Step) {s : Session}, s.Valid →
    (∀ step ∈ body, ∀ op, step.Uses op → ∀ w, P.Permits w op) →
    ∀ (done : List Reply) (result caught : Option Name),
      s.Moves P (s.runBody body done result caught)
  | [], _, valid, _, done, result, caught =>
    finishAttempt_moves valid (fun _ member => absurd member (Option.not_mem_none _)) done result
      caught
  | step :: rest, s, valid, permitted, done, result, caught => by
    have first := runInner_moves step valid (permitted step List.mem_cons_self)
    unfold runBody
    cases ran : s.runInner step with
    | mk outcome s' =>
      rw [ran] at first
      cases outcome with
      | reply r =>
        exact .trans first.evolved (runBody_moves rest first.valid
          (fun step member => permitted step (List.mem_cons_of_mem _ member)) _ result caught)
      | stopped stop =>
        cases stop with
        | fault e =>
          cases e with
          | thrown id =>
            refine .trans first.evolved (finishAttempt_moves first.valid ?_ done result caught)
            rintro _ ⟨rfl⟩
            exact first.outcome
          | crash cause => exact first
        | _ => exact first

end

theorem run_moves [P.Samples] (step : Step) {s : Session} (valid : s.Valid)
    (permitted : ∀ op, step.Uses op → ∀ w, P.Permits w op) : s.Moves P (s.run step) := by
  have inner := runInner_moves step valid permitted
  unfold run
  split
  · rename_i ran
    rw [ran] at inner
    refine ⟨?_, inner.valid.bind ?_, ?_⟩
    · rw [bind_world]
      exact inner.evolved
    · obtain ⟨k, message, has⟩ := inner.outcome
      exact Action.handle_valid_body has
    · rw [bind_world]
      exact inner.outcome
  · exact inner

/-- A whole script evolves the world of the session it starts in. -/
theorem Valid.runAll_evolves {s : Session} (valid : s.Valid) (steps : List Step) :
    Evolves .any s.world (s.runAll steps).2.world := by
  induction steps generalizing s with
  | nil => exact .refl
  | cons step rest ih =>
    have first := run_moves (P := .any) step valid fun _ _ _ _ _ _ => trivial
    exact Relation.ReflTransGen.trans first.evolved (ih first.valid)

end Steps

/-- The sessions that scripts reach, step by step. -/
inductive Reachable : Session → Prop where
  | start (files : FileSystem) (verbosity : Int) :
      Reachable (Session.withVerbosity { files } verbosity)
  | step {s : Session} (reached : Reachable s) (step : Step) : Reachable (s.run step).2

theorem Reachable.runAll {s : Session} (reached : s.Reachable) (steps : List Step) :
    (s.runAll steps).2.Reachable := by
  induction steps generalizing s with
  | nil => exact reached
  | cons step rest ih => exact ih (reached.step step)

theorem Reachable.valid {s : Session} (reached : s.Reachable) : s.Valid := by
  induction reached with
  | start files verbosity => exact ⟨World.wellFormed_empty _, fun _ member => nomatch member⟩
  | step _ step valid => exact (run_moves (P := .any) step valid fun _ _ _ _ _ _ => trivial).valid

end Session

end ObjectModel.Script
