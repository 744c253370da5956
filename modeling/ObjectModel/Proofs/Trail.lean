import ObjectModel.Proofs.Reachable

/-!
Runs as sequences of operations. Whatever steps and attempts a script consists of, what happens to
its session is that operations are performed one after another, each with its own outcome, and that
variables are bound in between. The trail of a script lists these operations; a property of all runs
is proved by induction over the operations performed.
-/

namespace ObjectModel.Script

/-- An operation as it was performed: where it began, what it ended with and what it left. -/
structure Performed where
  before : Session
  op : Op
  outcome : Outcome
  after : Session

namespace Session

def performed (s : Session) (op : Op) (result : Option Name) : Performed :=
  ⟨s, op, (s.performOp op result).1, (s.performOp op result).2⟩

/-- Performing the operations leads from the one session to the other. -/
inductive Runs (s : Session) : List Performed → Session → Prop where
  | refl : Runs s [] s
  | perform {done : List Performed} {s' : Session} (run : Runs s done s') (op : Op)
      (result : Option Name) :
      Runs s (done ++ [s'.performed op result]) (s'.performOp op result).2
  | bind {done : List Performed} {s' : Session} (run : Runs s done s') (name : Option Name)
      {v : Value} (valid : v.Valid s'.world) : Runs s done (s'.bind name v)

mutual

def trailInner (s : Session) : Step → List Performed
  | .perform op result _ => [s.performed op result]
  | .attempt body _ _ => s.trailBody body

def trailBody (s : Session) : List Step → List Performed
  | [] => []
  | step :: rest =>
    s.trailInner step ++
      match s.runInner step with
      | (.reply _, s) => s.trailBody rest
      | (.stopped _, _) => []

end

/-- The operations that a script performs, those of its attempts included. -/
def trail (s : Session) : List Step → List Performed
  | [] => []
  | step :: rest => s.trailInner step ++ (s.run step).2.trail rest

namespace Runs
variable {s s' s'' : Session} {done more : List Performed}

theorem trans (first : s.Runs done s') (rest : s'.Runs more s'') : s.Runs (done ++ more) s'' := by
  induction rest with
  | refl =>
    rw [List.append_nil]
    exact first
  | perform _ op result ih =>
    rw [← List.append_assoc]
    exact ih.perform op result
  | bind _ name valid ih => exact ih.bind name valid

theorem evolves (run : s.Runs done s') (valid : s.Valid) :
    Evolves .any s.world s'.world ∧ s'.Valid := by
  induction run with
  | refl => exact ⟨.refl, valid⟩
  | @perform _ s' _ op result ih =>
    have permitted : Policy.any.Permits s'.world op := fun _ _ _ => trivial
    have moved := performOp_moves ih.2 permitted result
    exact ⟨Relation.ReflTransGen.trans ih.1 moved.evolved, moved.valid⟩
  | bind _ name value ih =>
    rw [bind_world]
    exact ⟨ih.1, ih.2.bind value⟩

theorem valid (run : s.Runs done s') (valid : s.Valid) : s'.Valid := (run.evolves valid).2

/-- An operation of a run was performed at the end of the run up to it. -/
theorem split {p : Performed} (run : s.Runs done s') (member : p ∈ done) :
    ∃ earlier later result, done = earlier ++ p :: later ∧ s.Runs earlier p.before ∧
      p = p.before.performed p.op result ∧ p.after.Runs later s' := by
  induction run with
  | refl => cases member
  | @perform done s' run op result ih =>
    rcases List.mem_append.mp member with before | last
    · obtain ⟨earlier, later, made, rfl, begun, own, rest⟩ := ih before
      refine ⟨earlier, later ++ [s'.performed op result], made, ?_, begun, own,
        rest.perform op result⟩
      simp
    · cases List.mem_singleton.mp last
      exact ⟨done, [], result, rfl, run, rfl, .refl⟩
  | bind _ name valid ih =>
    obtain ⟨earlier, later, made, same, begun, own, rest⟩ := ih member
    exact ⟨earlier, later, made, same, begun, own, rest.bind name valid⟩

end Runs

section Trails
variable {s : Session}

theorem finishAttempt_runs {fault : Option ObjectId}
    (exception : ∀ e ∈ fault, ∃ k message, s.world.body? e = some (.exception k message))
    (done : List Reply) (result caught : Option Name) :
    s.Runs [] (s.finishAttempt done fault result caught).2 := by
  have first : s.Runs [] (s.bind caught (.handle (faultHandle fault))) :=
    .bind .refl caught (faultHandle_valid exception)
  exact first.bind result trivial

mutual

theorem runs_trailInner : ∀ (step : Step) {s : Session}, s.Valid →
    s.Runs (s.trailInner step) (s.runInner step).2
  | .perform op result _, _, _ => .perform .refl op result
  | .attempt body result caught, _, valid => runs_trailBody body valid [] result caught

theorem runs_trailBody : ∀ (body : List Step) {s : Session}, s.Valid →
    ∀ (done : List Reply) (result caught : Option Name),
      s.Runs (s.trailBody body) (s.runBody body done result caught).2
  | [], s, _, done, result, caught =>
    finishAttempt_runs (fun _ member => absurd member (Option.not_mem_none _)) done result caught
  | step :: rest, s, valid, done, result, caught => by
    have first := runs_trailInner step valid
    have moved := runInner_moves (P := .any) step valid fun _ _ _ _ _ _ => trivial
    unfold trailBody runBody
    cases ran : s.runInner step with
    | mk outcome s' =>
      rw [ran] at first moved
      cases outcome with
      | reply r => exact first.trans (runs_trailBody rest moved.valid _ result caught)
      | stopped stop =>
        dsimp only
        rw [List.append_nil]
        cases stop with
        | fault e =>
          cases e with
          | thrown id =>
            have exception : ∀ e ∈ some id, ∃ k message,
                s'.world.body? e = some (.exception k message) := by
              rintro _ ⟨rfl⟩
              exact moved.outcome
            have ended := finishAttempt_runs exception done result caught
            exact List.append_nil (s.trailInner step) ▸ first.trans ended
          | crash cause => exact first
        | _ => exact first

end

theorem runs_run (step : Step) (valid : s.Valid) : s.Runs (s.trailInner step) (s.run step).2 := by
  have inner := runs_trailInner step valid
  have moved := runInner_moves (P := .any) step valid fun _ _ _ _ _ _ => trivial
  unfold run
  split
  · rename_i ran
    rw [ran] at inner moved
    obtain ⟨k, message, has⟩ := moved.outcome
    exact inner.bind _ (Action.handle_valid_body has)
  · exact inner

/-- A script performs the operations of its trail. -/
theorem runs_trail (steps : List Step) (valid : s.Valid) :
    s.Runs (s.trail steps) (s.runAll steps).2 := by
  induction steps generalizing s with
  | nil => exact .refl
  | cons step rest ih =>
    have first := runs_run step valid
    exact first.trans (ih (first.valid valid))

end Trails

end Session

end ObjectModel.Script
