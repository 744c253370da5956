import ObjectModel.Proofs.Account.Operation
import ObjectModel.Proofs.Trail

/-!
Logging interferes with nothing. A script that starts with one threshold or with another gives the
same outcomes and leaves the same session but for the log. Unless a configuration is put into force
on the way, the one log consists of those messages of the other that pass its threshold. A log that
keeps everything tells of every class, in the order in which they were defined, and of each
exception and each release in the order in which the operations were performed.
-/

namespace ObjectModel

namespace Severity

theorem passes_debug (s : Severity) : s.passes (some .debug) = true := by
  cases s <;> rfl

theorem passes_ofVerbosity (s : Severity) (v : Int) :
    s.passes (ofVerbosity v) = true ↔ (s.rank : Int) ≤ v + 4 := by
  unfold ofVerbosity
  split_ifs <;> cases s <;> simp [passes, rank] <;> omega

theorem passes_mono {s : Severity} {low high : Int} (lower : low ≤ high)
    (passes : s.passes (ofVerbosity low) = true) : s.passes (ofVerbosity high) = true := by
  rw [passes_ofVerbosity] at passes ⊢
  omega

end Severity

namespace Log

/-- The messages among the entries that pass the threshold. -/
def kept (t : Option Severity) (entries : List Entry) : List Message :=
  (entries.filterMap Entry.message?).filter fun m => m.severity.passes t

/-- Entries that set no threshold are kept if they pass the one that is there. -/
theorem after_steady {entries : List Entry} (steady : ∀ e ∈ entries, e.message?.isSome = true)
    (l : Log) :
    l.after entries = ⟨l.threshold, l.messages ++ (kept l.threshold entries).toArray⟩ := by
  induction entries generalizing l with
  | nil => simp [kept, after]
  | cons e rest ih =>
    have further := ih (fun e member => steady e (List.mem_cons_of_mem _ member)) (l.note e)
    change (l.note e).after rest = _
    rw [further]
    cases e with
    | threshold t => simpa [Entry.message?] using steady _ List.mem_cons_self
    | message m =>
      by_cases passes : m.severity.passes l.threshold = true
      · simp [note, kept, Entry.message?, passes]
      · simp [note, kept, Entry.message?, passes]

theorem kept_debug (entries : List Entry) :
    kept (some .debug) entries = entries.filterMap Entry.message? := by
  simp [kept, Severity.passes_debug]

theorem filter_kept {low high : Int} (lower : low ≤ high) (entries : List Entry) :
    (kept (Severity.ofVerbosity high) entries).filter
      (fun m => m.severity.passes (Severity.ofVerbosity low)) =
        kept (Severity.ofVerbosity low) entries := by
  unfold kept
  rw [List.filter_filter]
  apply List.filter_congr
  intro m _
  cases passes : m.severity.passes (Severity.ofVerbosity low) with
  | false => rfl
  | true => simp [Severity.passes_mono lower passes]

/-- A log that keeps everything and is never set otherwise keeps all messages. -/
theorem after_debug {l : Log} {entries : List Entry} (debug : l.threshold = some .debug)
    (steady : ∀ e ∈ entries, e.message?.isSome = true) :
    l.after entries = ⟨some .debug, l.messages ++ (entries.filterMap Entry.message?).toArray⟩ := by
  rw [after_steady steady, debug, kept_debug]

/-- A log whose threshold is set once has that threshold at the end. If it kept everything before
and keeps everything from then on, it keeps all messages. -/
theorem after_threshold {l : Log} {t : Option Severity} {before rest : List Entry}
    (debug : l.threshold = some .debug)
    (steady : ∀ e ∈ before ++ rest, e.message?.isSome = true)
    (same : (l.after (before ++ .threshold t :: rest)).threshold = some .debug) :
    l.after (before ++ .threshold t :: rest) = ⟨some .debug, l.messages ++
      ((before ++ .threshold t :: rest).filterMap Entry.message?).toArray⟩ := by
  have first := after_debug debug fun e member => steady e (List.mem_append_left _ member)
  have second (l : Log) :=
    after_steady (fun e member => steady e (List.mem_append_right _ member)) l
  have split : l.after (before ++ .threshold t :: rest) =
      ((l.after before).note (.threshold t)).after rest := after_append l before _
  rw [split, first, second] at same ⊢
  obtain rfl : t = some .debug := same
  rw [List.filterMap_append, List.filterMap_cons_none rfl]
  simp [note, kept_debug]

end Log

/-- The notice of an operation that was performed. -/
def Script.Performed.notice? (p : Performed) : Option Notice := p.op.notice? p.outcome p.after.world

namespace Script.Session

theorem bind_withLog (s : Session) (l : Log) (name : Option Name) (v : Value) :
    (s.withLog l).bind name v = (s.bind name v).withLog l := by
  cases name <;> rfl

/-- The account of operations that were performed on the way from one session to the other. -/
structure Ledger (s : Session) (done : List Performed) (s' : Session) (entries : List Entry) :
    Prop where
  log : s'.world.log = s.world.log.after entries
  names : s'.world.names = s.world.names ++ entries.filterMap Entry.definition?
  notices : entries.filterMap Entry.notice? = done.filterMap Performed.notice?
  steady : (∀ p ∈ done, p.op.reconfigures p.outcome = false) →
    ∀ e ∈ entries, e.message?.isSome = true
  complete : s.world.threshold = some .debug →
    (∀ p ∈ done, p.after.world.threshold = some .debug) →
      s'.world.log = ⟨some .debug, s.world.messages ++ (entries.filterMap Entry.message?).toArray⟩

namespace Ledger
variable {s s' s'' : Session} {done more : List Performed} {entries rest : List Entry}

/-- Binding variables is not told. -/
theorem idle (same : s'.world = s.world) : s.Ledger [] s' [] := by
  refine ⟨?_, ?_, rfl, by simp, ?_⟩
  · rw [same]
    rfl
  · simp [same]
  · intro debug _
    rw [same]
    simp [World.log, debug]

theorem trans (first : s.Ledger done s' entries) (second : s'.Ledger more s'' rest) :
    s.Ledger (done ++ more) s'' (entries ++ rest) where
  log := by rw [second.log, first.log, Log.after_append]
  names := by rw [second.names, first.names, List.filterMap_append, List.append_assoc]
  notices := by rw [List.filterMap_append, List.filterMap_append, first.notices, second.notices]
  steady unset e member := by
    rcases List.mem_append.mp member with before | after
    · exact first.steady (fun p inside => unset p (List.mem_append_left _ inside)) e before
    · exact second.steady (fun p inside => unset p (List.mem_append_right _ inside)) e after
  complete debug always := by
    have middle := first.complete debug fun p inside => always p (List.mem_append_left _ inside)
    have threshold : s'.world.threshold = some .debug := congrArg Log.threshold middle
    have messages := congrArg Log.messages middle
    rw [second.complete threshold fun p inside => always p (List.mem_append_right _ inside)]
    simp only [World.log] at messages
    rw [messages, List.filterMap_append]
    simp

end Ledger

/-- Whatever log it finds, a way to go on from a session makes the same entries and does the same to
everything else; the entries are the account of these operations. -/
def Recounts {ρ : Type} (f : Session → ρ × Session) (s : Session) (done : List Performed) : Prop :=
  ∃ entries, (∀ l, f (s.withLog l) = ((f s).1, (f s).2.withLog (l.after entries))) ∧
    s.Ledger done (f s).2 entries

namespace Recounts
variable {ρ τ : Type} {s : Session} {done more : List Performed}

theorem bind (x : ρ) (name : Option Name) (v : Value) :
    Recounts (fun s => (x, s.bind name v)) s [] := by
  refine ⟨[], fun l => ?_, .idle (bind_world s name v)⟩
  dsimp only
  rw [bind_withLog]
  rfl

theorem pure (x : ρ) : Recounts (fun s => (x, s)) s [] := bind x none .nothing

theorem map {f : Session → ρ × Session} (recounts : Recounts f s done) (h : ρ → τ) :
    Recounts (fun s => (h (f s).1, (f s).2)) s done := by
  obtain ⟨entries, blind, ledger⟩ := recounts
  refine ⟨entries, fun l => ?_, ledger⟩
  dsimp only
  rw [blind l]

/-- What is done next goes on from what the first has given and left. -/
theorem followed {f : Session → ρ × Session} {g : ρ → Session → τ × Session}
    (first : Recounts f s done) (next : Recounts (g (f s).1) (f s).2 more) :
    Recounts (fun s => g (f s).1 (f s).2) s (done ++ more) := by
  obtain ⟨entries, blind, ledger⟩ := first
  obtain ⟨rest, blind', ledger'⟩ := next
  refine ⟨entries ++ rest, fun l => ?_, ledger.trans ledger'⟩
  dsimp only
  rw [blind l, Log.after_append]
  exact blind' (l.after entries)

end Recounts

section Steps
variable {s : Session}

theorem bindReply_withLog (s : Session) (l : Log) (result : Option Name) (r : Except Stop Reply) :
    (s.withLog l).bindReply result r = (s.bindReply result r).withLog l := by
  unfold bindReply
  split
  · exact bind_withLog s l result _
  · rfl

theorem performOp_recounts (valid : s.Valid) (op : Op) (result : Option Name) :
    Recounts (fun s => s.performOp op result) s [s.performed op result] := by
  obtain ⟨entries, blind, account⟩ := Eval.perform_account valid op
  have left := blind s.world.log
  have log : ((Eval.perform op).run s).2.world.log = s.world.log.after entries :=
    congrArg (fun p => p.2.world.log) left
  refine ⟨entries, fun l => ?_, ?_⟩
  · have again : (Eval.perform op).run (s.withLog l) = _ := blind l
    dsimp only
    rw [performOp_eq, performOp_eq, again]
    exact congrArg _ (bindReply_withLog _ _ _ _)
  · have outcome : (s.performed op result).outcome = .ofResult ((Eval.perform op).run s).1 :=
      congrArg Prod.fst (performOp_eq s op result)
    have world := performOp_world s op result
    have after : (s.performed op result).after.world = ((Eval.perform op).run s).2.world := world
    refine ⟨?_, ?_, ?_, fun unset => ?_, fun debug always => ?_⟩
    · rw [world]
      exact log
    · rw [world]
      exact account.names
    · rw [account.notices, ← outcome, ← after]
      change (s.performed op result).notice?.toList = _
      cases told : (s.performed op result).notice? with
      | none => rw [List.filterMap_cons_none told]; rfl
      | some notice => rw [List.filterMap_cons_some told]; rfl
    · rcases account.steady with steady | ⟨set, _⟩
      · exact steady
      · have unset := unset _ (List.mem_singleton.mpr rfl)
        rw [outcome] at unset
        exact absurd (unset.symm.trans set) nofun
    · have debug' := always _ (List.mem_singleton.mpr rfl)
      rw [after] at debug'
      rw [world, log]
      rcases account.steady with steady | ⟨_, before, t, rest, rfl, steady⟩
      · exact Log.after_debug debug steady
      · exact Log.after_threshold debug steady (log ▸ debug')

theorem finishAttempt_recounts (done : List Reply) (fault : Option ObjectId)
    (result caught : Option Name) :
    Recounts (fun s => s.finishAttempt done fault result caught) s [] := by
  have caught := Recounts.bind (s := s) () caught (.handle (faultHandle fault))
  exact caught.followed (g := fun _ s => (_, s.bind result _)) (.bind _ result _)

/-- What an attempt does when one of its steps has ended with the outcome. -/
def resume (rest : List Step) (done : List Reply) (result caught : Option Name) (outcome : Outcome)
    (s : Session) : Outcome × Session :=
  match outcome with
  | .reply r => s.runBody rest (done ++ [r]) result caught
  | .stopped (.fault (.thrown e)) => s.finishAttempt done (some e) result caught
  | .stopped stop => (.stopped stop, s)

theorem runBody_cons (s : Session) (step : Step) (rest : List Step) (done : List Reply)
    (result caught : Option Name) : s.runBody (step :: rest) done result caught =
      resume rest done result caught (s.runInner step).1 (s.runInner step).2 := by
  rw [runBody]
  rcases s.runInner step with ⟨outcome, s'⟩
  cases outcome with
  | reply r => rfl
  | stopped stop =>
    cases stop with
    | fault e => cases e <;> rfl
    | _ => rfl

mutual

theorem runInner_recounts : ∀ (step : Step) {s : Session}, s.Valid →
    Recounts (fun s => s.runInner step) s (s.trailInner step)
  | .perform op result _, _, valid => performOp_recounts valid op result
  | .attempt body result caught, _, valid => runBody_recounts body valid [] result caught

theorem runBody_recounts : ∀ (body : List Step) {s : Session}, s.Valid →
    ∀ (done : List Reply) (result caught : Option Name),
      Recounts (fun s => s.runBody body done result caught) s (s.trailBody body)
  | [], s, _, done, result, caught => finishAttempt_recounts done none result caught
  | step :: rest, s, valid, done, result, caught => by
    have first := runInner_recounts step valid
    have moved := runInner_moves (P := .any) step valid fun _ _ _ _ _ _ => trivial
    simp only [runBody_cons]
    unfold trailBody
    refine first.followed ?_
    cases ran : s.runInner step with
    | mk outcome s' =>
      rw [ran] at moved
      cases outcome with
      | reply r => exact runBody_recounts rest moved.valid _ result caught
      | stopped stop =>
        cases stop with
        | fault e =>
          cases e with
          | thrown e => exact finishAttempt_recounts done (some e) result caught
          | crash cause => exact .pure _
        | _ => exact .pure _

end

/-- What a script does when one of its steps has ended with the outcome. -/
def settle (step : Step) (outcome : Outcome) (s : Session) : Outcome × Session :=
  match step, outcome with
  | .perform _ _ caught, .stopped (.fault (.thrown e)) =>
    (.stopped (.fault (.thrown e)), s.bind caught (.handle (.object e .exception)))
  | _, outcome => (outcome, s)

theorem run_eq_settle (s : Session) (step : Step) :
    s.run step = settle step (s.runInner step).1 (s.runInner step).2 := by
  unfold run
  rcases s.runInner step with ⟨outcome, s'⟩
  cases step with
  | attempt body result caught => rfl
  | perform op result caught =>
    cases outcome with
    | reply r => rfl
    | stopped stop =>
      cases stop with
      | fault e => cases e <;> rfl
      | _ => rfl

theorem run_recounts (step : Step) (valid : s.Valid) :
    Recounts (fun s => s.run step) s (s.trailInner step) := by
  simp only [run_eq_settle]
  refine List.append_nil (s.trailInner step) ▸ (runInner_recounts step valid).followed ?_
  unfold settle
  split
  · exact .bind _ _ _
  · exact .pure _

theorem runAll_recounts (steps : List Step) (valid : s.Valid) :
    Recounts (fun s => s.runAll steps) s (s.trail steps) := by
  induction steps generalizing s with
  | nil => exact .pure []
  | cons step rest ih =>
    have valid' := (run_moves (P := .any) step valid fun _ _ _ _ _ _ => trivial).valid
    exact (run_recounts step valid).followed
      (g := fun outcome s => (outcome :: (s.runAll rest).1, (s.runAll rest).2))
      ((ih valid').map fun outcomes => (s.run step).1 :: outcomes)

end Steps

/-- A script gives the same outcomes whatever the verbosity is, and leaves the same objects,
classes, settings, files and variables. If it never puts a configuration into force, the quieter log
consists of those messages of the other that pass. If the log keeps everything throughout, its
definitions are those of the classes, one each and in order, and its other notices are those of the
operations that threw or released, one each and in order. -/
theorem runAll_log_independent (files : FileSystem) (low high : Int) (steps : List Step) :
    let start := Session.withVerbosity { files } high
    let quiet := (Session.withVerbosity { files } low).runAll steps
    let loud := start.runAll steps
    quiet.1 = loud.1 ∧ quiet.2 = loud.2.withLog quiet.2.world.log ∧
      (low ≤ high → (∀ p ∈ start.trail steps, p.op.reconfigures p.outcome = false) →
        quiet.2.world.messages =
          loud.2.world.messages.filter fun m => m.severity.passes (Severity.ofVerbosity low)) ∧
      (start.world.threshold = some .debug →
        (∀ p ∈ start.trail steps, p.after.world.threshold = some .debug) →
        loud.2.world.messages.toList.filterMap Message.definition? =
            loud.2.world.classes.toList.map Class.name ∧
          loud.2.world.messages.toList.filterMap Message.notice? =
            (start.trail steps).filterMap Performed.notice?) := by
  intro start quiet loud
  have valid : start.Valid := (Reachable.start files high).valid
  obtain ⟨entries, blind, ledger⟩ := runAll_recounts steps valid
  have same : quiet =
      (loud.1, loud.2.withLog (Log.after ⟨Severity.ofVerbosity low, #[]⟩ entries)) :=
    blind ⟨Severity.ofVerbosity low, #[]⟩
  refine ⟨by rw [same], by rw [same]; rfl, fun lower unset => ?_, fun debug always => ?_⟩
  · have after := Log.after_steady (ledger.steady unset)
    have messages : loud.2.world.messages =
        #[] ++ (Log.kept (Severity.ofVerbosity high) entries).toArray :=
      congrArg Log.messages (ledger.log.trans (after start.world.log))
    have fewer : quiet.2.world.messages =
        #[] ++ (Log.kept (Severity.ofVerbosity low) entries).toArray := by
      rw [same]
      exact congrArg Log.messages (after ⟨Severity.ofVerbosity low, #[]⟩)
    rw [fewer, messages, ← Log.filter_kept lower]
    simp
  · have messages : loud.2.world.messages = #[] ++ (entries.filterMap Entry.message?).toArray :=
      congrArg Log.messages (ledger.complete debug always)
    have names : loud.2.world.classes.toList.map Class.name = entries.filterMap Entry.definition? :=
      ledger.names
    rw [messages, names, ← ledger.notices]
    simp only [Array.empty_append, List.filterMap_filterMap]
    exact ⟨rfl, rfl⟩

end Script.Session

namespace Script

/-- A script that reads a configuration with a key that is unknown, releases a point and fails a
check for null. -/
def releasedPoint : List Step :=
  [.perform (.config (.parse "colour = 1")) none none,
    .attempt [
      .perform (.object (.newPoint 1 2)) (some "p") none,
      .perform (.object (.release (.variable "p"))) none none,
      .perform (.object (.checkNotNull .null)) none none] none none]

/-- Both runs meet the conditions, and the quieter log has kept one of nine messages. -/
theorem runAll_log_independent_releasedPoint :
    let start := Session.withVerbosity {} 2
    let quiet := (Session.withVerbosity {} 0).runAll releasedPoint
    let loud := start.runAll releasedPoint
    quiet.2 = loud.2.withLog quiet.2.world.log ∧ loud.2.world.messages.size = 9 ∧
      quiet.2.world.messages = #[⟨.warning, .config, "jrt.toml: unknown key colour"⟩] ∧
      quiet.2.world.messages = loud.2.world.messages.filter
        (fun m => m.severity.passes (Severity.ofVerbosity 0)) ∧
      loud.2.world.messages.toList.filterMap Message.definition? =
        loud.2.world.classes.toList.map Class.name ∧
      loud.2.world.messages.toList.filterMap Message.notice? =
        [.released, .thrown "java.lang.NullPointerException"] := by
  intro start quiet loud
  have unset : ∀ p ∈ start.trail releasedPoint, p.op.reconfigures p.outcome = false := by
    decide +kernel
  have always : ∀ p ∈ start.trail releasedPoint, p.after.world.threshold = some .debug := by
    decide +kernel
  have notices : (start.trail releasedPoint).filterMap Performed.notice? =
      [.released, .thrown "java.lang.NullPointerException"] := by decide +kernel
  obtain ⟨-, left, fewer, complete⟩ := Session.runAll_log_independent {} 0 2 releasedPoint
  obtain ⟨definitions, told⟩ := complete rfl always
  exact ⟨left, by decide +kernel, by decide +kernel, fewer (by decide) unset, definitions,
    told.trans notices⟩

end Script

end ObjectModel
