import ObjectModel.Config
import ObjectModel.Proofs.Contract.Basic
import ObjectModel.Proofs.Path

/-!
Finding and loading configurations. What loading a file comes to is a function of the file system,
and its only effect is that the unknown keys are reported; what is loaded carries the last value
that the document gives for its setting. The search goes up from a directory to
the root and stops at the first entry of the right name, whatever this entry is; so it depends on
nothing but the directories on the way and their entries of that name.
-/

namespace ObjectModel

namespace FileSystem

section Agreement
variable {fs fs' : FileSystem} {place : Location} {path : Text} {parts : List Text}

theorem mem_visited (place : Location) (parts : List Text) : place ∈ Path.visited place parts := by
  cases parts <;> exact List.mem_cons_self

/-- Following a path asks for no entries but those of the places that it leads through. -/
theorem walk_congr (agree : ∀ l ∈ Path.visited place parts, fs'.entry? l = fs.entry? l) :
    fs'.walk place parts = fs.walk place parts := by
  induction parts generalizing place with
  | nil => rfl
  | cons part rest ih =>
    have here : fs'.isDirectory place = fs.isDirectory place := by
      rw [isDirectory, isDirectory, agree place (mem_visited _ _)]
    have next := ih fun l member => agree l (List.mem_cons_of_mem _ member)
    have there := agree _ (List.mem_cons_of_mem _ (mem_visited _ rest))
    simp only [walk, here]
    by_cases skip : (part.isEmpty || part == Path.dot) = true
    · rw [if_pos skip] at next
      rw [next]
      simp [skip]
    · by_cases back : (part == Path.dotDot) = true
      · rw [if_neg skip, if_pos back] at next
        rw [next]
        simp [skip, back]
      · rw [if_neg skip, if_neg back] at next there
        rw [next, there]
        simp [skip, back]

theorem mem_visited_of_walk {last : Location} (leads : fs.walk place parts = .ok last) :
    last ∈ Path.visited place parts := by
  induction parts generalizing place with
  | nil =>
    cases leads
    exact List.mem_cons_self
  | cons part rest ih =>
    refine List.mem_cons_of_mem _ (ih ?_)
    unfold walk at leads
    split_ifs at leads ⊢ <;> assumption

theorem resolve_congr (start : fs'.start path = fs.start path)
    (agree : ∀ l ∈ Path.visited (fs.start path) (Path.parts path), fs'.entry? l = fs.entry? l) :
    fs'.resolve path = fs.resolve path := by
  rw [resolve, resolve, start, walk_congr agree]

theorem read_congr (start : fs'.start path = fs.start path)
    (agree : ∀ l ∈ Path.visited (fs.start path) (Path.parts path), fs'.entry? l = fs.entry? l) :
    fs'.read path = fs.read path := by
  rw [read, read, resolve_congr start agree]
  cases leads : fs.resolve path with
  | error cause => rfl
  | ok last =>
    have walked : fs.walk (fs.start path) (Path.parts path) = .ok last := by
      rw [resolve] at leads
      cases checked : checkPath path with
      | error cause =>
        rw [checked] at leads
        cases leads
      | ok =>
        rw [checked] at leads
        exact leads
    dsimp only
    rw [agree last (mem_visited_of_walk walked)]

theorem visited_names {l : List Text} (proper : Path.Proper l) {m : Location}
    (member : m ∈ Path.visited place l) : ∃ n ≤ l.length, m = place ++ l.take n := by
  induction l generalizing place with
  | nil =>
    rw [List.mem_singleton.mp member]
    exact ⟨0, Nat.le_refl 0, (List.append_nil place).symm⟩
  | cons part rest ih =>
    have isName := proper part List.mem_cons_self
    have solid : (part.isEmpty || part == Path.dot) = false := by
      simp [isName.nonempty, isName.ne_dot]
    have forward : (part == Path.dotDot) = false := by
      simp [isName.ne_dotDot]
    rcases List.mem_cons.mp member with rfl | further
    · exact ⟨0, Nat.zero_le _, (List.append_nil _).symm⟩
    · rw [solid, forward] at further
      obtain ⟨n, few, rfl⟩ := ih (fun p inside => proper p (List.mem_cons_of_mem _ inside)) further
      exact ⟨n + 1, Nat.succ_le_succ few, by simp⟩

/-- The entry at the place of an absolute path. -/
def entryAt? (fs : FileSystem) (path : Text) : Option FileEntry := fs.entry? (Path.cleanParts path)

/-- The places that an absolute path of names leads through are its beginnings. -/
theorem visited_ofParts {l : List Text} (proper : Path.Proper l) (named : l ≠ []) {m : Location}
    (member : m ∈ Path.visited [] (Path.parts (Path.ofParts l))) : m <+: l := by
  rw [Path.parts_ofParts proper named] at member
  rcases List.mem_cons.mp member with rfl | further
  · exact List.nil_prefix
  · obtain ⟨n, -, rfl⟩ := visited_names proper further
    exact List.take_prefix n l

end Agreement

end FileSystem

namespace Config
variable {fs fs' : FileSystem} {path : Text}

/-- What loading a configuration file comes to. -/
def load (fs : FileSystem) (path : Text) : Except LoadError Config :=
  match fs.read path with
  | .error cause => .error (.unreadable path cause)
  | .ok content =>
    match parse content with
    | none => .error (.malformed path)
    | some (c, _) =>
      if c.verbosity < 0 then .error (.negativeVerbosity path)
      else .ok { c with path := Path.ofParts (Path.absoluteParts fs.workingDirectory path) }

/-- The warnings about unknown keys that loading a configuration file gives. -/
def warnings (fs : FileSystem) (path : Text) : List Message :=
  match (fs.read path).toOption.bind parse with
  | none => []
  | some (_, unknown) =>
    unknown.map fun key => ⟨.warning, .config, path ++ ": unknown key " ++ Toml.renderKey key⟩

theorem load_path {c : Config} (loaded : load fs path = .ok c) :
    c.path = Path.ofParts (Path.absoluteParts fs.workingDirectory path) := by
  unfold load at loaded
  split at loaded
  · cases loaded
  · split at loaded
    · cases loaded
    · split at loaded
      · cases loaded
      · cases loaded
        rfl

end Config

namespace Toml

def Node.entries : Node → Entries
  | .table t => t
  | _ => []

/-- The values of a name in a table. -/
def Entries.named (entries : Entries) (name : Text) : List Node :=
  entries.flatMap fun entry => if Config.sameName name entry.1 then [entry.2] else []

/-- The values of a name in the tables of another name. -/
def Document.settings (d : Document) (table name : Text) : List Node :=
  (Entries.named d.root table).flatMap fun value => Entries.named value.entries name

/-- The flag is one of the values, or the one to start with where there are none. -/
def Picks (values : List Node) (start flag : Bool) : Prop :=
  Node.boolean flag ∈ values ∨ values = [] ∧ flag = start

theorem Picks.append {first rest : List Node} {start flag flag' : Bool}
    (before : Picks first start flag) (after : Picks rest flag flag') :
    Picks (first ++ rest) start flag' := by
  rcases after with given | ⟨rfl, rfl⟩
  · exact .inl (List.mem_append_right _ given)
  · rw [List.append_nil]
    exact before

theorem Picks.single (start flag : Bool) : Picks [.boolean flag] start flag :=
  .inl (List.mem_singleton_self _)

theorem Picks.none (start : Bool) : Picks [] start start := .inr ⟨rfl, rfl⟩

end Toml

namespace Config

/-- Reading entry by entry, each giving values of the flag, leaves one of all that were given. -/
theorem foldlM_flag {α : Type} {step : Reading → α → Option Reading} {given : α → List Toml.Node}
    {xs : List α} {r r' : Reading} (done : xs.foldlM step r = some r')
    (each : ∀ r x r', step r x = some r' →
      Toml.Picks (given x) r.1.allowZeroLength r'.1.allowZeroLength) :
    Toml.Picks (xs.flatMap given) r.1.allowZeroLength r'.1.allowZeroLength := by
  induction xs generalizing r with
  | nil =>
    cases done
    exact .none _
  | cons x rest ih =>
    rw [List.foldlM_cons] at done
    obtain ⟨r₁, first, later⟩ := Option.bind_eq_some_iff.mp done
    rw [List.flatMap_cons]
    exact (each r x r₁ first).append (ih later)

theorem readArrays_flag {table : Text} {r r' : Reading} {entry : Text × Toml.Node}
    (done : readArrays table r entry = some r') :
    Toml.Picks (if sameName "allow-zero-length" entry.1 then [entry.2] else [])
      r.1.allowZeroLength r'.1.allowZeroLength := by
  unfold readArrays at done
  dsimp only at done
  split at done
  · rename_i named
    rw [if_pos named]
    split at done
    · rename_i b is
      cases done
      rw [is]
      exact .single _ b
    · cases done
  · rename_i other
    cases done
    rw [if_neg other]
    exact .none _

theorem readLog_flag {table : Text} {r r' : Reading} {entry : Text × Toml.Node}
    (done : readLog table r entry = some r') :
    Toml.Picks [] r.1.allowZeroLength r'.1.allowZeroLength := by
  unfold readLog at done
  dsimp only at done
  split at done
  · split at done
    · cases done
      exact .none _
    · cases done
  · split at done
    · split at done
      · cases done
        exact .none _
      · cases done
    · cases done
      exact .none _

theorem readTop_flag {r r' : Reading} {entry : Text × Toml.Node}
    (done : readTop r entry = some r') :
    Toml.Picks ((if sameName "arrays" entry.1 then [entry.2] else []).flatMap fun value =>
      value.entries.named "allow-zero-length") r.1.allowZeroLength r'.1.allowZeroLength := by
  unfold readTop at done
  dsimp only at done
  split at done
  · rename_i named
    split at done
    · rename_i entries is
      have given := foldlM_flag done fun _ _ _ => readArrays_flag
      rw [if_pos named, is, List.flatMap_singleton]
      exact given
    · cases done
  · rename_i other
    rw [if_neg other]
    split at done
    · split at done
      · have kept := foldlM_flag done fun _ _ _ => readLog_flag
        rw [List.flatMap_eq_nil_iff.mpr fun _ _ => rfl] at kept
        exact kept
      · cases done
    · cases done
      exact .none _

/-- The flag of a configuration is one that its document gives. -/
theorem ofDocument_flag {d : Toml.Document} {c : Config} {unknown : List Toml.Key}
    (read : ofDocument d = some (c, unknown)) :
    Toml.Picks (d.settings "arrays" "allow-zero-length") false c.allowZeroLength := by
  obtain ⟨r, folded, made⟩ := Option.bind_eq_some_iff.mp read
  cases made
  have given := foldlM_flag folded fun _ _ _ => readTop_flag
  rw [Toml.Document.settings, Toml.Entries.named, List.flatMap_assoc]
  exact given

theorem load_flag {fs : FileSystem} {path : Text} {c : Config} (loaded : load fs path = .ok c) :
    ∃ content d, fs.read path = .ok content ∧ Toml.Document.read content = some d ∧
      Toml.Picks (d.settings "arrays" "allow-zero-length") false c.allowZeroLength := by
  unfold load at loaded
  split at loaded
  · cases loaded
  · rename_i content found
    split at loaded
    · cases loaded
    · rename_i c' unknown parsed
      obtain ⟨d, read, made⟩ := Option.bind_eq_some_iff.mp parsed
      split at loaded
      · cases loaded
      · cases loaded
        exact ⟨content, d, found, read, ofDocument_flag (c := c') made⟩

end Config

namespace Action

theorem run_forM_log {α : Type} (message : α → Message) (xs : List α) (w : World) :
    (xs.forM fun x => log (message x).severity (message x).logger (message x).text).run w =
      (.ok ⟨⟩, (xs.map message).foldl World.logged w) := by
  induction xs generalizing w with
  | nil => rfl
  | cons x rest ih => exact ih (w.logged (message x))

/-- Loading a file never fails as an action, and does nothing but send its warnings. -/
theorem run_loadConfig (fs : FileSystem) (path : Text) (w : World) :
    (loadConfig fs path).run w =
      (.ok (Config.load fs path), (Config.warnings fs path).foldl World.logged w) := by
  unfold loadConfig Config.load Config.warnings
  cases fs.read path with
  | error cause => rfl
  | ok content =>
    simp only [Except.toOption, Option.bind_some]
    cases Config.parse content with
    | none => rfl
    | some found =>
      have warned := run_forM_log (fun key : Toml.Key =>
        ⟨.warning, .config, path ++ ": unknown key " ++ Toml.renderKey key⟩) found.2 w
      dsimp only at warned ⊢
      rw [run_bind, warned]
      dsimp only
      split
      · rfl
      · rfl

theorem run_findConfig (fs : FileSystem) (start : Text) (w : World) :
    (findConfig fs start).run w =
      match Config.nearest? fs start with
      | none => (.ok (.ok none), w)
      | some path => (.ok ((Config.load fs path).map some),
          (Config.warnings fs path).foldl World.logged w) := by
  unfold findConfig
  cases Config.nearest? fs start with
  | none => rfl
  | some path =>
    dsimp only
    rw [run_bind, run_loadConfig]
    rfl

end Action

namespace Config
variable {fs fs' : FileSystem} {start path : Text} {n : Nat}

/-- The directory that `n` steps up from the start lead to. -/
def ascent (fs : FileSystem) (start : Text) (n : Nat) : Text :=
  Path.parent^[n] (Path.absolute (Path.ofParts fs.workingDirectory) start)

/-- The configuration file of that directory. -/
def candidate (fs : FileSystem) (start : Text) (n : Nat) : Text :=
  Path.join (ascent fs start n) fileName

/-- The number of steps to the root. -/
def height (fs : FileSystem) (start : Text) : Nat :=
  (Path.absoluteParts fs.workingDirectory start).length

theorem fileName_isName : Path.IsName fileName := ⟨by decide, by decide, by decide, by decide⟩

theorem ascent_eq (fs : FileSystem) (start : Text) (n : Nat) : ascent fs start n =
    Path.ofParts ((Path.absoluteParts fs.workingDirectory start).take (height fs start - n)) := by
  rw [ascent, Path.absolute_eq, Path.iterate_parent (Path.absoluteParts_proper _ _), height]

theorem candidate_eq (fs : FileSystem) (start : Text) (n : Nat) : candidate fs start n =
    Path.ofParts ((Path.absoluteParts fs.workingDirectory start).take (height fs start - n) ++
      [fileName]) := by
  rw [candidate, ascent_eq,
    Path.join_ofParts ((Path.absoluteParts_proper _ _).take _) fileName_isName]

theorem candidate_proper (fs : FileSystem) (start : Text) (n : Nat) : Path.Proper
    ((Path.absoluteParts fs.workingDirectory start).take (height fs start - n) ++ [fileName]) := by
  intro part member
  rcases List.mem_append.mp member with above | last
  · exact (Path.absoluteParts_proper _ _).take _ part above
  · rw [List.mem_singleton.mp last]
    exact fileName_isName

/-- The search tries the candidates in order, up to the one in the root. -/
theorem nearest?_eq (fs : FileSystem) (start : Text) : nearest? fs start =
    ((List.range (height fs start + 1)).find? fun n => fs.exists? (candidate fs start n)).map
      (candidate fs start) := by
  rw [nearest?, Path.map_ancestors (Path.absoluteParts_proper _ _) fileName_isName,
    List.find?_map, ← Path.absolute_eq]
  rfl

theorem nearest?_none_iff : nearest? fs start = none ↔
    ∀ n ≤ height fs start, fs.exists? (candidate fs start n) = false := by
  rw [nearest?_eq, Option.map_eq_none_iff, List.find?_eq_none]
  simp only [List.mem_range, Nat.lt_succ_iff, Bool.not_eq_true]

theorem nearest?_some_iff : nearest? fs start = some path ↔
    ∃ n ≤ height fs start, candidate fs start n = path ∧
      fs.exists? (candidate fs start n) = true ∧
      ∀ m < n, fs.exists? (candidate fs start m) = false := by
  rw [nearest?_eq, Option.map_eq_some_iff]
  apply exists_congr
  intro n
  rw [List.find?_range_eq_some, List.mem_range, Nat.lt_succ_iff]
  simp only [Bool.not_eq_true']
  tauto

theorem start_candidate (files : FileSystem) : files.start (candidate fs start n) = [] := by
  rw [candidate_eq]
  rfl

section Surroundings
variable (same : fs'.workingDirectory = fs.workingDirectory)
  (agree : ∀ n ≤ height fs start,
    fs'.entryAt? (ascent fs start n) = fs.entryAt? (ascent fs start n) ∧
      fs'.entryAt? (candidate fs start n) = fs.entryAt? (candidate fs start n))
include agree

theorem entry?_of_agree (low : n ≤ height fs start) {m : Location}
    (member : m ∈ Path.visited [] (Path.parts (candidate fs start n))) :
    fs'.entry? m = fs.entry? m := by
  have proper := Path.absoluteParts_proper fs.workingDirectory start
  rw [candidate_eq] at member
  have begins := FileSystem.visited_ofParts (candidate_proper fs start n) (by simp) member
  rcases List.prefix_concat_iff.mp begins with rfl | above
  · have file := (agree n low).2
    rwa [FileSystem.entryAt?, FileSystem.entryAt?, candidate_eq,
      Path.cleanParts_ofParts (candidate_proper fs start n)] at file
  · -- A directory on the way to a candidate lies on the way up from the start too.
    have whole := above.trans (List.take_prefix _ _)
    have short : m.length ≤ height fs start := whole.length_le
    have directory := (agree (height fs start - m.length) (Nat.sub_le _ _)).1
    rw [FileSystem.entryAt?, FileSystem.entryAt?, ascent_eq,
      Path.cleanParts_ofParts (proper.take _), Nat.sub_sub_self short,
      ← List.prefix_iff_eq_take.mp whole] at directory
    exact directory

theorem exists?_of_agree (low : n ≤ height fs start) :
    fs'.exists? (candidate fs start n) = fs.exists? (candidate fs start n) := by
  rw [FileSystem.exists?, FileSystem.exists?, FileSystem.resolve_congr]
  · rw [start_candidate, start_candidate]
  · rw [start_candidate]
    exact fun m member => entry?_of_agree agree low member

theorem read_of_agree (low : n ≤ height fs start) :
    fs'.read (candidate fs start n) = fs.read (candidate fs start n) := by
  apply FileSystem.read_congr
  · rw [start_candidate, start_candidate]
  · rw [start_candidate]
    exact fun m member => entry?_of_agree agree low member

include same

theorem nearest?_of_agree : nearest? fs' start = nearest? fs start := by
  have steps : height fs' start = height fs start := by
    rw [height, height, same]
  have tried : candidate fs' start = candidate fs start := by
    funext n
    rw [candidate, candidate, ascent, ascent, same]
  apply Option.ext
  intro path
  rw [nearest?_some_iff, nearest?_some_iff, steps, tried]
  apply exists_congr
  intro n
  apply and_congr_right
  intro low
  rw [exists?_of_agree agree low]
  refine and_congr_right fun _ => and_congr_right fun _ => forall₂_congr fun m below => ?_
  rw [exists?_of_agree agree (Nat.le_of_lt (Nat.lt_of_lt_of_le below low))]

/-- File systems that agree on the way up from the start are searched with the same end. -/
theorem findConfig_of_agree : Action.findConfig fs' start = Action.findConfig fs start := by
  unfold Action.findConfig
  rw [nearest?_of_agree same agree]
  cases found : nearest? fs start with
  | none => rfl
  | some path =>
    obtain ⟨n, low, rfl, -⟩ := nearest?_some_iff.mp found
    dsimp only
    unfold Action.loadConfig
    rw [read_of_agree agree low, same]

end Surroundings

/-- The search for a configuration. Going up from the start, directory by directory, leads to the
root in finitely many steps. The first directory on the way whose configuration file exists decides:
the search ends as loading that file does, with its configuration, which names the file, or with its
error. It finds none exactly if no directory on the way has such an entry. Nothing but the
directories on the way and these entries matters. -/
theorem search_nearest (fs : FileSystem) (start : Text) (w : World) :
    ∃ top, ascent fs start top = Path.ofParts [] ∧
      (∀ n, Path.parent (ascent fs start n) = ascent fs start n ↔ top ≤ n) ∧
      (∀ n ≤ top, fs.exists? (candidate fs start n) = true →
        (∀ m < n, fs.exists? (candidate fs start m) = false) →
        ∃ r w', (Action.loadConfig fs (candidate fs start n)).run w = (.ok r, w') ∧
          (Action.findConfig fs start).run w = (.ok (r.map some), w') ∧
          ∀ c, r = .ok c → c.path = candidate fs start n) ∧
      ((∃ w', (Action.findConfig fs start).run w = (.ok (.ok none), w')) ↔
        ∀ n ≤ top, fs.exists? (candidate fs start n) = false) ∧
      ∀ fs' : FileSystem, fs'.workingDirectory = fs.workingDirectory →
        (∀ n ≤ top, fs'.entryAt? (ascent fs start n) = fs.entryAt? (ascent fs start n) ∧
          fs'.entryAt? (candidate fs start n) = fs.entryAt? (candidate fs start n)) →
        Action.findConfig fs' start = Action.findConfig fs start := by
  have proper := Path.absoluteParts_proper fs.workingDirectory start
  refine ⟨height fs start, ?_, fun n => ?_, fun n low there first => ?_, ?_,
    fun fs' same agree => findConfig_of_agree same agree⟩
  · rw [ascent_eq, Nat.sub_self, List.take_zero]
  · rw [ascent, Path.absolute_eq]
    exact Path.parent_iterate_iff proper n
  · have found := nearest?_some_iff.mpr ⟨n, low, rfl, there, first⟩
    refine ⟨_, _, Action.run_loadConfig fs _ w, ?_, fun c loaded => ?_⟩
    · rw [Action.run_findConfig, found]
    · have clean : Path.absoluteParts fs.workingDirectory (candidate fs start n) =
          (Path.absoluteParts fs.workingDirectory start).take (height fs start - n) ++
            [fileName] := by
        rw [candidate_eq]
        exact Path.cleanParts_ofParts (candidate_proper fs start n)
      rw [load_path loaded, clean, ← candidate_eq]
  · rw [← nearest?_none_iff, Action.run_findConfig]
    cases nearest? fs start with
    | none => simp
    | some path =>
      refine ⟨?_, fun impossible => nomatch impossible⟩
      rintro ⟨w', ran⟩
      dsimp only at ran
      cases loaded : load fs path with
      | error cause =>
        rw [loaded] at ran
        cases ran
      | ok c =>
        rw [loaded] at ran
        cases ran

/-- In place of the nearer configuration file there is a directory. It is found and cannot be read,
so the file in the root is not looked for. -/
theorem search_nearest_blockedFile :
    let fs : FileSystem := { entries := [(["a"], .directory), (["a", "b"], .directory),
      (["a", "jrt.toml"], .directory), (["jrt.toml"], .file "")] }
    let path : Text := "/a/jrt.toml"
    fs.exists? (candidate fs "/a/b/../b" 0) = false ∧ candidate fs "/a/b/../b" 1 = path ∧
      fs.exists? path = true ∧ fs.exists? (candidate fs "/a/b/../b" 2) = true ∧
      ∃ w', (Action.loadConfig fs path).run {} =
          (.ok (.error (.unreadable path (.cannotRead .isDirectory))), w') ∧
        (Action.findConfig fs "/a/b/../b").run {} =
          (.ok (.error (.unreadable path (.cannotRead .isDirectory))), w') := by
  intro fs path
  have absent : fs.exists? (candidate fs "/a/b/../b" 0) = false := by decide +kernel
  have second : candidate fs "/a/b/../b" 1 = path := by decide +kernel
  have there : fs.exists? path = true := by decide +kernel
  have further : fs.exists? (candidate fs "/a/b/../b" 2) = true := by decide +kernel
  have blocked : load fs path = .error (.unreadable path (.cannotRead .isDirectory)) := by
    have unread : fs.read path = .error (.cannotRead .isDirectory) := by decide +kernel
    rw [load, unread]
  obtain ⟨top, -, fixed, first, -⟩ := search_nearest fs "/a/b/../b" {}
  have below : 1 ≤ top := by
    have moves : Path.parent (ascent fs "/a/b/../b" 0) ≠ ascent fs "/a/b/../b" 0 := by
      decide +kernel
    exact Nat.not_le.mp fun reached => moves ((fixed 0).mpr reached)
  obtain ⟨r, w', loaded, found, -⟩ := first 1 below (second ▸ there) fun m low => by
    rw [Nat.lt_one_iff.mp low]
    exact absent
  rw [second, Action.run_loadConfig, blocked] at loaded
  cases loaded
  exact ⟨absent, second, there, further, _, by rw [Action.run_loadConfig, blocked], found⟩

end Config

end ObjectModel
