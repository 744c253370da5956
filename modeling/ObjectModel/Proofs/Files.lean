import Mathlib.Tactic.SplitIfs
import ObjectModel.FileSystem.Basic

/-!
Files that have been written. Writing puts a file below a directory that the path leads to; no
directory is lost by it, so the same path leads to the file and reading gives what was written.
-/

namespace ObjectModel.FileSystem

section Put
variable {fs : FileSystem} {place l : Location} {e : FileEntry}

theorem lookup_filter (entries : List (Location × FileEntry)) (different : l ≠ place) :
    (entries.filter fun (m, _) => m != place).lookup l = entries.lookup l := by
  induction entries with
  | nil => rfl
  | cons entry rest ih =>
    obtain ⟨m, held⟩ := entry
    by_cases here : m = place
    · subst here
      have other : (l == m) = false := by simpa using different
      simp [List.lookup_cons, ih, other]
    · simp [List.lookup_cons, here, ih]

theorem entry?_put_self (proper : place ≠ []) :
    FileSystem.entry? (fs.put place e) place = some e := by
  have nonempty : place.isEmpty = false := by simpa using proper
  simp [put, entry?, nonempty]

theorem entry?_put_of_ne (different : l ≠ place) :
    FileSystem.entry? (fs.put place e) l = fs.entry? l := by
  have other : (l == place) = false := by simpa using different
  simp only [put, entry?, List.lookup_cons, other, lookup_filter fs.entries different]

theorem isNone_put (proper : place ≠ []) (there : ¬ (fs.entry? l).isNone = true) :
    ¬ (FileSystem.entry? (fs.put place e) l).isNone = true := by
  by_cases same : l = place
  · rw [same, entry?_put_self proper]
    simp
  · rwa [entry?_put_of_ne same]

theorem isDirectory_put (elsewhere : fs.isDirectory place = false)
    (there : fs.isDirectory l = true) : (fs.put place e).isDirectory l = true := by
  have different : l ≠ place := by
    rintro rfl
    rw [elsewhere] at there
    cases there
  rw [isDirectory, entry?_put_of_ne different]
  exact there

end Put

section Walks
variable {fs : FileSystem} {place l l' : Location} {content : Text}

theorem walk_append (parts rest : List Text) :
    fs.walk l (parts ++ rest) = fs.walk l parts >>= fun l' => fs.walk l' rest := by
  induction parts generalizing l with
  | nil => rfl
  | cons part parts ih =>
    simp only [List.cons_append, walk]
    split_ifs
    · rfl
    · exact ih
    · exact ih
    · rfl
    · rfl
    · exact ih

theorem walk_put (proper : place ≠ []) (elsewhere : fs.isDirectory place = false)
    {parts : List Text} (leads : fs.walk l parts = .ok l') :
    (fs.put place (.file content)).walk l parts = .ok l' := by
  induction parts generalizing l with
  | nil => exact leads
  | cons part parts ih =>
    simp only [walk] at leads ⊢
    cases there : fs.isDirectory l with
    | false => simp [there] at leads
    | true =>
      have kept : (fs.put place (.file content)).isDirectory l = true :=
        isDirectory_put elsewhere there
      simp only [there, kept, Bool.not_true, Bool.false_eq_true, if_false] at leads ⊢
      split_ifs at leads ⊢ with skip back long absent absent'
      · exact ih leads
      · exact ih leads
      · exact absurd absent (isNone_put proper absent')
      · exact ih leads

end Walks

/-- A place to write to is a new name, or that of a file, in a directory that the path leads to. -/
theorem resolveForWriting_ok {fs : FileSystem} {path : Text} {place : Location}
    (leads : fs.resolveForWriting path = .ok place) :
    checkPath path = .ok () ∧ ∃ before last parent, Path.parts path = before ++ [last] ∧
      fs.walk (fs.start path) before = .ok parent ∧ fs.isDirectory parent = true ∧
      ¬ (last.isEmpty || last == Path.dot) = true ∧ ¬ (last == Path.dotDot) = true ∧
      ¬ maxName < last.length ∧ place = parent ++ [last] ∧ fs.isDirectory place = false := by
  unfold resolveForWriting at leads
  cases checked : checkPath path with
  | error cause =>
    rw [checked] at leads
    cases leads
  | ok =>
    rw [checked] at leads
    simp only [bind, Except.bind] at leads
    split at leads
    · cases leads
    · rename_i last before shape
      cases walked : fs.walk (fs.start path) before.reverse with
      | error cause => simp [walked] at leads
      | ok parent =>
        simp only [walked, throw, throwThe, MonadExceptOf.throw, pure, Except.pure] at leads
        split_ifs at leads with notDirectory final long taken
        simp only [Except.ok.injEq] at leads
        simp only [Bool.or_eq_true, not_or, Bool.not_eq_true, Bool.not_eq_false']
          at final notDirectory
        obtain ⟨⟨trailing, notDot⟩, notBack⟩ := final
        rw [List.isEmpty_iff] at trailing
        rw [trailing, List.length_nil, List.drop_zero] at shape
        have named : last.isEmpty = false := by
          rw [shape, List.takeWhile_cons] at trailing
          simpa using trailing
        have parts : Path.parts path = before.reverse ++ [last] := by
          rw [← List.reverse_reverse (Path.parts path), shape, List.reverse_cons]
        exact ⟨rfl, before.reverse, last, parent, parts, walked, notDirectory,
          by simp [named, notDot], by simp [notBack], long, leads.symm,
          leads ▸ by simpa using taken⟩

/-- A file that has been written reads as what was written. -/
theorem read_write {fs files : FileSystem} {path content : Text}
    (written : fs.write path content = .ok files) : files.read path = .ok content := by
  unfold write at written
  cases leads : fs.resolveForWriting path with
  | error cause =>
    rw [leads] at written
    cases written
  | ok place =>
    rw [leads] at written
    obtain rfl : fs.put place (.file content) = files := Except.ok.inj written
    obtain ⟨checked, before, last, parent, parts, walked, there, named, down, short, rfl, free⟩ :=
      resolveForWriting_ok leads
    have proper : parent ++ [last] ≠ [] := by simp
    have found : FileSystem.entry? (fs.put (parent ++ [last]) (.file content)) (parent ++ [last]) =
        some (.file content) := entry?_put_self proper
    have resolved : (fs.put (parent ++ [last]) (.file content)).resolve path =
        .ok (parent ++ [last]) := by
      have kept : (fs.put (parent ++ [last]) (.file content)).isDirectory parent = true :=
        isDirectory_put free there
      have start : (fs.put (parent ++ [last]) (.file content)).start path = fs.start path := rfl
      rw [resolve, checked, parts, start]
      simp only [bind, Except.bind]
      rw [walk_append, walk_put proper free walked]
      simp only [bind, Except.bind, walk, kept, Bool.not_true, Bool.false_eq_true, if_false, named,
        down, short, found, Option.isNone_some]
    rw [read, resolved]
    dsimp only
    rw [found]

end ObjectModel.FileSystem
