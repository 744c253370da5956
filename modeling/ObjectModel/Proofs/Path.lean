import Mathlib.Data.List.DropRight
import Mathlib.Logic.Function.Iterate
import ObjectModel.FileSystem.Path

/-!
Absolute paths and the names on them. The clean form of an absolute path is a list of names, and
every such list is the clean form of the path it spells. In these terms joining adds a name at the
end, and going to the directory of a path takes the last name away until none is left.
-/

namespace ObjectModel

theorem Text.splitOn_eq (separator : UInt8) (t : Text) :
    Text.splitOn separator t = List.splitOn separator t := by
  induction t with
  | nil => rfl
  | cons b rest ih =>
    rw [Text.splitOn, List.splitOn_cons_eq_if_modifyHead, ih]
    by_cases same : b = separator
    · simp [same]
    · rw [if_neg same, if_neg (by simpa using same)]
      cases pieces : List.splitOn separator rest with
      | nil => exact absurd pieces (List.splitOn_ne_nil separator rest)
      | cons piece pieces => rfl

namespace Path

/-- A part that names an entry of a directory. -/
structure IsName (part : Text) : Prop where
  nonempty : part ≠ []
  ne_dot : part ≠ dot
  ne_dotDot : part ≠ dotDot
  undivided : slash ∉ part

def Proper (l : List Text) : Prop := ∀ part ∈ l, IsName part

/-- The absolute form of a path, as seen from a directory. -/
def absolute (directory path : Text) : Text :=
  if isAbsolute path then clean path else join directory path

/-- The directory of a path: the clean form of what stands before its last part. -/
def parent (path : Text) : Text := clean (path.rdropWhile (· != slash))

section Parts
variable {path name : Text} {l stack : List Text}

theorem parts_append (path rest : Text) :
    parts (path ++ slash :: rest) = parts path ++ parts rest := by
  simp only [parts, Text.splitOn_eq]
  exact List.splitOn_append_cons_self path rest

theorem parts_eq_singleton {part : Text} (undivided : slash ∉ part) : parts part = [part] := by
  rw [parts, Text.splitOn_eq]
  exact List.splitOn_eq_singleton undivided

theorem parts_joinParts (undivided : ∀ part ∈ l, slash ∉ part) (some_part : l ≠ []) :
    parts (joinParts l) = l := by
  rw [parts, Text.splitOn_eq]
  exact List.splitOn_intercalate slash undivided some_part

theorem undivided_of_mem_parts : ∀ {path part : Text}, part ∈ parts path → slash ∉ part
  | [], _, member => by
    rw [List.mem_singleton.mp member]
    exact List.not_mem_nil
  | b :: rest, _, member => by
    have step : parts (b :: rest) = if b = slash then [] :: parts rest else
        (parts rest).modifyHead (b :: ·) := by
      simp only [parts, Text.splitOn_eq, List.splitOn_cons_eq_if_modifyHead, beq_iff_eq]
    rw [step] at member
    split at member
    · rcases List.mem_cons.mp member with rfl | further
      · exact List.not_mem_nil
      · exact undivided_of_mem_parts further
    · rename_i other
      cases pieces : parts rest with
      | nil =>
        rw [pieces] at member
        cases member
      | cons piece more =>
        have inside {p : Text} (here : p ∈ piece :: more) : slash ∉ p :=
          undivided_of_mem_parts (pieces ▸ here)
        rw [pieces] at member
        rcases List.mem_cons.mp member with rfl | further
        · intro divided
          rcases List.mem_cons.mp divided with same | divided
          · exact other same.symm
          · exact inside List.mem_cons_self divided
        · exact inside (List.mem_cons_of_mem _ further)

theorem push_nil (absolute : Bool) (stack : List Text) : push absolute stack [] = stack := rfl

theorem push_name (absolute : Bool) {part : Text} (isName : IsName part) (stack : List Text) :
    push absolute stack part = part :: stack := by
  unfold push
  have solid : (part.isEmpty || part == dot) = false := by
    simp [isName.nonempty, isName.ne_dot]
  have down : (part == dotDot) = false := by
    simp [isName.ne_dotDot]
  rw [solid, down]
  rfl

theorem foldl_push_names (absolute : Bool) (proper : Proper l) (stack : List Text) :
    l.foldl (push absolute) stack = l.reverse ++ stack := by
  induction l generalizing stack with
  | nil => rfl
  | cons part rest ih =>
    rw [List.foldl_cons, push_name absolute (proper part List.mem_cons_self),
      ih fun p member => proper p (List.mem_cons_of_mem _ member)]
    simp

theorem push_proper {part : Text} (proper : Proper stack) (undivided : slash ∉ part) :
    Proper (push true stack part) := by
  unfold push
  split
  · exact proper
  · rename_i solid
    split
    · split
      · rename_i last rest
        have back : (last == dotDot) = false := by
          simp [(proper last List.mem_cons_self).ne_dotDot]
        rw [back]
        exact fun p member => proper p (List.mem_cons_of_mem _ member)
      · exact proper
    · rename_i forward
      intro p member
      rcases List.mem_cons.mp member with rfl | below
      · simp only [Bool.or_eq_true, List.isEmpty_iff, beq_iff_eq, not_or] at solid
        exact ⟨solid.1, solid.2, fun same => forward (beq_iff_eq.mpr same), undivided⟩
      · exact proper p below

theorem foldl_push_proper (undivided : ∀ part ∈ l, slash ∉ part) (proper : Proper stack) :
    Proper (l.foldl (push true) stack) := by
  induction l generalizing stack with
  | nil => exact proper
  | cons part rest ih =>
    exact ih (fun p member => undivided p (List.mem_cons_of_mem _ member))
      (push_proper proper (undivided part List.mem_cons_self))

/-- The clean form of an absolute path is made of names alone. -/
theorem cleanParts_proper (isAbsolute : isAbsolute path = true) : Proper (cleanParts path) := by
  have proper : Proper ((parts path).foldl (push true) []) :=
    foldl_push_proper (fun _ member => undivided_of_mem_parts member) fun _ member => nomatch member
  intro part member
  rw [cleanParts, isAbsolute] at member
  exact proper part (List.mem_reverse.mp member)

theorem absoluteParts_proper (directory : List Text) (path : Text) :
    Proper (absoluteParts directory path) := by
  unfold absoluteParts
  split
  · rename_i isAbsolute
    exact cleanParts_proper isAbsolute
  · exact cleanParts_proper rfl

/-- What follows a directory is taken into its clean form part by part. -/
theorem cleanParts_append (isAbsolute : isAbsolute path = true) (rest : Text) :
    cleanParts (path ++ slash :: rest) =
      ((parts rest).foldl (push true) (cleanParts path).reverse).reverse := by
  have begins : Path.isAbsolute (path ++ slash :: rest) = true := by
    cases path with
    | nil => rfl
    | cons b more => exact isAbsolute
  rw [cleanParts, begins, parts_append, List.foldl_append, cleanParts, isAbsolute,
    List.reverse_reverse]

theorem cleanParts_trailing (isAbsolute : isAbsolute path = true) :
    cleanParts (path ++ [slash]) = cleanParts path := by
  rw [cleanParts_append isAbsolute]
  change (push true (cleanParts path).reverse []).reverse = _
  rw [push_nil, List.reverse_reverse]

theorem parts_ofParts (proper : Proper l) (named : l ≠ []) : parts (ofParts l) = [] :: l := by
  have undivided : ∀ part ∈ l, slash ∉ part := fun part member => (proper part member).undivided
  change parts ([] ++ slash :: joinParts l) = _
  rw [parts_append, parts_joinParts undivided named]
  rfl

theorem cleanParts_ofParts (proper : Proper l) : cleanParts (ofParts l) = l := by
  by_cases named : l = []
  · rw [named]
    rfl
  · rw [cleanParts, parts_ofParts proper named, List.foldl_cons, push_nil,
      foldl_push_names _ proper]
    simp

theorem clean_of_absolute (isAbsolute : isAbsolute path = true) :
    clean path = ofParts (cleanParts path) := by
  rw [clean, if_pos isAbsolute]

theorem join_ofParts (proper : Proper l) (isName : IsName name) :
    join (ofParts l) name = ofParts (l ++ [name]) := by
  have begins : isAbsolute (ofParts l ++ slash :: name) = true := rfl
  have named : name.isEmpty = false := by
    simp [isName.nonempty]
  rw [join, named]
  change clean (ofParts l ++ slash :: name) = _
  rw [clean_of_absolute begins, cleanParts_append rfl, cleanParts_ofParts proper,
    parts_eq_singleton isName.undivided, List.foldl_cons, push_name true isName]
  simp

/-- The absolute form of a path spells its clean parts. -/
theorem absolute_eq (directory : List Text) (path : Text) :
    absolute (ofParts directory) path = ofParts (absoluteParts directory path) := by
  unfold absolute absoluteParts
  split
  · rename_i isAbsolute
    exact clean_of_absolute isAbsolute
  · rw [join]
    cases path with
    | nil =>
      change clean (ofParts directory) = ofParts (cleanParts (ofParts directory ++ [slash]))
      rw [cleanParts_trailing rfl]
      exact clean_of_absolute rfl
    | cons b rest =>
      have begins : isAbsolute (ofParts directory ++ slash :: b :: rest) = true := rfl
      exact clean_of_absolute begins

theorem ofParts_injective {l l' : List Text} (proper : Proper l) (proper' : Proper l')
    (same : ofParts l = ofParts l') : l = l' := by
  rw [← cleanParts_ofParts proper, same, cleanParts_ofParts proper']

end Parts

section Parents
variable {l : List Text} {name : Text}

theorem joinParts_concat (some_part : l ≠ []) (name : Text) :
    joinParts (l ++ [name]) = joinParts l ++ slash :: name := by
  induction l with
  | nil => exact absurd rfl some_part
  | cons first rest ih =>
    cases rest with
    | nil =>
      change [slash].intercalate [first, name] = [slash].intercalate [first] ++ slash :: name
      simp [List.intercalate_cons_cons]
    | cons second more =>
      have rest := ih (List.cons_ne_nil _ _)
      simp only [joinParts, List.cons_append, List.intercalate_cons_cons] at rest ⊢
      simp [rest]

theorem rdropWhile_name (undivided : slash ∉ name) (before : Text) :
    (before ++ slash :: name).rdropWhile (· != slash) = before ++ [slash] := by
  have last : ∀ b ∈ name.reverse, (b != slash) = true := by
    intro b member
    rw [bne_iff_ne]
    rintro rfl
    exact undivided (List.mem_reverse.mp member)
  rw [List.rdropWhile, List.reverse_append, List.reverse_cons, List.append_assoc,
    List.dropWhile_append_of_pos last]
  simp

theorem parent_concat (proper : Proper l) (isName : IsName name) :
    parent (ofParts (l ++ [name])) = ofParts l := by
  by_cases none : l = []
  · subst none
    have spelled : ofParts ([] ++ [name]) = [] ++ slash :: name := by
      simp [ofParts, joinParts]
    rw [parent, spelled, rdropWhile_name isName.undivided]
    rfl
  · have spelled : ofParts (l ++ [name]) = ofParts l ++ slash :: name := by
      rw [ofParts, joinParts_concat none]
      rfl
    have begins : isAbsolute (ofParts l ++ [slash]) = true := rfl
    rw [parent, spelled, rdropWhile_name isName.undivided, clean_of_absolute begins,
      cleanParts_trailing rfl, cleanParts_ofParts proper]

/-- The directory of a path has the names of the path but the last; the root is its own one. -/
theorem parent_ofParts (proper : Proper l) : parent (ofParts l) = ofParts l.dropLast := by
  rcases List.eq_nil_or_concat l with rfl | ⟨before, name, rfl⟩
  · rfl
  · rw [List.concat_eq_append] at proper ⊢
    rw [parent_concat (fun p member => proper p (List.mem_append_left _ member))
      (proper name (List.mem_append_right _ List.mem_cons_self)), List.dropLast_concat]

theorem Proper.take (proper : Proper l) (n : Nat) : Proper (l.take n) :=
  fun part member => proper part (List.mem_of_mem_take member)

theorem iterate_parent (proper : Proper l) (n : Nat) :
    parent^[n] (ofParts l) = ofParts (l.take (l.length - n)) := by
  induction n with
  | zero => simp
  | succ n ih =>
    rw [Function.iterate_succ_apply', ih, parent_ofParts (proper.take _), List.dropLast_eq_take,
      List.take_take, List.length_take]
    congr 2
    omega

/-- Going up, the root is reached after as many steps as there are names, and not left. -/
theorem parent_iterate_iff (proper : Proper l) (n : Nat) :
    parent (parent^[n] (ofParts l)) = parent^[n] (ofParts l) ↔ l.length ≤ n := by
  rw [← Function.iterate_succ_apply' parent, iterate_parent proper, iterate_parent proper]
  constructor
  · intro same
    have shorter := congrArg List.length
      (ofParts_injective (proper.take _) (proper.take _) same)
    simp only [List.length_take] at shorter
    omega
  · intro reached
    congr 2
    omega

/-- The directories at and above a directory are those that going up leads to. -/
theorem map_ancestors (proper : Proper l) (isName : IsName name) :
    (ancestors l).map (fun place => ofParts (place ++ [name])) =
      (List.range (l.length + 1)).map fun n => join (parent^[n] (ofParts l)) name := by
  rw [ancestors, List.map_map]
  apply List.ext_getElem
  · simp
  · intro n below _
    rw [List.length_map, List.length_reverse, List.length_range] at below
    rw [List.getElem_map, List.getElem_map, List.getElem_reverse, List.getElem_range,
      List.getElem_range, List.length_range, iterate_parent proper,
      join_ofParts (proper.take _) isName, Function.comp_apply]
    congr 3

end Parents

end Path

end ObjectModel
