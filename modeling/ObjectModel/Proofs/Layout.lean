import ObjectModel.Proofs.ArrayClass

/-!
Layouts along the hierarchy. A dispatch table lists no slot twice and begins with the slots of the
table it extends. Array classes extend the table of plain objects whatever their superclass is, but
as long as no defined class takes the key of an array class their superclasses have no other slots,
so the layout of every class begins with the layouts of all its superclasses.
-/

namespace ObjectModel

namespace DispatchTable

theorem prefix_extendLayout (names : List Text) :
    ∀ layout : List Text, layout <+: extendLayout layout names := by
  induction names with
  | nil => exact fun layout => List.prefix_refl layout
  | cons name rest ih =>
    intro layout
    change layout <+: extendLayout (if layout.contains name then layout else layout ++ [name]) rest
    split
    · exact ih layout
    · exact (List.prefix_append layout [name]).trans (ih _)

theorem nodup_extendLayout (names : List Text) :
    ∀ {layout : List Text}, layout.Nodup → (extendLayout layout names).Nodup := by
  induction names with
  | nil => exact fun nodup => nodup
  | cons name rest ih =>
    intro layout nodup
    change (extendLayout (if layout.contains name then layout else layout ++ [name]) rest).Nodup
    split
    · exact ih nodup
    · rename_i absent
      refine ih (List.nodup_append.mpr ⟨nodup, List.pairwise_singleton _ name, ?_⟩)
      rintro slot member _ only rfl
      rw [List.mem_singleton.mp only] at member
      exact absent (List.contains_iff_mem.mpr member)

theorem slots_nodup (t : DispatchTable) : t.slots.Nodup := by
  have stack (levels : List Level) : (layout levels).Nodup := by
    induction levels with
    | nil => exact List.nodup_nil
    | cons level rest ih => exact nodup_extendLayout level.names ih
  exact stack t.levels

theorem slots_prefix_extend (t : DispatchTable) (level : Level) :
    t.slots <+: (extend (some t) level).slots :=
  prefix_extendLayout level.names (layout t.levels)

theorem index?_of_prefix {t u : DispatchTable} (begins : u.slots <+: t.slots) {slot : Text}
    (member : slot ∈ u.slots) : ∃ i, t.index? slot = some i ∧ u.index? slot = some i := by
  obtain ⟨more, shape⟩ := begins
  obtain ⟨i, here⟩ := Option.isSome_iff_exists.mp (List.isSome_idxOf?.mpr member)
  refine ⟨i, ?_, here⟩
  rw [index?, ← shape, List.idxOf?, List.findIdx?_append]
  rw [List.idxOf?] at here
  rw [here]
  rfl

end DispatchTable

namespace World

section Layouts
variable {w : World}

theorem Made.array_table {c : ClassId} {k : Class} (made : w.Made c k) {rank : Rank}
    {d s : ClassId} (array : k.shape = .array rank d s) : k.table = Action.arrayTable c := by
  obtain ⟨cause, table, creation, own⟩ := made.creation
  rw [array] at creation
  rw [own]
  generalize k.name = name at creation
  cases creation with
  | array => rfl

theorem WellFormed.slots_of_arraySuperclass (well : w.WellFormed) (plain : w.PlainNames)
    {rank : Rank} {l : Class} {s : ClassId} {u : DispatchTable}
    (above : w.find? (l.arraySuperclassKey rank) = some s) (has : w.table? s = some u) :
    u.slots = DispatchTable.object.slots := by
  have base (found : w.find? (Core.name .object) = some s) :
      u.slots = DispatchTable.object.slots := by
    obtain ⟨k, known, _, _, own⟩ := well.root_of_find found
    rw [table?_of_class? known, own] at has
    cases has
    rfl
  have rooted {rank : Rank} (found : w.find? rank.rootKey = some s) :
      u.slots = DispatchTable.object.slots := by
    obtain ⟨k, d, s', _, known, shape, _⟩ := well.array_of_key plain found
    rw [table?_of_class? known, (well.made known).array_table shape] at has
    cases has
    rfl
  unfold Class.arraySuperclassKey at above
  split at above
  · cases rank with
    | one => exact base above
    | two => exact rooted above
  · exact rooted above

theorem WellFormed.slots_prefix_above (well : w.WellFormed) (plain : w.PlainNames)
    {c s : ClassId} {t u : DispatchTable} (above : w.Above c s) (own : w.table? c = some t)
    (has : w.table? s = some u) : u.slots <+: t.slots := by
  obtain ⟨k, known, below⟩ := Option.bind_eq_some_iff.mp above
  rw [table?_of_class? known] at own
  obtain ⟨cause, table, creation, made⟩ := (well.made known).creation
  rw [made] at own
  generalize k.shape = shape at creation below
  generalize k.name = name at creation
  cases creation with
  | root => cases below
  | primitive => cases below
  | core which _ found =>
    cases below
    cases own
    obtain ⟨l, known', _, _, root⟩ := well.root_of_find found
    rw [table?_of_class? known', root] at has
    cases has
    cases which with
    | object => exact List.prefix_refl _
    | _ => exact DispatchTable.slots_prefix_extend .object _
  | kind _ _ inherited =>
    cases below
    cases own
    rw [inherited] at has
    cases has
    exact DispatchTable.slots_prefix_extend u _
  | array rank _ found =>
    cases below
    cases own
    rw [well.slots_of_arraySuperclass plain found has]
    exact DispatchTable.slots_prefix_extend .object _
  | definition _ _ inherited =>
    cases below
    cases own
    rw [inherited] at has
    cases has
    exact DispatchTable.slots_prefix_extend u _

theorem WellFormed.table_above (well : w.WellFormed) {c s : ClassId} (above : w.Above c s) :
    ∃ u, w.table? s = some u := by
  obtain ⟨k, known, below⟩ := Option.bind_eq_some_iff.mp above
  have earlier := Nat.lt_trans ((well.made known).superclass below) (lt_of_class? known)
  obtain ⟨l, there⟩ := class?_of_lt earlier
  rw [table?_of_class? there]
  refine Option.ne_none_iff_exists'.mp fun none => ?_
  exact (well.made known).superclass_reference well below there
    ((well.made there).table_none_iff.mp none)

/-- The layout of a class begins with that of every superclass, however far above. -/
theorem WellFormed.slots_prefix (well : w.WellFormed) (plain : w.PlainNames) (c : ClassId) :
    ∀ {d t u}, d ∈ w.superclasses c → w.table? c = some t → w.table? d = some u →
      u.slots <+: t.slots := by
  induction c using Nat.strongRecOn with
  | ind c ih =>
    intro d t u member own has
    -- A class further up is above the superclass, which stands earlier and has a table of its own.
    cases above : w.superclass? c with
    | none =>
      rw [superclasses_top above] at member
      cases member
    | some s =>
      have earlier := well.lt_of_above above
      rw [well.superclasses_above above] at member
      rcases List.mem_cons.mp member with rfl | further
      · exact well.slots_prefix_above plain above own has
      · obtain ⟨v, between⟩ := well.table_above above
        exact (ih s earlier further between has).trans
          (well.slots_prefix_above plain above own between)

end Layouts

end World

/-- In every session that a script reaches with plain names, the dispatch table of a subclass
extends the layout of the superclass's table, slot by slot at the same positions. -/
theorem Script.Session.Reachable.extendsLayout_of_subclass {s : Script.Session}
    (reached : s.Reachable) (plain : s.world.PlainNames) {c d : ClassId} {t u : DispatchTable}
    (own : s.world.table? c = some t) (has : s.world.table? d = some u)
    (below : s.world.isSubclassOf (some c) (some d) = true) :
    t.extendsLayout u = true ∧ t.slots.Nodup ∧ u.slots.Nodup ∧
      ∀ slot ∈ u.slots, ∃ i, t.index? slot = some i ∧ u.index? slot = some i := by
  have well := reached.valid.well
  have begins : u.slots <+: t.slots := by
    rw [World.isSubclassOf, World.isSubclass_eq] at below
    rcases Bool.or_eq_true_iff.mp below with same | member
    · rw [← eq_of_beq same, own] at has
      cases has
      exact List.prefix_refl _
    · exact well.slots_prefix plain c (List.contains_iff_mem.mp member) own has
  exact ⟨List.isPrefixOf_iff_prefix.mpr begins, t.slots_nodup, u.slots_nodup,
    fun _ member => DispatchTable.index?_of_prefix begins member⟩

namespace Script

/-- A script that defines a class below a two-dimensional array class and another below that. -/
def deepRows : List Step :=
  [.perform (.classes (.define "Rows" (.grid (.named (.core .object))) ["row", "equals"]))
      none none,
    .perform (.classes (.define "DeepRows" (.registered "Rows") ["depth"])) none none]

theorem extendsLayout_deepRows :
    let s := ((Session.withVerbosity {} 0).runAll deepRows).2
    s.Reachable ∧ s.world.PlainNames ∧ s.world.isSubclassOf (some 4) (some 1) = true ∧
      ∃ t u, s.world.table? 4 = some t ∧ s.world.table? 1 = some u ∧
        t.slots = u.slots ++ [Text.ofString "row", Text.ofString "depth"] ∧
        t.extendsLayout u = true ∧ t.slots.Nodup ∧ u.slots.Nodup ∧
        ∀ slot ∈ u.slots, ∃ i, t.index? slot = some i ∧ u.index? slot = some i := by
  intro s
  have reached : s.Reachable := (Session.Reachable.start {} 0).runAll deepRows
  have plain : s.world.PlainNames := by decide +kernel
  have below : s.world.isSubclassOf (some 4) (some 1) = true := by decide +kernel
  have slots : (s.world.table? 1).map DispatchTable.slots = some DispatchTable.object.slots ∧
      (s.world.table? 4).map DispatchTable.slots =
        some (DispatchTable.object.slots ++ [Text.ofString "row", Text.ofString "depth"]) := by
    decide +kernel
  obtain ⟨u, has, upper⟩ := Option.map_eq_some_iff.mp slots.1
  obtain ⟨t, own, lower⟩ := Option.map_eq_some_iff.mp slots.2
  exact ⟨reached, plain, below, t, u, own, has, by rw [lower, upper],
    reached.extendsLayout_of_subclass plain own has below⟩

end Script

end ObjectModel
