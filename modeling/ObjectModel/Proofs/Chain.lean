import ObjectModel.Proofs.Layout

/-!
Chains of dispatch tables. A table is made from the table that it extends, if any, and a list of
names, among which there may be repeated ones, inherited ones and the empty name. Its layout is the
inherited layout followed by the names that are new, each of them once and where it was first named.
So a slot that two tables of a chain have stands at one position in both, and a table has the slots
that are named at its own level or at one above.
-/

namespace ObjectModel.DispatchTable

/-- The layout that a table starts from. -/
def inheritedSlots (parent : Option DispatchTable) : List Text := (parent.map slots).getD []

/-- The table itself and the tables that it extends, directly or through others. -/
inductive Extends : DispatchTable → DispatchTable → Prop where
  | self (t : DispatchTable) : Extends t t
  | parent {t p u : DispatchTable} (above : t.parent? = some p) (rest : Extends p u) : Extends t u

section Levels
variable {t u v : DispatchTable} {slot : Text}

theorem parent?_extend (parent : Option DispatchTable) (level : Level) :
    (extend parent level).parent? = parent := by
  cases parent <;> rfl

/-- Every table is made by extending the one above it. -/
theorem extend_parent? (t : DispatchTable) : extend t.parent? t.own = t := by
  obtain ⟨own, inherited⟩ := t
  cases inherited <;> rfl

theorem slots_extend (parent : Option DispatchTable) (level : Level) :
    (extend parent level).slots = extendLayout (inheritedSlots parent) level.names := by
  cases parent <;> rfl

/-- The names that a layout lacks are added to it once, in the order of their first occurrence. -/
theorem extendLayout_eq (names : List Text) : ∀ layout : List Text, extendLayout layout names =
    layout ++ (names.filter fun slot => !layout.contains slot).eraseDups := by
  induction names with
  | nil => simp [extendLayout]
  | cons name rest ih =>
    intro layout
    change extendLayout (if layout.contains name then layout else layout ++ [name]) rest = _
    split
    · rename_i present
      rw [ih layout, List.filter_cons_of_neg (by simpa using present)]
    · rename_i absent
      rw [ih (layout ++ [name]), List.filter_cons_of_pos (by simpa using absent),
        List.eraseDups_cons, List.filter_filter, List.append_assoc, List.singleton_append]
      -- A later name is new beside the layout and this name if it is new beside both.
      have fresh (slot : Text) : (!(layout ++ [name]).contains slot) =
          (!slot == name && !layout.contains slot) := by
        rw [List.contains_append, Bool.not_or, Bool.and_comm]
        simp [Bool.beq_eq_decide_eq]
      simp only [fresh]

theorem mem_extendLayout_iff {layout names : List Text} :
    slot ∈ extendLayout layout names ↔ slot ∈ layout ∨ slot ∈ names := by
  rw [extendLayout_eq, List.mem_append, List.mem_eraseDups, List.mem_filter]
  by_cases present : slot ∈ layout <;> simp [present]

theorem mem_slots_extend_iff (parent : Option DispatchTable) (level : Level) :
    slot ∈ (extend parent level).slots ↔ slot ∈ inheritedSlots parent ∨ slot ∈ level.names := by
  rw [slots_extend, mem_extendLayout_iff]

theorem slots_prefix_parent {p : DispatchTable} (above : t.parent? = some p) :
    p.slots <+: t.slots := by
  rw [← extend_parent? t, above]
  exact slots_prefix_extend p t.own

theorem Extends.slots_prefix (above : t.Extends u) : u.slots <+: t.slots := by
  induction above with
  | self t => exact List.prefix_refl _
  | parent direct _ ih => exact ih.trans (slots_prefix_parent direct)

/-- The slots of a table are those named at a level of its chain. -/
theorem mem_slots_iff : slot ∈ t.slots ↔ ∃ u, t.Extends u ∧ slot ∈ u.own.names := by
  constructor
  · obtain ⟨own, inherited⟩ := t
    induction inherited generalizing own with
    | nil =>
      intro member
      rcases (mem_slots_extend_iff none own).mp member with none | named
      · cases none
      · exact ⟨_, .self _, named⟩
    | cons level rest ih =>
      intro member
      rcases (mem_slots_extend_iff (some ⟨level, rest⟩) own).mp member with inherited | named
      · obtain ⟨u, above, named⟩ := ih level inherited
        exact ⟨u, .parent rfl above, named⟩
      · exact ⟨_, .self _, named⟩
  · rintro ⟨u, above, named⟩
    have own : slot ∈ u.slots := by
      rw [← extend_parent? u, mem_slots_extend_iff]
      exact .inr named
    exact above.slots_prefix.subset own

theorem index?_isSome_iff : (t.index? slot).isSome ↔ slot ∈ t.slots := List.isSome_idxOf?

/-- The position of a slot is the one place where the layout lists it. -/
theorem index?_iff {i : Nat} : t.index? slot = some i ↔ t.slots[i]? = some slot := by
  have listed {j : Nat} (here : t.index? slot = some j) : t.slots[j]? = some slot := by
    obtain ⟨below, same, -⟩ := List.findIdx?_eq_some_iff_getElem.mp here
    rw [List.getElem?_eq_getElem below, eq_of_beq same]
  constructor
  · exact listed
  · intro here
    obtain ⟨j, found⟩ := Option.isSome_iff_exists.mp
      (index?_isSome_iff.mpr (List.mem_of_getElem? here))
    have same : t.slots[i]? = t.slots[j]? := here.trans (listed found).symm
    have below : i < t.slots.length := (List.getElem?_eq_some_iff.mp here).1
    rw [found, (List.getElem?_inj below t.slots_nodup).mp same]

theorem extendsLayout_iff : t.extendsLayout u = true ↔ u.slots <+: t.slots :=
  List.isPrefixOf_iff_prefix

end Levels

/-- The layouts of a chain. A table made from any list of names lists no slot twice: first the slots
that it inherits, then its own names that are new, in the order of their first occurrence. It
extends the layout of every table above it, whose slots have the same positions in it; it has a
position for the slots named at its level or above, and overrides those named at its own. Extending
the layout is an order on tables up to the equality of layouts. -/
theorem chain_layouts (parent : Option DispatchTable) (level : Level) :
    let t := extend parent level
    t.parent? = parent ∧ t.slots.Nodup ∧
    t.slots = inheritedSlots parent ++
      (level.names.filter fun slot => !(inheritedSlots parent).contains slot).eraseDups ∧
    (∀ slot i, t.index? slot = some i ↔ t.slots[i]? = some slot) ∧
    (∀ u, t.Extends u → t.extendsLayout u = true ∧
      ∀ slot ∈ u.slots, ∃ i, t.index? slot = some i ∧ u.index? slot = some i) ∧
    (∀ slot, (t.index? slot).isSome ↔ ∃ u, t.Extends u ∧ slot ∈ u.own.names) ∧
    (∀ slot, t.overrides slot = true ↔ slot ∈ level.names) ∧
    t.extendsLayout t = true ∧
    ∀ u, t.extendsLayout u = true → (u.extendsLayout t = true → t.slots = u.slots) ∧
      ∀ v, u.extendsLayout v = true → t.extendsLayout v = true := by
  intro t
  refine ⟨parent?_extend parent level, t.slots_nodup, ?_, fun _ _ => index?_iff, ?_, ?_, ?_, ?_, ?_⟩
  · rw [slots_extend, extendLayout_eq]
  · intro u above
    have begins := above.slots_prefix
    exact ⟨extendsLayout_iff.mpr begins, fun _ member => index?_of_prefix begins member⟩
  · intro slot
    rw [index?_isSome_iff, mem_slots_iff]
  · exact fun slot => List.contains_iff_mem
  · exact extendsLayout_iff.mpr (List.prefix_refl _)
  · intro u begins
    rw [extendsLayout_iff] at begins
    refine ⟨fun back => ?_, fun v further => ?_⟩
    · rw [extendsLayout_iff] at back
      exact back.eq_of_length_le begins.length_le
    · rw [extendsLayout_iff] at further ⊢
      exact further.trans begins

/-- A level that repeats a name of its own and names again what it inherits. -/
theorem chain_layouts_repeatedNames :
    let root := extend none ⟨.absent, none, ["draw", "", "draw"]⟩
    let t := extend (some root) ⟨.absent, none, ["area", "draw", "area", "scale"]⟩
    t.Extends root ∧ t.slots.Nodup ∧
    t.slots = root.slots ++ [Text.ofString "area", Text.ofString "scale"] ∧
    t.extendsLayout root = true ∧ t.overrides "draw" = true ∧ t.overrides "" = false ∧
    ∃ i, t.index? "" = some i ∧ root.index? "" = some i := by
  intro root t
  have above : t.Extends root := .parent rfl (.self root)
  obtain ⟨-, nodup, -, -, chain, -, overrides, -⟩ := chain_layouts (some root)
    ⟨.absent, none, ["area", "draw", "area", "scale"]⟩
  obtain ⟨extended, positions⟩ := chain root above
  exact ⟨above, nodup, by decide, extended, (overrides "draw").mpr (by decide), by decide,
    positions "" (by decide)⟩

end ObjectModel.DispatchTable
