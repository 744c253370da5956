import ObjectModel.Proofs.ClassTable

/-!
Single inheritance. Superclasses stand before their subclasses, so a walk from a class to its
superclass, and on, comes to an end, and the classes it passes are the superclasses that are listed.
The lists of superclasses of all classes fit together: what follows a superclass in one of them is
the list of that superclass. Hence the subclass relation orders the classes as a forest, with the
primitive types as single nodes and all other classes below the root class.
-/

namespace ObjectModel.World

/-- The class that so many steps from a class to its superclass lead to. -/
def climb (w : World) : Nat → ClassId → Option ClassId
  | 0, c => some c
  | n + 1, c => (w.superclass? c).bind (w.climb n)

section Chains
variable {w : World} {c d e : ClassId}

/-- Induction along the chain of superclasses, from its top. -/
theorem WellFormed.chain_induction (well : w.WellFormed) {motive : ClassId → Prop}
    (top : ∀ c, w.superclass? c = none → motive c)
    (step : ∀ c s, w.Above c s → motive s → motive c) (c : ClassId) : motive c := by
  induction c using Nat.strongRecOn with
  | ind c ih =>
    cases above : w.superclass? c with
    | none => exact top c above
    | some s => exact step c s above (ih s (well.lt_of_above above))

/-- A walk up from a class passes the class and its superclasses, and ends behind them. -/
theorem WellFormed.climb_eq (well : w.WellFormed) (n : Nat) (c : ClassId) :
    w.climb n c = (c :: w.superclasses c)[n]? := by
  induction n generalizing c with
  | zero => rfl
  | succ n ih =>
    cases above : w.superclass? c with
    | none => simp [climb, above, superclasses_top above]
    | some s => simp [climb, above, well.superclasses_above above, ih]

/-- Every class of a chain stands before the ones below it. -/
theorem WellFormed.chain_descends (well : w.WellFormed) (c : ClassId) :
    (c :: w.superclasses c).Pairwise (fun lower upper => upper < lower) := by
  induction c using well.chain_induction with
  | top c none => simp [superclasses_top none]
  | step c s above ih =>
    have earlier := well.lt_of_above above
    rw [well.superclasses_above above]
    refine List.pairwise_cons.mpr ⟨fun d member => ?_, ih⟩
    rcases List.mem_cons.mp member with rfl | further
    · exact earlier
    · exact Nat.lt_trans (List.rel_of_pairwise_cons ih further) earlier

theorem WellFormed.lt_of_mem_superclasses (well : w.WellFormed) (member : d ∈ w.superclasses c) :
    d < c :=
  List.rel_of_pairwise_cons (well.chain_descends c) member

/-- The superclasses of a superclass are what follows it in the list. -/
theorem WellFormed.superclasses_split (well : w.WellFormed) (member : d ∈ w.superclasses c) :
    ∃ nearer, w.superclasses c = nearer ++ d :: w.superclasses d := by
  induction c using well.chain_induction with
  | top c none =>
    rw [superclasses_top none] at member
    cases member
  | step c s above ih =>
    rw [well.superclasses_above above] at member ⊢
    rcases List.mem_cons.mp member with rfl | further
    · exact ⟨[], rfl⟩
    · obtain ⟨nearer, rest⟩ := ih further
      exact ⟨s :: nearer, by rw [rest]; rfl⟩

theorem WellFormed.depth_lt (well : w.WellFormed) (member : d ∈ w.superclasses c) :
    w.depth d < w.depth c := by
  obtain ⟨nearer, rest⟩ := well.superclasses_split member
  simp only [depth_eq_length, rest, List.length_append, List.length_cons]
  omega

theorem isSubclass_iff : w.isSubclass c d = true ↔ d ∈ c :: w.superclasses c := by
  rw [isSubclass_eq, Bool.or_eq_true, beq_iff_eq, List.contains_iff_mem, List.mem_cons, eq_comm]

theorem WellFormed.isSubclass_iff_climb (well : w.WellFormed) :
    w.isSubclass c d = true ↔ ∃ n, w.climb n c = some d := by
  simp only [isSubclass_iff, List.mem_iff_getElem?, well.climb_eq]

/-- The chain of a superclass ends the chain of the class. -/
theorem WellFormed.chain_suffix (well : w.WellFormed) (below : w.isSubclass c d = true) :
    d :: w.superclasses d <:+ c :: w.superclasses c := by
  rcases List.mem_cons.mp (isSubclass_iff.mp below) with rfl | member
  · exact List.suffix_refl _
  · obtain ⟨nearer, rest⟩ := well.superclasses_split member
    exact ⟨c :: nearer, by rw [rest]; rfl⟩

theorem WellFormed.isSubclass_trans (well : w.WellFormed) (first : w.isSubclass c d = true)
    (second : w.isSubclass d e = true) : w.isSubclass c e = true := by
  rw [isSubclass_iff] at second ⊢
  exact (well.chain_suffix first).subset second

theorem WellFormed.isSubclass_antisymm (well : w.WellFormed) (up : w.isSubclass c d = true)
    (down : w.isSubclass d c = true) : c = d := by
  rcases List.mem_cons.mp (isSubclass_iff.mp up) with same | above
  · exact same.symm
  · rcases List.mem_cons.mp (isSubclass_iff.mp down) with same | above'
    · exact same
    · have earlier := well.lt_of_mem_superclasses above
      exact absurd (well.lt_of_mem_superclasses above') (Nat.lt_asymm earlier)

/-- Two classes above a third lie on one chain. -/
theorem WellFormed.isSubclass_total (well : w.WellFormed) (one : w.isSubclass c d = true)
    (other : w.isSubclass c e = true) : w.isSubclass d e = true ∨ w.isSubclass e d = true := by
  simp only [isSubclass_iff]
  rcases List.suffix_or_suffix_of_suffix (well.chain_suffix one) (well.chain_suffix other) with
    ends | ends
  · exact .inr (ends.subset List.mem_cons_self)
  · exact .inl (ends.subset List.mem_cons_self)

end Chains

section Roots
variable {w : World} {c d : ClassId} {k : Class}

/-- Nothing is below a primitive type. -/
theorem WellFormed.superclass_not_primitive (well : w.WellFormed) (member : d ∈ w.superclasses c)
    (known : w.class? d = some k) : k.shape ≠ .primitive := by
  induction c using well.chain_induction with
  | top c none =>
    rw [superclasses_top none] at member
    cases member
  | step c s above ih =>
    rw [well.superclasses_above above] at member
    rcases List.mem_cons.mp member with rfl | further
    · obtain ⟨l, there, has⟩ := Option.bind_eq_some_iff.mp above
      exact (well.made there).superclass_reference well has known
    · exact ih further

theorem WellFormed.isSubclass_primitive (well : w.WellFormed) (known : w.class? c = some k)
    (primitive : k.shape = .primitive) (d : ClassId) :
    (w.isSubclass c d = true ↔ d = c) ∧ (w.isSubclass d c = true ↔ d = c) := by
  have top : w.superclass? c = none := by
    rw [superclass?_of_class? known, primitive]
    rfl
  constructor
  · simp [isSubclass_iff, superclasses_top top]
  · rw [isSubclass_iff, List.mem_cons]
    constructor
    · rintro (same | member)
      · exact same.symm
      · exact absurd primitive (well.superclass_not_primitive member known)
    · exact fun same => .inl same.symm

theorem WellFormed.isSubclass_of_above (well : w.WellFormed)
    (chain : Relation.ReflTransGen w.Above c d) : w.isSubclass c d = true := by
  induction chain with
  | refl => simp [isSubclass_iff]
  | tail _ above ih =>
    apply well.isSubclass_trans ih
    simp [isSubclass_iff, well.superclasses_above above]

theorem WellFormed.isSubclass_root (well : w.WellFormed) (known : w.class? c = some k)
    (reference : k.shape ≠ .primitive) :
    ∃ r, w.find? (Core.name .object) = some r ∧ w.isSubclass c r = true := by
  obtain ⟨r, l, chain, there, root, -⟩ := well.leads_to_root c known reference
  refine ⟨r, well.find?_iff.mpr ⟨l, there, ?_⟩, well.isSubclass_of_above chain⟩
  rw [Class.key, root]
  exact (well.root_iff there).mp root

end Roots

/-- The classes form a forest under the subclass relation, with one chain up from every class. -/
structure Forest (w : World) : Prop where
  refl : ∀ c, w.isSubclass c c = true
  antisymm : ∀ {c d}, w.isSubclass c d = true → w.isSubclass d c = true → c = d
  trans : ∀ {c d e}, w.isSubclass c d = true → w.isSubclass d e = true → w.isSubclass c e = true
  subclass_iff : ∀ {c d}, w.isSubclass c d = true ↔ d = c ∨ d ∈ w.superclasses c
  nodup : ∀ c, (w.superclasses c).Nodup
  irrefl : ∀ c, c ∉ w.superclasses c
  length_eq : ∀ c, (w.superclasses c).length = w.depth c
  /-- What follows a superclass in the list is the list of the superclass. -/
  rest : ∀ {c d}, d ∈ w.superclasses c →
    (∃ nearer, w.superclasses c = nearer ++ d :: w.superclasses d) ∧ w.depth d < w.depth c
  comparable : ∀ {c d e}, d ∈ w.superclasses c → e ∈ w.superclasses c →
    w.isSubclass d e = true ∨ w.isSubclass e d = true
  rooted : ∀ {c k}, w.class? c = some k → k.shape ≠ .primitive →
    ∃ r, w.find? (Core.name .object) = some r ∧ w.isSubclass c r = true
  primitive : ∀ {c k}, w.class? c = some k → k.shape = .primitive →
    ∀ d, (w.isSubclass c d = true ↔ d = c) ∧ (w.isSubclass d c = true ↔ d = c)
  /-- A walk up from a class passes its superclasses one by one. -/
  climb_superclass : ∀ c n, w.climb (n + 1) c = (w.superclasses c)[n]?
  /-- It ends after as many steps as the class is deep. -/
  climb_end : ∀ c n, w.climb n c = none ↔ w.depth c < n
  /-- It meets the classes that the class is a subclass of, and no others. -/
  climb_subclass : ∀ {c d}, w.isSubclass c d = true ↔ ∃ n ≤ w.depth c, w.climb n c = some d

theorem WellFormed.climb_none_iff {w : World} (well : w.WellFormed) (c : ClassId) (n : Nat) :
    w.climb n c = none ↔ w.depth c < n := by
  rw [well.climb_eq, List.getElem?_eq_none_iff, List.length_cons, depth_eq_length]
  omega

end ObjectModel.World

namespace ObjectModel.Script

/-- In every session that a script reaches the classes form a forest under the subclass relation. -/
theorem Session.Reachable.inheritance_forest {s : Session} (reached : s.Reachable) :
    s.world.Forest := by
  have well := reached.valid.well
  have above {c d : ClassId} (member : d ∈ s.world.superclasses c) :
      s.world.isSubclass c d = true :=
    World.isSubclass_iff.mpr (List.mem_cons_of_mem c member)
  constructor
  case refl => exact fun c => World.isSubclass_iff.mpr List.mem_cons_self
  case antisymm => exact well.isSubclass_antisymm
  case trans => exact well.isSubclass_trans
  case subclass_iff => exact fun {c d} => World.isSubclass_iff.trans List.mem_cons
  case nodup =>
    intro c
    exact (List.pairwise_cons.mp (well.chain_descends c)).2.imp fun earlier => Nat.ne_of_gt earlier
  case irrefl => exact fun c member => Nat.lt_irrefl c (well.lt_of_mem_superclasses member)
  case length_eq => exact fun c => (s.world.depth_eq_length c).symm
  case rest => exact fun member => ⟨well.superclasses_split member, well.depth_lt member⟩
  case comparable => exact fun one other => well.isSubclass_total (above one) (above other)
  case rooted => exact well.isSubclass_root
  case primitive => exact well.isSubclass_primitive
  case climb_superclass => exact fun c n => well.climb_eq (n + 1) c
  case climb_end => exact well.climb_none_iff
  case climb_subclass =>
    intro c d
    rw [well.isSubclass_iff_climb]
    constructor
    · rintro ⟨n, reached⟩
      refine ⟨n, Nat.le_of_not_lt fun beyond => ?_, reached⟩
      rw [(well.climb_none_iff c n).mpr beyond] at reached
      cases reached
    · rintro ⟨n, -, reached⟩
      exact ⟨n, reached⟩

/-- A script that makes a point of three layers and an array of arrays of integers. -/
def mixedFamilies : List Step :=
  [.perform (.object (.newAlphaPoint 1 2 .null 3)) none none,
    .perform (.classes (.value (.array (.array (.named (.primitive .int)))))) none none]

theorem inheritance_forest_mixedFamilies :
    let s := ((Session.withVerbosity {} 0).runAll mixedFamilies).2
    s.Reachable ∧ s.world.Forest ∧ s.world.superclasses 3 = [2, 1, 0] ∧
      s.world.climb 2 3 = some 1 ∧ s.world.climb 4 3 = none ∧
      s.world.isSubclass 7 6 = true ∧ s.world.isSubclass 7 3 = false ∧
      ∀ d, s.world.isSubclass d 4 = true ↔ d = 4 := by
  intro s
  have reached : s.Reachable := (Session.Reachable.start {} 0).runAll mixedFamilies
  have forest := reached.inheritance_forest
  have chain : s.world.superclasses 3 = [2, 1, 0] := by decide +kernel
  have primitive : (s.world.class? 4).map Class.shape = some .primitive := by decide +kernel
  obtain ⟨k, known, shape⟩ := Option.map_eq_some_iff.mp primitive
  refine ⟨reached, forest, chain, ?_, ?_, by decide +kernel, by decide +kernel, ?_⟩
  · rw [forest.climb_superclass 3 1, chain]
    rfl
  · rw [forest.climb_end, ← forest.length_eq, chain]
    decide
  · exact fun d => (forest.primitive known shape d).2

end ObjectModel.Script
