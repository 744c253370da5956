import Mathlib.Data.List.Nodup
import ObjectModel.Proofs.ClassTable

/-!
Where classes come from. A class that appears while a world evolves was made without an event, or
by one that the policy allows. The built-in classes are made without events, each under its own
name, so the class under a built-in name is the built-in one unless a definition used the name.
-/

namespace ObjectModel

/-- What the policy allows in a world it also allows later. -/
def Policy.Steady (P : Policy) : Prop :=
  ∀ {w w' : World} {e : Event}, Grows w w' → P.allows w e → P.allows w' e

namespace World

/-- The class was made in one of the known ways, by an event only if it is allowed. -/
def MadeBy (P : Policy) (w : World) (c : ClassId) (k : Class) : Prop :=
  ∃ cause table, Creation w cause k.name k.shape table ∧ k.table = table c ∧
    ∀ e ∈ cause, P.allows w e

theorem MadeBy.mono {P : Policy} (steady : P.Steady) {w w' : World} {c : ClassId} {k : Class}
    (made : w.MadeBy P c k) (grown : Grows w w') : w'.MadeBy P c k := by
  obtain ⟨cause, table, creation, own, allowed⟩ := made
  exact ⟨cause, table, creation.mono grown, own, fun e mem => steady grown (allowed e mem)⟩

end World

section Origins
variable {P : Policy} {w w' : World} {c : ClassId} {k : Class}

theorem Change.madeBy (steady : P.Steady) (change : Change P w w') (known : w'.class? c = some k) :
    w.class? c = some k ∨ w'.MadeBy P c k := by
  have grown := change.grows
  cases change with
  | create fresh made allowed =>
    rw [World.class?_pushClass] at known
    split at known
    · rename_i here
      cases known
      right
      exact ⟨_, _, made.mono grown, here ▸ rfl, fun e mem => steady grown (allowed e mem)⟩
    · exact .inl known
  | log m =>
    rw [World.class?, World.classes_logged] at known
    exact .inl known
  | _ => exact .inl known

/-- A class that is new in an evolved world was made as the policy allows. -/
theorem Evolves.madeBy (steady : P.Steady) (run : Evolves P w w') (known : w'.class? c = some k) :
    w.class? c = some k ∨ w'.MadeBy P c k := by
  induction run with
  | refl => exact .inl known
  | tail _ change ih =>
    rcases change.madeBy steady known with before | made
    · rcases ih before with old | made
      · exact .inl old
      · exact .inr (made.mono steady change.grows)
    · exact .inr made

end Origins

/-- The classes that exist without being defined. -/
inductive Builtin where
  | core (which : Core)
  | primitive (p : Primitive)
  | kind (k : Kind)
deriving DecidableEq, Repr

namespace Builtin

def name : Builtin → Text
  | .core which => which.name
  | .primitive p => p.name
  | .kind k => k.name

/-- Finds the class, which is created if there is none under its name. -/
def find : Builtin → Action ClassId
  | .core which => .coreClass which
  | .primitive p => .primitiveClass p
  | .kind k => .kindClass k

def all : List Builtin :=
  [Core.object, .string, .metaclass].map core ++ Primitive.all.map primitive ++ Kind.all.map kind

theorem mem_all (b : Builtin) : b ∈ all := by
  rcases b with which | p | k
  · cases which <;> decide
  · cases p <;> decide
  · cases k <;> decide

theorem name_injective {b b' : Builtin} (same : b.name = b'.name) : b = b' := by
  have distinct : (all.map name).Nodup := by decide
  exact List.inj_on_of_nodup_map distinct b.mem_all b'.mem_all same

theorem name_plain (b : Builtin) : b.name.IsPlain := by
  cases b with
  | core which => exact which.name_plain
  | primitive p => exact p.name_plain
  | kind k => exact k.name_plain

/-- The class has the superclass and the dispatch table that belong to the built-in class. -/
def Assigned (w : World) (c : ClassId) (k : Class) : Builtin → Prop
  | .core .object => k.shape = .root ∧ k.table = some .object
  | .core which => ∃ root, w.find? (Core.name .object) = some root ∧ k.shape = .derived root ∧
    k.table = some which.table
  | .primitive _ => k.shape = .primitive ∧ k.table = none
  | .kind which => ∃ s t, w.find? which.superclassKey = some s ∧ w.table? s = some t ∧
    k.shape = .derived s ∧ k.table = some (.extend (some t) ⟨.known c, none, which.slots⟩)

section Assignment
variable {w w' : World} {c : ClassId} {k : Class} {b : Builtin}

theorem Assigned.mono (assigned : b.Assigned w c k) (grown : Grows w w') : b.Assigned w' c k := by
  rcases b with (_ | _ | _) | p | which
  · exact assigned
  · obtain ⟨root, above, rest⟩ := assigned
    exact ⟨root, grown.find? above, rest⟩
  · obtain ⟨root, above, rest⟩ := assigned
    exact ⟨root, grown.find? above, rest⟩
  · exact assigned
  · obtain ⟨s, t, above, inherited, rest⟩ := assigned
    exact ⟨s, t, grown.find? above, grown.table? inherited, rest⟩

theorem core_table_of_assigned {which : Core} (assigned : Assigned w c k (.core which)) :
    k.table = some which.table := by
  cases which with
  | object => exact assigned.2
  | string => exact assigned.choose_spec.2.2
  | metaclass => exact assigned.choose_spec.2.2

/-- A class made without an event under the name of a built-in class is that class. -/
theorem assigned_of_creation {table : ClassId → Option DispatchTable}
    (creation : Creation w none k.name k.shape table) (own : k.table = table c)
    (key : k.key = b.name) : b.Assigned w c k := by
  rw [Class.key] at key
  generalize held : k.shape = shape at creation key
  generalize k.name = name at creation key
  cases creation with
  | root =>
    obtain rfl : .core .object = b := name_injective key
    exact ⟨held, own⟩
  | core which below above =>
    obtain rfl : .core which = b := name_injective key
    cases which with
    | object => exact absurd rfl below
    | string => exact ⟨_, above, held, own⟩
    | metaclass => exact ⟨_, above, held, own⟩
  | primitive p =>
    obtain rfl : .primitive p = b := name_injective key
    exact ⟨held, own⟩
  | kind which above inherited =>
    obtain rfl : .kind which = b := name_injective key
    exact ⟨_, _, above, inherited, held, own⟩
  | array rank known above => exact absurd key (b.name_plain.ne_arrayKey rank _)

/-- What the world holds of a built-in class was there as soon as the class was. -/
theorem Assigned.of_grown (well : w.WellFormed) (known : w.class? c = some k) (grown : Grows w w')
    (assigned : b.Assigned w' c k) : b.Assigned w c k := by
  have before {key : Text} {s : ClassId} (above : w'.find? key = some s)
      (shape : k.shape = .derived s) : w.find? key = some s := by
    have earlier : s < c := (well.made known).superclass (by rw [shape]; rfl)
    obtain ⟨l, there⟩ := World.class?_of_lt (Nat.lt_trans earlier (World.lt_of_class? known))
    obtain ⟨l', there', rfl⟩ := World.find?_some above
    rw [grown.class? there] at there'
    cases there'
    exact well.keyed there
  rcases b with (_ | _ | _) | p | which
  · exact assigned
  · obtain ⟨root, above, shape, own⟩ := assigned
    exact ⟨root, before above shape, shape, own⟩
  · obtain ⟨root, above, shape, own⟩ := assigned
    exact ⟨root, before above shape, shape, own⟩
  · exact assigned
  · obtain ⟨s, t, above, inherited, shape, own⟩ := assigned
    have found := before above shape
    obtain ⟨u, has⟩ := well.table_of_find found which.superclassKey_ne_primitive
    have same := grown.table? has
    rw [inherited] at same
    cases same
    exact ⟨s, t, found, has, shape, own⟩

end Assignment

end Builtin

/-- The class under the name of a built-in class, if there is one, is the built-in class. -/
def World.Keeps (w : World) (b : Builtin) : Prop :=
  ∀ ⦃c k⦄, w.find? b.name = some c → w.class? c = some k → b.Assigned w c k

namespace Builtin
variable {P : Policy} {w w' : World} {b : Builtin}

theorem find_ends {E : Fault → World → Prop} (b : Builtin) :
    Action.Ends P b.find w (fun c w' => w'.find? b.name = some c) E := by
  cases b with
  | core which => exact Action.coreClass_ends which
  | primitive p => exact Action.primitiveClass_ends p
  | kind k => exact Action.kindClass_ends k

end Builtin

theorem Grows.keeps {w w' : World} {b : Builtin} (grown : Grows w w') (well : w.WellFormed)
    (keeps : w'.Keeps b) : w.Keeps b := by
  intro c k found known
  exact (keeps (grown.find? found) (grown.class? known)).of_grown well known grown

/-- A class under a built-in name that no definition may use is the built-in class. -/
theorem World.MadeBy.assigned {P : Policy} {w : World} {b : Builtin} {c : ClassId} {k : Class}
    (made : w.MadeBy P c k) (spares : ∀ w s slots, ¬ P.allows w (.define b.name s slots))
    (key : k.key = b.name) : b.Assigned w c k := by
  obtain ⟨cause, table, creation, own, allowed⟩ := made
  cases cause with
  | none => exact Builtin.assigned_of_creation creation own key
  | some e =>
    have permitted := allowed e rfl
    rw [Class.key] at key
    generalize k.shape = shape at creation key
    generalize k.name = name at creation key
    cases creation with
    | definition _ _ _ =>
      have same : name = b.name := key
      rw [same] at permitted
      exact absurd permitted (spares _ _ _)

/-- A world keeps a built-in class as long as its name is not defined. -/
theorem Evolves.keeps {P : Policy} {w w' : World} {b : Builtin} (steady : P.Steady)
    (spares : ∀ w s slots, ¬ P.allows w (.define b.name s slots)) (run : Evolves P w w')
    (well : w.WellFormed) (keeps : w.Keeps b) : w'.Keeps b := by
  intro c k found known
  have grown := run.grows
  obtain ⟨k', known', key⟩ := World.find?_some found
  rw [known] at known'
  cases known'
  rcases run.madeBy steady known with old | made
  · have before : w.find? b.name = some c := key ▸ well.keyed old
    exact (keeps before old).mono grown
  · exact made.assigned spares key

end ObjectModel
