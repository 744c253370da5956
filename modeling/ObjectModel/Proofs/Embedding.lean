import ObjectModel.Handle

/-!
The ancestors of a record, said without a walk. A record embeds the first record in an anonymous
field that is an object; its ancestors are that object and, in turn, the ancestors of that object.
The walk along the embedded records finds exactly these, however deep they lie.
-/

namespace ObjectModel

namespace RecordType
variable {ν : Type} {t u : RecordType ν} {v : ν}

/-- The record `u` stands in the first anonymous field of `t` that holds an object. -/
def Embeds (t u : RecordType ν) : Prop :=
  ∃ before after, t.fields = before ++ .record true u :: after ∧ u.view ≠ none ∧
    ∀ other, .record true other ∈ before → other.view = none

/-- Following embedded records from `t` leads to a record that is the object `v`. -/
inductive HasAncestor : RecordType ν → ν → Prop where
  | nearest {t u : RecordType ν} {v : ν} (embeds : t.Embeds u) (own : u.view = some v) :
      HasAncestor t v
  | further {t u : RecordType ν} {v : ν} (embeds : t.Embeds u) (above : HasAncestor u v) :
      HasAncestor t v

/-- Fields that hold no embedded object are passed over. -/
theorem ancestorsIn_append {before rest : List (Field (RecordType ν))}
    (none : ∀ other, .record true other ∈ before → other.view = none) :
    ancestorsIn (before ++ rest) = ancestorsIn rest := by
  induction before with
  | nil => rfl
  | cons field before ih =>
    have others := ih fun other member => none other (List.mem_cons_of_mem field member)
    cases field with
    | record anonymous type =>
      cases anonymous with
      | false => simpa [ancestorsIn] using others
      | true => simpa [ancestorsIn, none type List.mem_cons_self] using others
    | reference anonymous => simpa [ancestorsIn] using others
    | plain => simpa [ancestorsIn] using others

theorem ancestors_of_embeds (embeds : t.Embeds u) (own : u.view = some v) :
    t.ancestors = v :: u.ancestors := by
  obtain ⟨before, after, fields, -, none⟩ := embeds
  cases t with
  | mk view held =>
    obtain rfl : held = _ := fields
    rw [ancestors, ancestorsIn_append none]
    simp [ancestorsIn, own]

/-- A walk that is not over at once has an embedded object to go to. -/
theorem exists_embeds (more : t.ancestors ≠ []) : ∃ u, t.Embeds u := by
  cases t with
  | mk view fields =>
    induction fields with
    | nil => exact absurd rfl more
    | cons field rest ih =>
      by_cases object : ∃ u : RecordType ν, field = .record true u ∧ u.view ≠ none
      · obtain ⟨u, rfl, own⟩ := object
        exact ⟨u, [], rest, rfl, own, fun _ member => absurd member List.not_mem_nil⟩
      · have passed : ∀ other, .record true other ∈ [field] → other.view = none := by
          intro other member
          cases own : other.view with
          | none => rfl
          | some v =>
            have here := List.mem_singleton.mp member
            exact absurd ⟨other, here.symm, by simp [own]⟩ object
        have same : (mk view (field :: rest)).ancestors = (mk view rest).ancestors :=
          ancestorsIn_append passed
        obtain ⟨u, before, after, fields, own, none⟩ := ih (same ▸ more)
        refine ⟨u, field :: before, after, congrArg (field :: ·) fields, own, ?_⟩
        intro other member
        rcases List.mem_cons.mp member with rfl | member
        · exact passed other List.mem_cons_self
        · exact none other member

theorem Embeds.sizeOf_lt (embeds : t.Embeds u) : sizeOf u < sizeOf t := by
  obtain ⟨before, after, fields, -⟩ := embeds
  cases t with
  | mk view held =>
    obtain rfl : held = _ := fields
    have member : Field.record true u ∈ before ++ .record true u :: after := by simp
    have smaller := List.sizeOf_lt_of_mem member
    simp only [Field.record.sizeOf_spec, RecordType.mk.sizeOf_spec] at smaller ⊢
    omega

theorem Embeds.object (embeds : t.Embeds u) : ∃ v, u.view = some v := by
  obtain ⟨_, _, _, own, _⟩ := embeds
  exact Option.ne_none_iff_exists'.mp own

theorem hasAncestor_of_mem {t : RecordType ν} (member : v ∈ t.ancestors) : t.HasAncestor v := by
  obtain ⟨u, embeds⟩ := exists_embeds (List.ne_nil_of_mem member)
  obtain ⟨nearest, own⟩ := embeds.object
  have smaller := embeds.sizeOf_lt
  rw [ancestors_of_embeds embeds own] at member
  rcases List.mem_cons.mp member with rfl | member
  · exact .nearest embeds own
  · exact .further embeds (hasAncestor_of_mem member)
termination_by sizeOf t

/-- The walk along the embedded records meets the ancestors of the record and nothing else. -/
theorem mem_ancestors_iff : v ∈ t.ancestors ↔ t.HasAncestor v := by
  constructor
  · exact hasAncestor_of_mem
  · intro ancestor
    induction ancestor with
    | nearest embeds own =>
      rw [ancestors_of_embeds embeds own]
      exact List.mem_cons_self
    | further embeds above ih =>
      obtain ⟨nearest, own⟩ := embeds.object
      rw [ancestors_of_embeds embeds own]
      exact List.mem_cons_of_mem nearest ih

end RecordType

/-- Only points are embedded in other objects. -/
theorem View.embedded_eq (v : View) : v.embedded =
    if v = .alphaPoint then [.colorPoint, .point]
    else if v = .colorPoint then [.point] else [] := by
  cases v <;> rfl

end ObjectModel
