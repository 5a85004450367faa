import SpirvBindings.Proofs.Numeric

/-! Which element types a guard admits. A capability without a width tag admits every type. One with
a tag admits the scalars of that kind and width, and neither a generic type nor any other text. The
choices of an element type are the guards that admit it, in order. -/

namespace SpirvBindings

theorem Scalar.ofName?_eq_some_iff {text : String} {s : Scalar} :
    ofName? text = some s ↔ text = s.name := by
  constructor
  · intro h
    unfold ofName? at h
    have hname := List.find?_some h
    exact (beq_iff_eq.mp hname).symm
  · rintro rfl
    exact ofName?_name s

namespace Capability

/-- A capability admits all types if it contains no width tag, and otherwise the scalars that it
admits by name. -/
inductive AdmitsType (capability : String) (type : ResolvedType) : Prop
  | untagged (h : NoTag capability (floatTags ++ integerTags))
  | scalar {s : Scalar} (hgeneric : ¬ type.generic) (hname : type.name = s.name)
      (hs : AdmitsScalar capability s)

theorem widthTag?_eq_none_iff {capability : String} :
    widthTag? capability = none ↔ NoTag capability (floatTags ++ integerTags) := by
  have hnone : ∀ tags : List (String × Scalar.Width),
      tags.find? (mentions capability ·.1) = none ↔ NoTag capability tags := by
    intro tags
    simp only [List.find?_eq_none, mentions_iff, NoTag]
  rw [widthTag?_eq, Option.or_eq_none_iff, Option.map_eq_none_iff, Option.map_eq_none_iff, hnone,
    hnone]
  simp only [NoTag, List.forall_mem_append]

/-- A capability without a width tag admits all texts. -/
theorem admits_of_noTag {capability : String}
    (h : NoTag capability (floatTags ++ integerTags)) (text : String) :
    admits capability text := by
  rw [admits, widthTag?_eq_none_iff.mpr h]

/-- A capability with a width tag admits no text but the names of scalars. -/
theorem exists_scalar_of_admits {capability text : String} (h : admits capability text)
    (htagged : ¬ NoTag capability (floatTags ++ integerTags)) :
    ∃ s : Scalar, text = s.name := by
  unfold admits at h
  cases htag : widthTag? capability with
  | none => exact absurd (widthTag?_eq_none_iff.mp htag) htagged
  | some tag =>
    rw [htag] at h
    cases hs : Scalar.ofName? text with
    | none => simp [hs] at h
    | some s => exact ⟨s, Scalar.ofName?_eq_some_iff.mp hs⟩

theorem admits_iff {capability : String} {type : ResolvedType} :
    admits capability (if type.generic then "" else type.name) ↔ AdmitsType capability type := by
  constructor
  · intro h
    by_cases htagged : NoTag capability (floatTags ++ integerTags)
    · exact .untagged htagged
    obtain ⟨s, hs⟩ := exists_scalar_of_admits h htagged
    cases hgeneric : type.generic with
    | true =>
      have hempty : ∀ s : Scalar, "" ≠ s.name := by
        rintro ⟨k, w⟩
        cases k <;> cases w <;> decide
      rw [hgeneric, if_pos rfl] at hs
      exact absurd hs (hempty s)
    | false =>
      rw [hgeneric, if_neg Bool.false_ne_true] at h hs
      rw [hs] at h
      exact .scalar (by simp [hgeneric]) hs (admits_name_iff.mp h)
  · rintro (huntagged | ⟨hgeneric, hname, hs⟩)
    · exact admits_of_noTag huntagged _
    · rw [if_neg hgeneric, hname]
      exact admits_name_iff.mpr hs

instance (capability : String) (type : ResolvedType) : Decidable (AdmitsType capability type) :=
  decidable_of_iff _ admits_iff

end Capability

namespace Expansion

open Capability

/-- A guard admits an element type. Without a guard that is any. -/
def GuardAdmitsType (guard? : Option String) (type : ResolvedType) : Prop :=
  ∀ capability, guard? = some capability → AdmitsType capability type

instance (guard? : Option String) (type : ResolvedType) :
    Decidable (GuardAdmitsType guard? type) :=
  match guard? with
  | some capability => decidable_of_iff (AdmitsType capability type) (by simp [GuardAdmitsType])
  | none => isTrue (by simp [GuardAdmitsType])

/-- The guards of an instruction that admit an element type. -/
def admittingGuards (i : Instruction) (type : ResolvedType) : List (Option String) :=
  (guards i).filter (GuardAdmitsType · type)

/-- The choice of an element type at a variant under a guard that admits it. -/
def guardChoice (variant : Nat) (type : ResolvedType) (guard? : Option String) : Choice :=
  ⟨variant, type, guard?, widened guard? type⟩

theorem guardedElement?_eq (type : ResolvedType) (guard? : Option String) :
    guardedElement? type guard? =
      if GuardAdmitsType guard? type then some (widened guard? type) else none := by
  have hiff : ∀ guarded, guardedElement? type guard? = some guarded ↔
      GuardAdmitsType guard? type ∧ guarded = widened guard? type := by
    intro guarded
    simp only [guardedElement?_eq_some_iff, GuardAdmitsType, admits_iff]
  split
  next h => exact (hiff _).mpr ⟨h, rfl⟩
  next h => exact Option.eq_none_iff_forall_ne_some.mpr fun guarded hg => h ((hiff guarded).mp hg).1

/-- The choices of an element type are the guards that admit it. -/
theorem choicesOf_eq (i : Instruction) (variant : Nat) (type : ResolvedType) :
    choicesOf i variant type = (admittingGuards i type).map (guardChoice variant type) := by
  rw [choicesOf, admittingGuards, ← flatMap_ite_singleton, List.filterMap_eq_flatMap_toList]
  refine List.flatMap_congr fun guard? _ => ?_
  rw [guardedElement?_eq]
  split <;> rfl

end Expansion

end SpirvBindings
