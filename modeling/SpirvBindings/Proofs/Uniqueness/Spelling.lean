import Mathlib.Data.List.Nodup
import SpirvBindings.Proofs.Choices

/-! The parameters of one operand for two choices under one guard. A mapped operand tells variants
apart if its entry has overloads, a pointer tells shapes apart, and what is spelled by the operand
type tells element types apart if no operand type is requested. All other operands are spelled
alike. -/

namespace SpirvBindings

/-- An entry without a type twice has different types at different variants, unless it has the one
type for all of them. -/
theorem TypeEntry.typeAt_eq_iff {e : TypeEntry} (hnodup : e.overloads.Nodup) {v v' : Nat}
    (hv : ∃ type, e.select v = .ok type) (hv' : ∃ type, e.select v' = .ok type) :
    e.typeAt v = e.typeAt v' ↔ e.overloads = [] ∨ v = v' := by
  have hrange : ∀ w, (∃ type, e.select w = .ok type) → e.overloads ≠ [] →
      ∃ h : w < e.overloads.length, e.typeAt w = e.overloads[w] := by
    intro w hw hne
    obtain ⟨type, hw⟩ := hw
    have htype := TypeEntry.typeAt_of_select hw
    unfold TypeEntry.select at hw
    rw [if_neg (by simpa using hne)] at hw
    split at hw
    next t ht =>
      cases hw
      obtain ⟨hlt, heq⟩ := List.getElem?_eq_some_iff.mp ht
      exact ⟨hlt, htype.trans heq.symm⟩
    next => cases hw
  by_cases hne : e.overloads = []
  · simp [TypeEntry.typeAt, hne]
  · obtain ⟨hlt, heq⟩ := hrange v hv hne
    obtain ⟨hlt', heq'⟩ := hrange v' hv' hne
    rw [heq, heq', hnodup.getElem_inj_iff]
    simp [hne]

/-! ### Rendered parameters -/

/-- Parameters that differ at most in their types are told apart by these. -/
theorem Parameter.render_eq_iff_type {attributes : List String} {isConst : Bool}
    {type type' name : String} {default? : Option String} :
    (Parameter.mk attributes isConst type name default?).render =
        (Parameter.mk attributes isConst type' name default?).render ↔ type = type' := by
  simp only [Parameter.render, String.append_left_inj, String.append_right_inj]

theorem Parameter.render_plain (type name : String) :
    (Parameter.plain type name).render = type ++ (" " ++ name) := by
  simp [Parameter.render, Parameter.plain, String.append_assoc]

theorem Parameter.render_marked (mark type name : String) :
    (Parameter.marked mark type name).render =
      "[[" ++ (mark ++ ("]] " ++ (type ++ (" " ++ name)))) := by
  simp [Parameter.render, Parameter.marked, String.join_cons, String.append_assoc]

theorem head?_toList_append {text : String} {c : Char} (h : text.toList.head? = some c)
    (rest : String) : (text ++ rest).toList.head? = some c := by
  rw [String.toList_append, List.head?_append, h, Option.some_or]

theorem Parameter.head?_render_plain {type name : String} {c : Char}
    (h : type.toList.head? = some c) :
    (Parameter.plain type name).render.toList.head? = some c := by
  rw [Parameter.render_plain]
  exact head?_toList_append h _

theorem Parameter.head?_render_marked (mark type name : String) :
    (Parameter.marked mark type name).render.toList.head? = some '[' := by
  have hbracket : ("[[").toList.head? = some '[' := by decide +kernel
  rw [Parameter.render_marked]
  exact head?_toList_append hbracket _

namespace Expansion

theorem pointerType_reference (pointee : String) : pointerType .reference pointee = pointee := rfl

theorem pointerType_physical (pointee : String) :
    pointerType .physical pointee =
      "pointer_t<spv::StorageClassPhysicalStorageBuffer, " ++ pointee ++ ">" := rfl

theorem head?_pointerType_physical (pointee : String) :
    (pointerType .physical pointee).toList.head? = some 'p' := by
  have hopening : ("pointer_t<spv::StorageClassPhysicalStorageBuffer, ").toList.head? = some 'p' :=
    by decide +kernel
  rw [pointerType_physical]
  exact head?_toList_append (head?_toList_append hopening _) _

/-- The first character of a pointer is that of its shape. -/
theorem Slot.head?_render_pointer {defaultType : String} {s : Setting} {slot : Slot}
    (h : slot.source = .rule .pointer) :
    (slot.spell defaultType s).render.toList.head? =
      some (match s.shape with
        | .reference => '['
        | .pointerTemplate => 'P'
        | .physical => 'p') := by
  have htemplate : pointerTemplate.toList.head? = some 'P' := by decide +kernel
  obtain ⟨shape, operand, variant⟩ := s
  simp only [Slot.spell, h, Rule.spell]
  cases shape with
  | reference => exact Parameter.head?_render_marked _ _ _
  | pointerTemplate => exact Parameter.head?_render_plain htemplate
  | physical => exact Parameter.head?_render_plain (head?_pointerType_physical operand)

/-- Pointers are spelled alike in one shape if their pointees are, or if the pointer has a type
parameter of its own. -/
theorem Slot.render_pointer_eq_iff {defaultType : String} {s s' : Setting} {slot : Slot}
    (h : slot.source = .rule .pointer) :
    (slot.spell defaultType s).render = (slot.spell defaultType s').render ↔
      s.shape = s'.shape ∧ (s.shape = .pointerTemplate ∨ s.operandType = s'.operandType) := by
  have hshape : (slot.spell defaultType s).render = (slot.spell defaultType s').render →
      s.shape = s'.shape := by
    intro heq
    have hhead := congrArg (·.toList.head?) heq
    simp only [Slot.head?_render_pointer h, Option.some.injEq] at hhead
    revert hhead
    cases s.shape <;> cases s'.shape <;> decide
  obtain ⟨shape, operand, variant⟩ := s
  obtain ⟨shape', operand', variant'⟩ := s'
  by_cases heq : shape = shape'
  · subst heq
    simp only [Slot.spell, h, Rule.spell, true_and]
    cases shape with
    | reference =>
      rw [Parameter.marked, Parameter.marked, Parameter.render_eq_iff_type,
        pointerType_reference, pointerType_reference]
      simp
    | pointerTemplate => exact ⟨fun _ => .inl rfl, fun _ => rfl⟩
    | physical =>
      rw [Parameter.plain, Parameter.plain, Parameter.render_eq_iff_type, pointerType_physical,
        pointerType_physical, String.append_left_inj, String.append_right_inj]
      simp
  · exact ⟨fun hrender => absurd (hshape hrender) heq, fun hboth => absurd hboth.1 heq⟩

/-! ### Operands that tell choices apart -/

theorem name_widened_eq_iff (guard? : Option String) (element element' : ResolvedType) :
    (widened guard? element).type.name = (widened guard? element').type.name ↔
      element.name = element'.name := by
  unfold widened
  split
  · simp only [String.append_left_inj, String.append_right_inj]
  · rfl

/-- The operand types of two choices under one guard differ only if they follow the elements. -/
theorem Choice.operandType_eq_iff {r r' : Request} {c c' : Choice}
    (hoperand : r.operandType? = r'.operandType?) (hguard : c.guard? = c'.guard?)
    (hc : c.guarded = widened c.guard? c.element)
    (hc' : c'.guarded = widened c'.guard? c'.element) :
    (c.setting r).operandType = (c'.setting r').operandType ↔
      r.operandType? ≠ none ∨ c.element.name = c'.element.name := by
  simp only [Choice.setting, operandType, ← hoperand, hc, hc', ← hguard]
  cases r.operandType? with
  | some text => simp
  | none =>
    rw [Option.map_none, Option.getD_none, Option.getD_none, name_widened_eq_iff]
    simp

/-- What an operand tells two choices apart by. -/
inductive TellsApart (m : TypeMap) (i : Instruction) (o : Operand) (r : Request) (c : Choice)
    (r' : Request) (c' : Choice) : Prop
  | variant (e : TypeEntry) (he : m.entryOfOperand? i o = some e) (hoverloads : e.overloads ≠ [])
    (hne : c.variant ≠ c'.variant)
  | shape (he : m.entryOfOperand? i o = none) (hrule : Rule.ofOperand o = .ok .pointer)
    (hne : r.shape ≠ r'.shape)
  | pointee (he : m.entryOfOperand? i o = none) (hrule : Rule.ofOperand o = .ok .pointer)
    (hshape : r.shape ≠ .pointerTemplate) (hoperand : r.operandType? = none)
    (hne : c.element.name ≠ c'.element.name)
  | operand (he : m.entryOfOperand? i o = none) (hrule : Rule.ofOperand o = .ok .operandType)
    (hoperand : r.operandType? = none) (hne : c.element.name ≠ c'.element.name)

section TellsApart

variable {m : TypeMap} {i : Instruction} {o : Operand} {r r' : Request} {c c' : Choice}

theorem tellsApart_entry_iff {e : TypeEntry} (he : m.entryOfOperand? i o = some e) :
    TellsApart m i o r c r' c' ↔ e.overloads ≠ [] ∧ c.variant ≠ c'.variant := by
  constructor
  · rintro (⟨e', he', hoverloads, hne⟩ | ⟨he', -⟩ | ⟨he', -⟩ | ⟨he', -⟩)
    · rw [he] at he'
      cases he'
      exact ⟨hoverloads, hne⟩
    all_goals simp [he] at he'
  · rintro ⟨hoverloads, hne⟩
    exact .variant e he hoverloads hne

theorem tellsApart_rule_iff {rule : Rule} (he : m.entryOfOperand? i o = none)
    (hrule : Rule.ofOperand o = .ok rule) :
    TellsApart m i o r c r' c' ↔
      rule = .pointer ∧ (r.shape ≠ r'.shape ∨ r.shape ≠ .pointerTemplate ∧
        r.operandType? = none ∧ c.element.name ≠ c'.element.name) ∨
      rule = .operandType ∧ r.operandType? = none ∧ c.element.name ≠ c'.element.name := by
  constructor
  · rintro (⟨e', he', -⟩ | ⟨-, hrule', hne⟩ | ⟨-, hrule', hshape, hoperand, hne⟩ |
      ⟨-, hrule', hoperand, hne⟩)
    · simp [he] at he'
    all_goals
      rw [hrule] at hrule'
      cases hrule'
    · exact .inl ⟨rfl, .inl hne⟩
    · exact .inl ⟨rfl, .inr ⟨hshape, hoperand, hne⟩⟩
    · exact .inr ⟨rfl, hoperand, hne⟩
  · rintro (⟨rfl, hne | ⟨hshape, hoperand, hne⟩⟩ | ⟨rfl, hoperand, hne⟩)
    · exact .shape he hrule hne
    · exact .pointee he hrule hshape hoperand hne
    · exact .operand he hrule hoperand hne

/-- Two choices under one guard spell a slot alike unless its operand tells them apart. -/
theorem Slot.render_eq_iff {slot : Slot}
    (hsource : Source.ofOperand? m i slot.operand = some slot.source)
    (hrange : ∀ e, slot.source = .entry e → e.overloads.Nodup ∧
      (∃ type, e.select c.variant = .ok type) ∧ ∃ type, e.select c'.variant = .ok type)
    (hoperand : r.operandType? = r'.operandType?) (hguard : c.guard? = c'.guard?)
    (hc : c.guarded = widened c.guard? c.element)
    (hc' : c'.guarded = widened c'.guard? c'.element) :
    (slot.spell m.defaultType (c.setting r)).render =
        (slot.spell m.defaultType (c'.setting r')).render ↔
      ¬ TellsApart m i slot.operand r c r' c' := by
  have hoperands := Choice.operandType_eq_iff hoperand hguard hc hc'
  cases he : m.entryOfOperand? i slot.operand with
  | some e =>
    have hentry : slot.source = .entry e := by
      simpa [Source.ofOperand?, he] using hsource.symm
    obtain ⟨hnodup, hv, hv'⟩ := hrange e hentry
    simp only [Slot.spell, hentry, Parameter.render_eq_iff_type, tellsApart_entry_iff he,
      Choice.setting, TypeEntry.typeAt_eq_iff hnodup hv hv']
    rw [not_and_or, not_not, not_not]
  | none =>
    cases hrule : Rule.ofOperand slot.operand with
    | error reason => simp [Source.ofOperand?, he, hrule] at hsource
    | ok rule =>
      have hentry : slot.source = .rule rule := by
        simpa [Source.ofOperand?, he, hrule] using hsource.symm
      rw [tellsApart_rule_iff he hrule]
      cases rule with
      | pointer =>
        rw [Slot.render_pointer_eq_iff hentry, hoperands]
        simp only [Choice.setting]
        tauto
      | operandType =>
        simp only [Slot.spell, hentry, Rule.spell, Parameter.plain,
          Parameter.render_eq_iff_type, hoperands]
        tauto
      | _ => simp [Slot.spell, hentry, Rule.spell]

end TellsApart

end Expansion

end SpirvBindings
