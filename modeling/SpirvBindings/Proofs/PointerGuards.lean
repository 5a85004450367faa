import SpirvBindings.Proofs.Outline.Entries
import SpirvBindings.Proofs.Shapes
import SpirvBindings.Proofs.Sufficiency

/-! When the condition on a pointer type is in scope. The condition is collected once for all lists
of an instruction, from any pointer among its operands, and the type parameter is collected for each
list anew. So a list that ends before the first pointer is guarded by a type that it does not
declare. This happens if and only if some operand is a pointer and no required one is. -/

namespace SpirvBindings

open Identifier

/-! ### Tokens of a vector -/

/-- A vector text has the tokens of its element between its own. -/
theorem Identifier.tokens_vector (element : String) :
    tokens ("vector<" ++ element ++ ", N>") = "vector" :: (tokens element ++ ["N"]) := by
  have htext : ("vector<" ++ element ++ ", N>").toList =
      "vector".toList ++ '<' :: (element.toList ++ ',' :: " N>".toList) := by
    simp
  have hvector : pieces "vector".toList = ["vector".toList] := by decide +kernel
  have hsize : pieces " N>".toList = [[], "N".toList, []] := by decide +kernel
  simp only [tokens]
  rw [htext, pieces_append_cons (by decide), pieces_append_cons (by decide), hvector, hsize]
  simp

/-- A declaration has the condition on the pointer type if and only if it declares that type. -/
def Declaration.PointerInScope (d : Declaration) : Prop :=
  Expansion.pointerCondition ∈ d.conditions ↔
    .typename Expansion.pointerTemplate ∈ d.templates

namespace Expansion

variable {m : TypeMap} {i : Instruction} {r : Request} {c : Choice}

/-! ### Texts without the pointer type -/

/-- Nothing that a request or a type map writes down mentions the pointer type. -/
structure PointerFree (m : TypeMap) (r : Request) : Prop where
  conditions : ∀ text ∈ r.conditions, pointerTemplate ∉ tokens text
  requested : ∀ text ∈ r.resultType?.toList ++ r.operandType?.toList, pointerTemplate ∉ tokens text
  mapped : ∀ text ∈ m.typeTexts, pointerTemplate ∉ tokens text

theorem name_ofText (text : String) : (ResolvedType.ofText text).name = text := by
  unfold ResolvedType.ofText
  split <;> rfl

theorem elements_of_unmapped (hrequest : r.resultType? = none) (hmapped : m.entryOfResult? i = none)
    (variant : Nat) : elements m i r variant = .ok (elementsOfClass (typeClass? i r)) := by
  simp only [elements, hrequest, TypeMap.resolveResult, hmapped]
  rfl

theorem elements_of_mapped (hrequest : r.resultType? = none) {e : TypeEntry}
    (hmapped : m.entryOfResult? i = some e) (variant : Nat) :
    elements m i r variant = (fun type => [type]) <$> e.resolve variant := by
  simp only [elements, hrequest, TypeMap.resolveResult, hmapped]
  cases e.resolve variant <;> rfl

/-- The elements of a variant are the requested type, the mapped one, or those of a type class. -/
theorem mem_elements_cases {variant : Nat} {type : ResolvedType}
    (h : type ∈ yield (elements m i r variant)) :
    (∃ text, r.resultType? = some text ∧ type = .ofText text) ∨
      (∃ e, m.entryOfResult? i = some e ∧ e.select variant = .ok type.name) ∨
        type ∈ elementsOfClass (typeClass? i r) := by
  cases hresult : r.resultType? with
  | some text =>
    simp only [elements, hresult, yield, List.mem_singleton] at h
    exact .inl ⟨text, rfl, h⟩
  | none =>
    cases he : m.entryOfResult? i with
    | none =>
      rw [elements_of_unmapped hresult he, yield] at h
      exact .inr (.inr h)
    | some e =>
      rw [elements_of_mapped hresult he] at h
      refine .inr (.inl ⟨e, rfl, ?_⟩)
      cases hselect : e.select variant with
      | error x =>
        rw [TypeEntry.resolve_of_select_error hselect] at h
        cases h
      | ok name =>
        rw [TypeEntry.resolve_of_select hselect] at h
        rw [List.mem_singleton.mp h]

theorem pointerTemplate_not_mem_tokens_class {class? : Option TypeClass} {type : ResolvedType}
    (h : type ∈ elementsOfClass class?) : pointerTemplate ∉ tokens type.name := by
  have hall : ∀ class?, ∀ type ∈ elementsOfClass class?, pointerTemplate ∉ tokens type.name := by
    rintro (_ | _ | _ | _ | _) <;> decide +kernel
  exact hall class? type h

theorem PointerFree.element (h : PointerFree m r) (hc : c ∈ choices m i r) :
    pointerTemplate ∉ tokens c.element.name := by
  obtain ⟨-, hmem, -, -⟩ := mem_choices_iff.mp hc
  rcases mem_elements_cases hmem with ⟨text, hresult, htype⟩ | ⟨e, he, hselect⟩ | hclass
  · have hrequested := h.requested text (List.mem_append_left _ (Option.mem_toList.mpr hresult))
    rwa [htype, name_ofText]
  · exact h.mapped _ (TypeMap.mem_typeTexts_of_result he hselect)
  · exact pointerTemplate_not_mem_tokens_class hclass

theorem PointerFree.guarded (h : PointerFree m r) (hc : c ∈ choices m i r) :
    pointerTemplate ∉ tokens c.guarded.type.name := by
  have helement := h.element hc
  rw [guarded_eq_widened hc, widened]
  split
  · have hvector : pointerTemplate ≠ "vector" := by decide
    have hsize : pointerTemplate ≠ "N" := by decide
    rw [tokens_vector]
    simp only [List.mem_cons, List.mem_append, List.not_mem_nil, or_false, not_or]
    exact ⟨hvector, helement, hsize⟩
  · exact helement

theorem PointerFree.operand (h : PointerFree m r) (hc : c ∈ choices m i r) :
    pointerTemplate ∉ tokens (c.setting r).operandType := by
  unfold Choice.setting operandType
  cases hoperand : r.operandType? with
  | none => exact h.guarded hc
  | some text =>
    have hrequested := h.requested text (List.mem_append_right _ (Option.mem_toList.mpr hoperand))
    simpa only [Option.map_some, Option.getD_some, name_ofText] using hrequested

theorem PointerFree.result (h : PointerFree m r) (hc : c ∈ choices m i r) :
    pointerTemplate ∉ tokens (resultType i c.guarded.type).name := by
  unfold resultType
  split
  · exact h.guarded hc
  · decide +kernel

/-! ### Pointers among the operands -/

theorem Outline.MadeFrom.isPointer_iff {variant : Nat} {l : Outline}
    (h : l.MadeFrom m i variant i.arguments) {slot : Slot} (hslot : slot ∈ l.slots) :
    IsPointer m i slot.operand ↔ slot.source = .rule .pointer := by
  rw [IsPointer, ← Source.ofOperand?_eq_rule_iff, (h.sources slot hslot).1, Option.some.injEq]

theorem Source.isPointer_iff {source : Source} : source.isPointer ↔ source = .rule .pointer := by
  unfold Source.isPointer
  split <;> simp_all

theorem Rule.type_spell_pointer (defaultType name : String) {s : Setting}
    (h : s.shape = .pointerTemplate) :
    (Rule.pointer.spell defaultType s name).type = pointerTemplate := by
  obtain ⟨shape, operand, variant⟩ := s
  subst h
  rfl

/-- The pointer type occurs in the parameter of a slot if and only if that is for a pointer. -/
theorem Slot.pointerTemplate_mem_tokens_iff (hfree : PointerFree m r) (hc : c ∈ choices m i r)
    (hshape : r.shape = .pointerTemplate)
    (hmade : (outline m i).MadeFrom m i c.variant i.arguments) {slot : Slot}
    (hslot : slot ∈ (outline m i).slots) :
    pointerTemplate ∈ tokens (slot.spell m.defaultType (c.setting r)).type ↔
      slot.source = .rule .pointer := by
  unfold Slot.spell
  have hbool : pointerTemplate ∉ tokens "bool" := by decide +kernel
  cases hsource : slot.source with
  | entry e =>
    obtain ⟨type, htype⟩ := hmade.inRange slot hslot e hsource
    have he := Source.ofOperand?_eq_entry_iff.mp (hsource ▸ (hmade.sources slot hslot).1)
    have hmapped := hfree.mapped type (TypeMap.mem_typeTexts_of_operand he htype)
    rw [← TypeEntry.typeAt_of_select htype] at hmapped
    exact iff_of_false hmapped (by simp)
  | rule rule =>
    have hdefault := hfree.mapped _ m.defaultType_mem_typeTexts
    have hoperand := hfree.operand hc
    cases rule with
    | pointer =>
      rw [Rule.type_spell_pointer _ _ hshape]
      exact iff_of_true (by decide +kernel) rfl
    | operandType => exact iff_of_false hoperand (by simp)
    | bool => exact iff_of_false hbool (by simp)
    | _ => exact iff_of_false hdefault (by simp)

/-! ### Conditions and type parameters -/

/-- All declarations of a choice with a pointer among the operands have the condition, whatever
their lists reach. -/
theorem Choice.pointerCondition_mem_iff (hfree : PointerFree m r)
    (hshape : r.shape = .pointerTemplate)
    (hmade : (outline m i).MadeFrom m i c.variant i.arguments) (ps : List Parameter) :
    pointerCondition ∈ (c.declaration m i r ps).conditions ↔ ∃ o ∈ i.arguments, IsPointer m i o := by
  have hrequested : pointerCondition ∉ r.conditions := by
    intro hmem
    exact hfree.conditions _ hmem (by decide +kernel)
  have hslots : (outline m i).slots.any (·.source.isPointer) ↔
      ∃ o ∈ i.arguments, IsPointer m i o := by
    rw [List.any_eq_true]
    constructor
    · rintro ⟨slot, hslot, hpointer⟩
      have hsource := Source.isPointer_iff.mp hpointer
      obtain ⟨ho, hof, -⟩ := hmade.exists_slot_iff.mp ⟨slot, hslot, rfl, hsource⟩
      exact ⟨slot.operand, ho, Source.ofOperand?_eq_rule_iff.mp hof⟩
    · rintro ⟨o, ho, hpointer⟩
      obtain ⟨slot, hslot, -, hsource⟩ := hmade.exists_slot_iff.mpr
        ⟨ho, Source.ofOperand?_eq_rule_iff.mpr hpointer, rfl⟩
      exact ⟨slot, hslot, Source.isPointer_iff.mpr hsource⟩
  rw [Choice.conditions_declaration, ← hslots]
  simp only [hshape, true_and, List.mem_append, hrequested, false_or]
  split
  next h => exact iff_of_true (List.mem_singleton_self _) h
  next h => exact iff_of_false List.not_mem_nil h

theorem Choice.mem_typeTokens_iff {ps : List Parameter} {token : String} :
    token ∈ (c.declaration m i r ps).typeTokens ↔
      token ∈ tokens (resultType i c.guarded.type).name ∨
        ∃ p ∈ ps, token ∈ p.typeTexts.flatMap tokens := by
  have htexts : (c.declaration m i r ps).typeTokens =
      tokens (resultType i c.guarded.type).name ++ (ps.flatMap Parameter.typeTexts).flatMap tokens :=
    rfl
  rw [htexts, List.mem_append, List.flatMap_assoc, List.mem_flatMap]

/-- The pointer type is a type parameter of a declaration if and only if its list reaches a
pointer. -/
theorem Choice.pointerTemplate_mem_iff (hfree : PointerFree m r) (hc : c ∈ choices m i r)
    (hshape : r.shape = .pointerTemplate)
    (hmade : (outline m i).MadeFrom m i c.variant i.arguments) {e : Extent}
    (he : e ∈ extents r.shape (outline m i).access (outline m i).optional.length) :
    .typename pointerTemplate ∈
        (c.declaration m i r ((outline m i).listOf m.defaultType (c.setting r) e)).templates ↔
      ∃ slot ∈ (outline m i).reached e, slot.source = .rule .pointer := by
  have hreached : ∀ slot ∈ (outline m i).reached e, slot ∈ (outline m i).slots := by
    rw [Outline.reached_eq_take hmade.ordered]
    exact fun slot hslot => List.mem_of_mem_take hslot
  have hliterals : ∀ p ∈ e.literals, pointerTemplate ∉ p.typeTexts.flatMap tokens := by
    have hall : ∀ literals ∈ accessLists r.shape [], ∀ p ∈ literals,
        pointerTemplate ∉ p.typeTexts.flatMap tokens := by
      rw [hshape]
      decide +kernel
    rcases literals_of_mem_extents he with hnil | hmem
    · simp [hnil]
    · exact hall _ hmem
  have htokens : pointerTemplate ∈ (c.declaration m i r
      ((outline m i).listOf m.defaultType (c.setting r) e)).typeTokens ↔
        ∃ slot ∈ (outline m i).reached e, slot.source = .rule .pointer := by
    have hslots : ∀ slot ∈ (outline m i).reached e,
        pointerTemplate ∈ (slot.spell m.defaultType (c.setting r)).typeTexts.flatMap tokens ↔
          slot.source = .rule .pointer := by
      intro slot hslot
      have htexts : (slot.spell m.defaultType (c.setting r)).typeTexts =
          [(slot.spell m.defaultType (c.setting r)).type] := by
        rw [Parameter.typeTexts, Slot.default?_spell, Option.toList_none]
      rw [htexts, List.flatMap_singleton]
      exact Slot.pointerTemplate_mem_tokens_iff hfree hc hshape hmade (hreached slot hslot)
    rw [Choice.mem_typeTokens_iff]
    simp only [hfree.result hc, false_or, Outline.listOf, List.mem_append, or_and_right, exists_or,
      List.mem_map, exists_exists_and_eq_and]
    constructor
    · rintro (⟨slot, hslot, htoken⟩ | ⟨p, hp, htoken⟩)
      · exact ⟨slot, hslot, (hslots slot hslot).mp htoken⟩
      · exact absurd htoken (hliterals p hp)
    · rintro ⟨slot, hslot, hsource⟩
      exact .inl ⟨slot, hslot, (hslots slot hslot).mpr hsource⟩
  have hexact := declaration_templatesExact hc ((outline m i).listOf m.defaultType (c.setting r) e)
  rw [← htokens]
  constructor
  · exact fun hmem => hexact.occurs _ hmem
  · intro hmem
    exact ((hexact.letters _ hmem (by decide) _).mpr rfl).1

/-- A list reaches a pointer if and only if one of its positions is that of a pointer. -/
theorem Outline.exists_reached_pointer_iff {variant : Nat} {l : Outline}
    (h : l.MadeFrom m i variant i.arguments) {shape : Shape} {e : Extent}
    (he : e ∈ extents shape l.access l.optional.length) (defaultType : String) (s : Setting) :
    (∃ slot ∈ l.reached e, slot.source = .rule .pointer) ↔
      ∃ position < (l.listOf defaultType s e).length, IsPointerAt m i position := by
  constructor
  · rintro ⟨slot, hslot, hsource⟩
    obtain ⟨position, hposition⟩ := List.getElem?_of_mem hslot
    have hlt := (List.getElem?_eq_some_iff.mp hposition).1
    refine ⟨position, ?_, (isPointerAt_iff h position).mpr ⟨slot, ?_, hsource⟩⟩
    · rw [Outline.length_listOf]
      omega
    · rw [Outline.reached_eq_take h.ordered, List.getElem?_take] at hposition
      split at hposition
      · exact hposition
      · cases hposition
  · rintro ⟨position, hlt, hpointer⟩
    obtain ⟨slot, hslot, hsource⟩ := (isPointerAt_iff h position).mp hpointer
    have hreached := Outline.reached_getElem? h.ordered he hslot hlt
    exact ⟨slot, List.mem_of_getElem? hreached, hsource⟩

/-- All lists reach a pointer, if there is any, if and only if some required operand is one: the
shortest list has only these. -/
theorem Outline.forall_reached_pointer_iff {variant : Nat} {l : Outline}
    (h : l.MadeFrom m i variant i.arguments) (shape : Shape) :
    (∀ e ∈ extents shape l.access l.optional.length, (∃ o ∈ i.arguments, IsPointer m i o) →
        ∃ slot ∈ l.reached e, slot.source = .rule .pointer) ↔
      ((∃ o ∈ i.arguments, IsPointer m i o) →
        ∃ o ∈ i.arguments, ¬ o.isOptional ∧ IsPointer m i o) := by
  have hrequired : (∃ o ∈ i.arguments, ¬ o.isOptional ∧ IsPointer m i o) ↔
      ∃ slot ∈ l.required, slot.source = .rule .pointer := by
    rw [h.exists_required_iff]
    refine exists_congr fun slot => and_congr_right fun hslot => ?_
    exact h.isPointer_iff (List.mem_filter.mp hslot).1
  rw [hrequired]
  constructor
  · intro hall hsome
    obtain ⟨e, he, hcount⟩ := exists_mem_extents shape l.access (Nat.zero_le l.optional.length)
    have hreached : l.reached e = l.required := by
      rw [Outline.reached, hcount, List.take_zero, List.append_nil]
    rw [← hreached]
    exact hall e he hsome
  · intro hrequired e _ hsome
    obtain ⟨slot, hslot, hsource⟩ := hrequired hsome
    exact ⟨slot, List.mem_append_left _ hslot, hsource⟩

/-! ### Expansions -/

/-- In an expansion with a type parameter for pointers, each declaration has the condition on this
type if some operand is a pointer, and declares the type if its own list reaches one. So the two go
together in all declarations if and only if an instruction with a pointer has a required one. -/
theorem expand_pointerInScope_iff {ds : List Declaration}
    (h : i.expand r m = .ok (.declarations ds)) (hshape : r.shape = .pointerTemplate)
    (hfree : PointerFree m r) :
    (∀ d ∈ ds,
      (pointerCondition ∈ d.conditions ↔ ∃ o ∈ i.arguments, IsPointer m i o) ∧
        (.typename pointerTemplate ∈ d.templates ↔
          ∃ position < d.parameters.length, IsPointerAt m i position)) ∧
      ((∀ d ∈ ds, d.PointerInScope) ↔
        ds = [] ∨ ((∃ o ∈ i.arguments, IsPointer m i o) →
          ∃ o ∈ i.arguments, ¬ o.isOptional ∧ IsPointer m i o)) := by
  obtain ⟨-, -, hstop, rfl⟩ := expand_eq_declarations_iff.mp h
  have hmade : ∀ c ∈ choices m i r, (outline m i).MadeFrom m i c.variant i.arguments :=
    fun c hc => outline_madeFrom (hstop c hc)
  constructor
  · simp only [List.forall_mem_flatMap]
    intro c hc
    rw [Choice.forall_declarations_iff]
    intro e he
    refine ⟨Choice.pointerCondition_mem_iff hfree hshape (hmade c hc) _, ?_⟩
    rw [Choice.pointerTemplate_mem_iff hfree hc hshape (hmade c hc) he]
    exact Outline.exists_reached_pointer_iff (hmade c hc) he _ _
  · have hchoice : ∀ c ∈ choices m i r, ((∀ d ∈ c.declarations m i r, d.PointerInScope) ↔
        ((∃ o ∈ i.arguments, IsPointer m i o) →
          ∃ o ∈ i.arguments, ¬ o.isOptional ∧ IsPointer m i o)) := by
      intro c hc
      rw [Choice.forall_declarations_iff, ← Outline.forall_reached_pointer_iff (hmade c hc) r.shape]
      refine forall₂_congr fun e he => ?_
      rw [Declaration.PointerInScope, Choice.pointerCondition_mem_iff hfree hshape (hmade c hc),
        Choice.pointerTemplate_mem_iff hfree hc hshape (hmade c hc) he]
      refine ⟨fun h => h.mp, fun h => ⟨h, ?_⟩⟩
      rintro ⟨slot, hslot, hsource⟩
      rw [Outline.reached_eq_take (hmade c hc).ordered] at hslot
      obtain ⟨ho, hof, -⟩ := (hmade c hc).exists_slot_iff.mp
        ⟨slot, List.mem_of_mem_take hslot, rfl, hsource⟩
      exact ⟨slot.operand, ho, Source.ofOperand?_eq_rule_iff.mp hof⟩
    exact forall_flatMap_declarations_iff hchoice

/-- A store whose pointer may be left out. -/
def looseStore : Instruction where
  opname := "OpStore"
  className := "Memory"
  opcode := 62
  operands := [⟨"IdRef", some "Object", none⟩, ⟨"IdRef", some "Pointer", some .optional⟩]
  capabilities := []
  extensions := []
  version? := none

theorem pointerFree_standard : PointerFree .standard ⟨.pointerTemplate, none, none, none, []⟩ :=
  ⟨by simp, by simp, by decide +kernel⟩

/-- Without its pointer, the store is guarded by a type that it does not declare. -/
theorem looseStore_out_of_scope :
    PointerFree .standard ⟨.pointerTemplate, none, none, none, []⟩ ∧
      ∃ d d', looseStore.expand ⟨.pointerTemplate, none, none, none, []⟩ .standard =
          .ok (.declarations [d, d']) ∧
        d.conditions = ["is_spirv_type_v<P>"] ∧ d.templates = [.typename "T"] ∧
          ¬ d.PointerInScope :=
  ⟨pointerFree_standard, _, _, rfl, rfl, by decide +kernel, by
    unfold Declaration.PointerInScope
    decide +kernel⟩

/-- With a required pointer the guard is always in scope. -/
theorem store_pointerInScope :
    ∃ ds, store.expand ⟨.pointerTemplate, none, none, none, []⟩ .standard =
        .ok (.declarations ds) ∧ ds.length = 3 ∧
      PointerFree .standard ⟨.pointerTemplate, none, none, none, []⟩ ∧
        ∀ d ∈ ds, pointerCondition ∈ d.conditions ∧ .typename pointerTemplate ∈ d.templates := by
  obtain ⟨ds, hds, hlength⟩ :
      ∃ ds, store.expand ⟨.pointerTemplate, none, none, none, []⟩ .standard =
        .ok (.declarations ds) ∧ ds.length = 3 := ⟨_, rfl, rfl⟩
  refine ⟨ds, hds, hlength, pointerFree_standard, fun d hd => ?_⟩
  obtain ⟨hsides, hscope⟩ := expand_pointerInScope_iff hds rfl pointerFree_standard
  have hpointer : IsPointer .standard store ⟨"IdRef", some "Pointer", none⟩ := ⟨rfl, rfl⟩
  have hmem : (⟨"IdRef", some "Pointer", none⟩ : Operand) ∈ store.arguments := by decide
  have hall := hscope.mpr (.inr fun _ => ⟨_, hmem, by decide, hpointer⟩)
  have hcondition := (hsides d hd).1.mpr ⟨_, hmem, hpointer⟩
  exact ⟨hcondition, (hall d hd).mp hcondition⟩

end Expansion

end SpirvBindings
