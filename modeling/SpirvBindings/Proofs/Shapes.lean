import Mathlib.Data.List.Forall2
import SpirvBindings.Header.Generation
import SpirvBindings.Proofs.Choices

/-! The shape of a request only decides how pointers are spelled. Two requests that agree on the
result type and the type class end alike, since they have the same choices and what stops a choice
does not look at the shape or at the operand type. The declarations of references and of pointers
with a type parameter of their own face each other, parameter by parameter. An instruction that is
left out for some shape is left out for the first one. -/

namespace SpirvBindings

namespace Expansion

/-! ### How expansions end -/

/-- Two expansions that end alike: with one error, one reason, or declarations on both sides. -/
inductive Alike :
    Except VariantOutOfRange Expansion → Except VariantOutOfRange Expansion → Prop
  | error (e : VariantOutOfRange) : Alike (.error e) (.error e)
  | filtered : Alike (.ok .filtered) (.ok .filtered)
  | skipped (reason : SkipReason) : Alike (.ok (.skipped reason)) (.ok (.skipped reason))
  | declarations (ds ds' : List Declaration) :
    Alike (.ok (.declarations ds)) (.ok (.declarations ds'))

/-- Nothing about the shape decides how a choice ends. -/
theorem Choice.result_endAlike (m : TypeMap) (i : Instruction) (r r' : Request) (c : Choice) :
    EndAlike (c.result m i r) (c.result m i r') := by
  unfold Choice.result
  cases stop? m i c.variant with
  | some stop => exact rfl
  | none => trivial

theorem variantOverloads_endAlike {m : TypeMap} {i : Instruction} {r r' : Request}
    (hresult : r.resultType? = r'.resultType?) (hclass : r.typeClass? = r'.typeClass?)
    (variant : Nat) :
    EndAlike (variantOverloads m i r (guards i) variant)
      (variantOverloads m i r' (guards i) variant) := by
  rw [variantOverloads_eq, variantOverloads_eq, elements_congr hresult hclass]
  cases elements m i r' variant with
  | error x => exact rfl
  | ok types => exact EndAlike.collect fun c _ => c.result_endAlike m i r r'

theorem expand_alike {m : TypeMap} {i : Instruction} {r r' : Request}
    (hresult : r.resultType? = r'.resultType?) (hclass : r.typeClass? = r'.typeClass?) :
    Alike (i.expand r m) (i.expand r' m) := by
  unfold Instruction.expand
  cases hg : alternatives? i with
  | none => exact .filtered
  | some gs =>
    have hguards : guards i = gs := by simp [guards, hg]
    have hcollect : EndAlike
        (collect (variantOverloads m i r gs) (List.range (m.variantCount i)))
        (collect (variantOverloads m i r' gs) (List.range (m.variantCount i))) := by
      rw [← hguards]
      exact EndAlike.collect fun variant _ => variantOverloads_endAlike hresult hclass variant
    simp only
    revert hcollect
    generalize collect (variantOverloads m i r gs) (List.range (m.variantCount i)) = x
    generalize collect (variantOverloads m i r' gs) (List.range (m.variantCount i)) = y
    intro hxy
    cases x with
    | ok ds =>
      cases y with
      | ok ds' => exact .declarations ds ds'
      | error stop => cases hxy
    | error stop =>
      cases y with
      | ok ds => cases hxy
      | error stop' =>
        obtain rfl : stop = stop' := hxy
        cases stop with
        | skipped reason => exact .skipped reason
        | outOfRange e => exact .error e

theorem Alike.skipped_left {x : Except VariantOutOfRange Expansion} {reason : SkipReason}
    (h : Alike x (.ok (.skipped reason))) : x = .ok (.skipped reason) := by
  cases h
  rfl

/-! ### References before pointers -/

/-- Whether the parameter of an operand is built by the rule for pointers. -/
def IsPointer (m : TypeMap) (i : Instruction) (o : Operand) : Prop :=
  m.entryOfOperand? i o = none ∧ Rule.ofOperand o = .ok .pointer

def IsPointerAt (m : TypeMap) (i : Instruction) (position : Nat) : Prop :=
  ∃ o, i.arguments[position]? = some o ∧ IsPointer m i o

/-- A declaration by reference and one with a type parameter for the pointer. They differ in the
parameters that are built by the rule for pointers and in the condition on the type parameter. -/
structure FacesTemplate (m : TypeMap) (i : Instruction) (operand : String)
    (d d' : Declaration) : Prop where
  name : d.name = d'.name
  capabilities : d.capabilities = d'.capabilities
  extensions : d.extensions = d'.extensions
  opname : d.opname = d'.opname
  result : d.result = d'.result
  conditions : d'.conditions = d.conditions ∨ d'.conditions = d.conditions ++ [pointerCondition]
  length : d.parameters.length = d'.parameters.length
  pointers : ∀ position, IsPointerAt m i position → ∀ p p', d.parameters[position]? = some p →
    d'.parameters[position]? = some p' →
      ∃ x, p = .marked referenceMark operand x ∧ p' = .plain pointerTemplate x
  others : ∀ position, ¬ IsPointerAt m i position →
    d.parameters[position]? = d'.parameters[position]?

/-- The arguments that are built by the rule for pointers are the slots with this rule. -/
theorem isPointerAt_iff {m : TypeMap} {i : Instruction} {variant : Nat} {l : Outline}
    (h : l.MadeFrom m i variant i.arguments) (position : Nat) :
    IsPointerAt m i position ↔
      ∃ slot, l.slots[position]? = some slot ∧ slot.source = .rule .pointer := by
  simp only [IsPointerAt, IsPointer, ← Source.ofOperand?_eq_rule_iff]
  rcases h.operand_getElem? position with ⟨slot, hslot, ho⟩ | ⟨hnone, haccess⟩
  · have hsource := (h.sources slot (List.mem_of_getElem? hslot)).1
    simp [hslot, ho, hsource]
  · simp only [hnone, reduceCtorEq, false_and, exists_false, iff_false]
    rintro ⟨o, ho, hpointer⟩
    rw [haccess o ho] at hpointer
    cases hpointer

theorem Slot.spell_pointer (defaultType operand : String) (variant : Nat) {slot : Slot}
    (h : slot.source = .rule .pointer) :
    slot.spell defaultType ⟨.reference, operand, variant⟩ =
        .marked referenceMark operand slot.name ∧
      slot.spell defaultType ⟨.pointerTemplate, operand, variant⟩ =
        .plain pointerTemplate slot.name := by
  simp only [Slot.spell, h]
  exact ⟨rfl, rfl⟩

/-- A slot that is not for a pointer is spelled in one way for all shapes. -/
theorem Slot.spell_of_ne_pointer {defaultType operand : String} {variant : Nat}
    (shape shape' : Shape) {slot : Slot} (h : slot.source ≠ .rule .pointer) :
    slot.spell defaultType ⟨shape, operand, variant⟩ =
      slot.spell defaultType ⟨shape', operand, variant⟩ := by
  unfold Slot.spell
  cases hs : slot.source with
  | entry e => rfl
  | rule r =>
    cases r with
    | pointer => exact absurd hs h
    | _ => rfl

/-- A list that is long enough for a slot reaches it: only the longest lists go on behind the
slots. -/
theorem Outline.reached_getElem? {l : Outline} (hordered : l.slots = l.required ++ l.optional)
    {shape : Shape} {e : Extent} (he : e ∈ extents shape l.access l.optional.length)
    {defaultType : String} {s : Setting} {position : Nat} {slot : Slot}
    (hslot : l.slots[position]? = some slot)
    (hlt : position < (l.listOf defaultType s e).length) :
    (l.reached e)[position]? = some slot := by
  have hreached : position < (l.reached e).length := by
    rcases count_of_mem_extents he with hnil | hcount
    · simpa [Outline.listOf, hnil] using hlt
    · have hall : l.reached e = l.slots := by
        rw [Outline.reached, hcount, List.take_length, ← hordered]
      rw [hall]
      exact (List.getElem?_eq_some_iff.mp hslot).1
  rw [Outline.reached_eq_take hordered] at hreached ⊢
  rw [List.getElem?_take_of_lt (by simp at hreached; omega)]
  exact hslot

/-- The lists of one extent face each other. -/
theorem Outline.listOf_faces {m : TypeMap} {i : Instruction} {variant : Nat} {l : Outline}
    (h : l.MadeFrom m i variant i.arguments) {shape : Shape} {e : Extent}
    (he : e ∈ extents shape l.access l.optional.length) (defaultType operand : String) :
    let ps := l.listOf defaultType ⟨.reference, operand, variant⟩ e
    let ps' := l.listOf defaultType ⟨.pointerTemplate, operand, variant⟩ e
    (∀ position, IsPointerAt m i position → ∀ p p', ps[position]? = some p →
      ps'[position]? = some p' →
        ∃ x, p = .marked referenceMark operand x ∧ p' = .plain pointerTemplate x) ∧
      ∀ position, ¬ IsPointerAt m i position → ps[position]? = ps'[position]? := by
  intro ps ps'
  constructor
  · intro position hpointer p p' hp hp'
    obtain ⟨slot, hslot, hsource⟩ := (isPointerAt_iff h position).mp hpointer
    have hreached := Outline.reached_getElem? h.ordered he hslot
      (List.getElem?_eq_some_iff.mp hp).1
    have hlt := (List.getElem?_eq_some_iff.mp hreached).1
    obtain ⟨href, htemplate⟩ := Slot.spell_pointer defaultType operand variant hsource
    simp only [ps, ps', Outline.listOf] at hp hp'
    rw [List.getElem?_append_left (by simpa using hlt), List.getElem?_map, hreached,
      Option.map_some, Option.some.injEq] at hp hp'
    exact ⟨slot.name, hp.symm.trans href, hp'.symm.trans htemplate⟩
  · intro position hother
    have hne : ∀ slot, (l.reached e)[position]? = some slot → slot.source ≠ .rule .pointer := by
      intro slot hslot hsource
      rw [Outline.reached_eq_take h.ordered, List.getElem?_take] at hslot
      split at hslot
      · exact hother ((isPointerAt_iff h position).mpr ⟨slot, hslot, hsource⟩)
      · cases hslot
    simp only [ps, ps', Outline.listOf, List.getElem?_append, List.length_map, List.getElem?_map]
    cases hslot : (l.reached e)[position]? with
    | none => rfl
    | some slot =>
      rw [Option.map_some, Option.map_some,
        Slot.spell_of_ne_pointer .reference .pointerTemplate (hne slot hslot)]

/-! ### Facing declarations -/

theorem forall₂_flatMap {α β γ : Type} {R : β → γ → Prop} {f : α → List β} {g : α → List γ}
    {as : List α} (h : ∀ a ∈ as, List.Forall₂ R (f a) (g a)) :
    List.Forall₂ R (as.flatMap f) (as.flatMap g) := by
  induction as with
  | nil => exact .nil
  | cons a as ih =>
    obtain ⟨ha, has⟩ := List.forall_mem_cons.mp h
    simp only [List.flatMap_cons]
    exact List.rel_append ha (ih has)

/-- Only pointers with a type parameter of their own ask for a condition. -/
theorem Choice.conditions_declaration (m : TypeMap) (i : Instruction) (r : Request) (c : Choice)
    (ps : List Parameter) :
    (c.declaration m i r ps).conditions = r.conditions ++
      if r.shape = .pointerTemplate ∧ (outline m i).slots.any (·.source.isPointer) then
        [pointerCondition]
      else [] := by
  simp [Choice.declaration, declare, Choice.parameterSet, Outline.parameterSet, Draft.conditions,
    Outline.draft, Choice.setting]

/-- The declarations of a choice by reference face those with a type parameter for the pointer. -/
theorem Choice.declarations_face {m : TypeMap} {i : Instruction} {c : Choice}
    (h : stop? m i c.variant = none) (r : Request) :
    List.Forall₂ (FacesTemplate m i (operandType r c.guarded.type).name)
      (c.declarations m i { r with shape := .reference })
      (c.declarations m i { r with shape := .pointerTemplate }) := by
  simp only [Choice.declarations, Choice.parameterSet, Outline.lists_parameterSet, List.map_map]
  -- Both shapes have the same extents, so the lists of one extent stand in one place.
  have hextents : ∀ access count,
      extents .pointerTemplate access count = extents .reference access count := fun _ _ => rfl
  simp only [Choice.setting, hextents]
  rw [List.forall₂_map_left_iff, List.forall₂_map_right_iff, List.forall₂_same]
  intro e he
  have hmade := outline_madeFrom h
  obtain ⟨hpointers, hothers⟩ := Outline.listOf_faces hmade he m.defaultType
    (operandType r c.guarded.type).name
  have hlength := Outline.length_listOf m.defaultType
  refine ⟨rfl, rfl, rfl, rfl, rfl, ?_, (hlength _ _ e).trans (hlength _ _ e).symm, hpointers,
    hothers⟩
  simp only [Function.comp_apply, Choice.conditions_declaration, reduceCtorEq, false_and,
    ↓reduceIte, List.append_nil, true_and]
  split
  · exact .inr rfl
  · exact .inl (List.append_nil _)

/-- The declarations by reference of an expansion face those with a type parameter for the
pointer. -/
theorem expand_faces {m : TypeMap} {i : Instruction} {r : Request} {ds ds' : List Declaration}
    (h : i.expand { r with shape := .reference } m = .ok (.declarations ds))
    (h' : i.expand { r with shape := .pointerTemplate } m = .ok (.declarations ds')) :
    List.Forall₂ (fun d d' => ∃ c ∈ choices m i r,
      FacesTemplate m i (operandType r c.guarded.type).name d d') ds ds' := by
  obtain ⟨-, -, hstop, rfl⟩ := expand_eq_declarations_iff.mp h
  obtain ⟨-, -, -, rfl⟩ := expand_eq_declarations_iff.mp h'
  have hchoices : ∀ shape, choices m i { r with shape := shape } = choices m i r :=
    fun shape => choices_congr rfl rfl
  rw [hchoices] at hstop ⊢
  rw [hchoices]
  apply forall₂_flatMap
  intro c hc
  exact (Choice.declarations_face (hstop c hc) r).imp fun _ _ hface => ⟨c, hc, hface⟩

/-! ### Shapes of a strategy -/

/-- What is left out for one of several requests that agree on the types is left out for the first
of them, and altogether. -/
theorem declareAll_skipped {m : TypeMap} {i : Instruction} {r : Request} {reason : SkipReason}
    (h : i.expand r m = .ok (.skipped reason)) {rs : List Request} (hmem : r ∈ rs)
    (hagree : ∀ q ∈ rs, q.resultType? = r.resultType? ∧ q.typeClass? = r.typeClass?)
    (ds : List Declaration) :
    (∀ first ∈ rs.head?, i.expand first m = .ok (.skipped reason)) ∧
      i.declareAll m ds rs = .ok (.skipped reason) := by
  cases rs with
  | nil => cases hmem
  | cons first rest =>
    obtain ⟨hresult, hclass⟩ := hagree first List.mem_cons_self
    have halike := expand_alike (m := m) (i := i) hresult hclass
    rw [h] at halike
    have hfirst := halike.skipped_left
    exact ⟨by simpa using hfirst, by simp [Instruction.declareAll, hfirst]⟩

/-- The shape of a request does not decide how its expansion ends. References face pointers with a
type parameter of their own, and an instruction that is left out for some shape of its strategy is
left out for the first one. -/
theorem expand_shape_independent (m : TypeMap) (i : Instruction) :
    (∀ r r' : Request, r.resultType? = r'.resultType? → r.typeClass? = r'.typeClass? →
      Alike (i.expand r m) (i.expand r' m)) ∧
    (∀ (r : Request) (ds ds' : List Declaration),
      i.expand { r with shape := .reference } m = .ok (.declarations ds) →
      i.expand { r with shape := .pointerTemplate } m = .ok (.declarations ds') →
      List.Forall₂ (fun d d' => ∃ c ∈ choices m i r,
        FacesTemplate m i (operandType r c.guarded.type).name d d') ds ds') ∧
    ∀ (p : Policy) (s : Strategy) (r : Request) (reason : SkipReason),
      p.strategy? i = some s → r ∈ s.requests → i.expand r m = .ok (.skipped reason) →
        (∀ first ∈ s.requests.head?, i.expand first m = .ok (.skipped reason)) ∧
          i.outcome p m = .ok (.skipped reason) := by
  refine ⟨fun r r' => expand_alike, fun r ds ds' => expand_faces, ?_⟩
  intro p s r reason hs hr h
  have hagree : ∀ q ∈ s.requests, q.resultType? = r.resultType? ∧ q.typeClass? = r.typeClass? := by
    obtain ⟨_, -, rfl⟩ := List.mem_map.mp hr
    intro q hq
    obtain ⟨_, -, rfl⟩ := List.mem_map.mp hq
    exact ⟨rfl, rfl⟩
  simp only [Instruction.outcome, hs]
  exact declareAll_skipped h hr hagree []

/-- A store through a pointer. -/
def store : Instruction where
  opname := "OpStore"
  className := "Memory"
  opcode := 62
  operands := [⟨"IdRef", some "Pointer", none⟩, ⟨"IdRef", some "Object", none⟩,
    ⟨"MemoryAccess", none, some .optional⟩]
  capabilities := []
  extensions := []
  version? := none

/-- A copy between pointers, with operands that have no rule. -/
def copyMemory : Instruction where
  opname := "OpCopyMemory"
  className := "Memory"
  opcode := 63
  operands := [⟨"IdRef", some "Target", none⟩, ⟨"IdRef", some "Source", none⟩]
  capabilities := []
  extensions := []
  version? := none

/-- Copies in two shapes. -/
def copyPolicy : Policy where
  excludedSuffixes := []
  sections := []
  classes := []
  instructions := [("OpCopyMemory", ⟨some [.reference, .physical], none, none, []⟩)]

theorem store_shape_independent :
    Alike (store.expand ⟨.reference, none, none, none, []⟩ .standard)
        (store.expand ⟨.physical, none, some "uint32_t", none, ["is_pod_v<T>"]⟩ .standard) ∧
      (∃ ds ds', ds.length = 3 ∧
        List.Forall₂ (fun d d' => ∃ c ∈ choices .standard store ⟨.reference, none, none, none, []⟩,
          FacesTemplate .standard store (operandType ⟨.reference, none, none, none, []⟩
            c.guarded.type).name d d') ds ds') ∧
      copyMemory.outcome copyPolicy .standard =
        .ok (.skipped (.unsupportedOperand "IdRef" "Target")) := by
  obtain ⟨halike, hfaces, -⟩ := expand_shape_independent .standard store
  obtain ⟨-, -, hskipped⟩ := expand_shape_independent .standard copyMemory
  refine ⟨halike _ _ rfl rfl, ?_, ?_⟩
  · obtain ⟨ds, ds', hds, hds', hlength⟩ : ∃ ds ds',
        store.expand ⟨.reference, none, none, none, []⟩ .standard = .ok (.declarations ds) ∧
        store.expand ⟨.pointerTemplate, none, none, none, []⟩ .standard =
          .ok (.declarations ds') ∧ ds.length = 3 := ⟨_, _, rfl, rfl, rfl⟩
    exact ⟨ds, ds', hlength, hfaces ⟨.reference, none, none, none, []⟩ ds ds' hds hds'⟩
  · exact (hskipped copyPolicy _ ⟨.physical, none, none, none, []⟩ _ rfl
      (List.mem_cons_of_mem _ (List.mem_singleton_self _)) rfl).2

end Expansion

end SpirvBindings
