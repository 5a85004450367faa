import SpirvBindings.Proofs.Admission
import SpirvBindings.Proofs.PointerGuards
import SpirvBindings.Proofs.Templates

/-! The variants of an expansion with a mapped result. The declarations come in one group for each
variant, in order. A group has the guards that admit the type of the result at its variant, in
order, and under each of them one declaration for each parameter list. All results and all mapped
operands of a group have the types that their own entries select at its variant. -/

namespace SpirvBindings

/-! ### Types at a variant -/

/-- The type of an entry at a variant: its one type, or the overload of that number. -/
inductive TypeEntry.Selects (e : TypeEntry) (variant : Nat) : String → Prop
  | single (h : e.overloads = []) : Selects e variant e.type
  | overload {type : String} (h : e.overloads[variant]? = some type) : Selects e variant type

theorem TypeEntry.select_eq_ok_iff {e : TypeEntry} {variant : Nat} {type : String} :
    e.select variant = .ok type ↔ e.Selects variant type := by
  unfold TypeEntry.select
  constructor
  · intro h
    split at h
    next hempty =>
      cases h
      exact .single (List.isEmpty_iff.mp hempty)
    next =>
      split at h
      next htype =>
        cases h
        exact .overload htype
      next => cases h
  · rintro (hempty | htype)
    · simp [hempty]
    · have hne : e.overloads ≠ [] := by
        rintro hempty
        simp [hempty] at htype
      simp [hne, htype]

/-- A type of an entry, with what the entry says about it. -/
def TypeEntry.resolved (e : TypeEntry) (type : String) : ResolvedType :=
  ⟨type, e.isGeneric type, e.isConst, e.attributes⟩

/-- A parameter has the type that an entry selects at a variant, and its qualifier and
attributes. -/
structure Parameter.Follows (e : TypeEntry) (variant : Nat) (p : Parameter) : Prop where
  type : e.Selects variant p.type
  isConst : p.isConst = e.isConst
  attributes : p.attributes = e.attributes

namespace Expansion

variable {m : TypeMap} {i : Instruction} {r : Request} {c : Choice}

/-! ### Mapped operands -/

theorem Slot.follows {slot : Slot} {e : TypeEntry} {type : String} (hsource : slot.source = .entry e)
    {s : Setting} (htype : e.select s.variant = .ok type) (defaultType : String) :
    (slot.spell defaultType s).Follows e s.variant := by
  simp only [Slot.spell, hsource]
  rw [TypeEntry.typeAt_of_select htype]
  exact ⟨TypeEntry.select_eq_ok_iff.mp htype, rfl, rfl⟩

/-- In each list the parameter at the position of a mapped operand follows the entry of that
operand. -/
theorem Outline.follows_of_mapped {s : Setting} {l : Outline}
    (h : l.MadeFrom m i s.variant i.arguments) {extent : Extent}
    (hextent : extent ∈ extents s.shape l.access l.optional.length) {position : Nat} {o : Operand}
    {e : TypeEntry} {p : Parameter} (ho : i.arguments[position]? = some o)
    (he : m.entryOfOperand? i o = some e)
    (hp : (l.listOf m.defaultType s extent)[position]? = some p) : p.Follows e s.variant := by
  have hentry := Source.ofOperand?_eq_entry_iff.mpr he
  rcases h.operand_getElem? position with ⟨slot, hslot, hoperand⟩ | ⟨-, haccess⟩
  · rw [ho, Option.some.injEq] at hoperand
    have hmem := List.mem_of_getElem? hslot
    have hsource : slot.source = .entry e := by
      have hslotSource := (h.sources slot hmem).1
      rw [← hoperand, hentry, Option.some.injEq] at hslotSource
      exact hslotSource.symm
    obtain ⟨type, htype⟩ := h.inRange slot hmem e hsource
    have hlt := (List.getElem?_eq_some_iff.mp hp).1
    have hreached := Outline.reached_getElem? h.ordered hextent hslot hlt
    have hposition := (List.getElem?_eq_some_iff.mp hreached).1
    rw [Outline.listOf, List.getElem?_append_left (by simpa using hposition), List.getElem?_map,
      hreached, Option.map_some, Option.some.injEq] at hp
    rw [← hp]
    exact Slot.follows hsource htype m.defaultType
  · rw [haccess o ho] at hentry
    cases hentry

/-! ### Groups -/

/-- The declarations of an element type under one guard at a variant. -/
structure GuardGroup (m : TypeMap) (i : Instruction) (r : Request) (variant : Nat)
    (element : ResolvedType) (guard? : Option String) (ds : List Declaration) : Prop where
  lists : ∃ set, parameters m i
      ⟨r.shape, r.operandType?.getD (elementSpelling guard? element.name), variant⟩ = .ok set ∧
    ds.map (·.parameters) = set.lists
  guard : ∀ d ∈ ds, d.guard? i = guard?
  result : ∀ d ∈ ds, d.result = elementSpelling guard? element.name
  mapped : ∀ d ∈ ds, ∀ (position : Nat) (o : Operand) (e : TypeEntry) (p : Parameter),
    i.arguments[position]? = some o → m.entryOfOperand? i o = some e →
      d.parameters[position]? = some p → p.Follows e variant

/-- The declarations of a variant, if the result has an entry. There is one part for each guard that
admits the type of the result, in the order of the guards. -/
def VariantGroup (m : TypeMap) (i : Instruction) (r : Request) (e : TypeEntry) (variant : Nat)
    (ds : List Declaration) : Prop :=
  ∃ type, e.Selects variant type ∧ ∃ parts : List (List Declaration), ds = parts.flatten ∧
    List.Forall₂ (GuardGroup m i r variant (e.resolved type))
      (admittingGuards i (e.resolved type)) parts

theorem name_operandType (r : Request) (element : ResolvedType) :
    (operandType r element).name = r.operandType?.getD element.name := by
  unfold operandType
  cases r.operandType? with
  | none => rfl
  | some text => exact name_ofText text

/-- A choice that nothing stops has one declaration for each of its parameter lists. -/
theorem Choice.guardGroup (hresult : i.hasResultType) (hc : c ∈ choices m i r)
    (hstop : stop? m i c.variant = none) :
    GuardGroup m i r c.variant c.element c.guard? (c.declarations m i r) := by
  have hguarded : c.guarded.type.name = elementSpelling c.guard? c.element.name := by
    rw [guarded_eq_widened hc, name_widened]
  have hsetting : c.setting r =
      ⟨r.shape, r.operandType?.getD (elementSpelling c.guard? c.element.name), c.variant⟩ := by
    rw [Choice.setting, name_operandType, hguarded]
  have hmade := outline_madeFrom hstop
  refine ⟨⟨c.parameterSet m i r, ?_, ?_⟩, fun d hd => guard?_of_mem_declarations hc hd, ?_, ?_⟩
  · rw [← hsetting]
    exact parameters_eq_ok_iff.mpr ⟨hstop, rfl⟩
  · rw [Choice.declarations, List.map_map]
    exact List.map_id _
  · intro d hd
    obtain ⟨ps, -, rfl⟩ := List.mem_map.mp hd
    simp only [Choice.declaration, declare, resultType, hresult, ↓reduceIte]
    exact hguarded
  · intro d hd position o e p ho he hp
    obtain ⟨ps, hps, rfl⟩ := List.mem_map.mp hd
    rw [Choice.parameterSet, Outline.lists_parameterSet] at hps
    obtain ⟨extent, hextent, rfl⟩ := List.mem_map.mp hps
    exact Outline.follows_of_mapped (s := c.setting r) hmade hextent ho he hp

/-- A variant with a mapped result has one choice for each guard that admits its type. -/
theorem choicesAt_of_mapped {e : TypeEntry} {type : String} {variant : Nat}
    (hrequest : r.resultType? = none) (hmapped : m.entryOfResult? i = some e)
    (htype : e.select variant = .ok type) :
    choicesAt m i r variant =
      (admittingGuards i (e.resolved type)).map (guardChoice variant (e.resolved type)) := by
  have helements : elements m i r variant = .ok [e.resolved type] := by
    rw [elements_of_mapped hrequest hmapped, TypeEntry.resolve_of_select htype]
    rfl
  rw [choicesAt, helements, yield, List.flatMap_singleton, choicesOf_eq]

theorem variantGroup_of_choices {e : TypeEntry} {variant : Nat} (hresult : i.hasResultType)
    (hrequest : r.resultType? = none) (hmapped : m.entryOfResult? i = some e)
    (hvariant : variant < m.variantCount i)
    (helements : ∃ types, elements m i r variant = .ok types)
    (hstop : ∀ c ∈ choices m i r, stop? m i c.variant = none) :
    VariantGroup m i r e variant
      ((choicesAt m i r variant).flatMap (Choice.declarations m i r)) := by
  obtain ⟨types, htypes⟩ := helements
  obtain ⟨type, htype⟩ : ∃ type, e.select variant = .ok type := by
    cases hselect : e.select variant with
    | ok type => exact ⟨type, rfl⟩
    | error x =>
      rw [elements_of_mapped hrequest hmapped, TypeEntry.resolve_of_select_error hselect] at htypes
      cases htypes
  have hchoices := choicesAt_of_mapped hrequest hmapped htype
  refine ⟨type, TypeEntry.select_eq_ok_iff.mp htype,
    (choicesAt m i r variant).map (Choice.declarations m i r), List.flatMap_def .., ?_⟩
  rw [hchoices, List.map_map, List.forall₂_map_right_iff, List.forall₂_same]
  intro guard? hguard
  have hmem : guardChoice variant (e.resolved type) guard? ∈ choices m i r := by
    refine List.mem_flatMap.mpr ⟨variant, List.mem_range.mpr hvariant, ?_⟩
    rw [hchoices]
    exact List.mem_map_of_mem hguard
  exact Choice.guardGroup hresult hmem (hstop _ hmem)

/-- The declarations of an instruction with a mapped result come in one group for each variant. -/
theorem expand_variantGroups {e : TypeEntry} {ds : List Declaration} (hresult : i.hasResultType)
    (hrequest : r.resultType? = none) (hmapped : m.entryOfResult? i = some e)
    (h : i.expand r m = .ok (.declarations ds)) :
    ∃ groups : List (List Declaration), groups.length = m.variantCount i ∧ ds = groups.flatten ∧
      ∀ variant group, groups[variant]? = some group → VariantGroup m i r e variant group := by
  obtain ⟨-, helements, hstop, rfl⟩ := expand_eq_declarations_iff.mp h
  refine ⟨(List.range (m.variantCount i)).map fun variant =>
    (choicesAt m i r variant).flatMap (Choice.declarations m i r), by simp, ?_, ?_⟩
  · rw [choices, List.flatMap_assoc, List.flatMap_def]
  · intro variant group hgroup
    rw [List.getElem?_map, Option.map_eq_some_iff] at hgroup
    obtain ⟨_, hvariant, rfl⟩ := hgroup
    obtain ⟨hlt, rfl⟩ := List.getElem?_eq_some_iff.mp hvariant
    rw [List.length_range] at hlt
    rw [List.getElem_range]
    exact variantGroup_of_choices hresult hrequest hmapped hlt (helements _ hlt) hstop

/-- The result of an atomic addition in two widths. -/
def floatAddResult : TypeEntry :=
  ⟨"IdResultType", none, "float32_t", none, false, [], ["float32_t", "float16_t"]⟩

/-- Types for an atomic addition of floats, or of pairs of narrow floats. -/
def floatAddTypes : TypeMap where
  defaultType := "uint32_t"
  classes := []
  instructions := [("OpAtomicFAddEXT", {
    result? := some floatAddResult
    parameters := [⟨"IdRef", some "Value", "float32_t", none, true, [],
      ["float32_t", "vector<float16_t, 2>"]⟩] })]

/-- Each variant of the atomic addition has one capability that admits it. -/
theorem floatAdd_variantGroups :
    ∃ ds, floatAdd.expand ⟨.reference, none, none, none, []⟩ floatAddTypes =
        .ok (.declarations ds) ∧
      ds.map (fun d => (d.name, d.result, d.parameters.getLast?.map (·.type))) =
        [("atomicAddEXT_AtomicFloat32AddEXT", "float32_t", some "float32_t"),
          ("atomicAddEXT_AtomicFloat16VectorNV", "vector<float16_t, N>",
            some "vector<float16_t, 2>")] ∧
      ∃ groups : List (List Declaration), groups.length = floatAddTypes.variantCount floatAdd ∧
        ds = groups.flatten ∧ ∀ variant group, groups[variant]? = some group →
          VariantGroup floatAddTypes floatAdd ⟨.reference, none, none, none, []⟩ floatAddResult
            variant group := by
  obtain ⟨ds, hds, hnames⟩ :
      ∃ ds, floatAdd.expand ⟨.reference, none, none, none, []⟩ floatAddTypes =
          .ok (.declarations ds) ∧
        ds.map (fun d => (d.name, d.result, d.parameters.getLast?.map (·.type))) =
          [("atomicAddEXT_AtomicFloat32AddEXT", "float32_t", some "float32_t"),
            ("atomicAddEXT_AtomicFloat16VectorNV", "vector<float16_t, N>",
              some "vector<float16_t, 2>")] := ⟨_, rfl, by decide +kernel⟩
  exact ⟨ds, hds, hnames, expand_variantGroups rfl rfl rfl hds⟩

end Expansion

end SpirvBindings
