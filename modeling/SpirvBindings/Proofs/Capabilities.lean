import SpirvBindings.Proofs.Templates

/-! The capabilities of a declaration, and the name that goes with them. Of the capabilities of the
instruction there is the guard alone, which comes first and ends the name if there are several to
choose from. The others are what the types and the pointers need, each once, unless the instruction
has it already. The base capability is never among them. -/

namespace SpirvBindings

/-- The capabilities of an instruction other than the base capability. -/
def Instruction.specificCapabilities (i : Instruction) : List String :=
  i.capabilities.filter (· != "Shader")

theorem Scalar.ne_shader_of_capability? {s : Scalar} {capability : String}
    (h : s.capability? = some capability) : capability ≠ "Shader" := by
  rintro rfl
  obtain ⟨kind, width⟩ := s
  revert h
  cases kind <;> cases width <;> decide

namespace Expansion

/-! ### What is needed -/

/-- What a declaration in a shape needs a capability for. Generic types need none. -/
inductive Needs (i : Instruction) (shape : Shape) (types : List ResolvedType) : String → Prop
  | width {type : ResolvedType} {s : Scalar} {capability : String} (htype : type ∈ types)
      (hconcrete : ¬ type.generic) (hs : Scalar.ofName? type.name = some s)
      (hcapability : s.capability? = some capability) : Needs i shape types capability
  | atomic {type : ResolvedType} {s : Scalar} (hclass : i.className = "Atomic")
      (htype : type ∈ types) (hconcrete : ¬ type.generic)
      (hs : Scalar.ofName? type.name = some s) (hinteger : s.isInteger)
      (hwidth : s.width = .bits64) : Needs i shape types "Int64Atomics"
  | physical (hshape : shape = .physical) : Needs i shape types "PhysicalStorageBufferAddresses"

theorem mem_typeCapabilities_iff {i : Instruction} {type : ResolvedType} {capability : String} :
    capability ∈ typeCapabilities i type ↔
      ¬ type.generic ∧ ∃ s, Scalar.ofName? type.name = some s ∧
        (s.capability? = some capability ∨
          i.className = "Atomic" ∧ s.isInteger ∧ s.width = .bits64 ∧
            capability = "Int64Atomics") := by
  unfold typeCapabilities atomicCapabilities
  cases type.generic with
  | true => simp
  | false =>
    cases Scalar.ofName? type.name with
    | none => simp
    | some s =>
      by_cases hatomic : i.className = "Atomic" ∧ s.isInteger ∧ s.width = .bits64
      · simp [hatomic]
      · simp only [hatomic, Bool.false_eq_true, ↓reduceIte, List.append_nil, Option.mem_toList,
          Option.some.injEq, exists_eq_left', not_false_eq_true, true_and]
        tauto

/-- The capabilities that a declaration asks for, in order. -/
def neededCapabilities (i : Instruction) (shape : Shape) (types : List ResolvedType) :
    List String :=
  types.flatMap (typeCapabilities i) ++
    (if shape = .physical then ["PhysicalStorageBufferAddresses"] else [])

theorem mem_neededCapabilities_iff {i : Instruction} {shape : Shape} {types : List ResolvedType}
    {capability : String} :
    capability ∈ neededCapabilities i shape types ↔ Needs i shape types capability := by
  rw [neededCapabilities, List.mem_append, List.mem_flatMap]
  constructor
  · rintro (⟨type, htype, hmem⟩ | hmem)
    · obtain ⟨hconcrete, s, hs, hwidth | ⟨hclass, hinteger, hwidth, rfl⟩⟩ :=
        mem_typeCapabilities_iff.mp hmem
      · exact .width htype hconcrete hs hwidth
      · exact .atomic hclass htype hconcrete hs hinteger hwidth
    · split at hmem
      next hshape =>
        rw [List.mem_singleton.mp hmem]
        exact .physical hshape
      next => cases hmem
  · rintro (⟨htype, hconcrete, hs, hwidth⟩ | ⟨hclass, htype, hconcrete, hs, hinteger, hwidth⟩ |
      hshape)
    · exact .inl ⟨_, htype, mem_typeCapabilities_iff.mpr ⟨hconcrete, _, hs, .inl hwidth⟩⟩
    · exact .inl ⟨_, htype, mem_typeCapabilities_iff.mpr
        ⟨hconcrete, _, hs, .inr ⟨hclass, hinteger, hwidth, rfl⟩⟩⟩
    · exact .inr (by simp [hshape])

theorem Needs.ne_shader {i : Instruction} {shape : Shape} {types : List ResolvedType}
    {capability : String} (h : Needs i shape types capability) : capability ≠ "Shader" := by
  cases h with
  | width _ _ _ hcapability => exact Scalar.ne_shader_of_capability? hcapability
  | atomic => decide
  | physical => decide

/-! ### What is added -/

theorem mem_addCapability_iff {i : Instruction} {capabilities : List String} {c x : String} :
    x ∈ addCapability i capabilities c ↔ x ∈ capabilities ∨ x = c ∧ c ∉ i.capabilities := by
  unfold addCapability
  split
  next h =>
    have hthere : c ∈ i.capabilities ∨ c ∈ capabilities := by simpa using h
    constructor
    · exact .inl
    · rintro (hx | ⟨rfl, hno⟩)
      · exact hx
      · exact hthere.resolve_left hno
  next h =>
    have hno : c ∉ i.capabilities := fun hc => h (by simp [hc])
    simp [hno]

theorem nodup_addCapability (i : Instruction) {capabilities : List String}
    (h : capabilities.Nodup) (c : String) : (addCapability i capabilities c).Nodup := by
  unfold addCapability
  split
  · exact h
  next hnew =>
    have hno : c ∉ capabilities := fun hc => hnew (by simp [hc])
    refine List.nodup_append.mpr ⟨h, List.nodup_singleton c, ?_⟩
    rintro x hx y hy rfl
    exact hno (List.mem_singleton.mp hy ▸ hx)

/-- Capabilities are added once and only if the instruction lacks them, by induction on those that
are needed. -/
theorem foldl_addCapability (i : Instruction) (needed : List String) {capabilities : List String}
    (h : capabilities.Nodup) :
    (needed.foldl (addCapability i) capabilities).Nodup ∧
      ∀ x, x ∈ needed.foldl (addCapability i) capabilities ↔
        x ∈ capabilities ∨ x ∈ needed ∧ x ∉ i.capabilities := by
  induction needed generalizing capabilities with
  | nil => simpa using h
  | cons c needed ih =>
    obtain ⟨hnodup, hmem⟩ := ih (nodup_addCapability i h c)
    refine ⟨hnodup, fun x => ?_⟩
    rw [List.foldl_cons, hmem, mem_addCapability_iff, List.mem_cons, or_assoc, or_and_right]
    refine or_congr_right (or_congr_left ?_)
    exact and_congr_right fun heq => by rw [heq]

/-! ### Guards -/

theorem specificCapabilities_of_mem_guards {i : Instruction} {guard? : Option String}
    (h : guard? ∈ guards i) :
    (guard? = none ∧ i.specificCapabilities = [] ∨
        ∃ guard ∈ i.specificCapabilities, guard? = some guard) ∧
      (1 < (guards i).length ↔ 2 ≤ i.specificCapabilities.length) := by
  rcases guards_cases i with hnil | ⟨hnone, hall⟩ | ⟨names, rfl, hsome⟩
  · simp [hnil] at h
  · have hspecific : i.specificCapabilities = [] := by
      simpa [Instruction.specificCapabilities, List.filter_eq_nil_iff] using hall
    rw [hnone, List.mem_singleton] at h
    exact ⟨.inl ⟨h, hspecific⟩, by simp [hnone, hspecific]⟩
  · rw [hsome] at h ⊢
    obtain ⟨guard, hguard, rfl⟩ := List.mem_map.mp h
    exact ⟨.inr ⟨guard, hguard, rfl⟩, by rw [List.length_map]; rfl⟩

/-- The function name under a guard: the name without its type letter, which ends in the guard if
the instruction lists at least two capabilities other than the base capability. -/
def guardedName (i : Instruction) : Option String → String
  | some guard =>
    if 2 ≤ i.specificCapabilities.length then baseName i ++ "_" ++ guard else baseName i
  | none => baseName i

theorem overloadName_eq_guardedName {i : Instruction} {guard? : Option String}
    (h : guard? ∈ guards i) :
    overloadName (baseName i) (1 < (guards i).length) guard? = guardedName i guard? := by
  have hseveral := (specificCapabilities_of_mem_guards h).2
  cases guard? with
  | none => simp only [overloadName, guardedName]
  | some guard => simp only [overloadName, guardedName, hseveral, decide_eq_true_eq]

end Expansion

/-! ### Exact capabilities -/

/-- The capabilities and the name of a declaration in a shape, for the types that it is made from
and the guard that it is made under. -/
structure Declaration.CapabilitiesExact (i : Instruction) (shape : Shape) (guard? : Option String)
    (types : List ResolvedType) (d : Declaration) : Prop where
  nodup : d.capabilities.Nodup
  shader_not_mem : "Shader" ∉ d.capabilities
  guard : guard? = none ∧ i.specificCapabilities = [] ∨
    ∃ guard ∈ i.specificCapabilities, guard? = some guard
  own : d.capabilities.filter (i.capabilities.contains ·) = guard?.toList
  first : guard?.toList <+: d.capabilities
  name : d.name = Expansion.guardedName i guard?
  added : ∀ capability, capability ∉ i.capabilities →
    (capability ∈ d.capabilities ↔ Expansion.Needs i shape types capability)

namespace Expansion

theorem declaredCapabilities_exact {i : Instruction} (shape : Shape) (types : List ResolvedType)
    {guard? : Option String}
    (hguard : guard? = none ∧ i.specificCapabilities = [] ∨
      ∃ guard ∈ i.specificCapabilities, guard? = some guard) :
    let capabilities := declaredCapabilities i shape guard? types
    capabilities.Nodup ∧ "Shader" ∉ capabilities ∧
      capabilities.filter (i.capabilities.contains ·) = guard?.toList ∧
        ∀ capability, capability ∉ i.capabilities →
          (capability ∈ capabilities ↔ Needs i shape types capability) := by
  have hown : ∀ guard ∈ guard?.toList, guard ∈ i.capabilities ∧ guard ≠ "Shader" := by
    intro guard hmem
    rcases hguard with ⟨rfl, -⟩ | ⟨guard, hspecific, rfl⟩
    · cases hmem
    · obtain ⟨hlisted, hne⟩ := List.mem_filter.mp hspecific
      rw [Option.toList_some, List.mem_singleton] at hmem
      exact hmem ▸ ⟨hlisted, by simpa using hne⟩
  have honce : guard?.toList.Nodup := by cases guard? <;> simp
  obtain ⟨hnodup, hmem⟩ := foldl_addCapability i (neededCapabilities i shape types) honce
  have hdeclared : (neededCapabilities i shape types).foldl (addCapability i) guard?.toList =
      declaredCapabilities i shape guard? types := rfl
  simp only [mem_neededCapabilities_iff, hdeclared] at hnodup hmem
  refine ⟨hnodup, ?_, ?_, ?_⟩
  · intro hshader
    rcases (hmem _).mp hshader with hguard | ⟨hneeds, -⟩
    · exact (hown _ hguard).2 rfl
    · exact hneeds.ne_shader rfl
  · obtain ⟨rest, hrest⟩ := guard_prefix_declaredCapabilities i shape guard? types
    have hprefix : guard?.toList.filter (i.capabilities.contains ·) = guard?.toList := by
      rw [List.filter_eq_self]
      exact fun guard hguard => by simpa using (hown guard hguard).1
    have hadded : rest.filter (i.capabilities.contains ·) = [] := by
      rw [List.filter_eq_nil_iff]
      intro x hx hlisted
      have hrestMem : x ∈ guard?.toList ++ rest := List.mem_append_right _ hx
      rw [← hrest] at hnodup hmem
      rcases (hmem x).mp hrestMem with hguard | ⟨-, hno⟩
      · exact (List.nodup_append.mp hnodup).2.2 x hguard x hx rfl
      · exact hno (by simpa using hlisted)
    rw [← hrest, List.filter_append, hprefix, hadded, List.append_nil]
  · intro capability hno
    refine (hmem capability).trans ⟨?_, fun hneeds => .inr ⟨hneeds, hno⟩⟩
    rintro (hguard | ⟨hneeds, -⟩)
    · exact absurd (hown _ hguard).1 hno
    · exact hneeds

/-- Each declaration of an expansion is made from a choice, and has exactly the capabilities that
its guard and the types of the choice ask for. -/
theorem expand_capabilitiesExact {m : TypeMap} {i : Instruction} {r : Request}
    {ds : List Declaration} (h : i.expand r m = .ok (.declarations ds)) {d : Declaration}
    (hd : d ∈ ds) :
    ∃ c ∈ choices m i r, d ∈ c.declarations m i r ∧
      d.CapabilitiesExact i r.shape c.guard? [c.element, operandType r c.guarded.type] := by
  obtain ⟨-, -, -, rfl⟩ := expand_eq_declarations_iff.mp h
  obtain ⟨c, hc, hd⟩ := List.mem_flatMap.mp hd
  have hguard := (mem_choices_iff.mp hc).2.2.1
  have hspecific := (specificCapabilities_of_mem_guards hguard).1
  refine ⟨c, hc, hd, ?_⟩
  obtain ⟨ps, -, rfl⟩ := List.mem_map.mp hd
  obtain ⟨hnodup, hshader, hown, hadded⟩ := declaredCapabilities_exact r.shape
    [c.element, operandType r c.guarded.type] hspecific
  exact ⟨hnodup, hshader, hspecific, hown, guard_prefix_declaredCapabilities _ _ _ _,
    overloadName_eq_guardedName hguard, hadded⟩

/-- An atomic maximum that two capabilities besides the base capability provide. -/
def atomicMax : Instruction where
  opname := "OpAtomicUMax"
  className := "Atomic"
  opcode := 239
  operands := [⟨"IdResultType", none, none⟩, ⟨"IdResult", none, none⟩,
    ⟨"IdRef", some "Pointer", none⟩, ⟨"IdScope", some "Memory", none⟩,
    ⟨"IdMemorySemantics", some "Semantics", none⟩, ⟨"IdRef", some "Value", none⟩]
  capabilities := ["Shader", "AtomicStorage", "Kernel"]
  extensions := []
  version? := none

theorem atomicMax_capabilitiesExact :
    ∃ ds d, atomicMax.expand ⟨.physical, none, none, none, []⟩ .standard =
        .ok (.declarations ds) ∧ ds.length = 6 ∧ ds[4]? = some d ∧
      d.name = "atomicMax_AtomicStorage" ∧
      d.capabilities =
        ["AtomicStorage", "Int64", "Int64Atomics", "PhysicalStorageBufferAddresses"] ∧
      ∃ c ∈ choices .standard atomicMax ⟨.physical, none, none, none, []⟩,
        d ∈ c.declarations .standard atomicMax ⟨.physical, none, none, none, []⟩ ∧
          d.CapabilitiesExact atomicMax .physical c.guard?
            [c.element, operandType ⟨.physical, none, none, none, []⟩ c.guarded.type] := by
  obtain ⟨ds, d, hds, hlength, hd, hname, hcapabilities⟩ :
      ∃ ds d, atomicMax.expand ⟨.physical, none, none, none, []⟩ .standard =
          .ok (.declarations ds) ∧ ds.length = 6 ∧ ds[4]? = some d ∧
        d.name = "atomicMax_AtomicStorage" ∧ d.capabilities =
          ["AtomicStorage", "Int64", "Int64Atomics", "PhysicalStorageBufferAddresses"] :=
    ⟨_, _, rfl, rfl, rfl, by decide +kernel, by decide +kernel⟩
  exact ⟨ds, d, hds, hlength, hd, hname, hcapabilities,
    expand_capabilitiesExact hds (List.mem_of_getElem? hd)⟩

end Expansion

end SpirvBindings
