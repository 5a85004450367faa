import SpirvBindings.Proofs.Choices
import SpirvBindings.Proofs.Outline.Names

/-! How the parameter lists of an instruction fan out from one sequence of parameters, which has one
parameter for each operand in the order of the grammar. Every list is a prefix of the sequence that
has all required parameters, each such prefix is reached, and later lists are longer. An optional
memory access that is not mapped has no parameter in the sequence: its literals stand behind all
of it. -/

namespace SpirvBindings.Expansion

variable {m : TypeMap} {i : Instruction} {s : Setting}

/-! ### The operands of the sequence -/

/-- An optional memory access that is not mapped. -/
def isFreeAccess (m : TypeMap) (i : Instruction) (o : Operand) : Bool :=
  o.kind == "MemoryAccess" && o.isOptional && (m.entryOfOperand? i o).isNone

/-- The operands that have a parameter in the sequence. -/
def sequenceOperands (m : TypeMap) (i : Instruction) : List Operand :=
  i.arguments.filter (! isFreeAccess m i ·)

/-- The number of operands in the sequence that are required. -/
def requiredCount (m : TypeMap) (i : Instruction) : Nat :=
  ((sequenceOperands m i).filter (! ·.isOptional)).length

theorem Rule.ofReference?_ne_memoryAccess (name : String) :
    Rule.ofReference? name ≠ some .memoryAccess := by
  unfold Rule.ofReference?
  split <;> simp

theorem Rule.ofOperand_eq_memoryAccess_iff {o : Operand} :
    Rule.ofOperand o = .ok .memoryAccess ↔ o.kind = "MemoryAccess" := by
  unfold Rule.ofOperand
  split
  next hkind =>
    have hno := Rule.ofReference?_ne_memoryAccess (strippedName o)
    split
    next rule hrule => simp_all
    next => simp [hkind]
  all_goals simp_all

theorem isFreeAccess_iff {o : Operand} :
    isFreeAccess m i o ↔ Source.ofOperand? m i o = some (.rule .memoryAccess) ∧ o.isOptional := by
  rw [Source.ofOperand?_eq_rule_iff, Rule.ofOperand_eq_memoryAccess_iff]
  simp only [isFreeAccess, Bool.and_eq_true, beq_iff_eq, Option.isNone_iff_eq_none]
  tauto

theorem Outline.MadeFrom.not_isFreeAccess {variant : Nat} {os : List Operand} {l : Outline}
    (h : l.MadeFrom m i variant os) {slot : Slot} (hslot : slot ∈ l.slots) :
    ¬ isFreeAccess m i slot.operand := by
  intro hfree
  obtain ⟨hsource, hno⟩ := h.sources slot hslot
  obtain ⟨haccess, hoptional⟩ := isFreeAccess_iff.mp hfree
  rw [hsource, Option.some.injEq] at haccess
  rw [haccess] at hno
  exact Bool.false_ne_true (hno.symm.trans hoptional)

/-- An access stands for an optional memory access that is not mapped. -/
theorem Outline.MadeFrom.access_iff_exists {variant : Nat} {os : List Operand} {l : Outline}
    (h : l.MadeFrom m i variant os) : l.access ↔ ∃ o ∈ os, isFreeAccess m i o := by
  rcases h.operands with ⟨hos, haccess⟩ | ⟨a, hos, haccess, hsource, ha⟩
  · refine iff_of_false (by simp [haccess]) ?_
    rintro ⟨o, ho, hfree⟩
    rw [hos] at ho
    obtain ⟨slot, hslot, rfl⟩ := List.mem_map.mp ho
    exact h.not_isFreeAccess hslot hfree
  · exact iff_of_true haccess ⟨a, by simp [hos], isFreeAccess_iff.mpr ⟨hsource, ha⟩⟩

/-- The slots of an outline that nothing stops are for the operands of the sequence. -/
theorem Outline.MadeFrom.sequence {variant : Nat} {l : Outline}
    (h : l.MadeFrom m i variant i.arguments) :
    sequenceOperands m i = l.slots.map (·.operand) := by
  have hfilter : (l.slots.map (·.operand)).filter (! isFreeAccess m i ·) =
      l.slots.map (·.operand) := by
    rw [List.filter_eq_self]
    intro o ho
    obtain ⟨slot, hslot, rfl⟩ := List.mem_map.mp ho
    simpa using h.not_isFreeAccess hslot
  unfold sequenceOperands
  rcases h.operands with ⟨hos, -⟩ | ⟨a, hos, -, hsource, ha⟩
  · rw [hos, hfilter]
  · have hfree : isFreeAccess m i a := isFreeAccess_iff.mpr ⟨hsource, ha⟩
    rw [hos, List.filter_append, hfilter, List.filter_singleton, hfree]
    exact List.append_nil _

/-! ### The parameters of the sequence -/

/-- A parameter for an operand behind parameters with given names. A mapped operand has the type of
its entry; for any other a rule says how it is spelled. The name is the first free one. -/
inductive BuiltFrom (m : TypeMap) (i : Instruction) (s : Setting) (used : List String)
    (o : Operand) : Parameter → Prop
  | mapped {e : TypeEntry} {type : String} (he : m.entryOfOperand? i o = some e)
      (htype : e.select s.variant = .ok type) :
      BuiltFrom m i s used o
        ⟨e.attributes, e.isConst, type, freshName used (Naming.parameterName o.rawName), none⟩
  | ruled {rule : Rule} (he : m.entryOfOperand? i o = none) (hrule : Rule.ofOperand o = .ok rule) :
      BuiltFrom m i s used o (rule.spell m.defaultType s (freshName used (rule.rawName o)))

theorem Slot.name_spell (defaultType : String) (s : Setting) (slot : Slot) :
    (slot.spell defaultType s).name = slot.name := by
  unfold Slot.spell
  split
  next => rfl
  next r _ =>
    cases r with
    | pointer =>
      obtain ⟨shape, type, variant⟩ := s
      cases shape <;> rfl
    | _ => rfl

theorem Slot.builtFrom {slot : Slot} {used : List String}
    (hsource : Source.ofOperand? m i slot.operand = some slot.source)
    (hrange : ∀ e, slot.source = .entry e → ∃ type, e.select s.variant = .ok type)
    (hname : slot.name = freshName used (slot.source.rawName slot.operand)) :
    BuiltFrom m i s used slot.operand (slot.spell m.defaultType s) := by
  obtain ⟨o, source, name⟩ := slot
  simp only at hsource hrange hname
  subst hname
  cases source with
  | entry e =>
    obtain ⟨type, htype⟩ := hrange e rfl
    obtain rfl := TypeEntry.typeAt_of_select htype
    exact .mapped (Source.ofOperand?_eq_entry_iff.mp hsource) htype
  | rule rule =>
    obtain ⟨he, hrule⟩ := Source.ofOperand?_eq_rule_iff.mp hsource
    exact .ruled he hrule

/-! ### Prefixes -/

/-- A list has the first `k` parameters of a sequence and nothing more, or the whole sequence and
the literals of an optional memory access that is not mapped. -/
def Reaches (m : TypeMap) (i : Instruction) (shape : Shape) (sequence : List Parameter) (k : Nat)
    (ps : List Parameter) : Prop :=
  ∃ literals, ps = sequence.take k ++ literals ∧
    (literals = [] ∨ k = sequence.length ∧ (∃ o ∈ i.arguments, isFreeAccess m i o) ∧
      literals ∈ accessLists shape [])

/-- Lists that fan out from one sequence of parameters. -/
structure FanOut (m : TypeMap) (i : Instruction) (s : Setting) (sequence : List Parameter)
    (lists : List (List Parameter)) : Prop where
  length_sequence : sequence.length = (sequenceOperands m i).length
  built : ∀ (j : Nat) (o : Operand) (p : Parameter), (sequenceOperands m i)[j]? = some o →
    sequence[j]? = some p → BuiltFrom m i s ((sequence.take j).map (·.name)) o p
  prefixes : ∀ ps ∈ lists, ∃ k, requiredCount m i ≤ k ∧ k ≤ sequence.length ∧
    Reaches m i s.shape sequence k ps
  reached : ∀ k, requiredCount m i ≤ k → k ≤ sequence.length →
    ∃ ps ∈ lists, Reaches m i s.shape sequence k ps
  growing : (lists.map List.length).Pairwise (· < ·)

/-- The list of an extent is the prefix of the sequence that it reaches over. -/
theorem Outline.reaches_listOf {l : Outline} (h : l.MadeFrom m i s.variant i.arguments)
    {e : Extent} (he : e ∈ extents s.shape l.access l.optional.length) :
    Reaches m i s.shape (l.slots.map (Slot.spell m.defaultType s)) (l.required.length + e.count)
      (l.listOf m.defaultType s e) := by
  have hslots : l.slots.length = l.required.length + l.optional.length := by
    rw [h.ordered, List.length_append]
  refine ⟨e.literals, by rw [Outline.listOf, Outline.reached_eq_take h.ordered, List.map_take], ?_⟩
  rcases mem_extents_iff.mp he with ⟨-, hnil⟩ | ⟨hcount, hliterals⟩
  · exact .inl hnil
  · cases haccess : l.access with
    | false => exact .inl (by simpa [haccess] using hliterals)
    | true =>
      refine .inr ⟨by rw [List.length_map, hslots, hcount], h.access_iff_exists.mp haccess, ?_⟩
      simpa [haccess] using hliterals

/-- The lists of an outline that nothing stops fan out from its spelled slots. -/
theorem Outline.MadeFrom.fanOut {l : Outline} (h : l.MadeFrom m i s.variant i.arguments)
    (hnamed : NamedInOrder l.slots) :
    FanOut m i s (l.slots.map (Slot.spell m.defaultType s))
      (l.parameterSet m.defaultType s).lists := by
  have hoperands := h.sequence
  have hrequired : requiredCount m i = l.required.length := by
    rw [requiredCount, hoperands, List.filter_map, List.length_map]
    rfl
  have hslots : l.slots.length = l.required.length + l.optional.length := by
    rw [h.ordered, List.length_append]
  rw [Outline.lists_parameterSet]
  refine ⟨by simp [hoperands], ?built, ?prefixes, ?reached, ?growing⟩
  case built =>
    intro j o p ho hp
    rw [hoperands, List.getElem?_map, Option.map_eq_some_iff] at ho
    obtain ⟨slot, hslot, rfl⟩ := ho
    rw [List.getElem?_map, hslot] at hp
    cases hp
    have hmem := List.mem_of_getElem? hslot
    refine Slot.builtFrom (h.sources slot hmem).1 (h.inRange slot hmem) ?_
    rw [← List.map_take, List.map_map]
    simp only [Function.comp_def, Slot.name_spell]
    exact hnamed j slot hslot
  case prefixes =>
    intro ps hps
    obtain ⟨e, he, rfl⟩ := List.mem_map.mp hps
    have hcount := count_le_of_mem_extents he
    refine ⟨l.required.length + e.count, ?_, ?_, Outline.reaches_listOf h he⟩
    · omega
    · rw [List.length_map]
      omega
  case reached =>
    intro k hlow hhigh
    rw [List.length_map] at hhigh
    have hoptional : k - l.required.length ≤ l.optional.length := by omega
    obtain ⟨e, he, hcount⟩ := exists_mem_extents s.shape l.access hoptional
    have hk : l.required.length + e.count = k := by omega
    exact ⟨_, List.mem_map_of_mem he, hk ▸ Outline.reaches_listOf h he⟩
  case growing =>
    rw [← Outline.lists_parameterSet]
    exact l.pairwise_length_lists m.defaultType s

/-! ### Instructions -/

theorem parameters_eq_ok_iff {set : ParameterSet} :
    parameters m i s = .ok set ↔
      stop? m i s.variant = none ∧ set = (outline m i).parameterSet m.defaultType s := by
  rw [parameters_eq]
  cases stop? m i s.variant with
  | some stop => simp
  | none => simp [eq_comm]

/-- The parameter lists of an instruction fan out from one sequence, and each declaration of an
expansion has one of the lists. -/
theorem parameters_fanOut (m : TypeMap) (i : Instruction) :
    (∀ s set, parameters m i s = .ok set → ∃ sequence, FanOut m i s sequence set.lists) ∧
      ∀ r ds, i.expand r m = .ok (.declarations ds) → ∀ d ∈ ds,
        ∃ c ∈ choices m i r, d ∈ c.declarations m i r ∧
          ∃ set, parameters m i (c.setting r) = .ok set ∧ d.parameters ∈ set.lists := by
  constructor
  · intro s set h
    obtain ⟨hstop, rfl⟩ := parameters_eq_ok_iff.mp h
    exact ⟨_, (outline_madeFrom hstop).fanOut (outline_namedInOrder m i)⟩
  · intro r ds h d hd
    obtain ⟨-, -, hstop, rfl⟩ := expand_eq_declarations_iff.mp h
    obtain ⟨c, hc, hd⟩ := List.mem_flatMap.mp hd
    obtain ⟨ps, hps, rfl⟩ := List.mem_map.mp hd
    exact ⟨c, hc, hd, _, parameters_eq_ok_iff.mpr ⟨hstop c hc, rfl⟩, hps⟩

/-- A load of a matrix, with an optional stride and an optional memory access. -/
def matrixLoad : Instruction where
  opname := "OpCooperativeMatrixLoadKHR"
  className := "Memory"
  opcode := 4457
  operands := [⟨"IdResultType", none, none⟩, ⟨"IdResult", none, none⟩,
    ⟨"IdRef", some "Pointer", none⟩, ⟨"IdRef", some "MemoryLayout", none⟩,
    ⟨"IdRef", some "Stride", some .optional⟩,
    ⟨"MemoryAccess", some "Memory Operand", some .optional⟩]
  capabilities := ["CooperativeMatrixKHR"]
  extensions := []
  version? := none

/-- Types for the operands of a matrix load that have no rule. -/
def matrixTypes : TypeMap where
  defaultType := "uint32_t"
  classes := []
  instructions := [("OpCooperativeMatrixLoadKHR", {
    result? := none
    parameters := [⟨"IdRef", some "MemoryLayout", "uint32_t", none, true, [], []⟩,
      ⟨"IdRef", some "Stride", "uint32_t", none, false, [], []⟩] })]

theorem matrixLoad_fanOut :
    (∃ set, parameters matrixTypes matrixLoad ⟨.reference, "T", 0⟩ = .ok set ∧
      set.lists.map List.length = [2, 3, 4, 5] ∧
        ∃ sequence, FanOut matrixTypes matrixLoad ⟨.reference, "T", 0⟩ sequence set.lists) ∧
      ∃ d d', matrixLoad.expand ⟨.physical, none, none, none, []⟩ matrixTypes =
          .ok (.declarations [d, d']) ∧ d.parameters.length = 2 ∧ d'.parameters.length = 5 ∧
        ∃ c ∈ choices matrixTypes matrixLoad ⟨.physical, none, none, none, []⟩,
          d' ∈ c.declarations matrixTypes matrixLoad ⟨.physical, none, none, none, []⟩ ∧
            ∃ set, parameters matrixTypes matrixLoad
                (c.setting ⟨.physical, none, none, none, []⟩) = .ok set ∧
              d'.parameters ∈ set.lists := by
  obtain ⟨hlists, hdeclarations⟩ := parameters_fanOut matrixTypes matrixLoad
  constructor
  · obtain ⟨set, hset, hlengths⟩ :
        ∃ set, parameters matrixTypes matrixLoad ⟨.reference, "T", 0⟩ = .ok set ∧
          set.lists.map List.length = [2, 3, 4, 5] := ⟨_, rfl, rfl⟩
    exact ⟨set, hset, hlengths, hlists _ _ hset⟩
  · obtain ⟨d, d', hds, hd, hd'⟩ :
        ∃ d d', matrixLoad.expand ⟨.physical, none, none, none, []⟩ matrixTypes =
            .ok (.declarations [d, d']) ∧ d.parameters.length = 2 ∧ d'.parameters.length = 5 :=
      ⟨_, _, rfl, rfl, rfl⟩
    exact ⟨d, d', hds, hd, hd', hdeclarations _ _ hds d' (by simp)⟩

end SpirvBindings.Expansion
