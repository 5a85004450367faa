import SpirvBindings.Proofs.Capabilities
import SpirvBindings.Proofs.Clashes
import SpirvBindings.Proofs.Uniqueness.Spelling

/-! Whether the capabilities of a declaration cover the scalars in its signature. They cover those
that the element and the operand type name, for these two types are looked at. They overlook what a
signature is spelled with beside them: the mapped types of operands, the default type of the type
map, and an element that an entry calls generic. So the capabilities of an expansion are sufficient
if and only if all that is overlooked happens to be provided for. -/

namespace SpirvBindings

/-- The capability that the scalar of a given name needs. -/
def Scalar.capabilityOf? (text : String) : Option String :=
  (Scalar.ofName? text).bind Scalar.capability?

/-- The types that a signature is spelled with. -/
def Declaration.types (d : Declaration) : List String := d.result :: d.parameters.map (·.type)

/-- Each scalar of the signature that needs a capability has it, from the declaration or from the
instruction. -/
def Declaration.Sufficient (i : Instruction) (d : Declaration) : Prop :=
  ∀ type ∈ d.types, ∀ capability ∈ Scalar.capabilityOf? type,
    capability ∈ d.capabilities ∨ capability ∈ i.capabilities

instance (i : Instruction) (d : Declaration) : Decidable (d.Sufficient i) :=
  inferInstanceAs (Decidable (∀ type ∈ d.types, ∀ capability ∈ Scalar.capabilityOf? type,
    capability ∈ d.capabilities ∨ capability ∈ i.capabilities))

/-! ### Texts that name no scalar -/

theorem Scalar.capabilityOf?_eq_some_iff {text capability : String} :
    capabilityOf? text = some capability ↔
      ∃ s, ofName? text = some s ∧ s.capability? = some capability :=
  Option.bind_eq_some_iff

/-- The name of a scalar starts with the letter of its kind. -/
theorem Scalar.head?_name (s : Scalar) :
    s.name.toList.head? =
      some (match s.kind with
        | .signed => 'i'
        | .unsigned => 'u'
        | .float => 'f') := by
  obtain ⟨kind, width⟩ := s
  cases kind <;> cases width <;> decide +kernel

theorem Scalar.capabilityOf?_eq_none {text : String} {c : Char} (h : text.toList.head? = some c)
    (hc : c ∉ ['i', 'u', 'f']) : capabilityOf? text = none := by
  have hnone : ofName? text = none := by
    refine List.find?_eq_none.mpr fun s _ hname => ?_
    have hhead := s.head?_name
    rw [beq_iff_eq.mp hname, h, Option.some.injEq] at hhead
    revert hhead
    cases s.kind <;> rintro rfl <;> simp at hc
  rw [capabilityOf?, hnone, Option.bind_none]

theorem Scalar.ne_of_capability? {s : Scalar} {capability : String}
    (h : s.capability? = some capability) :
    capability ≠ "Int64Atomics" ∧ capability ≠ "PhysicalStorageBufferAddresses" := by
  obtain ⟨kind, width⟩ := s
  revert h
  cases kind <;> cases width <;> rintro ⟨⟩ <;> decide

namespace Expansion

variable {m : TypeMap} {i : Instruction} {r : Request} {c : Choice}

/-! ### What is provided -/

/-- The capabilities that the declarations of a choice provide for scalars: those of the
instruction, and those that the element and the operand type need. -/
def Choice.Provides (i : Instruction) (r : Request) (c : Choice) (capability : String) : Prop :=
  capability ∈ i.capabilities ∨ ∃ type ∈ [c.element, operandType r c.guarded.type],
    ¬ type.generic ∧ Scalar.capabilityOf? type.name = some capability

theorem Choice.provides_iff (hc : c ∈ choices m i r) (ps : List Parameter)
    {text capability : String}
    (hcapability : Scalar.capabilityOf? text = some capability) :
    capability ∈ (c.declaration m i r ps).capabilities ∨ capability ∈ i.capabilities ↔
      c.Provides i r capability := by
  by_cases hlisted : capability ∈ i.capabilities
  · simp [Choice.Provides, hlisted]
  have hspecific := (specificCapabilities_of_mem_guards (mem_choices_iff.mp hc).2.2.1).1
  have hneeds : capability ∈ (c.declaration m i r ps).capabilities ↔
      Needs i r.shape [c.element, operandType r c.guarded.type] capability :=
    (declaredCapabilities_exact r.shape _ hspecific).2.2.2 capability hlisted
  obtain ⟨s, -, hs⟩ := Scalar.capabilityOf?_eq_some_iff.mp hcapability
  obtain ⟨hatomics, haddresses⟩ := Scalar.ne_of_capability? hs
  rw [Choice.Provides, hneeds]
  refine or_congr_left ?_ |>.trans or_comm
  constructor
  · intro h
    cases h with
    | width htype hconcrete hname hwidth =>
      exact ⟨_, htype, hconcrete, Scalar.capabilityOf?_eq_some_iff.mpr ⟨_, hname, hwidth⟩⟩
    | atomic => exact absurd rfl hatomics
    | physical => exact absurd rfl haddresses
  · rintro ⟨type, htype, hconcrete, htext⟩
    obtain ⟨t, hname, hwidth⟩ := Scalar.capabilityOf?_eq_some_iff.mp htext
    exact .width htype hconcrete hname hwidth

/-! ### What a slot is spelled with -/

/-- The rules that spell a parameter with the default type. -/
def Rule.usesDefault : Rule → Bool
  | .defaultType | .scope | .literal | .memoryAccess => true
  | .operandType | .pointer | .bool => false

/-- The rules that spell a parameter with the operand type as it is. -/
def Rule.usesOperand (shape : Shape) : Rule → Bool
  | .operandType => true
  | .pointer => shape == .reference
  | .defaultType | .scope | .literal | .memoryAccess | .bool => false

theorem Rule.type_spell_of_usesDefault {rule : Rule} (h : rule.usesDefault) (defaultType : String)
    (s : Setting) (name : String) : (rule.spell defaultType s name).type = defaultType := by
  cases rule <;> first | rfl | cases h

theorem Rule.type_spell_of_usesOperand {rule : Rule} {s : Setting} (h : rule.usesOperand s.shape)
    (defaultType name : String) : (rule.spell defaultType s name).type = s.operandType := by
  obtain ⟨shape, operand, variant⟩ := s
  cases rule with
  | operandType => rfl
  | pointer =>
    obtain rfl : shape = .reference := by simpa [Rule.usesOperand] using h
    rfl
  | _ => cases h

/-- What a rule spells with neither of the two types needs no capability. -/
theorem Rule.uses_of_capability {rule : Rule} {defaultType name capability : String} {s : Setting}
    (h : Scalar.capabilityOf? (rule.spell defaultType s name).type = some capability) :
    rule.usesDefault ∨ rule.usesOperand s.shape := by
  cases rule with
  | bool =>
    have hnone : Scalar.capabilityOf? "bool" = none :=
      Scalar.capabilityOf?_eq_none (c := 'b') (by decide +kernel) (by decide)
    cases hnone.symm.trans h
  | pointer =>
    obtain ⟨shape, operand, variant⟩ := s
    cases shape with
    | reference => exact .inr rfl
    | pointerTemplate =>
      have hnone : Scalar.capabilityOf? pointerTemplate = none :=
        Scalar.capabilityOf?_eq_none (c := 'P') (by decide +kernel) (by decide)
      cases hnone.symm.trans h
    | physical =>
      have hnone : Scalar.capabilityOf? (pointerType .physical operand) = none :=
        Scalar.capabilityOf?_eq_none (head?_pointerType_physical operand) (by decide)
      cases hnone.symm.trans h
  | operandType => exact .inr rfl
  | _ => exact .inl rfl

theorem Rule.isAccess_of_usesOperand {rule : Rule} {shape : Shape} {o : Operand}
    (h : rule.usesOperand shape) : (Source.rule rule).isAccess o = false := by
  cases rule <;> first | rfl | cases h

theorem not_isFreeAccess_iff {o : Operand} {source : Source}
    (h : Source.ofOperand? m i o = some source) :
    ¬ isFreeAccess m i o ↔ source.isAccess o = false := by
  rw [isFreeAccess_iff, h, Option.some.injEq, ← Bool.not_eq_true, not_iff_not]
  constructor
  · rintro ⟨rfl, hoptional⟩
    exact hoptional
  · exact Source.eq_of_isAccess

/-! ### What is overlooked -/

/-- A type that the signatures of a choice are spelled with although its capability is not looked
up: a mapped type, the default type, or an element that counts as generic. -/
inductive Overlooks (m : TypeMap) (i : Instruction) (r : Request) (c : Choice) : String → Prop
  | entry {o : Operand} {e : TypeEntry} {type : String} (ho : o ∈ i.arguments)
      (he : m.entryOfOperand? i o = some e) (htype : e.select c.variant = .ok type) :
      Overlooks m i r c type
  | default {o : Operand} {rule : Rule} (ho : o ∈ i.arguments) (he : m.entryOfOperand? i o = none)
      (hrule : Rule.ofOperand o = .ok rule) (huses : rule.usesDefault)
      (hno : ¬ isFreeAccess m i o) : Overlooks m i r c m.defaultType
  | result (hgeneric : c.element.generic) (hguard : ¬ widens c.guard?)
      (hresult : i.hasResultType) : Overlooks m i r c c.element.name
  | operand {o : Operand} {rule : Rule} (hgeneric : c.element.generic)
      (hguard : ¬ widens c.guard?) (hoperand : r.operandType? = none) (ho : o ∈ i.arguments)
      (he : m.entryOfOperand? i o = none) (hrule : Rule.ofOperand o = .ok rule)
      (huses : rule.usesOperand r.shape) : Overlooks m i r c c.element.name

/-! ### What is covered -/

/-- The declarations of a choice provide what the scalar of a given name needs. -/
def Choice.Covers (i : Instruction) (r : Request) (c : Choice) (type : String) : Prop :=
  ∀ capability ∈ Scalar.capabilityOf? type, c.Provides i r capability

theorem Choice.covers_of_no_capability {type : String} (h : Scalar.capabilityOf? type = none) :
    c.Covers i r type := by
  intro capability hcapability
  rw [h] at hcapability
  cases hcapability

theorem Choice.covers_of_concrete {type : ResolvedType}
    (htype : type ∈ [c.element, operandType r c.guarded.type]) (hconcrete : ¬ type.generic) :
    c.Covers i r type.name :=
  fun _ hcapability => .inr ⟨type, htype, hconcrete, hcapability⟩

/-- A guarded element is covered unless it is a generic one that is not widened. -/
theorem Choice.covers_guarded_iff (hc : c ∈ choices m i r) :
    c.Covers i r c.guarded.type.name ↔
      (c.element.generic → ¬ widens c.guard? → c.Covers i r c.element.name) := by
  rw [guarded_eq_widened hc, widened]
  by_cases hwidens : widens c.guard?
  -- A vector text names no scalar, so nothing is missing for a widened element.
  · have hvector : ("vector<").toList.head? = some 'v' := by decide +kernel
    have hnone : Scalar.capabilityOf? ("vector<" ++ c.element.name ++ ", N>") = none :=
      Scalar.capabilityOf?_eq_none (head?_toList_append (head?_toList_append hvector _) _)
        (by decide)
    simp only [hwidens, ↓reduceIte, not_true_eq_false, false_implies, implies_true, iff_true]
    exact Choice.covers_of_no_capability hnone
  · simp only [hwidens, Bool.false_eq_true, ↓reduceIte, not_false_eq_true, forall_const]
    constructor
    · exact fun h _ => h
    · intro h
      by_cases hgeneric : c.element.generic
      · exact h hgeneric
      · exact Choice.covers_of_concrete List.mem_cons_self hgeneric

theorem Choice.covers_result_iff (hc : c ∈ choices m i r) :
    c.Covers i r (resultType i c.guarded.type).name ↔
      (i.hasResultType → c.element.generic → ¬ widens c.guard? → c.Covers i r c.element.name) := by
  unfold resultType
  split
  next hresult => simp only [hresult, forall_const, Choice.covers_guarded_iff hc]
  next hvoid =>
    have hnone : Scalar.capabilityOf? (ResolvedType.concrete "void").name = none :=
      Scalar.capabilityOf?_eq_none (c := 'v') (by decide +kernel) (by decide)
    simp only [hvoid, Bool.false_eq_true, false_implies, iff_true]
    exact Choice.covers_of_no_capability hnone

/-- A requested operand type is covered. -/
theorem Choice.covers_operand_iff (hc : c ∈ choices m i r) :
    c.Covers i r (c.setting r).operandType ↔
      (r.operandType? = none → c.element.generic → ¬ widens c.guard? →
        c.Covers i r c.element.name) := by
  unfold Choice.setting
  cases hoperand : r.operandType? with
  | none =>
    have htype : operandType r c.guarded.type = c.guarded.type := by simp [operandType, hoperand]
    rw [htype, Choice.covers_guarded_iff hc]
    exact ⟨fun h _ => h, fun h => h rfl⟩
  | some text =>
    have htype : operandType r c.guarded.type = .ofText text := by simp [operandType, hoperand]
    simp only [reduceCtorEq, false_implies, iff_true]
    by_cases hletter : Identifier.isGenericLetter text
    -- A letter counts as generic, but no scalar is called like one.
    · obtain ⟨letter, htext, hupper⟩ := Identifier.isGenericLetter_iff.mp hletter
      have hnone : Scalar.capabilityOf? text = none := by
        refine Scalar.capabilityOf?_eq_none (by rw [htext, List.head?_cons]) ?_
        rintro hmem
        revert hupper
        fin_cases hmem <;> decide
      rw [htype, ResolvedType.ofText, if_pos hletter]
      exact Choice.covers_of_no_capability hnone
    · refine Choice.covers_of_concrete (List.mem_cons_of_mem _ List.mem_cons_self) ?_
      rw [htype, ResolvedType.ofText, if_neg hletter]
      exact Bool.false_ne_true

/-! ### Sufficient declarations -/

theorem type_of_mem_extents {shape : Shape} {access : Bool} {count : Nat} {e : Extent}
    (h : e ∈ extents shape access count) : ∀ p ∈ e.literals, p.type = literalType := by
  have hall : ∀ literals ∈ accessLists shape [], ∀ p ∈ literals, p.type = literalType := by
    cases shape <;> decide +kernel
  rcases literals_of_mem_extents h with hnil | hliterals
  · simp [hnil]
  · exact hall _ hliterals

/-- What holds of the types of all declarations of a choice holds of its result and its slots. -/
theorem Choice.forall_types_iff {P : String → Prop} (hliteral : P literalType)
    (hordered : (outline m i).slots = (outline m i).required ++ (outline m i).optional) :
    (∀ d ∈ c.declarations m i r, ∀ type ∈ d.types, P type) ↔
      P (resultType i c.guarded.type).name ∧
        ∀ slot ∈ (outline m i).slots, P (slot.spell m.defaultType (c.setting r)).type := by
  rw [Choice.forall_declarations_iff]
  simp only [Declaration.types, List.forall_mem_cons, List.forall_mem_map]
  constructor
  · intro h
    -- Every slot is in the list that reaches over all optional ones.
    obtain ⟨e, he, hcount⟩ := exists_mem_extents r.shape (outline m i).access
      (Nat.le_refl (outline m i).optional.length)
    refine ⟨(h e he).1, fun slot hslot => (h e he).2 _ ?_⟩
    have hall : (outline m i).reached e = (outline m i).slots := by
      rw [Outline.reached, hcount, List.take_length, ← hordered]
    refine List.mem_append_left _ (List.mem_map_of_mem ?_)
    rwa [hall]
  · rintro ⟨hresult, hslots⟩ e he
    refine ⟨hresult, fun p hp => ?_⟩
    rcases List.mem_append.mp hp with hp | hp
    · obtain ⟨slot, hslot, rfl⟩ := List.mem_map.mp hp
      rw [Outline.reached_eq_take hordered] at hslot
      exact hslots slot (List.mem_of_mem_take hslot)
    · rw [type_of_mem_extents he p hp]
      exact hliteral

/-- A slot is covered unless an entry or a rule spells it with a type that is overlooked. -/
theorem Slot.covers_of_overlooks (hc : c ∈ choices m i r)
    (hmade : (outline m i).MadeFrom m i c.variant i.arguments)
    (h : ∀ type, Overlooks m i r c type → c.Covers i r type) {slot : Slot}
    (hslot : slot ∈ (outline m i).slots) :
    c.Covers i r (slot.spell m.defaultType (c.setting r)).type := by
  obtain ⟨ho, hsource, hno⟩ := hmade.exists_slot_iff.mp ⟨slot, hslot, rfl, rfl⟩
  cases hs : slot.source with
  | entry e =>
    rw [hs] at hsource
    obtain ⟨type, htype⟩ := hmade.inRange slot hslot e hs
    have hspell : (slot.spell m.defaultType (c.setting r)).type = type := by
      simp only [Slot.spell, hs]
      exact TypeEntry.typeAt_of_select htype
    rw [hspell]
    exact h type (.entry ho (Source.ofOperand?_eq_entry_iff.mp hsource) htype)
  | rule rule =>
    rw [hs] at hsource hno
    obtain ⟨he, hrule⟩ := Source.ofOperand?_eq_rule_iff.mp hsource
    have hspell : slot.spell m.defaultType (c.setting r) =
        rule.spell m.defaultType (c.setting r) slot.name := by simp only [Slot.spell, hs]
    rw [hspell]
    intro capability hcapability
    rcases Rule.uses_of_capability hcapability with huses | huses
    · rw [Rule.type_spell_of_usesDefault huses] at hcapability
      have hfree := (not_isFreeAccess_iff hsource).mpr hno
      exact h _ (.default ho he hrule huses hfree) capability hcapability
    · rw [Rule.type_spell_of_usesOperand huses] at hcapability
      refine (Choice.covers_operand_iff hc).mpr ?_ capability hcapability
      exact fun hoperand hgeneric hguard =>
        h _ (.operand hgeneric hguard hoperand ho he hrule huses)

/-- The declarations of a choice are sufficient if and only if they cover all that is overlooked. -/
theorem Choice.sufficient_iff (hc : c ∈ choices m i r)
    (hmade : (outline m i).MadeFrom m i c.variant i.arguments) :
    (∀ d ∈ c.declarations m i r, d.Sufficient i) ↔
      ∀ type, Overlooks m i r c type → c.Covers i r type := by
  have hcovers : (∀ d ∈ c.declarations m i r, d.Sufficient i) ↔
      ∀ d ∈ c.declarations m i r, ∀ type ∈ d.types, c.Covers i r type := by
    refine forall₂_congr fun d hd => forall₄_congr fun type _ capability hcapability => ?_
    obtain ⟨ps, -, rfl⟩ := List.mem_map.mp hd
    exact Choice.provides_iff hc ps hcapability
  have hliteral : c.Covers i r literalType := Choice.covers_of_no_capability (by decide +kernel)
  rw [hcovers, Choice.forall_types_iff hliteral hmade.ordered, Choice.covers_result_iff hc]
  constructor
  · rintro ⟨hresult, hslots⟩ type hoverlooks
    have hsources : ∀ {o source}, o ∈ i.arguments → Source.ofOperand? m i o = some source →
        source.isAccess o = false →
          ∃ name, c.Covers i r (Slot.spell m.defaultType (c.setting r) ⟨o, source, name⟩).type := by
      intro o source ho hsource hno
      obtain ⟨slot, hslot, rfl, rfl⟩ := hmade.exists_slot_iff.mpr ⟨ho, hsource, hno⟩
      exact ⟨slot.name, hslots slot hslot⟩
    cases hoverlooks with
    | entry ho he htype =>
      obtain ⟨name, hcovered⟩ := hsources ho (Source.ofOperand?_eq_entry_iff.mpr he) rfl
      rw [← TypeEntry.typeAt_of_select htype]
      exact hcovered
    | default ho he hrule huses hno =>
      have hsource := Source.ofOperand?_eq_rule_iff.mpr ⟨he, hrule⟩
      obtain ⟨name, hcovered⟩ := hsources ho hsource ((not_isFreeAccess_iff hsource).mp hno)
      rw [← Rule.type_spell_of_usesDefault huses m.defaultType (c.setting r) name]
      exact hcovered
    | result hgeneric hguard hvalue => exact hresult hvalue hgeneric hguard
    | operand hgeneric hguard hoperand ho he hrule huses =>
      have hsource := Source.ofOperand?_eq_rule_iff.mpr ⟨he, hrule⟩
      obtain ⟨name, hcovered⟩ := hsources ho hsource (Rule.isAccess_of_usesOperand huses)
      refine (Choice.covers_operand_iff hc).mp ?_ hoperand hgeneric hguard
      rw [← Rule.type_spell_of_usesOperand (s := c.setting r) huses m.defaultType name]
      exact hcovered
  · intro h
    exact ⟨fun hvalue hgeneric hguard => h _ (.result hgeneric hguard hvalue),
      fun slot hslot => Slot.covers_of_overlooks hc hmade h hslot⟩

/-- All declarations of an expansion have the capabilities that the scalars in their signatures need
if and only if each choice provides them for the types that are overlooked: the mapped types of
operands, the default type where an operand is spelled with it, and a generic element. -/
theorem expand_sufficient_iff {ds : List Declaration}
    (h : i.expand r m = .ok (.declarations ds)) :
    (∀ d ∈ ds, d.Sufficient i) ↔
      ∀ c ∈ choices m i r, ∀ type, Overlooks m i r c type → c.Covers i r type := by
  obtain ⟨-, -, hstop, rfl⟩ := expand_eq_declarations_iff.mp h
  simp only [List.forall_mem_flatMap]
  exact forall₂_congr fun c hc => Choice.sufficient_iff hc (outline_madeFrom (hstop c hc))

/-- A broadcast of a value from one invocation of a group. -/
def broadcast : Instruction where
  opname := "OpGroupNonUniformBroadcast"
  className := "Non-Uniform"
  opcode := 337
  operands := [⟨"IdResultType", none, none⟩, ⟨"IdResult", none, none⟩,
    ⟨"IdScope", some "Execution", none⟩, ⟨"IdRef", some "Value", none⟩,
    ⟨"IdRef", some "Id", none⟩]
  capabilities := ["GroupNonUniformBallot"]
  extensions := []
  version? := none

/-- Wide numbers of invocations. -/
def wideIds : TypeMap where
  defaultType := "uint32_t"
  classes := []
  instructions := [("OpGroupNonUniformBroadcast", {
    result? := none
    parameters := [⟨"IdRef", some "Id", "uint64_t", none, false, [], []⟩] })]

/-- A wide operand that a mapping asks for is overlooked. -/
theorem broadcast_insufficient :
    ∃ d, broadcast.expand ⟨.reference, none, none, none, []⟩ wideIds = .ok (.declarations [d]) ∧
      d.types = ["T", "uint32_t", "T", "uint64_t"] ∧ d.capabilities = ["GroupNonUniformBallot"] ∧
        ¬ d.Sufficient broadcast :=
  ⟨_, rfl, rfl, rfl, by decide +kernel⟩

/-- It is provided for if the result is as wide. -/
theorem broadcast_sufficient_wide :
    ∃ d, broadcast.expand ⟨.reference, some "uint64_t", none, none, []⟩ wideIds =
        .ok (.declarations [d]) ∧
      d.types = ["uint64_t", "uint32_t", "uint64_t", "uint64_t"] ∧
      d.capabilities = ["GroupNonUniformBallot", "Int64"] ∧ d.Sufficient broadcast ∧
        ∀ c ∈ choices wideIds broadcast ⟨.reference, some "uint64_t", none, none, []⟩, ∀ type,
          Overlooks wideIds broadcast ⟨.reference, some "uint64_t", none, none, []⟩ c type →
            c.Covers broadcast ⟨.reference, some "uint64_t", none, none, []⟩ type := by
  obtain ⟨d, hds, htypes, hcapabilities, hsufficient⟩ :
      ∃ d, broadcast.expand ⟨.reference, some "uint64_t", none, none, []⟩ wideIds =
          .ok (.declarations [d]) ∧
        d.types = ["uint64_t", "uint32_t", "uint64_t", "uint64_t"] ∧
          d.capabilities = ["GroupNonUniformBallot", "Int64"] ∧ d.Sufficient broadcast :=
    ⟨_, rfl, rfl, by decide +kernel, by decide +kernel⟩
  exact ⟨d, hds, htypes, hcapabilities, hsufficient,
    (expand_sufficient_iff hds).mp (by simpa using hsufficient)⟩

end Expansion

end SpirvBindings
