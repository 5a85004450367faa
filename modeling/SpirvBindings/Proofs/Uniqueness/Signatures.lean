import SpirvBindings.Proofs.Uniqueness.Spelling

/-! Which choices have a signature in common. A signature is the name, the result type and the
rendered parameters of a declaration. Two choices with a common signature are made under one guard,
have one result, and agree on all required operands. Then their shortest lists agree, unless these
end in the literals of a memory access and one of the two shapes is physical. -/

namespace SpirvBindings

/-- What tells a declaration apart from other overloads. -/
def Declaration.signature (d : Declaration) : String × String × List String :=
  (d.name, d.result, d.parameters.map Parameter.render)

namespace Expansion

/-! ### Lists in common -/

/-- The literals of a physical access are different from those of all other accesses. -/
theorem accessLists_apart {shape shape' : Shape} {ps ps' : List Parameter}
    (hps : ps ∈ accessLists shape []) (hps' : ps' ∈ accessLists shape' [])
    (h : ps.map Parameter.render = ps'.map Parameter.render) :
    shape = .physical ↔ shape' = .physical := by
  have hall : ∀ shape shape', ∀ ps ∈ accessLists shape [], ∀ ps' ∈ accessLists shape' [],
      ps.map Parameter.render = ps'.map Parameter.render →
        (shape = Shape.physical ↔ shape' = Shape.physical) := by
    intro shape shape'
    cases shape <;> cases shape' <;> decide +kernel
  exact hall shape shape' ps hps ps' hps' h

/-- Two shapes have a list of the required operands in common, unless an access is all that is
optional and only one of them is physical. -/
theorem exists_common_extent {access : Bool} {count : Nat} {shape shape' : Shape}
    (h : ¬ ((access ∧ count = 0) ∧ ¬ (shape = .physical ↔ shape' = .physical))) :
    ∃ e ∈ extents shape access count, e ∈ extents shape' access count ∧ e.count = 0 := by
  cases access with
  | false =>
    have hmem : ∀ shape, (⟨0, []⟩ : Extent) ∈ extents shape false count := by
      intro shape
      simp [extents]
    exact ⟨⟨0, []⟩, hmem shape, hmem shape', rfl⟩
  | true =>
    by_cases hcount : count = 0
    · subst hcount
      have hiff : shape = .physical ↔ shape' = .physical := by simpa using h
      have hcommon : ∃ ps ∈ accessLists shape [], ps ∈ accessLists shape' [] := by
        revert hiff
        cases shape <;> cases shape' <;> decide +kernel
      obtain ⟨ps, hps, hps'⟩ := hcommon
      exact ⟨⟨0, ps⟩, by simpa [extents] using hps, by simpa [extents] using hps', rfl⟩
    · have hmem : ∀ shape, (⟨0, []⟩ : Extent) ∈ extents shape true count := by
        intro shape
        refine List.mem_append_left _ (List.mem_map.mpr ⟨0, List.mem_range.mpr ?_, rfl⟩)
        omega
      exact ⟨⟨0, []⟩, hmem shape, hmem shape', rfl⟩

theorem Outline.map_render_listOf (defaultType : String) (s : Setting) (l : Outline) (e : Extent) :
    (l.listOf defaultType s e).map Parameter.render =
      l.required.map (fun slot => (slot.spell defaultType s).render) ++
        ((l.optional.take e.count).map (fun slot => (slot.spell defaultType s).render) ++
          e.literals.map Parameter.render) := by
  simp [Outline.listOf, Outline.reached, Function.comp_def]

/-- Two spellings of an outline have a list in common if they agree on the required slots, unless an
access is all that is optional and only one of the shapes is physical. -/
theorem Outline.lists_meet_iff (defaultType : String) (s s' : Setting) (l : Outline) :
    (∃ ps ∈ (l.parameterSet defaultType s).lists, ∃ ps' ∈ (l.parameterSet defaultType s').lists,
        ps.map Parameter.render = ps'.map Parameter.render) ↔
      (∀ slot ∈ l.required,
        (slot.spell defaultType s).render = (slot.spell defaultType s').render) ∧
      ¬ ((l.access ∧ l.optional = []) ∧ ¬ (s.shape = .physical ↔ s'.shape = .physical)) := by
  simp only [Outline.lists_parameterSet, List.mem_map, exists_exists_and_eq_and,
    Outline.map_render_listOf]
  constructor
  · rintro ⟨e, he, e', he', heq⟩
    obtain ⟨hrequired, hrest⟩ := List.append_inj heq (by simp)
    refine ⟨List.map_inj_left.mp hrequired, ?_⟩
    rintro ⟨⟨haccess, hnil⟩, hshape⟩
    simp only [hnil, List.take_nil, List.map_nil, List.nil_append] at hrest
    have hliterals : ∀ {shape e}, e ∈ extents shape l.access l.optional.length →
        e.literals ∈ accessLists shape [] := by
      intro shape e he
      simp only [extents, haccess, hnil, List.length_nil, List.range_zero, List.map_nil,
        List.nil_append, ↓reduceIte] at he
      obtain ⟨ps, hps, rfl⟩ := List.mem_map.mp he
      exact hps
    exact hshape (accessLists_apart (hliterals he) (hliterals he') hrest)
  · rintro ⟨hrequired, hno⟩
    rw [← List.length_eq_zero_iff] at hno
    obtain ⟨e, he, he', hcount⟩ := exists_common_extent hno
    refine ⟨e, he, e, he', ?_⟩
    rw [List.map_congr_left hrequired, hcount, List.take_zero, List.map_nil, List.map_nil]

theorem Outline.nodup_lists (defaultType : String) (s : Setting) (l : Outline) :
    ((l.parameterSet defaultType s).lists.map (List.map Parameter.render)).Nodup := by
  apply List.Nodup.of_map List.length
  simp only [List.map_map, Function.comp_def, List.length_map]
  exact (l.pairwise_length_lists defaultType s).imp Nat.ne_of_lt

/-! ### Names and results -/

/-- The names of two overloads tell their guards apart. -/
theorem overloadName_eq_iff {i : Instruction} {guard? guard?' : Option String}
    (h : guard? ∈ guards i) (h' : guard?' ∈ guards i) :
    overloadName (baseName i) (1 < (guards i).length) guard? =
        overloadName (baseName i) (1 < (guards i).length) guard?' ↔ guard? = guard?' := by
  refine ⟨fun heq => ?_, fun heq => by rw [heq]⟩
  by_cases hseveral : 1 < (guards i).length
  · simp only [hseveral, decide_true] at heq
    rcases guards_cases i with hnil | ⟨hnone, -⟩ | ⟨names, -, hsome⟩
    · simp [hnil] at h
    · simp [hnone] at hseveral
    · rw [hsome] at h h'
      obtain ⟨name, -, rfl⟩ := List.mem_map.mp h
      obtain ⟨name', -, rfl⟩ := List.mem_map.mp h'
      simpa only [overloadName, ↓reduceIte, String.append_right_inj, Option.some.injEq] using heq
  · obtain ⟨g, hg⟩ := List.length_eq_one_iff.mp
      (Nat.le_antisymm (Nat.not_lt.mp hseveral) (List.length_pos_of_mem h))
    rw [hg, List.mem_singleton] at h h'
    rw [h, h']

theorem resultType_name_eq_iff {i : Instruction} {c c' : Choice} (hguard : c.guard? = c'.guard?)
    (hc : c.guarded = widened c.guard? c.element)
    (hc' : c'.guarded = widened c'.guard? c'.element) :
    (resultType i c.guarded.type).name = (resultType i c'.guarded.type).name ↔
      ¬ (i.hasResultType ∧ c.element.name ≠ c'.element.name) := by
  unfold resultType
  split
  next h => rw [hc, hc', ← hguard, name_widened_eq_iff]; simp [h]
  next h => simp [h]

/-! ### Choices apart -/

/-- What tells the declarations of two choices under one guard apart. -/
inductive ToldApart (m : TypeMap) (i : Instruction) (r : Request) (c : Choice) (r' : Request)
    (c' : Choice) : Prop
  | result (h : i.hasResultType) (hne : c.element.name ≠ c'.element.name)
  | operand (o : Operand) (ho : o ∈ i.arguments) (hrequired : ¬ o.isOptional)
    (h : TellsApart m i o r c r' c')
  | access (o : Operand) (ho : i.arguments.filter (·.isOptional) = [o])
    (he : m.entryOfOperand? i o = none) (hrule : Rule.ofOperand o = .ok .memoryAccess)
    (hne : ¬ (r.shape = .physical ↔ r'.shape = .physical))

section ToldApart

variable {m : TypeMap} {i : Instruction} {r r' : Request} {c c' : Choice}

theorem toldApart_iff :
    ToldApart m i r c r' c' ↔
      (i.hasResultType ∧ c.element.name ≠ c'.element.name) ∨
      (∃ o ∈ i.arguments, ¬ o.isOptional ∧ TellsApart m i o r c r' c') ∨
      (∃ o, i.arguments.filter (·.isOptional) = [o] ∧ m.entryOfOperand? i o = none ∧
        Rule.ofOperand o = .ok .memoryAccess) ∧ ¬ (r.shape = .physical ↔ r'.shape = .physical) := by
  constructor
  · rintro (⟨h, hne⟩ | ⟨o, ho, hrequired, h⟩ | ⟨o, ho, he, hrule, hne⟩)
    · exact .inl ⟨h, hne⟩
    · exact .inr (.inl ⟨o, ho, hrequired, h⟩)
    · exact .inr (.inr ⟨⟨o, ho, he, hrule⟩, hne⟩)
  · rintro (⟨h, hne⟩ | ⟨o, ho, hrequired, h⟩ | ⟨⟨o, ho, he, hrule⟩, hne⟩)
    · exact .result h hne
    · exact .operand o ho hrequired h
    · exact .access o ho he hrule hne

/-- The signatures of the declarations of a choice. -/
def Choice.signatures (m : TypeMap) (i : Instruction) (r : Request) (c : Choice) :
    List (String × String × List String) :=
  (c.declarations m i r).map Declaration.signature

theorem Choice.mem_signatures_iff {signature : String × String × List String} :
    signature ∈ c.signatures m i r ↔
      signature.1 = overloadName (baseName i) (1 < (guards i).length) c.guard? ∧
        signature.2.1 = (resultType i c.guarded.type).name ∧
          ∃ ps ∈ (c.parameterSet m i r).lists, signature.2.2 = ps.map Parameter.render := by
  simp only [Choice.signatures, Choice.declarations, List.mem_map, exists_exists_and_eq_and]
  constructor
  · rintro ⟨ps, hps, rfl⟩
    exact ⟨rfl, rfl, ps, hps, rfl⟩
  · rintro ⟨hname, hresult, ps, hps, hparameters⟩
    exact ⟨ps, hps, Prod.ext hname.symm (Prod.ext hresult.symm hparameters.symm)⟩

theorem Choice.nodup_signatures (m : TypeMap) (i : Instruction) (r : Request) (c : Choice) :
    (c.signatures m i r).Nodup := by
  apply List.Nodup.of_map fun signature => signature.2.2
  have hlists : (c.signatures m i r).map (fun signature => signature.2.2) =
      (c.parameterSet m i r).lists.map (List.map Parameter.render) := by
    simp only [Choice.signatures, Choice.declarations, List.map_map]
    rfl
  rw [hlists]
  exact Outline.nodup_lists m.defaultType (c.setting r) (outline m i)

/-- Two choices have a signature in common if they are made under one guard, have one result, and
have a parameter list in common. -/
theorem Choice.disjoint_signatures_iff (hguard : c.guard? ∈ guards i)
    (hguard' : c'.guard? ∈ guards i) :
    (c.signatures m i r).Disjoint (c'.signatures m i r') ↔
      ¬ (c.guard? = c'.guard? ∧
        (resultType i c.guarded.type).name = (resultType i c'.guarded.type).name ∧
          ∃ ps ∈ (c.parameterSet m i r).lists, ∃ ps' ∈ (c'.parameterSet m i r').lists,
            ps.map Parameter.render = ps'.map Parameter.render) := by
  rw [← overloadName_eq_iff hguard hguard', List.disjoint_left]
  simp only [Choice.mem_signatures_iff]
  constructor
  · rintro hdisjoint ⟨hname, hresult, ps, hps, ps', hps', heq⟩
    exact hdisjoint (a := (_, _, ps.map Parameter.render)) ⟨rfl, rfl, ps, hps, rfl⟩
      ⟨hname, hresult, ps', hps', heq⟩
  · rintro hno ⟨name, result, parameters⟩ ⟨rfl, rfl, ps, hps, rfl⟩ ⟨hname, hresult, ps', hps', heq⟩
    exact hno ⟨hname, hresult, ps, hps, ps', hps', heq⟩

/-- Choices of requests for one operand type have no signature in common if what they are told
apart by, or their guard, is different. -/
theorem Choice.disjoint_signatures_iff_toldApart (hoverloads : ∀ o e,
      m.entryOfOperand? i o = some e → e.overloads.Nodup)
    (hoperand : r.operandType? = r'.operandType?) (hc : c ∈ choices m i r)
    (hc' : c' ∈ choices m i r') (hstop : stop? m i c.variant = none)
    (hstop' : stop? m i c'.variant = none) :
    (c.signatures m i r).Disjoint (c'.signatures m i r') ↔
      (c.guard? = c'.guard? → ToldApart m i r c r' c') := by
  obtain ⟨-, -, hguard, -⟩ := mem_choices_iff.mp hc
  obtain ⟨-, -, hguard', -⟩ := mem_choices_iff.mp hc'
  have hwidened := guarded_eq_widened hc
  have hwidened' := guarded_eq_widened hc'
  have hmade := outline_madeFrom hstop
  have hmade' := outline_madeFrom hstop'
  rw [Choice.disjoint_signatures_iff hguard hguard', not_and]
  refine forall_congr' fun heq => ?_
  have hslots : (∀ slot ∈ (outline m i).required,
      (slot.spell m.defaultType (c.setting r)).render =
        (slot.spell m.defaultType (c'.setting r')).render) ↔
      ¬ ∃ o ∈ i.arguments, ¬ o.isOptional ∧ TellsApart m i o r c r' c' := by
    rw [hmade.exists_required_iff, not_exists]
    refine forall_congr' fun slot => ?_
    rw [not_and]
    refine forall_congr' fun hslot => ?_
    have hmem := List.mem_of_mem_filter hslot
    refine Slot.render_eq_iff (hmade.sources slot hmem).1 ?_ hoperand heq hwidened hwidened'
    intro e he
    have hsource := (hmade.sources slot hmem).1
    rw [he, Source.ofOperand?_eq_entry_iff] at hsource
    exact ⟨hoverloads slot.operand e hsource, hmade.inRange slot hmem e he,
      hmade'.inRange slot hmem e he⟩
  have hmeet := Outline.lists_meet_iff m.defaultType (c.setting r) (c'.setting r') (outline m i)
  rw [hslots, hmade.access_iff] at hmeet
  unfold Choice.parameterSet
  rw [resultType_name_eq_iff heq hwidened hwidened', hmeet, toldApart_iff, not_and_or, not_not,
    not_and_or, not_not, not_not]
  rfl

end ToldApart

end Expansion

end SpirvBindings
