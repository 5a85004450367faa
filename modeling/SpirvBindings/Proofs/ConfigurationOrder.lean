import SpirvBindings.Header.Generation
import SpirvBindings.Proofs.Configuration.Documents

/-! The order of a configuration does not matter. A header only asks its policy, its type map and
its builtin variables about what its grammar has. So it stays the same under documents that differ
in the order of their lists, and by entries for what the grammar does not have; and each document is
accepted if and only if its counterpart is. -/

namespace SpirvBindings

open Json (Decoder Value)
open Json.Tree (ListRevised TextRevised)

variable {g : Grammar} {i : Instruction} {m m' : TypeMap} {p p' : Policy} {b b' : BuiltinTable}

/-! ### Type maps -/

namespace TypeMap

/-- Two type maps have the same entries for an instruction. -/
structure SameFor (i : Instruction) (m m' : TypeMap) : Prop where
  defaultType : m.defaultType = m'.defaultType
  result : m.entryOfResult? i = m'.entryOfResult? i
  operand : m.entryOfOperand? i = m'.entryOfOperand? i

theorem Agrees.sameFor (h : Agrees g m m') (hi : i ∈ g.instructions) : SameFor i m m' := by
  refine ⟨h.defaultType, ?_, funext fun o => ?_⟩
  · have hresult := fun layer => bind_eq_of_rel (h.mapping i hi layer) fun _ _ ha => ha.result
    rw [entryOfResult?, entryOfResult?, findSome?_layers, findSome?_layers, hresult, hresult]
  · have hoperand := fun layer => bind_eq_of_rel (h.mapping i hi layer) fun _ _ ha => ha.operand o
    rw [entryOfOperand?, entryOfOperand?, findSome?_layers, findSome?_layers, hoperand, hoperand]

end TypeMap

namespace Expansion

theorem parameters_of_sameFor (h : m.SameFor i m') : parameters m i = parameters m' i := by
  have hplace : place m i = place m' i := by
    funext s d o
    simp only [place, TypeMap.resolveOperand, h.operand, h.defaultType]
  funext s
  simp only [parameters, hplace]

theorem variantOverloads_of_sameFor (h : m.SameFor i m') (r : Request) :
    variantOverloads m i r = variantOverloads m' i r := by
  have helements : elements m i r = elements m' i r := by
    funext variant
    simp only [elements, TypeMap.resolveResult, h.result]
  have hoverloads : overloads m i r = overloads m' i r := by
    funext several variant element guard?
    simp only [overloads, parameters_of_sameFor h]
  funext guards variant
  simp only [variantOverloads, helements, hoverloads]

/-- An expansion only asks for the entries of its instruction. -/
theorem expand_of_sameFor (h : m.SameFor i m') (r : Request) : i.expand r m = i.expand r m' := by
  have hcount : m.variantCount i = m'.variantCount i := by
    simp only [TypeMap.variantCount, TypeMap.entries, h.result, h.operand]
  simp only [Instruction.expand, variantOverloads_of_sameFor h, hcount]

end Expansion

/-! ### Headers -/

theorem Instruction.declareAll_of_sameFor (h : m.SameFor i m') (ds : List Declaration)
    (rs : List Request) : i.declareAll m ds rs = i.declareAll m' ds rs := by
  induction rs generalizing ds with
  | nil => rfl
  | cons r rs ih => simp only [declareAll, Expansion.expand_of_sameFor h, ih]

theorem Policy.Agrees.strategy?_eq (h : p.Agrees g p') (hi : i ∈ g.instructions) :
    p.strategy? i = p'.strategy? i := by
  simp only [strategy?, h.isExcluded, h.classRule _ ⟨i, hi, rfl⟩, h.instructionRule _ ⟨i, hi, rfl⟩]

theorem Instruction.outcome_of_agrees (hp : p.Agrees g p') (hm : m.Agrees g m')
    (hi : i ∈ g.instructions) : i.outcome p m = i.outcome p' m' := by
  simp only [outcome, hp.strategy?_eq hi, declareAll_of_sameFor (hm.sameFor hi)]

namespace Sources

theorem outcomes_of_agrees (hp : p.Agrees g p') (hm : m.Agrees g m') (is : List Instruction)
    (his : ∀ i ∈ is, i ∈ g.instructions) :
    outcomes ⟨g, p, m, b⟩ is = outcomes ⟨g, p', m', b'⟩ is := by
  induction is with
  | nil => rfl
  | cons i is ih =>
    obtain ⟨hi, hrest⟩ := List.forall_mem_cons.mp his
    simp only [outcomes, Instruction.outcome_of_agrees hp hm hi, ih hrest]

theorem sections_of_agrees (hp : p.Agrees g p') (hb : b.Agrees g b') :
    sections ⟨g, p, m, b⟩ = sections ⟨g, p', m', b'⟩ := by
  have hbuiltins : Section.builtins (g.enumerants SectionKind.builtIn.operandKind) b =
      Section.builtins (g.enumerants SectionKind.builtIn.operandKind) b' := by
    simp only [Section.builtins]
    congr 3
    refine List.filterMap_congr fun e he => ?_
    rw [hb e.name ⟨e, he, rfl⟩]
  have hsections : sectionText ⟨g, p, m, b⟩ = sectionText ⟨g, p', m', b'⟩ := by
    funext kind
    cases kind with
    | builtIn => exact hbuiltins
    | executionMode => simp only [sectionText, funext hp.isExcluded]
    | groupOperation => rfl
  simp only [sections, hsections, funext hp.emits]

/-- A header only asks what its grammar has. -/
theorem generate_of_agrees (hp : p.Agrees g p') (hm : m.Agrees g m') (hb : b.Agrees g b')
    (comments : Bool) :
    generate ⟨g, p, m, b⟩ comments = generate ⟨g, p', m', b'⟩ comments := by
  have hprogress : progress ⟨g, p, m, b⟩ = progress ⟨g, p', m', b'⟩ :=
    outcomes_of_agrees hp hm g.instructions fun _ hi => hi
  have hsections : sections ⟨g, p, m, b⟩ = sections ⟨g, p', m', b'⟩ := sections_of_agrees hp hb
  simp only [generate, hprogress, textOf, hsections]

/-- Documents that differ in the order of their lists, and by entries for what the grammar does not
have, are accepted alike, and make the same header or fail with the same error. -/
theorem generate_order_independent {fields fields' types types' enumerants enumerants' : String}
    (hfields : TextRevised (Policy.Revised g) fields fields')
    (htypes : TextRevised (TypeMap.Revised g) types types')
    (henumerants : TextRevised (BuiltinTable.Revised g) enumerants enumerants') :
    ((∃ p, Policy.documentKind.parse fields = .ok p) ↔
        ∃ p, Policy.documentKind.parse fields' = .ok p) ∧
      ((∃ m, TypeMap.documentKind.parse types = .ok m) ↔
        ∃ m, TypeMap.documentKind.parse types' = .ok m) ∧
      ((∃ b, BuiltinTable.documentKind.parse enumerants = .ok b) ↔
        ∃ b, BuiltinTable.documentKind.parse enumerants' = .ok b) ∧
      ∀ p p' m m' b b', Policy.documentKind.parse fields = .ok p →
        Policy.documentKind.parse fields' = .ok p' → TypeMap.documentKind.parse types = .ok m →
        TypeMap.documentKind.parse types' = .ok m' →
        BuiltinTable.documentKind.parse enumerants = .ok b →
        BuiltinTable.documentKind.parse enumerants' = .ok b' → ∀ comments,
          generate ⟨g, p, m, b⟩ comments = generate ⟨g, p', m', b'⟩ comments := by
  have hpolicies := Policy.parse_corresponds hfields
  have htypeMaps := TypeMap.parse_corresponds htypes
  have htables := BuiltinTable.parse_corresponds henumerants
  refine ⟨hpolicies.succeeds_iff, htypeMaps.succeeds_iff, htables.succeeds_iff, ?_⟩
  intro p p' m m' b b' hp hp' hm hm' hb hb' comments
  exact generate_of_agrees (hpolicies.related hp hp') (htypeMaps.related hm hm')
    (htables.related hb hb') comments

/-- A grammar with a copy of an object and two builtin variables. -/
def copyGrammar : Grammar where
  majorVersion? := some 1
  minorVersion? := some 6
  revision? := some 4
  instructions := [TypeMap.copyLogical]
  operandKinds := [⟨"ValueEnum", "BuiltIn",
    [⟨"Position", .number (.integer 0), []⟩, ⟨"VertexIndex", .number (.integer 42), []⟩]⟩]

/-- The rule for the class of the copy. -/
def compositeRule : Value := .object [("class", .string "Composite")]

/-- A rule for a class that the grammar does not have. -/
def imageRule : Value := .object [("class", .string "Image"), ("only_listed", .bool true)]

/-- A fields document with given suffixes and classes. -/
def copyFields (suffixes classes : List Value) : Value := .object [
  ("version", .number (.integer 1)), ("exclude_suffixes", .array suffixes),
  ("enumerants", .array [.string "BuiltIn"]), ("classes", .array classes)]

/-- The types of the result and of the operand of the copy. -/
def copyEntries : List Value := [
  .object [("kind", .string "IdResultType"), ("type", .string "float32_t")],
  .object [("kind", .string "IdRef"), ("name", .string "Operand"), ("type", .string "int32_t")]]

/-- The mapping for the copy with given types. -/
def copyMapping (entries : List Value) : Value :=
  .object [("instruction", .string "OpCopyLogical"), ("types", .array entries)]

/-- A type map document with given types for the copy. -/
def copyMappings (entries : List Value) : Value :=
  .object [("default", .string "uint32_t"), ("instructionMappings", .array [copyMapping entries])]

def copyBuiltins : List Value := [
  .object [("name", .string "VertexIndex"), ("type", .string "uint32_t")],
  .object [("name", .string "Position"), ("type", .string "float32_t4"), ("output", .bool true)]]

/-- An enumerants document with given builtin variables. -/
def copyEnumerants (builtins : List Value) : Value :=
  .object [("version", .number (.integer 1)), ("builtins", .array builtins)]

/-- Suffixes in another order, and classes without the additional one. -/
theorem copyFields_revised : Policy.Revised copyGrammar
    (copyFields [.string "INTEL", .string "NV"] [imageRule, compositeRule]).tree
    (copyFields [.string "NV", .string "INTEL"] [compositeRule]).tree := by
  have hsuffixes : ListRevised List.Perm (.array (.ofList [.string "INTEL", .string "NV"]))
      (.array (.ofList [.string "NV", .string "INTEL"])) := .array (.swap _ _ _)
  have hadded : Additions
      (fun t => ∃ d, Policy.classRecord.decode t = .ok d ∧ Policy.ClassDocument.New copyGrammar d)
      (Policy.classRecord.decode.Apart (·.className)) [compositeRule.tree] [imageRule.tree] := by
    refine ⟨?_, ?_, List.pairwise_singleton _ _⟩
    · rw [List.forall_mem_singleton]
      exact ⟨_, rfl, by decide, by simp [Grammar.HasClass, copyGrammar, TypeMap.copyLogical]⟩
    · rw [List.forall_mem_singleton, List.forall_mem_singleton]
      exact Decoder.apart_of_decode rfl rfl (by decide)
  have hclasses : Policy.Revision copyGrammar "classes"
      (.array (.ofList [imageRule.tree, compositeRule.tree]))
      (.array (.ofList [compositeRule.tree])) :=
    .array ⟨.swap _ _ _, .rfl, .cons rfl .nil, hadded, .none _⟩
  refine .object (.cons ?_ (.cons ?_ (.cons ?_ (.cons ?_ .closed))))
  all_goals rintro _ ⟨rfl⟩
  · rfl
  · exact hsuffixes
  · exact .same _
  · exact hclasses

/-- The types of the copy in another order. -/
theorem copyMappings_revised : TypeMap.Revised copyGrammar (copyMappings copyEntries).tree
    (copyMappings copyEntries.reverse).tree := by
  have htypes : TypeMap.mappingRevision "types" (.array (.ofList (copyEntries.map Value.tree)))
      (.array (.ofList (copyEntries.map Value.tree).reverse)) := by
    refine .array ⟨(List.reverse_perm _).symm, List.pairwise_pair.mpr ?_⟩
    exact Decoder.apart_of_decode rfl rfl (by decide)
  have hmapping : TypeMap.MappingRevised TypeMap.instructionRecord (copyMapping copyEntries).tree
      (copyMapping copyEntries.reverse).tree := by
    refine .object (.cons ?_ (.cons ?_ .closed))
    all_goals rintro _ ⟨rfl⟩
    · rfl
    · exact htypes
  have hmappings : TypeMap.Revision copyGrammar "instructionMappings"
      (.array (.ofList [(copyMapping copyEntries).tree]))
      (.array (.ofList [(copyMapping copyEntries.reverse).tree])) :=
    .array ⟨.rfl, .rfl, .cons hmapping .nil, .none _, .none _⟩
  refine .object (.cons ?_ (.cons ?_ .closed))
  all_goals rintro _ ⟨rfl⟩
  · rfl
  · exact hmappings

/-- The builtin variables in another order. -/
theorem copyEnumerants_revised : BuiltinTable.Revised copyGrammar
    (copyEnumerants copyBuiltins).tree (copyEnumerants copyBuiltins.reverse).tree := by
  have hbuiltins : BuiltinTable.Revision copyGrammar "builtins"
      (.array (.ofList (copyBuiltins.map Value.tree)))
      (.array (.ofList (copyBuiltins.map Value.tree).reverse)) :=
    .array (.of_perm (fun _ => rfl) (List.reverse_perm _).symm)
  refine .object (.cons ?_ (.cons ?_ .closed))
  all_goals rintro _ ⟨rfl⟩
  · rfl
  · exact hbuiltins

/-- The copy is declared in one way under two configurations. -/
theorem copyGrammar_order_independent :
    ∃ p p' m m' b b',
      Policy.documentKind.parse (copyFields [.string "INTEL", .string "NV"]
        [imageRule, compositeRule]).indentedText = .ok p ∧
      Policy.documentKind.parse (copyFields [.string "NV", .string "INTEL"]
        [compositeRule]).indentedText = .ok p' ∧
      TypeMap.documentKind.parse (copyMappings copyEntries).indentedText = .ok m ∧
      TypeMap.documentKind.parse (copyMappings copyEntries.reverse).indentedText = .ok m' ∧
      BuiltinTable.documentKind.parse (copyEnumerants copyBuiltins).indentedText = .ok b ∧
      BuiltinTable.documentKind.parse (copyEnumerants copyBuiltins.reverse).indentedText = .ok b' ∧
      p ≠ p' ∧ b ≠ b' ∧ (∃ header, generate ⟨copyGrammar, p, m, b⟩ true = .ok header) ∧
      ∀ comments, generate ⟨copyGrammar, p, m, b⟩ comments =
        generate ⟨copyGrammar, p', m', b'⟩ comments := by
  have hp := DocumentKind.parse_indentedText Policy.ofText_eq
    (v := copyFields [.string "INTEL", .string "NV"] [imageRule, compositeRule]) rfl rfl
  have hp' := DocumentKind.parse_indentedText Policy.ofText_eq
    (v := copyFields [.string "NV", .string "INTEL"] [compositeRule]) rfl rfl
  have hm := DocumentKind.parse_indentedText TypeMap.ofText_eq (v := copyMappings copyEntries)
    rfl rfl
  have hm' := DocumentKind.parse_indentedText TypeMap.ofText_eq
    (v := copyMappings copyEntries.reverse) rfl rfl
  have hb := DocumentKind.parse_indentedText BuiltinTable.ofText_eq
    (v := copyEnumerants copyBuiltins) rfl rfl
  have hb' := DocumentKind.parse_indentedText BuiltinTable.ofText_eq
    (v := copyEnumerants copyBuiltins.reverse) rfl rfl
  obtain ⟨-, -, -, hsame⟩ := generate_order_independent
    (Json.Tree.textRevised_indentedText copyFields_revised)
    (Json.Tree.textRevised_indentedText copyMappings_revised)
    (Json.Tree.textRevised_indentedText copyEnumerants_revised)
  exact ⟨_, _, _, _, _, _, hp, hp', hm, hm', hb, hb', by decide, by decide, ⟨_, rfl⟩,
    hsame _ _ _ _ _ _ hp hp' hm hm' hb hb'⟩

end Sources

end SpirvBindings
