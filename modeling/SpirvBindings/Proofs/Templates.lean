import Mathlib.Data.List.Nodup
import Mathlib.Data.List.Perm.Basic
import SpirvBindings.Proofs.Choices

/-! The template parameters of a declaration are exactly the generic names of its signature. Each
has a name of its own that occurs in the result type or in the type or default of a parameter, and
each generic letter that occurs there is a template parameter: the vector size if the guard of the
declaration widens its element, a type otherwise. An alignment in a default is a value parameter. -/

namespace SpirvBindings

open Identifier

/-! ### Template lists -/

namespace Signature

variable {result : String} {ps : List Parameter} {generics : List String}
  {values : List ValueParameter}

theorem nodup_eraseDups (names : List String) : names.eraseDups.Nodup := by
  induction hn : names.length using Nat.strongRecOn generalizing names with
  | ind n ih =>
    cases names with
    | nil => simp
    | cons x xs =>
      have hlen : (xs.filter fun y => ! y == x).length < n := by
        have := List.length_filter_le (fun y => ! y == x) xs
        simp only [List.length_cons] at hn
        omega
      rw [List.eraseDups_cons]
      exact List.nodup_cons.mpr ⟨by simp [List.mem_eraseDups], ih _ hlen _ rfl⟩

/-- A token stands for a value parameter with its name, or else for a type if it is generic. -/
theorem templateOf?_cases (generics : List String) (values : List ValueParameter) (token : String) :
    (∃ v ∈ values, v.name = token ∧ templateOf? generics values token = some (.value v)) ∨
      (¬ ∃ v ∈ values, v.name = token) ∧ templateOf? generics values token =
        if isGenericLetter token ∨ token ∈ generics then some (.typename token) else none := by
  unfold templateOf?
  cases hfind : values.find? (·.name == token) with
  | some v =>
    have hv : v.name = token := by simpa using List.find?_some hfind
    exact .inl ⟨v, List.mem_of_find?_eq_some hfind, hv, rfl⟩
  | none =>
    have hno : ¬ ∃ v ∈ values, v.name = token := by simpa using hfind
    exact .inr ⟨hno, by simp only [Bool.or_eq_true, List.contains_iff_mem]⟩

theorem exists_templateOf?_iff {token : String} :
    (∃ t, templateOf? generics values token = some t) ↔
      (∃ v ∈ values, v.name = token) ∨ isGenericLetter token ∨ token ∈ generics := by
  rcases templateOf?_cases generics values token with ⟨v, hv, hname, hof⟩ | ⟨hno, hof⟩
  · rw [hof]
    exact iff_of_true ⟨_, rfl⟩ (.inl ⟨v, hv, hname⟩)
  · rw [hof]
    simp [hno]

theorem name_of_templateOf? {token : String} {t : TemplateParameter}
    (h : templateOf? generics values token = some t) : t.name = token := by
  unfold templateOf? at h
  split at h
  next p hp =>
    cases h
    simpa [TemplateParameter.name] using List.find?_some hp
  next =>
    split at h <;> cases h
    rfl

/-- A template parameter of a signature is what one of its tokens stands for. -/
theorem mem_templates_iff {t : TemplateParameter} :
    t ∈ templates result ps generics values ↔
      t.name ∈ (typeTexts result ps).flatMap tokens ∧
        templateOf? generics values t.name = some t := by
  simp only [templates, List.mem_filterMap, List.mem_eraseDups]
  constructor
  · rintro ⟨token, htoken, ht⟩
    rw [name_of_templateOf? ht]
    exact ⟨htoken, ht⟩
  · rintro ⟨htoken, ht⟩
    exact ⟨_, htoken, ht⟩

/-- The names of the template parameters stand in the order of first appearance. -/
theorem names_templates_sublist :
    ((templates result ps generics values).map TemplateParameter.name).Sublist
      ((typeTexts result ps).flatMap tokens).eraseDups := by
  have hsub : ∀ names : List String,
      ((names.filterMap (templateOf? generics values)).map TemplateParameter.name).Sublist
        names := by
    intro names
    induction names with
    | nil => exact .slnil
    | cons x xs ih =>
      cases hx : templateOf? generics values x with
      | none =>
        rw [List.filterMap_cons_none hx]
        exact ih.cons _
      | some t =>
        rw [List.filterMap_cons_some hx, List.map_cons, name_of_templateOf? hx]
        exact ih.cons_cons _
  exact hsub _

theorem nodup_names_templates :
    ((templates result ps generics values).map TemplateParameter.name).Nodup :=
  (nodup_eraseDups _).sublist names_templates_sublist

theorem insertBehindTypes_perm (p : TemplateParameter) (ts : List TemplateParameter) :
    (insertBehindTypes p ts).Perm (p :: ts) := by
  induction ts with
  | nil => exact .refl _
  | cons t ts ih =>
    rw [insertBehindTypes]
    split
    · exact (ih.cons t).trans (.swap p t ts)
    · exact .refl _

/-- Moving a type parameter changes only the order. -/
theorem moveBehindTypes_perm (name : String) (ts : List TemplateParameter) :
    (moveBehindTypes name ts).Perm ts := by
  simp only [moveBehindTypes]
  split
  next h =>
    have hmem : TemplateParameter.typename name ∈ ts := by simpa using h
    exact (insertBehindTypes_perm _ _).trans (List.perm_cons_erase hmem).symm
  next => exact .refl _

end Signature

/-! ### Guards -/

/-- The capability that guards a declaration of an instruction: its first one, if the instruction
has a capability other than the base capability. -/
def Declaration.guard? (i : Instruction) (d : Declaration) : Option String :=
  if i.capabilities.all (· == "Shader") then none else d.capabilities.head?

namespace Expansion

theorem prefix_foldl_addCapability (i : Instruction) (needed capabilities : List String) :
    capabilities <+: needed.foldl (addCapability i) capabilities := by
  induction needed generalizing capabilities with
  | nil => exact List.prefix_rfl
  | cons c needed ih =>
    have hstep : capabilities <+: addCapability i capabilities c := by
      unfold addCapability
      split
      · exact List.prefix_rfl
      · exact List.prefix_append _ _
    exact hstep.trans (ih _)

theorem guard_prefix_declaredCapabilities (i : Instruction) (shape : Shape)
    (guard? : Option String) (types : List ResolvedType) :
    guard?.toList <+: declaredCapabilities i shape guard? types :=
  prefix_foldl_addCapability _ _ _

/-- The guard of a declaration is the one it was made under. -/
theorem guard?_of_mem_declarations {m : TypeMap} {i : Instruction} {r : Request} {c : Choice}
    {d : Declaration} (hc : c ∈ choices m i r) (hd : d ∈ c.declarations m i r) :
    d.guard? i = c.guard? := by
  obtain ⟨ps, -, rfl⟩ := List.mem_map.mp hd
  have hguard := (mem_choices_iff.mp hc).2.2.1
  unfold Declaration.guard?
  rcases guards_cases i with hnil | ⟨hnone, hall⟩ | ⟨names, hnames, hsome⟩
  · simp [hnil] at hguard
  · rw [hnone, List.mem_singleton] at hguard
    rw [if_pos hall, hguard]
  · rw [hsome] at hguard
    obtain ⟨name, hname, hsome⟩ := List.mem_map.mp hguard
    obtain ⟨hmem, hne⟩ := List.mem_filter.mp (hnames ▸ hname)
    have hall : ¬ i.capabilities.all (· == "Shader") := by
      simp only [List.all_eq_true, not_forall]
      exact ⟨name, hmem, by simpa using hne⟩
    obtain ⟨rest, hrest⟩ := guard_prefix_declaredCapabilities i r.shape c.guard?
      [c.element, operandType r c.guarded.type]
    rw [if_neg hall]
    change (declaredCapabilities i r.shape c.guard? _).head? = c.guard?
    rw [← hrest, ← hsome]
    rfl

/-! ### Exact templates -/

/-- The template parameter that a generic letter is under a guard. -/
def letterTemplate (guard? : Option String) (letter : String) : TemplateParameter :=
  if letter = "N" ∧ widens guard? then .value ⟨"uint32_t", "N"⟩ else .typename letter

def alignmentTemplate : TemplateParameter := .value ⟨"uint32_t", "alignment"⟩

/-- The names of the value parameters: the vector size if the guard widens the element, and the
alignment if a default mentions it. -/
theorem exists_valueParameter_iff {guard? : Option String} {element : ResolvedType}
    {ps : List Parameter} {name : String} :
    (∃ v ∈ valueParameters (widened guard? element) ps, v.name = name) ↔
      (widens guard? ∧ name = vectorSize.name) ∨
        name = alignmentName ∧ ∃ p ∈ ps, p.default? = some alignmentName := by
  have hsize : (∃ v ∈ (widened guard? element).values, v.name = name) ↔
      widens guard? ∧ name = vectorSize.name := by
    unfold widened
    split
    next h => simp [h, eq_comm]
    next h => simp [h]
  unfold valueParameters
  split
  next h =>
    have hany : ∃ p ∈ ps, p.default? = some alignmentName := by simpa using h
    simp only [List.mem_append, or_and_right, exists_or, hsize, hany, and_true,
      List.mem_singleton, exists_eq_left]
    exact or_congr_right eq_comm
  next h =>
    have hnone : ¬ ∃ p ∈ ps, p.default? = some alignmentName := by simpa using h
    simp only [hsize, hnone, and_false, or_false]

/-- A generic letter of a signature stands for the vector size or for a type. -/
theorem templateOf?_letter (guard? : Option String) (element : ResolvedType)
    (generics : List String) (ps : List Parameter) {letter : String}
    (hletter : isGenericLetter letter) :
    Signature.templateOf? generics (valueParameters (widened guard? element) ps) letter =
      some (letterTemplate guard? letter) := by
  have halign : (alignment.name == letter) = false := by
    rw [beq_eq_false_iff_ne]
    rintro rfl
    revert hletter
    decide
  have hvalues : (valueParameters (widened guard? element) ps).find? (·.name == letter) =
      (widened guard? element).values.find? (·.name == letter) := by
    unfold valueParameters
    split
    · simp [List.find?_append, halign]
    · rfl
  have hsize : (vectorSize.name == letter) = decide (letter = "N") := by
    rw [Bool.eq_iff_iff, beq_iff_eq, decide_eq_true_iff]
    exact eq_comm
  unfold Signature.templateOf? letterTemplate
  rw [hvalues]
  cases hw : widens guard? with
  | false => simp [widened, hw, hletter]
  | true =>
    by_cases hn : letter = "N"
    · simp [widened, hw, hn, vectorSize]
    · simp [widened, hw, hn, hsize, hletter]

/-- An alignment in a default is always a value parameter. -/
theorem templateOf?_alignment (guard? : Option String) (element : ResolvedType)
    (generics : List String) {ps : List Parameter}
    (h : ∃ p ∈ ps, p.default? = some alignmentName) :
    Signature.templateOf? generics (valueParameters (widened guard? element) ps) alignmentName =
      some alignmentTemplate := by
  have hany : ps.any (·.default? == some alignmentName) := by simpa using h
  have hvalues : (valueParameters (widened guard? element) ps).find? (·.name == alignmentName) =
      some alignment := by
    unfold valueParameters widened
    rw [if_pos hany]
    split <;> rfl
  simp only [Signature.templateOf?, hvalues]
  rfl

/-- An alignment in a default is a token of the signature. -/
theorem alignmentName_mem_tokens {result : String} {ps : List Parameter}
    (h : ∃ p ∈ ps, p.default? = some alignmentName) :
    alignmentName ∈ (Signature.typeTexts result ps).flatMap tokens := by
  obtain ⟨p, hp, hdefault⟩ := h
  have htoken : tokens alignmentName = [alignmentName] := by decide +kernel
  have htext : alignmentName ∈ Signature.typeTexts result ps := by
    apply List.mem_cons_of_mem
    exact List.mem_flatMap.mpr ⟨p, hp, by simp [Parameter.typeTexts, hdefault]⟩
  exact List.mem_flatMap.mpr ⟨alignmentName, htext, by simp [htoken]⟩

end Expansion

/-- The template parameters of a declaration under a guard are exactly those that its signature
needs. -/
structure Declaration.TemplatesExact (guard? : Option String) (d : Declaration) : Prop where
  nodup : (d.templates.map TemplateParameter.name).Nodup
  occurs : ∀ t ∈ d.templates, t.name ∈ (Signature.typeTexts d.result d.parameters).flatMap tokens
  letters : ∀ letter ∈ (Signature.typeTexts d.result d.parameters).flatMap tokens,
    isGenericLetter letter → ∀ t,
      t ∈ d.templates ∧ t.name = letter ↔ t = Expansion.letterTemplate guard? letter
  aligned : (∃ p ∈ d.parameters, p.default? = some Expansion.alignmentName) → ∀ t,
    t ∈ d.templates ∧ t.name = Expansion.alignmentName ↔ t = Expansion.alignmentTemplate

namespace Expansion

/-- A token that stands for a template parameter is that template parameter and no other. -/
theorem mem_signatureTemplates_iff {result token : String} {ps : List Parameter}
    {generics : List String} {values : List ValueParameter} {t : TemplateParameter}
    (htoken : token ∈ (Signature.typeTexts result ps).flatMap tokens)
    (ht : Signature.templateOf? generics values token = some t) (u : TemplateParameter) :
    u ∈ signatureTemplates result ps generics values ∧ u.name = token ↔ u = t := by
  rw [signatureTemplates, (Signature.moveBehindTypes_perm _ _).mem_iff,
    Signature.mem_templates_iff]
  constructor
  · rintro ⟨⟨-, hu⟩, rfl⟩
    exact Option.some.inj (hu.symm.trans ht)
  · rintro rfl
    have hname := Signature.name_of_templateOf? ht
    rw [hname]
    exact ⟨⟨htoken, ht⟩, rfl⟩

theorem nodup_names_signatureTemplates {result : String} {ps : List Parameter}
    {generics : List String} {values : List ValueParameter} :
    ((signatureTemplates result ps generics values).map TemplateParameter.name).Nodup := by
  have hperm := Signature.moveBehindTypes_perm pointerTemplate
    (Signature.templates result ps generics values)
  exact (hperm.map TemplateParameter.name).nodup_iff.mpr Signature.nodup_names_templates

/-- The names of the types that are generic in the declarations of a choice. -/
def Choice.generics (m : TypeMap) (i : Instruction) (r : Request) (c : Choice) : List String :=
  addGenerics (c.parameterSet m i r).generics
    [resultType i c.guarded.type, operandType r c.guarded.type]

/-- A declaration has the templates of its signature, with the values of its guarded element. -/
theorem templates_declaration (m : TypeMap) (i : Instruction) (r : Request) (c : Choice)
    (ps : List Parameter) :
    (c.declaration m i r ps).templates =
      signatureTemplates (c.declaration m i r ps).result ps (c.generics m i r)
        (valueParameters c.guarded ps) := by
  dsimp only [Choice.declaration, declare, Choice.generics]

theorem declaration_templatesExact {m : TypeMap} {i : Instruction} {r : Request} {c : Choice}
    (hc : c ∈ choices m i r) (ps : List Parameter) :
    (c.declaration m i r ps).TemplatesExact c.guard? := by
  have hwidened := guarded_eq_widened hc
  have htemplates := templates_declaration m i r c ps
  have hps : (c.declaration m i r ps).parameters = ps := rfl
  generalize c.declaration m i r ps = d at htemplates hps ⊢
  subst hps
  rw [hwidened] at htemplates
  refine ⟨?_, ?_, ?_, ?_⟩ <;> rw [htemplates]
  · exact nodup_names_signatureTemplates
  · intro t ht
    have hmem := (Signature.moveBehindTypes_perm pointerTemplate _).mem_iff.mp ht
    exact (Signature.mem_templates_iff.mp hmem).1
  · intro letter hmem hletter
    exact mem_signatureTemplates_iff hmem (templateOf?_letter _ _ _ _ hletter)
  · intro h
    exact mem_signatureTemplates_iff (alignmentName_mem_tokens h) (templateOf?_alignment _ _ _ h)

/-- Each declaration of an expansion has a guard of its instruction and exactly the template
parameters that its signature needs under this guard. -/
theorem expand_templatesExact {m : TypeMap} {i : Instruction} {r : Request}
    {ds : List Declaration} (h : i.expand r m = .ok (.declarations ds)) {d : Declaration}
    (hd : d ∈ ds) : d.guard? i ∈ guards i ∧ d.TemplatesExact (d.guard? i) := by
  obtain ⟨-, -, -, rfl⟩ := expand_eq_declarations_iff.mp h
  obtain ⟨c, hc, hd⟩ := List.mem_flatMap.mp hd
  rw [guard?_of_mem_declarations hc hd]
  obtain ⟨ps, -, rfl⟩ := List.mem_map.mp hd
  exact ⟨(mem_choices_iff.mp hc).2.2.1, declaration_templatesExact hc ps⟩

/-- An atomic addition whose guard asks for vectors. -/
def halfVectorAdd : Instruction where
  opname := "OpAtomicFAddEXT"
  className := "Atomic"
  opcode := 6035
  operands := [⟨"IdResultType", none, none⟩, ⟨"IdResult", none, none⟩,
    ⟨"IdRef", some "Pointer", none⟩, ⟨"IdScope", some "Memory", none⟩,
    ⟨"IdMemorySemantics", some "Semantics", none⟩, ⟨"IdRef", some "Value", none⟩]
  capabilities := ["AtomicFloat16VectorNV"]
  extensions := ["SPV_NV_shader_atomic_fp16_vector"]
  version? := none

theorem halfVectorAdd_templatesExact :
    ∃ d, halfVectorAdd.expand ⟨.pointerTemplate, none, none, none, []⟩ .standard =
        .ok (.declarations [d]) ∧
      d.templates = [.typename "P", .value ⟨"uint32_t", "N"⟩] ∧
        d.TemplatesExact (some "AtomicFloat16VectorNV") := by
  obtain ⟨d, hd, htemplates, hguard⟩ :
      ∃ d, halfVectorAdd.expand ⟨.pointerTemplate, none, none, none, []⟩ .standard =
          .ok (.declarations [d]) ∧
        d.templates = [.typename "P", .value ⟨"uint32_t", "N"⟩] ∧
          d.guard? halfVectorAdd = some "AtomicFloat16VectorNV" := ⟨_, rfl, rfl, rfl⟩
  have hexact := (expand_templatesExact hd (List.mem_singleton_self d)).2
  rw [hguard] at hexact
  exact ⟨d, hd, htemplates, hexact⟩

end Expansion

end SpirvBindings
