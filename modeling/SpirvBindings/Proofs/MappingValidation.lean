import SpirvBindings.Proofs.Lookup

/-! Which type map documents are accepted, and what is in an accepted one. A document is accepted if
its default is no generic letter, each mapping has a key and some types with at most one of them for
the result, and the mappings of each layer have different keys. A type map then has under each key
what the mapping with that key says. Otherwise the document is refused for its first violation. -/

namespace SpirvBindings

open Json (Decoder Value)

namespace TypeMap

/-! ### Valid documents -/

/-- A mapping has a key and some types, at most one of them for the result. -/
structure MappingDocument.WellFormed (d : MappingDocument) : Prop where
  keyed : ∃ key, d.key? = some key
  typed : ∃ entries, d.types? = some entries ∧ entries ≠ [] ∧ entries.countP (·.isResult) ≤ 1

/-- Mappings that can stand in one layer. -/
structure ValidMappings (ds : List MappingDocument) : Prop where
  wellFormed : ∀ d ∈ ds, d.WellFormed
  apart : ds.Pairwise (·.key? ≠ ·.key?)

/-- The type is one upper-case letter. -/
def IsLetter (type : String) : Prop := ∃ c, type.toList = [c] ∧ c.isUpper

namespace Document

def HasDefault (d : Document) : Prop := ∃ type, d.default? = some type ∧ ¬ IsLetter type

structure Valid (d : Document) : Prop where
  default : d.HasDefault
  mappings : ∀ layer, ValidMappings (d.mappings layer)

end Document

/-! ### Violations -/

/-- What is wrong with a mapping on its own. What it is keyed by comes before what it lists. -/
inductive MappingDocument.Violates (layer : Layer) (d : MappingDocument) : Fault → Prop
  | noKey (hkey : d.key? = none) : Violates layer d (.noKey layer)
  | noTypes {key : String} (hkey : d.key? = some key) (htypes : d.types? = none) :
    Violates layer d (.noTypes layer key)
  | emptyTypes {key : String} (hkey : d.key? = some key) (htypes : d.types? = some []) :
    Violates layer d (.emptyTypes layer key)
  | severalResults {key : String} {entries : List TypeEntry} (hkey : d.key? = some key)
      (htypes : d.types? = some entries) (hseveral : 2 ≤ entries.countP (·.isResult)) :
    Violates layer d (.severalResults layer key)

/-- The first violation in a layer: all mappings before it can stand in one layer. A key that is
there already is a violation of the later mapping. -/
inductive Layer.FirstViolation (layer : Layer) : List MappingDocument → Fault → Prop
  | mapping {before after : List MappingDocument} {d : MappingDocument} {fault : Fault}
      (hbefore : ValidMappings before) (h : d.Violates layer fault) :
    FirstViolation layer (before ++ d :: after) fault
  | repeatedKey {before after : List MappingDocument} {d other : MappingDocument} {key : String}
      (hbefore : ValidMappings before) (hd : d.WellFormed) (hkey : d.key? = some key)
      (hother : other ∈ before) (hsame : other.key? = some key) :
    FirstViolation layer (before ++ d :: after) (.repeatedKey layer key)

/-- The first violation in a document: the default comes before the classes, and the classes come
before the instructions. -/
inductive Document.FirstViolation (d : Document) : Fault → Prop
  | noDefault (h : d.default? = none) : FirstViolation d .noDefault
  | genericDefault {type : String} (h : d.default? = some type) (hletter : IsLetter type) :
    FirstViolation d (.genericDefault type)
  | classes {fault : Fault} (hdefault : d.HasDefault)
      (h : Layer.byClass.FirstViolation d.classMappings fault) : FirstViolation d fault
  | instructions {fault : Fault} (hdefault : d.HasDefault)
      (hclasses : ValidMappings d.classMappings)
      (h : Layer.byInstruction.FirstViolation d.instructionMappings fault) : FirstViolation d fault

/-! ### One mapping -/

variable {layer : Layer} {fault : Fault}

theorem MappingDocument.wellFormed_iff {d : MappingDocument} :
    d.WellFormed ↔ ∃ entry, d.validate layer = .ok entry := by
  simp only [Prod.exists, validate_eq_ok_iff]
  constructor
  · rintro ⟨⟨key, hkey⟩, entries, htypes, hne, hone⟩
    exact ⟨key, _, hkey, entries, htypes, hne, hone, rfl⟩
  · rintro ⟨key, -, hkey, entries, htypes, hne, hone, -⟩
    exact ⟨⟨key, hkey⟩, entries, htypes, hne, hone⟩

theorem MappingDocument.validate_eq_error_iff {d : MappingDocument} :
    d.validate layer = .error fault ↔ d.Violates layer fault := by
  unfold validate
  constructor
  · intro h
    split at h
    next hkey =>
      cases h
      exact .noKey hkey
    next hkey htypes =>
      cases h
      exact .noTypes hkey htypes
    next key entries hkey htypes =>
      split at h
      next hempty =>
        cases h
        exact .emptyTypes hkey (by rw [htypes, List.isEmpty_iff.mp hempty])
      next =>
        split at h
        next hseveral =>
          cases h
          exact .severalResults hkey htypes hseveral
        next => cases h
  · rintro (hkey | ⟨hkey, htypes⟩ | ⟨hkey, htypes⟩ | ⟨hkey, htypes, hseveral⟩)
    · simp [hkey]
    · simp [hkey, htypes]
    · simp [hkey, htypes]
    · simp only [hkey, htypes]
      rw [if_neg, if_pos (Nat.lt_of_succ_le hseveral)]
      rw [List.isEmpty_iff]
      rintro rfl
      simp at hseveral

/-! ### Layers -/

theorem validMappings_iff {ds : List MappingDocument} :
    ValidMappings ds ↔ ∃ entries, validateLayer layer [] ds = .ok entries := by
  simp only [validateLayer_eq_checkKeyed]
  rw [exists_checkKeyed_eq_ok_iff (MappingDocument.keyed layer)]
  simp only [← MappingDocument.wellFormed_iff]
  exact ⟨fun h => ⟨h.wellFormed, h.apart⟩, fun h => ⟨h.1, h.2⟩⟩

theorem validateLayer_eq_error_iff {ds : List MappingDocument} :
    validateLayer layer [] ds = .error fault ↔ layer.FirstViolation ds fault := by
  rw [validateLayer_eq_checkKeyed, checkKeyed_nil_eq_error_iff (MappingDocument.keyed layer)]
  simp only [← MappingDocument.wellFormed_iff, MappingDocument.validate_eq_error_iff]
  constructor
  · rintro ⟨before, d, after, rfl, ⟨hwell, hapart⟩, hviolates | ⟨entry, hd, ⟨o, ho, hsame⟩, rfl⟩⟩
    · exact .mapping ⟨hwell, hapart⟩ hviolates
    · have hkey := MappingDocument.key?_eq_of_validate hd
      exact .repeatedKey ⟨hwell, hapart⟩ (MappingDocument.wellFormed_iff.mpr ⟨entry, hd⟩) hkey ho
        (hsame.trans hkey)
  · rintro (⟨hbefore, hviolates⟩ | ⟨hbefore, hd, hkey, hother, hsame⟩)
    · exact ⟨_, _, _, rfl, ⟨hbefore.wellFormed, hbefore.apart⟩, .inl hviolates⟩
    · obtain ⟨entry, hentry⟩ := MappingDocument.wellFormed_iff.mp hd
      have hsome := MappingDocument.key?_eq_of_validate hentry
      refine ⟨_, _, _, rfl, ⟨hbefore.wellFormed, hbefore.apart⟩, .inr ⟨entry, hentry,
        ⟨_, hother, hsame.trans hkey.symm⟩, ?_⟩⟩
      rw [Option.some.inj (hkey.symm.trans hsome)]

/-! ### Documents -/

variable {d : Document} {m : TypeMap}

/-- What validation comes to once there is a default. -/
theorem Document.validate_eq_of_hasDefault {type : String} (hdefault : d.default? = some type)
    (hletter : ¬ IsLetter type) :
    d.validate = (do
      let classes ← validateLayer .byClass [] d.classMappings
      let instructions ← validateLayer .byInstruction [] d.instructionMappings
      return ⟨type, classes, instructions⟩) := by
  rw [IsLetter, ← Identifier.isGenericLetter_iff] at hletter
  simp only [validate, hdefault]
  rw [if_neg hletter]

/-- Without a default that is usable nothing else is looked at. -/
theorem Document.validate_eq_of_not_hasDefault (h : ¬ d.HasDefault) :
    d.default? = none ∧ d.validate = .error .noDefault ∨
      ∃ type, d.default? = some type ∧ IsLetter type ∧
        d.validate = .error (.genericDefault type) := by
  cases hdefault : d.default? with
  | none => exact .inl ⟨rfl, by simp [validate, hdefault]⟩
  | some type =>
    have hletter : IsLetter type := not_not.mp fun hno => h ⟨type, hdefault, hno⟩
    refine .inr ⟨type, rfl, hletter, ?_⟩
    rw [IsLetter, ← Identifier.isGenericLetter_iff] at hletter
    simp only [validate, hdefault]
    rw [if_pos hletter]
    rfl

theorem Document.validate_eq_error_iff : d.validate = .error fault ↔ d.FirstViolation fault := by
  by_cases h : d.HasDefault
  · obtain ⟨type, hdefault, hletter⟩ := h
    rw [validate_eq_of_hasDefault hdefault hletter, bind_eq_error_iff]
    constructor
    · rintro (hclasses | ⟨classes, hclasses, hrest⟩)
      · exact .classes ⟨type, hdefault, hletter⟩ (validateLayer_eq_error_iff.mp hclasses)
      · rcases bind_eq_error_iff.mp hrest with hinstructions | ⟨_, -, hpure⟩
        · exact .instructions ⟨type, hdefault, hletter⟩ (validMappings_iff.mpr ⟨_, hclasses⟩)
            (validateLayer_eq_error_iff.mp hinstructions)
        · cases hpure
    · rintro (hnone | ⟨hsome, hletter'⟩ | ⟨-, hclasses⟩ | ⟨-, hclasses, hinstructions⟩)
      · cases hnone.symm.trans hdefault
      · cases hsome.symm.trans hdefault
        exact absurd hletter' hletter
      · exact .inl (validateLayer_eq_error_iff.mpr hclasses)
      · obtain ⟨classes, hclasses⟩ := validMappings_iff.mp hclasses
        exact .inr ⟨classes, hclasses, bind_eq_error_iff.mpr
          (.inl (validateLayer_eq_error_iff.mpr hinstructions))⟩
  · constructor
    · intro hfault
      rcases validate_eq_of_not_hasDefault h with
        ⟨hnone, hvalidate⟩ | ⟨type, hsome, hletter, hvalidate⟩
      · cases hvalidate.symm.trans hfault
        exact .noDefault hnone
      · cases hvalidate.symm.trans hfault
        exact .genericDefault hsome hletter
    · rintro (hnone | ⟨hsome, hletter⟩ | ⟨hdefault, -⟩ | ⟨hdefault, -⟩)
      · rcases validate_eq_of_not_hasDefault h with ⟨-, hvalidate⟩ | ⟨type, hsome, -⟩
        · exact hvalidate
        · cases hnone.symm.trans hsome
      · rcases validate_eq_of_not_hasDefault h with ⟨hnone, -⟩ | ⟨type, hsome', -, hvalidate⟩
        · cases hnone.symm.trans hsome
        · cases hsome.symm.trans hsome'
          exact hvalidate
      · exact absurd hdefault h
      · exact absurd hdefault h

theorem Document.exists_validate_eq_ok_iff : (∃ m, d.validate = .ok m) ↔ d.Valid := by
  constructor
  · rintro ⟨m, hm⟩
    have h := validates_of_validate hm
    have hdefault : d.HasDefault := by
      by_contra hno
      rcases validate_eq_of_not_hasDefault hno with ⟨-, herror⟩ | ⟨_, -, -, herror⟩ <;>
        cases herror.symm.trans hm
    refine ⟨hdefault, fun layer => ?_⟩
    cases layer with
    | byClass => exact validMappings_iff.mpr ⟨_, h.classes⟩
    | byInstruction => exact validMappings_iff.mpr ⟨_, h.instructions⟩
  · rintro ⟨⟨type, hdefault, hletter⟩, hmappings⟩
    obtain ⟨classes, hclasses⟩ := validMappings_iff.mp (hmappings .byClass)
    obtain ⟨instructions, hinstructions⟩ := validMappings_iff.mp (hmappings .byInstruction)
    refine ⟨⟨type, classes, instructions⟩, ?_⟩
    rw [validate_eq_of_hasDefault hdefault hletter]
    exact bind_eq_ok_iff.mpr ⟨classes, hclasses, bind_eq_ok_iff.mpr
      ⟨instructions, hinstructions, rfl⟩⟩

end TypeMap

/-! ### What is found under a key -/

/-- A mapping has the entries that a document lists, under their stripped names: the one for the
result, and the others in order. -/
structure TypeMapping.Holds (content : TypeMapping) (entries : List TypeEntry) : Prop where
  result : ∀ e ∈ entries, e.isResult → content.result? = some e.stripped
  noResult : (∀ e ∈ entries, ¬ e.isResult) → content.result? = none
  parameters : content.parameters = (entries.filter (! ·.isResult)).map TypeEntry.stripped

namespace TypeMap

variable {d : Document} {m : TypeMap}

/-- What a type map has under a key. -/
structure Finds (d : Document) (m : TypeMap) (layer : Layer) (key : String) : Prop where
  absent : m.mapping? layer key = none ↔ ∀ mapping ∈ d.mappings layer, mapping.key? ≠ some key
  present : ∀ mapping ∈ d.mappings layer, mapping.key? = some key → ∃ entries content,
    mapping.types? = some entries ∧ m.mapping? layer key = some content ∧ content.Holds entries

theorem holds_mapping {entries : List TypeEntry} (hone : entries.countP (·.isResult) ≤ 1) :
    (MappingDocument.mapping entries).Holds entries where
  result e he hresult := by
    have hmem : e ∈ entries.filter (·.isResult) := List.mem_filter.mpr ⟨he, hresult⟩
    rw [List.countP_eq_length_filter] at hone
    obtain ⟨only, honly⟩ :=
      List.length_eq_one_iff.mp (Nat.le_antisymm hone (List.length_pos_of_mem hmem))
    rw [honly, List.mem_singleton] at hmem
    rw [result?_mapping, honly, hmem]
    rfl
  noResult hnone := by
    have hnil : entries.filter (·.isResult) = [] := List.filter_eq_nil_iff.mpr hnone
    rw [result?_mapping, hnil]
    rfl
  parameters := parameters_mapping entries

theorem Validates.finds (h : Validates d m) (layer : Layer) (key : String) :
    Finds d m layer key := by
  obtain ⟨found, hfound, hlookup⟩ := h.layer layer
  have hpresent : ∀ mapping ∈ d.mappings layer, mapping.key? = some key → ∃ entries content,
      mapping.types? = some entries ∧ m.mapping? layer key = some content ∧
        content.Holds entries := by
    intro mapping hmem hkey
    obtain ⟨entries, htypes, -, hone⟩ :=
      ((validMappings_iff.mpr ⟨found, hfound⟩).wellFormed mapping hmem).typed
    refine ⟨entries, MappingDocument.mapping entries, htypes, ?_, holds_mapping hone⟩
    rw [hlookup, lookup_of_validateLayer hfound, find?_of_mem_mappings hfound hmem hkey,
      Option.bind_some, htypes, Option.map_some]
  refine ⟨⟨fun hnone mapping hmem hkey => ?_, fun hno => ?_⟩, hpresent⟩
  · obtain ⟨-, content, -, hcontent, -⟩ := hpresent mapping hmem hkey
    cases hnone.symm.trans hcontent
  · have hnone : (d.mappings layer).find? (·.key? == some key) = none :=
      List.find?_eq_none.mpr fun mapping hmem => by simpa using hno mapping hmem
    rw [hlookup, lookup_of_validateLayer hfound, hnone]
    rfl

/-! ### Accepted texts -/

/-- Which texts are accepted as type maps, with what content, and why others are refused. -/
structure ValidatedExactly (source : String) (d : Document) : Prop where
  accepted : (∃ m, TypeMap.documentKind.parse source = .ok m) ↔ d.Valid
  content : ∀ m, TypeMap.documentKind.parse source = .ok m →
    d.default? = some m.defaultType ∧ ∀ layer key, Finds d m layer key
  refused : ∀ failure, TypeMap.documentKind.parse source = .error failure ↔
    ∃ fault, d.FirstViolation fault ∧ failure = ⟨[], .typeMap fault⟩

/-- A text that can be decoded is accepted if it is valid, and a type map that it is accepted as has
all its mappings. If it is not valid, it is refused for its first violation. -/
theorem validated_exactly {source : String} (h : documentRecord.decode.document source = .ok d) :
    ValidatedExactly source d := by
  have hparse : TypeMap.documentKind.parse source = _ :=
    DocumentKind.parse_of_decoded (fun _ => rfl) h
  refine ⟨?_, fun m hm => ?_, fun failure => ?_⟩
  · simp only [hparse, mapError_eq_ok_iff, Document.exists_validate_eq_ok_iff]
  · rw [hparse, mapError_eq_ok_iff] at hm
    have hvalidates := validates_of_validate hm
    exact ⟨hvalidates.defaultType, hvalidates.finds⟩
  · simp only [hparse, mapError_eq_error_iff, Document.validate_eq_error_iff]
    exact exists_congr fun fault => and_congr_right fun _ => eq_comm

/-- A type map with two mappings for one instruction, the later one without types. -/
def loadTypes : Value := .object [
  ("default", .string "uint32_t"),
  ("classMappings", .array [.object [("class", .string "Memory"), ("types", .array [
    .object [("kind", .string "IdRef"), ("type", .string "T")]])]]),
  ("instructionMappings", .array [
    .object [("instruction", .string "OpLoad"), ("types", .array [
      .object [("kind", .string "IdRef"), ("name", .string "'Base Pointer'"),
        ("type", .string "uint64_t")],
      .object [("kind", .string "IdResultType"), ("type", .string "T")]])],
    .object [("instruction", .string "OpLoad"), ("types", .array [])],
    .object [("types", .array [])]])]

/-- The empty list is what the document is refused for, before the key that is repeated and the one
that is missing. -/
theorem loadTypes_validated_exactly :
    TypeMap.documentKind.parse loadTypes.indentedText =
        .error ⟨[], .typeMap (.emptyTypes .byInstruction "OpLoad")⟩ ∧
      (∃ d, documentRecord.decode.document loadTypes.indentedText = .ok d ∧
        d.FirstViolation (.emptyTypes .byInstruction "OpLoad") ∧
        ValidatedExactly loadTypes.indentedText d) ∧
      ∃ m d, TypeMap.documentKind.parse copyTypes.indentedText = .ok m ∧ d.Valid ∧
        Finds d m .byClass "Composite" ∧ ValidatedExactly copyTypes.indentedText d := by
  obtain ⟨d, hd, hinvalid⟩ : ∃ d, documentRecord.decode loadTypes.tree = .ok d ∧
      d.validate = .error (.emptyTypes .byInstruction "OpLoad") := ⟨_, rfl, rfl⟩
  obtain ⟨c, hc, m, hvalid⟩ : ∃ c, documentRecord.decode copyTypes.tree = .ok c ∧
      ∃ m, c.validate = .ok m := ⟨_, rfl, _, rfl⟩
  have hload : documentRecord.decode.document loadTypes.indentedText = .ok d := by
    rw [Decoder.document_indentedText, hd]
  have hcopy : documentRecord.decode.document copyTypes.indentedText = .ok c := by
    rw [Decoder.document_indentedText, hc]
  have hrefused : TypeMap.documentKind.parse loadTypes.indentedText =
      .error ⟨[], .typeMap (.emptyTypes .byInstruction "OpLoad")⟩ := by
    rw [DocumentKind.parse_of_decoded (fun _ => rfl) hload, hinvalid]
    rfl
  have haccepted : TypeMap.documentKind.parse copyTypes.indentedText = .ok m := by
    rw [DocumentKind.parse_of_decoded (fun _ => rfl) hcopy, hvalid]
    rfl
  have hexact := validated_exactly hcopy
  exact ⟨hrefused, ⟨d, hload, Document.validate_eq_error_iff.mp hinvalid, validated_exactly hload⟩,
    m, c, haccepted, hexact.accepted.mp ⟨m, haccepted⟩, (hexact.content m haccepted).2 _ _, hexact⟩

end TypeMap

end SpirvBindings
