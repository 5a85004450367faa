import SpirvBindings.Loading
import SpirvBindings.Proofs.Configuration.Validation
import SpirvBindings.Proofs.Json.Decoding
import SpirvBindings.TypeMap.Resolution

/-! Which entry of a type map document an operand or a result is resolved with. An entry for the
name of the operand comes before one for its kind, and the mapping of the instruction comes before
the mapping of its class; of the entries of one step the first in the document counts. Names are
compared without what stripping removes. Results are resolved with result entries only, and result
slots are not resolved as operands. -/

namespace SpirvBindings

/-! ### Entries of a document -/

namespace TypeEntry

/-- The entry is for the name of an operand, whatever is stripped from the two names. -/
def NamesOperand (o : Operand) (e : TypeEntry) : Prop :=
  e.kind = o.kind ∧ e.name?.isSome ∧ e.name?.map Naming.strip = o.name?.map Naming.strip

/-- The entry is for all operands of the kind of an operand. -/
def CoversKind (o : Operand) (e : TypeEntry) : Prop := e.kind = o.kind ∧ e.name? = none

instance (o : Operand) (e : TypeEntry) : Decidable (e.NamesOperand o) :=
  inferInstanceAs (Decidable (_ ∧ _ ∧ _))

instance (o : Operand) (e : TypeEntry) : Decidable (e.CoversKind o) :=
  inferInstanceAs (Decidable (_ ∧ _))

/-- An operand without a name is named by no entry. -/
theorem not_namesOperand {o : Operand} (h : o.name? = none) (e : TypeEntry) :
    ¬ e.NamesOperand o := by
  rintro ⟨-, hsome, hequal⟩
  obtain ⟨name, he⟩ := Option.isSome_iff_exists.mp hsome
  simp [h, he] at hequal

theorem kind_eq_of_hit {o : Operand} {e : TypeEntry} (h : e.NamesOperand o ∨ e.CoversKind o) :
    e.kind = o.kind := by
  rcases h with ⟨hkind, -⟩ | ⟨hkind, -⟩ <;> exact hkind

/-- The entry under its stripped name. -/
def stripped (e : TypeEntry) : TypeEntry := { e with name? := e.name?.map Naming.strip }

@[simp] theorem kind_stripped (e : TypeEntry) : e.stripped.kind = e.kind := rfl

@[simp] theorem name?_stripped (e : TypeEntry) :
    e.stripped.name? = e.name?.map Naming.strip := rfl

end TypeEntry

namespace TypeMap

open Json (Decoder Value)

/-- What the mapping for an instruction is keyed by in a layer. -/
def Layer.keyOf (i : Instruction) : Layer → String
  | .byClass => i.className
  | .byInstruction => i.opname

namespace Document

def mappings (d : Document) : Layer → List MappingDocument
  | .byClass => d.classMappings
  | .byInstruction => d.instructionMappings

/-- The entries of the mapping for an instruction in a layer, none if the layer has no such
mapping. -/
def entriesFor (d : Document) (layer : Layer) (i : Instruction) : List TypeEntry :=
  (((d.mappings layer).find? (·.key? == some (layer.keyOf i))).bind (·.types?)).getD []

/-- The entries of a layer that an operand can be resolved with, in the order in which they
count. -/
def hitsIn (d : Document) (layer : Layer) (i : Instruction) (o : Operand) : List TypeEntry :=
  let parameters := (d.entriesFor layer i).filter (! ·.isResult)
  parameters.filter (·.NamesOperand o) ++ parameters.filter (·.CoversKind o)

/-- The entries that an operand can be resolved with, in the order in which they count. -/
def hits (d : Document) (i : Instruction) (o : Operand) : List TypeEntry :=
  d.hitsIn .byInstruction i o ++ d.hitsIn .byClass i o

/-- The entries that the result can be resolved with, in the order in which they count. -/
def resultHits (d : Document) (i : Instruction) : List TypeEntry :=
  (d.entriesFor .byInstruction i).filter (·.isResult) ++
    (d.entriesFor .byClass i).filter (·.isResult)

end Document

/-- The type of an entry at a variant, if there is an entry. -/
def resolveEntry (e? : Option TypeEntry) (variant : Nat) :
    Except VariantOutOfRange (Option ResolvedType) :=
  match e? with
  | none => .ok none
  | some e => some <$> e.stripped.resolve variant

/-! ### Validated documents -/

/-- A type map has the layers of a document. -/
structure Validates (d : Document) (m : TypeMap) : Prop where
  defaultType : d.default? = some m.defaultType
  classes : validateLayer .byClass [] d.classMappings = .ok m.classes
  instructions : validateLayer .byInstruction [] d.instructionMappings = .ok m.instructions

theorem validates_of_validate {d : Document} {m : TypeMap} (h : d.validate = .ok m) :
    Validates d m := by
  unfold Document.validate at h
  cases hdefault : d.default? with
  | none => simp [hdefault] at h
  | some type =>
    simp only [hdefault] at h
    split at h
    next => cases h
    next =>
      obtain ⟨classes, hclasses, h⟩ := bind_eq_ok_iff.mp h
      obtain ⟨instructions, hinstructions, h⟩ := bind_eq_ok_iff.mp h
      cases h
      exact ⟨hdefault, hclasses, hinstructions⟩

/-- The mapping under a key of a layer. -/
def mapping? (m : TypeMap) : Layer → String → Option TypeMapping
  | .byClass, key => m.classMapping? key
  | .byInstruction, key => m.instructionMapping? key

theorem Validates.layer {d : Document} {m : TypeMap} (h : Validates d m) (layer : Layer) :
    ∃ entries, validateLayer layer [] (d.mappings layer) = .ok entries ∧
      ∀ key, m.mapping? layer key = entries.lookup key := by
  cases layer with
  | byClass => exact ⟨_, h.classes, fun _ => rfl⟩
  | byInstruction => exact ⟨_, h.instructions, fun _ => rfl⟩

/-- The mapping that is found under a key is the one of the first document with the key. -/
theorem lookup_of_validateLayer {layer : Layer} {ds : List MappingDocument}
    {entries : List (String × TypeMapping)} (h : validateLayer layer [] ds = .ok entries)
    (key : String) :
    entries.lookup key =
      ((ds.find? (·.key? == some key)).bind (·.types?)).map MappingDocument.mapping := by
  rw [validateLayer_eq_checkKeyed, checkKeyed_nil_eq_ok_iff] at h
  obtain ⟨hvalid, -⟩ := h
  induction hvalid with
  | nil => rfl
  | @cons d entry ds entries hd _ ih =>
    obtain ⟨hkey, types, htypes, -, -, hmapping⟩ := MappingDocument.validate_eq_ok_iff.mp hd
    rw [List.find?_cons, hkey]
    by_cases heq : key = entry.1
    · subst heq
      rw [beq_self_eq_true, List.lookup_cons, beq_self_eq_true, hmapping]
      simp [htypes]
    · have hne : (some entry.1 == some key) = false := by simpa using fun h => heq h.symm
      rw [hne, ← ih, List.lookup_cons, beq_eq_false_iff_ne.mpr heq]

theorem types_of_mem_mappings {layer : Layer} {ds : List MappingDocument}
    {entries : List (String × TypeMapping)} (h : validateLayer layer [] ds = .ok entries)
    {mapping : MappingDocument} (hmem : mapping ∈ ds) : ∃ types, mapping.types? = some types := by
  rw [validateLayer_eq_checkKeyed, checkKeyed_nil_eq_ok_iff] at h
  obtain ⟨entry, -, hvalid⟩ := exists_right_of_mem h.1 hmem
  obtain ⟨-, types, htypes, -⟩ := MappingDocument.validate_eq_ok_iff.mp hvalid
  exact ⟨types, htypes⟩

/-- In a validated layer each document is the first one with its key. -/
theorem find?_of_mem_mappings {layer : Layer} {ds : List MappingDocument}
    {entries : List (String × TypeMapping)} (h : validateLayer layer [] ds = .ok entries)
    {mapping : MappingDocument} (hmem : mapping ∈ ds) {key : String}
    (hkey : mapping.key? = some key) : ds.find? (·.key? == some key) = some mapping := by
  rw [validateLayer_eq_checkKeyed] at h
  have hapart := ((exists_checkKeyed_eq_ok_iff (MappingDocument.keyed layer)).mp ⟨_, h⟩).2
  rw [← hkey]
  exact find?_of_pairwise hapart hmem

/-! ### Entries of a mapping -/

section

variable (entries : List TypeEntry) (o : Operand)

theorem parameters_mapping : (MappingDocument.mapping entries).parameters =
    (entries.filter (! ·.isResult)).map TypeEntry.stripped := by
  simp only [MappingDocument.mapping, List.filter_map]
  rfl

theorem findNamed?_mapping :
    (o.name?.bind fun name =>
        (MappingDocument.mapping entries).findNamed? o.kind (Naming.strip name)) =
      ((entries.filter (! ·.isResult)).find? (·.NamesOperand o)).map TypeEntry.stripped := by
  cases hname : o.name? with
  | none =>
    have hnone : (entries.filter (! ·.isResult)).find? (·.NamesOperand o) = none :=
      List.find?_eq_none.mpr fun e _ => by
        rw [decide_eq_true_iff]
        exact TypeEntry.not_namesOperand hname e
    rw [hnone]
    rfl
  | some name =>
    rw [Option.bind_some, TypeMapping.findNamed?, parameters_mapping, List.find?_map]
    congr 2
    funext e
    rw [Bool.eq_iff_iff, decide_eq_true_iff]
    simp only [Function.comp_apply, Bool.and_eq_true, beq_iff_eq, TypeEntry.NamesOperand, hname,
      TypeEntry.kind_stripped, TypeEntry.name?_stripped, Option.map_some]
    refine and_congr_right fun _ => ⟨fun h => ⟨?_, h⟩, And.right⟩
    rw [← Option.isSome_map, h]
    rfl

theorem findForKind?_mapping :
    (MappingDocument.mapping entries).findForKind? o.kind =
      ((entries.filter (! ·.isResult)).find? (·.CoversKind o)).map TypeEntry.stripped := by
  rw [TypeMapping.findForKind?, parameters_mapping, List.find?_map]
  congr 2
  funext e
  rw [Bool.eq_iff_iff, decide_eq_true_iff]
  simp [TypeEntry.CoversKind]

theorem find?_mapping :
    (MappingDocument.mapping entries).find? o.kind o.name? =
      ((entries.filter (! ·.isResult)).filter (·.NamesOperand o) ++
        (entries.filter (! ·.isResult)).filter (·.CoversKind o)).head?.map TypeEntry.stripped := by
  rw [TypeMapping.find?, findNamed?_mapping, findForKind?_mapping, List.head?_append,
    List.head?_filter, List.head?_filter, Option.map_or]

theorem result?_mapping :
    (MappingDocument.mapping entries).result? =
      (entries.filter (·.isResult)).head?.map TypeEntry.stripped := by
  rw [List.head?_filter]
  exact List.find?_map

end

/-! ### Layers -/

variable {d : Document} {m : TypeMap}

/-- The mapping for an instruction in a layer. -/
def mappingIn? (m : TypeMap) (layer : Layer) (i : Instruction) : Option TypeMapping :=
  m.mapping? layer (layer.keyOf i)

theorem layers_eq (m : TypeMap) (i : Instruction) :
    m.layers i = (m.mappingIn? .byInstruction i).toList ++ (m.mappingIn? .byClass i).toList := rfl

theorem findSome?_layers {α : Type} (m : TypeMap) (i : Instruction)
    (f : TypeMapping → Option α) :
    (m.layers i).findSome? f =
      ((m.mappingIn? .byInstruction i).bind f).or ((m.mappingIn? .byClass i).bind f) := by
  have htoList : ∀ mapping? : Option TypeMapping, mapping?.toList.findSome? f = mapping?.bind f := by
    rintro (- | mapping)
    · rfl
    · simp
  rw [layers_eq, List.findSome?_append, htoList, htoList]

theorem mappingIn?_eq (h : Validates d m) (layer : Layer) (i : Instruction) :
    m.mappingIn? layer i =
      (((d.mappings layer).find? (·.key? == some (layer.keyOf i))).bind (·.types?)).map
        MappingDocument.mapping := by
  obtain ⟨entries, hentries, hlookup⟩ := h.layer layer
  rw [mappingIn?, hlookup, lookup_of_validateLayer hentries]

theorem bind_find?_mappingIn? (h : Validates d m) (layer : Layer) (i : Instruction)
    (o : Operand) :
    (m.mappingIn? layer i).bind (·.find? o.kind o.name?) =
      (d.hitsIn layer i o).head?.map TypeEntry.stripped := by
  rw [mappingIn?_eq h, Document.hitsIn, Document.entriesFor]
  cases ((d.mappings layer).find? (·.key? == some (layer.keyOf i))).bind (·.types?) with
  | none => rfl
  | some entries => exact find?_mapping entries o

theorem bind_result?_mappingIn? (h : Validates d m) (layer : Layer) (i : Instruction) :
    (m.mappingIn? layer i).bind (·.result?) =
      ((d.entriesFor layer i).filter (·.isResult)).head?.map TypeEntry.stripped := by
  rw [mappingIn?_eq h, Document.entriesFor]
  cases ((d.mappings layer).find? (·.key? == some (layer.keyOf i))).bind (·.types?) with
  | none => rfl
  | some entries => exact result?_mapping entries

/-- The entry of an operand is the first that it can be resolved with. -/
theorem entryOfOperand?_eq (h : Validates d m) (i : Instruction) (o : Operand) :
    m.entryOfOperand? i o = (d.hits i o).head?.map TypeEntry.stripped := by
  rw [entryOfOperand?, findSome?_layers, bind_find?_mappingIn? h, bind_find?_mappingIn? h,
    Document.hits, List.head?_append, Option.map_or]

theorem entryOfResult?_eq (h : Validates d m) (i : Instruction) :
    m.entryOfResult? i = (d.resultHits i).head?.map TypeEntry.stripped := by
  rw [entryOfResult?, findSome?_layers, bind_result?_mappingIn? h, bind_result?_mappingIn? h,
    Document.resultHits, List.head?_append, Option.map_or]

theorem resolveOperand_eq (h : Validates d m) (i : Instruction) (o : Operand) (variant : Nat) :
    m.resolveOperand i o variant = resolveEntry (d.hits i o).head? variant := by
  rw [resolveOperand, entryOfOperand?_eq h]
  cases (d.hits i o).head? <;> rfl

theorem resolveResult_eq (h : Validates d m) (i : Instruction) (variant : Nat) :
    m.resolveResult i variant = resolveEntry (d.resultHits i).head? variant := by
  rw [resolveResult, entryOfResult?_eq h]
  cases (d.resultHits i).head? <;> rfl

theorem resolveEntry_eq_none_iff {e? : Option TypeEntry} {variant : Nat} :
    resolveEntry e? variant = .ok none ↔ e? = none := by
  cases e? with
  | none => simp [resolveEntry]
  | some e => simp [resolveEntry, map_eq_ok_iff]

/-! ### What counts -/

theorem Document.mem_hitsIn_iff {layer : Layer} {i : Instruction} {o : Operand} {e : TypeEntry} :
    e ∈ d.hitsIn layer i o ↔
      e ∈ d.entriesFor layer i ∧ ¬ e.isResult ∧ (e.NamesOperand o ∨ e.CoversKind o) := by
  simp only [Document.hitsIn, List.mem_append, List.mem_filter, Bool.not_eq_eq_eq_not,
    Bool.not_true, decide_eq_true_eq, Bool.not_eq_true]
  tauto

theorem Document.mem_hits_iff {i : Instruction} {o : Operand} {e : TypeEntry} :
    e ∈ d.hits i o ↔ ∃ layer, e ∈ d.entriesFor layer i ∧ ¬ e.isResult ∧
      (e.NamesOperand o ∨ e.CoversKind o) := by
  simp only [Document.hits, List.mem_append, Document.mem_hitsIn_iff]
  constructor
  · rintro (h | h)
    · exact ⟨_, h⟩
    · exact ⟨_, h⟩
  · rintro ⟨- | -, h⟩
    · exact .inr h
    · exact .inl h

/-- Operands of one kind with names that are stripped to one name are resolved alike. -/
theorem Document.hits_congr {i : Instruction} {o o' : Operand} (hkind : o.kind = o'.kind)
    (hname : o.name?.map Naming.strip = o'.name?.map Naming.strip) : d.hits i o = d.hits i o' := by
  have hnames : (fun e : TypeEntry => decide (e.NamesOperand o)) =
      fun e => decide (e.NamesOperand o') := by
    funext e
    rw [decide_eq_decide, TypeEntry.NamesOperand, TypeEntry.NamesOperand, hkind, hname]
  have hcovers : (fun e : TypeEntry => decide (e.CoversKind o)) =
      fun e => decide (e.CoversKind o') := by
    funext e
    rw [decide_eq_decide, TypeEntry.CoversKind, TypeEntry.CoversKind, hkind]
  simp only [Document.hits, Document.hitsIn, hnames, hcovers]

/-- How the operands and the result of an instruction are resolved with the entries of a
document. -/
structure ResolvesByPriority (d : Document) (m : TypeMap) (i : Instruction) : Prop where
  /-- The entries of the mapping for the instruction are those of any document with its key. -/
  entries : ∀ layer, ∀ mapping ∈ d.mappings layer, mapping.key? = some (layer.keyOf i) →
    mapping.types? = some (d.entriesFor layer i)
  operand : ∀ o variant, m.resolveOperand i o variant = resolveEntry (d.hits i o).head? variant
  unmapped : ∀ o variant, m.resolveOperand i o variant = .ok none ↔
    ∀ layer, ∀ e ∈ d.entriesFor layer i, ¬ e.isResult → ¬ e.NamesOperand o ∧ ¬ e.CoversKind o
  /-- Whatever the class has an entry for, one for the kind in the mapping of the instruction comes
  before it. -/
  instructionFirst : ∀ o, ∀ e ∈ d.entriesFor .byInstruction i, ¬ e.isResult → e.CoversKind o →
    ∃ used ∈ d.entriesFor .byInstruction i, (d.hits i o).head? = some used
  unnamed : ∀ o, o.name? = none → ∀ e ∈ d.hits i o, e.name? = none
  slots : ∀ o variant, o.isResultSlot → m.resolveOperand i o variant = .ok none
  result : ∀ variant, m.resolveResult i variant = resolveEntry (d.resultHits i).head? variant
  stripped : ∀ o o', o.kind = o'.kind →
    o.name?.map Naming.strip = o'.name?.map Naming.strip → ∀ variant,
      m.resolveOperand i o variant = m.resolveOperand i o' variant

theorem resolvesByPriority (h : Validates d m) (i : Instruction) : ResolvesByPriority d m i where
  entries layer mapping hmem hkey := by
    obtain ⟨entries, hentries, -⟩ := h.layer layer
    obtain ⟨types, htypes⟩ := types_of_mem_mappings hentries hmem
    rw [Document.entriesFor, find?_of_mem_mappings hentries hmem hkey, Option.bind_some, htypes]
    rfl
  operand := resolveOperand_eq h i
  unmapped o variant := by
    rw [resolveOperand_eq h, resolveEntry_eq_none_iff, List.head?_eq_none_iff,
      List.eq_nil_iff_forall_not_mem]
    simp only [Document.mem_hits_iff, not_exists, not_and, not_or]
    exact forall_comm
  instructionFirst o e he hparameter hcovers := by
    have hmem : e ∈ d.hitsIn .byInstruction i o :=
      Document.mem_hitsIn_iff.mpr ⟨he, hparameter, .inr hcovers⟩
    obtain ⟨used, hused⟩ := Option.isSome_iff_exists.mp
      (List.isSome_head?.mpr (List.ne_nil_of_mem hmem))
    refine ⟨used, (Document.mem_hitsIn_iff.mp (List.mem_of_head? hused)).1, ?_⟩
    rw [Document.hits, List.head?_append, hused, Option.some_or]
  unnamed o hname e he := by
    obtain ⟨layer, -, -, hnames | hcovers⟩ := Document.mem_hits_iff.mp he
    · exact absurd hnames (TypeEntry.not_namesOperand hname e)
    · exact hcovers.2
  slots o variant hslot := by
    have hnil : d.hits i o = [] := by
      rw [List.eq_nil_iff_forall_not_mem]
      intro e he
      obtain ⟨layer, -, hparameter, hhit⟩ := Document.mem_hits_iff.mp he
      refine hparameter ?_
      rw [TypeEntry.isResult, TypeEntry.kind_eq_of_hit hhit]
      exact hslot
    rw [resolveOperand_eq h, hnil]
    rfl
  result := resolveResult_eq h i
  stripped o o' hkind hname variant := by
    rw [resolveOperand_eq h, resolveOperand_eq h, Document.hits_congr hkind hname]

theorem documentKind_parse_eq_ok_iff {source : String} :
    TypeMap.documentKind.parse source = .ok m ↔
      ∃ d, documentRecord.decode.document source = .ok d ∧ d.validate = .ok m := by
  rw [DocumentKind.parse, mapError_eq_ok_iff]
  change (_ >>= _) = _ ↔ _
  simp only [bind_eq_ok_iff, mapError_eq_ok_iff]

/-- With an accepted type map, all operands and results are resolved by priority. -/
theorem resolves_by_priority {source : String} (h : TypeMap.documentKind.parse source = .ok m) :
    ∃ d, documentRecord.decode.document source = .ok d ∧ ∀ i, ResolvesByPriority d m i := by
  obtain ⟨d, hd, hvalid⟩ := documentKind_parse_eq_ok_iff.mp h
  exact ⟨d, hd, resolvesByPriority (validates_of_validate hvalid)⟩

/-- A copy of an object. -/
def copyLogical : Instruction where
  opname := "OpCopyLogical"
  className := "Composite"
  opcode := 400
  operands := [⟨"IdResultType", none, none⟩, ⟨"IdResult", none, none⟩,
    ⟨"IdRef", some "'Operand'", none⟩]
  capabilities := []
  extensions := []
  version? := none

/-- A type map with a type for the operand in the mapping of its class, and one for all references
in the mapping of its instruction. -/
def copyTypes : Value := .object [
  ("default", .string "uint32_t"),
  ("classMappings", .array [.object [("class", .string "Composite"), ("types", .array [
    .object [("kind", .string "IdRef"), ("name", .string "Operand"), ("type", .string "int16_t")],
    .object [("kind", .string "IdResultType"), ("type", .string "float32_t")]])]]),
  ("instructionMappings", .array [.object [("instruction", .string "OpCopyLogical"),
    ("types", .array [
      .object [("kind", .string "IdRef"), ("name", .string "Object"), ("type", .string "U")],
      .object [("kind", .string "IdRef"), ("type", .string "int64_t")]])]])]

/-- The operand has the type of its kind in the mapping of the instruction. The result has that of
the class, since the mapping of the instruction has none. -/
theorem copyLogical_resolves_by_priority :
    ∃ m, TypeMap.documentKind.parse copyTypes.indentedText = .ok m ∧
      m.resolveOperand copyLogical ⟨"IdRef", some "'Operand'", none⟩ 0 =
        .ok (some (.concrete "int64_t")) ∧
      m.resolveResult copyLogical 0 = .ok (some (.concrete "float32_t")) ∧
      ∃ d, documentRecord.decode.document copyTypes.indentedText = .ok d ∧
        ResolvesByPriority d m copyLogical := by
  obtain ⟨d, m, hd, hvalid, hoperand, hresult⟩ :
      ∃ d m, documentRecord.decode copyTypes.tree = .ok d ∧ d.validate = .ok m ∧
        m.resolveOperand copyLogical ⟨"IdRef", some "'Operand'", none⟩ 0 =
          .ok (some (.concrete "int64_t")) ∧
        m.resolveResult copyLogical 0 = .ok (some (.concrete "float32_t")) :=
    ⟨_, _, rfl, rfl, by decide +kernel, by decide +kernel⟩
  have hparse : TypeMap.documentKind.parse copyTypes.indentedText = .ok m :=
    documentKind_parse_eq_ok_iff.mpr ⟨d, by rw [Decoder.document_indentedText, hd], hvalid⟩
  obtain ⟨d', hd', hpriority⟩ := resolves_by_priority hparse
  exact ⟨m, hparse, hoperand, hresult, d', hd', hpriority copyLogical⟩

end TypeMap

end SpirvBindings
