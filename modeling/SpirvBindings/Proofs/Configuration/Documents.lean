import SpirvBindings.Loading
import SpirvBindings.Proofs.Json.Revisions
import SpirvBindings.Proofs.Lookup

/-! Configuration documents that differ in the order of their lists, and by entries for what a
grammar does not have. Two such documents of one kind are accepted or refused together. If they are
accepted, they agree in all that can be asked for the grammar. -/

namespace SpirvBindings

open Json (Decoder Field Record Tree)
open Json.Tree (ListRevised RecordRevised TextRevised)

variable {g : Grammar}

/-! ### Decoded and validated documents -/

namespace DocumentKind

variable {α δ : Type} {k : DocumentKind α} {d : Decoder δ} {validate : δ → Except Cause α}

/-- Documents that are decoded and then validated correspond if both steps keep them related. -/
theorem parse_corresponds_of_carries
    (hk : ∀ source, k.ofText source = (d.document source).mapError .json >>= validate)
    {R : Tree → Tree → Prop} {S : δ → δ → Prop} {T : α → α → Prop} (hd : d.Carries R S)
    (hvalidate : ∀ a b, S a b → Corresponds T (validate a) (validate b)) {source source' : String}
    (h : TextRevised R source source') : Corresponds T (k.parse source) (k.parse source') := by
  unfold parse
  rw [hk, hk]
  exact (((hd.document h).mapError _ _).bind hvalidate).mapError _ _

theorem parse_indentedText
    (hk : ∀ source, k.ofText source = (d.document source).mapError .json >>= validate)
    {v : Json.Value} {document : δ} {a : α} (hd : d v.tree = .ok document)
    (ha : validate document = .ok a) : k.parse v.indentedText = .ok a := by
  rw [parse, hk, Decoder.document_indentedText, hd]
  change (validate document).mapError _ = _
  rw [ha]
  rfl

end DocumentKind

/-! ### What a grammar has -/

namespace Grammar

def HasClass (g : Grammar) (className : String) : Prop :=
  ∃ i ∈ g.instructions, i.className = className

def HasOpcode (g : Grammar) (opname : String) : Prop := ∃ i ∈ g.instructions, i.opname = opname

def HasBuiltin (g : Grammar) (name : String) : Prop :=
  ∃ e ∈ g.enumerants SectionKind.builtIn.operandKind, e.name = name

end Grammar

/-- Documents with keys of their own that are only rearranged. -/
theorem checksAlike_eq {δ ε β : Type} {check : δ → Except ε (String × β)} {New : δ → Prop}
    {key : δ → String} {known : String → Prop} (hkey : ∀ d e, check d = .ok e → e.1 = key d)
    (hnew : ∀ d, New d → ∃ e, check d = .ok e ∧ ¬ known e.1) :
    ChecksAlike check Eq New key Eq known := by
  refine ⟨?_, hnew, ?_⟩
  · rintro d _ rfl
    exact .same (fun _ => ⟨rfl, rfl⟩) _
  · intro d d' e e' he he'
    rw [hkey d e he, hkey d' e' he']

/-! ### Policies -/

namespace Policy

/-- A valid rule for a class that the grammar does not have. -/
structure ClassDocument.New (g : Grammar) (d : ClassDocument) : Prop where
  shapes : d.shapes? ≠ some []
  unknown : ¬ g.HasClass d.className

/-- A valid rule for an instruction that the grammar does not have. -/
structure InstructionDocument.New (g : Grammar) (d : InstructionDocument) : Prop where
  shapes : d.rule.shapes? ≠ some []
  unknown : ¬ g.HasOpcode d.opname

/-- What may differ under the keys of a policy document. -/
def Revision (g : Grammar) : String → Tree → Tree → Prop
  | "exclude_suffixes" => ListRevised List.Perm
  | "enumerants" => ListRevised List.Perm
  | "classes" =>
    ListRevised (classRecord.decode.Rearranges Eq (ClassDocument.New g) (·.className))
  | "instructions" =>
    ListRevised (instructionRecord.decode.Rearranges Eq (InstructionDocument.New g) (·.opname))
  | _ => Eq

/-- Two policy documents differ in the order of their lists, and by rules for what the grammar does
not have. -/
def Revised (g : Grammar) : Tree → Tree → Prop :=
  RecordRevised (documentRecord.fields.map (·.name)) (Revision g)

/-- What two such documents have in common once they are decoded. -/
structure Document.Alike (g : Grammar) (d d' : Document) : Prop where
  version : d.version = d'.version
  suffixes : d.excludedSuffixes.Perm d'.excludedSuffixes
  sections : d.sections.Perm d'.sections
  classes : Rearranged Eq (ClassDocument.New g) (·.className ≠ ·.className) d.classes d'.classes
  instructions : Rearranged Eq (InstructionDocument.New g) (·.opname ≠ ·.opname)
    d.instructions d'.instructions

/-- Two policies agree in all that is asked for a grammar. -/
structure Agrees (g : Grammar) (p p' : Policy) : Prop where
  isExcluded : ∀ name, p.isExcluded name = p'.isExcluded name
  emits : ∀ kind, p.emits kind = p'.emits kind
  classRule : ∀ name, g.HasClass name → p.classRule? name = p'.classRule? name
  instructionRule : ∀ name, g.HasOpcode name → p.instructionRule? name = p'.instructionRule? name

theorem documentRecord_carries (g : Grammar) :
    documentRecord.decode.Carries (Revised g) (Document.Alike g) := by
  refine Record.carries (fun d => ⟨rfl, .rfl, .rfl, .of_perm (fun _ => rfl) .rfl,
    .of_perm (fun _ => rfl) .rfl⟩) ?fields ?other
  case fields =>
    have hversion : Decoder.word.Carries (Revision g "version") Eq := Decoder.carries_eq fun _ => rfl
    have hclasses : classRecord.decode.list.Carries (Revision g "classes")
        (Rearranged Eq (ClassDocument.New g) (·.className ≠ ·.className)) :=
      Decoder.carries_list (fun _ => .of_perm (fun _ => rfl) .rfl)
        fun _ _ => (Decoder.carries_eq fun _ => rfl).items_of_rearranges
    have hinstructions : instructionRecord.decode.list.Carries (Revision g "instructions")
        (Rearranged Eq (InstructionDocument.New g) (·.opname ≠ ·.opname)) :=
      Decoder.carries_list (fun _ => .of_perm (fun _ => rfl) .rfl)
        fun _ _ => (Decoder.carries_eq fun _ => rfl).items_of_rearranges
    simp only [documentRecord, List.forall_mem_cons]
    refine ⟨Field.carries hversion (fun _ _ _ _ hx hd => { hd with version := hx }) _ _,
      Field.carries (C := Revision g) Decoder.carries_list_perm
        (fun _ _ _ _ hx hd => { hd with suffixes := hx }) _ _,
      Field.carries (C := Revision g) Decoder.carries_list_perm
        (fun _ _ _ _ hx hd => { hd with sections := hx }) _ _,
      Field.carries hclasses (fun _ _ _ _ hx hd => { hd with classes := hx }) _ _,
      Field.carries hinstructions (fun _ _ _ _ hx hd => { hd with instructions := hx }) _ _, ?_⟩
    simp
  case other =>
    intro key t u hkey h
    unfold Revision at h
    split at h
    next => cases hkey
    next => cases hkey
    next => cases hkey
    next => cases hkey
    next => exact h

theorem validateSections_corresponds {ss ss' : List SectionKind} (h : ss.Perm ss') :
    Corresponds List.Perm (validateSections [] ss) (validateSections [] ss') := by
  have hiff : ∀ {ss kinds : List SectionKind},
      validateSections [] ss = .ok kinds ↔ ss.Nodup ∧ kinds = ss :=
    validateSections_eq_ok_iff List.nodup_nil
  refine .of_matched (fun kinds hkinds => ?_) fun kinds hkinds => ?_
  · obtain ⟨hnodup, rfl⟩ := hiff.mp hkinds
    exact ⟨ss', hiff.mpr ⟨h.nodup_iff.mp hnodup, rfl⟩, h⟩
  · exact ⟨ss, hiff.mpr ⟨h.nodup_iff.mpr (hiff.mp hkinds).1, rfl⟩⟩

theorem validateClasses_corresponds {ds ds' : List ClassDocument}
    (h : Rearranged Eq (ClassDocument.New g) (·.className ≠ ·.className) ds ds') :
    Corresponds (fun es es' => ∀ name, g.HasClass name →
        Option.Rel Eq (es.lookup name) (es'.lookup name))
      (validateClasses [] ds) (validateClasses [] ds') := by
  have hchecks : ChecksAlike ClassDocument.check Eq (ClassDocument.New g) (·.className) Eq
      g.HasClass :=
    checksAlike_eq (fun _ _ he => congrArg Prod.fst (ClassDocument.check_eq_ok_iff.mp he).2)
      fun _ hd => ⟨_, ClassDocument.check_eq_ok_iff.mpr ⟨hd.shapes, rfl⟩, hd.unknown⟩
  rw [validateClasses_eq_checkKeyed, validateClasses_eq_checkKeyed]
  exact checkKeyed_corresponds hchecks h

theorem validateInstructions_corresponds {ds ds' : List InstructionDocument}
    (h : Rearranged Eq (InstructionDocument.New g) (·.opname ≠ ·.opname) ds ds') :
    Corresponds (fun es es' => ∀ name, g.HasOpcode name →
        Option.Rel Eq (es.lookup name) (es'.lookup name))
      (validateInstructions [] ds) (validateInstructions [] ds') := by
  have hchecks : ChecksAlike InstructionDocument.check Eq (InstructionDocument.New g) (·.opname) Eq
      g.HasOpcode :=
    checksAlike_eq (fun _ _ he => congrArg Prod.fst (InstructionDocument.check_eq_ok_iff.mp he).2)
      fun _ hd => ⟨_, InstructionDocument.check_eq_ok_iff.mpr ⟨hd.shapes, rfl⟩, hd.unknown⟩
  rw [validateInstructions_eq_checkKeyed, validateInstructions_eq_checkKeyed]
  exact checkKeyed_corresponds hchecks h

theorem Document.Alike.validate {d d' : Document} (h : Document.Alike g d d') :
    Corresponds (Agrees g) d.validate d'.validate := by
  have hclasses := validateClasses_corresponds h.classes
  have hinstructions := validateInstructions_corresponds h.instructions
  unfold Document.validate
  rw [h.version]
  by_cases hversion : d'.version ≠ supportedVersion
  · rw [if_pos hversion, if_pos hversion]
    exact .error _ _
  · rw [if_neg hversion, if_neg hversion]
    refine hclasses.bind fun cs cs' hcs => hinstructions.bind fun is is' his =>
      (validateSections_corresponds h.sections).bind fun ss ss' hss => .ok ⟨?_, ?_, ?_, ?_⟩
    · exact fun name => h.suffixes.any_eq
    · exact fun kind => hss.contains_eq
    · exact fun name hname => eq_of_rel_eq (hcs name hname)
    · exact fun name hname => eq_of_rel_eq (his name hname)

theorem ofText_eq (source : String) :
    documentKind.ofText source = (documentRecord.decode.document source).mapError .json >>= fun d =>
      d.validate.mapError .policy := rfl

theorem parse_corresponds {source source' : String} (h : TextRevised (Revised g) source source') :
    Corresponds (Agrees g) (documentKind.parse source) (documentKind.parse source') :=
  DocumentKind.parse_corresponds_of_carries ofText_eq (documentRecord_carries g)
    (fun _ _ hd => hd.validate.mapError _ _) h

end Policy

/-! ### Type maps -/

/-- The kind and the stripped name of an entry. -/
def TypeEntry.slot (e : TypeEntry) : String × Option String := (e.kind, e.name?.map Naming.strip)

/-- Two mappings have the same entries for the result and for all operands. -/
structure TypeMapping.Agrees (mapping mapping' : TypeMapping) : Prop where
  result : mapping.result? = mapping'.result?
  operand : ∀ o : Operand, mapping.find? o.kind o.name? = mapping'.find? o.kind o.name?

namespace TypeMap

/-- What may differ in a mapping: the order of its types, if they are for different operands. -/
def mappingRevision : String → Tree → Tree → Prop
  | "types" =>
    ListRevised fun ts us => ts.Perm us ∧ ts.Pairwise (entryRecord.decode.Apart TypeEntry.slot)
  | _ => Eq

/-- Two mapping documents differ in the order of their types. -/
def MappingRevised (r : Record MappingDocument) : Tree → Tree → Prop :=
  RecordRevised (r.fields.map (·.name)) mappingRevision

/-- A valid mapping under a key that is not known. -/
def MappingDocument.New (layer : Layer) (known : String → Prop) (d : MappingDocument) : Prop :=
  ∃ key mapping, d.validate layer = .ok (key, mapping) ∧ ¬ known key

/-- What may differ under the keys of a type map document. -/
def Revision (g : Grammar) : String → Tree → Tree → Prop
  | "classMappings" =>
    ListRevised (classRecord.decode.Rearranges (MappingRevised classRecord)
      (MappingDocument.New .byClass g.HasClass) (·.key?))
  | "instructionMappings" =>
    ListRevised (instructionRecord.decode.Rearranges (MappingRevised instructionRecord)
      (MappingDocument.New .byInstruction g.HasOpcode) (·.key?))
  | _ => Eq

/-- Two type map documents differ in the order of their mappings and of the types in these, and by
mappings for what the grammar does not have. -/
def Revised (g : Grammar) : Tree → Tree → Prop :=
  RecordRevised (documentRecord.fields.map (·.name)) (Revision g)

/-- The types of two mappings differ at most in their order, and that only if they are for different
operands. -/
def TypesAlike (es es' : List TypeEntry) : Prop :=
  es = es' ∨ es.Perm es' ∧ es.Pairwise (·.slot ≠ ·.slot)

structure MappingDocument.Alike (d d' : MappingDocument) : Prop where
  key : d.key? = d'.key?
  types : Option.Rel TypesAlike d.types? d'.types?

theorem MappingDocument.Alike.same (d : MappingDocument) : MappingDocument.Alike d d :=
  ⟨rfl, rel_self (fun _ => .inl rfl) _⟩

/-- What two such documents have in common once they are decoded. -/
structure Document.Alike (g : Grammar) (d d' : Document) : Prop where
  default : d.default? = d'.default?
  classes : Rearranged MappingDocument.Alike (MappingDocument.New .byClass g.HasClass)
    (·.key? ≠ ·.key?) d.classMappings d'.classMappings
  instructions : Rearranged MappingDocument.Alike (MappingDocument.New .byInstruction g.HasOpcode)
    (·.key? ≠ ·.key?) d.instructionMappings d'.instructionMappings

/-- Two type maps agree in all that is asked for a grammar. -/
structure Agrees (g : Grammar) (m m' : TypeMap) : Prop where
  defaultType : m.defaultType = m'.defaultType
  mapping : ∀ i ∈ g.instructions, ∀ layer,
    Option.Rel TypeMapping.Agrees (m.mappingIn? layer i) (m'.mappingIn? layer i)

theorem mappingRecord_carries (name : String) (layer : Layer) :
    (mappingRecord name layer).decode.Carries (MappingRevised (mappingRecord name layer))
      MappingDocument.Alike := by
  refine Record.carries MappingDocument.Alike.same ?fields ?other
  case fields =>
    have hkey : Decoder.text.orNull.Carries (mappingRevision layer.keyName) Eq := by
      cases layer <;> exact Decoder.carries_eq fun _ => rfl
    have htypes : entryRecord.decode.list.orNull.Carries (mappingRevision "types")
        (Option.Rel TypesAlike) := by
      refine Decoder.Carries.orNull_list (fun _ => .inl rfl) ?_
      refine Decoder.carries_list (fun _ => .inl rfl) fun ts us ⟨hperm, hapart⟩ => ?_
      refine .of_matched (fun as has => ?_) fun bs hbs =>
        (Decoder.items_corresponds_of_perm hperm).succeeds_iff.mpr ⟨bs, hbs⟩
      obtain ⟨bs, hbs, hvalues⟩ := Decoder.exists_items_of_perm hperm has
      exact ⟨bs, hbs, .inr ⟨hvalues, Decoder.pairwise_of_apart hapart has⟩⟩
    simp only [mappingRecord, List.forall_mem_cons]
    refine ⟨Field.carries hkey (fun _ _ _ _ hx hd => { hd with key := hx }) _ _,
      Field.carries htypes (fun _ _ _ _ hx hd => { hd with types := hx }) _ _, by simp⟩
  case other =>
    intro key t u hkey h
    unfold mappingRevision at h
    split at h
    next => cases layer <;> cases hkey
    next => exact h

theorem documentRecord_carries (g : Grammar) :
    documentRecord.decode.Carries (Revised g) (Document.Alike g) := by
  have hsame : ∀ {New : MappingDocument → Prop} (ds : List MappingDocument),
      Rearranged MappingDocument.Alike New (·.key? ≠ ·.key?) ds ds :=
    fun _ => .of_perm MappingDocument.Alike.same .rfl
  refine Record.carries (fun d => ⟨rfl, hsame _, hsame _⟩) ?fields ?other
  case fields =>
    have hdefault : Decoder.text.orNull.Carries (Revision g "default") Eq :=
      Decoder.carries_eq fun _ => rfl
    have hclasses : classRecord.decode.list.Carries (Revision g "classMappings")
        (Rearranged MappingDocument.Alike (MappingDocument.New .byClass g.HasClass)
          (·.key? ≠ ·.key?)) :=
      Decoder.carries_list hsame fun _ _ => (mappingRecord_carries _ _).items_of_rearranges
    have hinstructions : instructionRecord.decode.list.Carries (Revision g "instructionMappings")
        (Rearranged MappingDocument.Alike (MappingDocument.New .byInstruction g.HasOpcode)
          (·.key? ≠ ·.key?)) :=
      Decoder.carries_list hsame fun _ _ => (mappingRecord_carries _ _).items_of_rearranges
    simp only [documentRecord, List.forall_mem_cons]
    refine ⟨Field.carries hdefault (fun _ _ _ _ hx hd => { hd with default := hx }) _ _,
      Field.carries hclasses (fun _ _ _ _ hx hd => { hd with classes := hx }) _ _,
      Field.carries hinstructions (fun _ _ _ _ hx hd => { hd with instructions := hx }) _ _,
      by simp⟩
  case other =>
    intro key t u hkey h
    unfold Revision at h
    split at h
    next => cases hkey
    next => cases hkey
    next => exact h

/-! ### Validated type maps -/

theorem TypesAlike.agrees {es es' : List TypeEntry} (h : TypesAlike es es')
    (hone : es.countP (·.isResult) ≤ 1) :
    (MappingDocument.mapping es).Agrees (MappingDocument.mapping es') := by
  rcases h with rfl | ⟨hperm, hapart⟩
  · exact ⟨rfl, fun _ => rfl⟩
  have hparameters := hperm.filter (! ·.isResult)
  have hapart' := hapart.filter (! ·.isResult)
  refine ⟨?_, fun o => ?_⟩
  · rw [result?_mapping, result?_mapping, filter_eq_of_perm hperm]
    rwa [← List.countP_eq_length_filter]
  · have hnamed := filter_eq_of_perm hparameters (p := (·.NamesOperand o)) <|
      length_filter_le_one hapart' fun a b ha hb => by
        obtain ⟨hkind, -, hname⟩ := of_decide_eq_true ha
        obtain ⟨hkind', -, hname'⟩ := of_decide_eq_true hb
        exact Prod.ext (hkind.trans hkind'.symm) (hname.trans hname'.symm)
    have hcovered := filter_eq_of_perm hparameters (p := (·.CoversKind o)) <|
      length_filter_le_one hapart' fun a b ha hb => by
        obtain ⟨hkind, hname⟩ := of_decide_eq_true ha
        obtain ⟨hkind', hname'⟩ := of_decide_eq_true hb
        rw [TypeEntry.slot, TypeEntry.slot, hkind, hkind', hname, hname']
    rw [find?_mapping, find?_mapping, hnamed, hcovered]

theorem MappingDocument.Alike.validate {d d' : MappingDocument} (h : MappingDocument.Alike d d')
    (layer : Layer) : Corresponds (fun e e' => e.1 = e'.1 ∧ e.2.Agrees e'.2) (d.validate layer)
      (d'.validate layer) := by
  obtain ⟨key?, types?⟩ := d
  obtain ⟨key?', types?'⟩ := d'
  obtain ⟨rfl, htypes⟩ := h
  unfold MappingDocument.validate
  cases key? with
  | none => exact .error _ _
  | some key =>
    cases htypes with
    | none => exact .error _ _
    | @some es es' halike =>
      obtain ⟨hempty, hcount⟩ : es.isEmpty = es'.isEmpty ∧
          es.countP (·.isResult) = es'.countP (·.isResult) := by
        rcases halike with rfl | ⟨hperm, -⟩
        · exact ⟨rfl, rfl⟩
        · exact ⟨hperm.isEmpty_eq, hperm.countP_eq _⟩
      simp only [← hempty, ← hcount]
      split
      · exact .error _ _
      · split
        · exact .error _ _
        next hone => exact .ok ⟨rfl, halike.agrees (Nat.le_of_not_lt hone)⟩

theorem checksAlike (layer : Layer) (known : String → Prop) :
    ChecksAlike (·.validate layer) MappingDocument.Alike (MappingDocument.New layer known) (·.key?)
      TypeMapping.Agrees known := by
  refine ⟨fun d d' h => h.validate layer, fun d ⟨key, mapping, h, hkey⟩ => ⟨_, h, hkey⟩, ?_⟩
  intro d d' e e' he he'
  rw [(MappingDocument.validate_eq_ok_iff.mp he).1, (MappingDocument.validate_eq_ok_iff.mp he').1,
    Option.some.injEq]

theorem validateLayer_corresponds {layer : Layer} {known : String → Prop}
    {ds ds' : List MappingDocument} (h : Rearranged MappingDocument.Alike
      (MappingDocument.New layer known) (·.key? ≠ ·.key?) ds ds') :
    Corresponds (fun es es' => ∀ key, known key →
        Option.Rel TypeMapping.Agrees (es.lookup key) (es'.lookup key))
      (validateLayer layer [] ds) (validateLayer layer [] ds') := by
  rw [validateLayer_eq_checkKeyed, validateLayer_eq_checkKeyed]
  exact checkKeyed_corresponds (checksAlike layer known) h

theorem Document.Alike.validate {d d' : Document} (h : Document.Alike g d d') :
    Corresponds (Agrees g) d.validate d'.validate := by
  unfold Document.validate
  rw [h.default]
  cases d'.default? with
  | none => exact .error _ _
  | some type =>
    simp only
    split
    · exact .error _ _
    · refine (validateLayer_corresponds h.classes).bind fun cs cs' hcs =>
        (validateLayer_corresponds h.instructions).bind fun is is' his => .ok ⟨rfl, ?_⟩
      rintro i hi (- | -)
      · exact hcs _ ⟨i, hi, rfl⟩
      · exact his _ ⟨i, hi, rfl⟩

theorem ofText_eq (source : String) :
    documentKind.ofText source = (documentRecord.decode.document source).mapError .json >>= fun d =>
      d.validate.mapError .typeMap := rfl

theorem parse_corresponds {source source' : String} (h : TextRevised (Revised g) source source') :
    Corresponds (Agrees g) (documentKind.parse source) (documentKind.parse source') :=
  DocumentKind.parse_corresponds_of_carries ofText_eq (documentRecord_carries g)
    (fun _ _ hd => hd.validate.mapError _ _) h

end TypeMap

/-! ### Builtin variables -/

namespace BuiltinTable

/-- What may differ under the keys of a document: the order of the builtin variables, and variables
that the grammar does not have. -/
def Revision (g : Grammar) : String → Tree → Tree → Prop
  | "builtins" =>
    ListRevised (entryRecord.decode.Rearranges Eq (fun d => ¬ g.HasBuiltin d.name) (·.name))
  | _ => Eq

/-- Two documents differ in the order of their variables, and by variables that the grammar does not
have. -/
def Revised (g : Grammar) : Tree → Tree → Prop :=
  RecordRevised (documentRecord.fields.map (·.name)) (Revision g)

/-- What two such documents have in common once they are decoded. -/
structure Document.Alike (g : Grammar) (d d' : Document) : Prop where
  version : d.version = d'.version
  builtins : Rearranged Eq (fun d => ¬ g.HasBuiltin d.name) (·.name ≠ ·.name) d.builtins d'.builtins

/-- Two tables agree on the variables of a grammar. -/
def Agrees (g : Grammar) (t t' : BuiltinTable) : Prop :=
  ∀ name, g.HasBuiltin name → t.builtin? name = t'.builtin? name

theorem documentRecord_carries (g : Grammar) :
    documentRecord.decode.Carries (Revised g) (Document.Alike g) := by
  refine Record.carries (fun d => ⟨rfl, .of_perm (fun _ => rfl) .rfl⟩) ?fields ?other
  case fields =>
    have hversion : Decoder.word.Carries (Revision g "version") Eq := Decoder.carries_eq fun _ => rfl
    have hbuiltins : entryRecord.decode.list.Carries (Revision g "builtins")
        (Rearranged Eq (fun d => ¬ g.HasBuiltin d.name) (·.name ≠ ·.name)) :=
      Decoder.carries_list (fun _ => .of_perm (fun _ => rfl) .rfl)
        fun _ _ => (Decoder.carries_eq fun _ => rfl).items_of_rearranges
    simp only [documentRecord, List.forall_mem_cons]
    refine ⟨Field.carries hversion (fun _ _ _ _ hx hd => { hd with version := hx }) _ _,
      Field.carries hbuiltins (fun _ _ _ _ hx hd => { hd with builtins := hx }) _ _, by simp⟩
  case other =>
    intro key t u hkey h
    unfold Revision at h
    split at h
    next => cases hkey
    next => exact h

theorem Document.Alike.validate {d d' : Document} (h : Document.Alike g d d') :
    Corresponds (Agrees g) d.validate d'.validate := by
  have hchecks : ChecksAlike (ε := Fault) (fun d : EntryDocument => .ok (d.name, d.builtin)) Eq
      (fun d => ¬ g.HasBuiltin d.name) (·.name) Eq g.HasBuiltin :=
    checksAlike_eq (fun _ _ he => congrArg Prod.fst (Except.ok.inj he).symm)
      fun _ hd => ⟨_, rfl, hd⟩
  unfold Document.validate
  rw [h.version, validateEntries_eq_checkKeyed, validateEntries_eq_checkKeyed]
  by_cases hversion : d'.version ≠ 1
  · rw [if_pos hversion, if_pos hversion]
    exact .error _ _
  · rw [if_neg hversion, if_neg hversion]
    exact (checkKeyed_corresponds hchecks h.builtins).bind fun _ _ hes =>
      .ok fun name hname => eq_of_rel_eq (hes name hname)

theorem ofText_eq (source : String) :
    documentKind.ofText source = (documentRecord.decode.document source).mapError .json >>= fun d =>
      d.validate.mapError .builtins := rfl

theorem parse_corresponds {source source' : String} (h : TextRevised (Revised g) source source') :
    Corresponds (Agrees g) (documentKind.parse source) (documentKind.parse source') :=
  DocumentKind.parse_corresponds_of_carries ofText_eq (documentRecord_carries g)
    (fun _ _ hd => hd.validate.mapError _ _) h

end BuiltinTable

end SpirvBindings
