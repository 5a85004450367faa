import SpirvBindings.Proofs.Configuration.Validation
import SpirvBindings.Proofs.Json.Decoding

/-! Which policy documents are accepted, and how an accepted policy declares instructions. A
document is accepted if it has the one version there is, no list of shapes is empty, and nothing is
there twice. An instruction is left out by an ending of its name even if it is listed; if it is not
listed, its class has to be there for more than listed instructions. Any other instruction is
requested at least once, in each of its shapes, with what the document says about it and about its
class. -/

namespace SpirvBindings.Policy

open Json (Decoder Value)

/-! ### Valid documents -/

namespace Document

structure Valid (d : Document) : Prop where
  version : d.version = 1
  classShapes : ∀ c ∈ d.classes, c.shapes? ≠ some []
  classes : (d.classes.map (·.className)).Nodup
  instructionShapes : ∀ e ∈ d.instructions, e.rule.shapes? ≠ some []
  instructions : (d.instructions.map (·.opname)).Nodup
  sections : d.sections.Nodup

/-- The policy that a document describes. -/
def policy (d : Document) : Policy where
  excludedSuffixes := d.excludedSuffixes
  sections := d.sections
  classes := d.classes.map fun c => (c.className, c.rule)
  instructions := d.instructions.map fun e => (e.opname, e.rule)

theorem validate_eq_ok_iff {d : Document} {p : Policy} :
    d.validate = .ok p ↔ d.Valid ∧ p = d.policy := by
  unfold validate
  split
  next hversion => exact iff_of_false (by rintro ⟨⟩) fun ⟨hvalid, _⟩ => hversion hvalid.version
  next hversion =>
    have hsections : ∀ sections, validateSections [] d.sections = .ok sections ↔
        d.sections.Nodup ∧ sections = d.sections :=
      fun _ => validateSections_eq_ok_iff List.nodup_nil
    constructor
    · intro h
      obtain ⟨classes, hc, h⟩ := bind_eq_ok_iff.mp h
      obtain ⟨instructions, hi, h⟩ := bind_eq_ok_iff.mp h
      obtain ⟨sections, hs, h⟩ := bind_eq_ok_iff.mp h
      obtain ⟨hclassShapes, hclasses, rfl⟩ := validateClasses_eq_ok_iff.mp hc
      obtain ⟨hshapes, hinstructions, rfl⟩ := validateInstructions_eq_ok_iff.mp hi
      obtain ⟨hnodup, rfl⟩ := (hsections sections).mp hs
      cases h
      exact ⟨⟨not_not.mp hversion, hclassShapes, hclasses, hshapes, hinstructions, hnodup⟩, rfl⟩
    · rintro ⟨h, rfl⟩
      refine bind_eq_ok_iff.mpr ⟨_, validateClasses_eq_ok_iff.mpr ⟨h.classShapes, h.classes, rfl⟩,
        bind_eq_ok_iff.mpr ⟨_, validateInstructions_eq_ok_iff.mpr
          ⟨h.instructionShapes, h.instructions, rfl⟩, bind_eq_ok_iff.mpr ⟨_, ?_, rfl⟩⟩⟩
      exact (hsections _).mpr ⟨h.sections, rfl⟩

/-! ### What a document says about an instruction -/

/-- The entry for the class of an instruction. -/
def classOf? (d : Document) (i : Instruction) : Option ClassDocument :=
  d.classes.find? (·.className == i.className)

/-- The entry for an instruction itself. -/
def entryOf? (d : Document) (i : Instruction) : Option InstructionDocument :=
  d.instructions.find? (·.opname == i.opname)

/-- The shapes of an instruction: its own, or else those of its class, or else the standard one. -/
def shapesOf (d : Document) (i : Instruction) : List Shape :=
  (((d.entryOf? i).bind (·.rule.shapes?)).or ((d.classOf? i).bind (·.shapes?))).getD [.reference]

/-- The request for an instruction in a shape. -/
def requestOf (d : Document) (i : Instruction) (shape : Shape) : Request where
  shape := shape
  resultType? := (d.entryOf? i).bind (·.rule.resultType?)
  operandType? := (d.entryOf? i).bind (·.rule.operandType?)
  typeClass? := (d.classOf? i).bind (·.typeClass?)
  conditions := ((d.entryOf? i).map (·.rule.conditions)).getD []

/-- An instruction is left out: its name has an excluded ending, or it is not listed and its class
is absent or only there for listed instructions. -/
inductive LeavesOut (d : Document) (i : Instruction) : Prop
  | excluded {suffix : String} (hsuffix : suffix ∈ d.excludedSuffixes)
      (hends : suffix.toList <:+ i.opname.toList)
  | unlisted (hentry : ∀ e ∈ d.instructions, e.opname ≠ i.opname)
      (hclass : ∀ c ∈ d.classes, c.className = i.className → c.onlyListed)

end Document

/-- How a policy declares an instruction that a document speaks about. -/
structure DeclaresAsTold (d : Document) (p : Policy) (i : Instruction) : Prop where
  entry : ∀ e ∈ d.instructions, e.opname = i.opname → d.entryOf? i = some e
  unlisted : (∀ e ∈ d.instructions, e.opname ≠ i.opname) → d.entryOf? i = none
  ofClass : ∀ c ∈ d.classes, c.className = i.className → d.classOf? i = some c
  noClass : (∀ c ∈ d.classes, c.className ≠ i.className) → d.classOf? i = none
  leavesOut : p.strategy? i = none ↔ d.LeavesOut i
  requests : ∀ s, p.strategy? i = some s →
    s.requests ≠ [] ∧ s.requests = (d.shapesOf i).map (d.requestOf i)

/-! ### Strategies -/

variable {d : Document} {i : Instruction}

theorem instructionRule?_policy (d : Document) (i : Instruction) :
    d.policy.instructionRule? i.opname = (d.entryOf? i).map (·.rule) :=
  lookup_map_eq _ _ _ _

theorem classRule?_policy (d : Document) (i : Instruction) :
    d.policy.classRule? i.className = (d.classOf? i).map (·.rule) :=
  lookup_map_eq _ _ _ _

theorem isExcluded_iff {p : Policy} {name : String} :
    p.isExcluded name ↔ ∃ suffix ∈ p.excludedSuffixes, suffix.toList <:+ name.toList := by
  simp [isExcluded]

theorem entryOf?_eq_none_iff : d.entryOf? i = none ↔ ∀ e ∈ d.instructions, e.opname ≠ i.opname := by
  simp [Document.entryOf?]

theorem classOf?_eq_none_iff :
    d.classOf? i = none ↔ ∀ c ∈ d.classes, c.className ≠ i.className := by
  simp [Document.classOf?]

theorem entryOf?_of_mem (h : d.Valid) {e : InstructionDocument} (he : e ∈ d.instructions)
    (hname : e.opname = i.opname) : d.entryOf? i = some e := by
  rw [Document.entryOf?, ← hname]
  exact find?_of_pairwise (List.pairwise_map.mp h.instructions) he

theorem classOf?_of_mem (h : d.Valid) {c : ClassDocument} (hc : c ∈ d.classes)
    (hname : c.className = i.className) : d.classOf? i = some c := by
  rw [Document.classOf?, ← hname]
  exact find?_of_pairwise (List.pairwise_map.mp h.classes) hc

theorem ne_of_entryOf?_bind (h : d.Valid) : (d.entryOf? i).bind (·.rule.shapes?) ≠ some [] := by
  intro hnil
  obtain ⟨e, he, hshapes⟩ := Option.bind_eq_some_iff.mp hnil
  exact h.instructionShapes e (List.mem_of_find?_eq_some he) hshapes

theorem ne_of_classOf?_bind (h : d.Valid) : (d.classOf? i).bind (·.shapes?) ≠ some [] := by
  intro hnil
  obtain ⟨c, hc, hshapes⟩ := Option.bind_eq_some_iff.mp hnil
  exact h.classShapes c (List.mem_of_find?_eq_some hc) hshapes

/-- There is a shape, wherever the shapes come from. -/
theorem shapesOf_ne_nil (h : d.Valid) (i : Instruction) : d.shapesOf i ≠ [] := by
  have hentry := ne_of_entryOf?_bind (i := i) h
  have hclass := ne_of_classOf?_bind (i := i) h
  unfold Document.shapesOf
  cases hown : (d.entryOf? i).bind (·.rule.shapes?) with
  | some shapes =>
    rintro rfl
    exact hentry hown
  | none =>
    cases hother : (d.classOf? i).bind (·.shapes?) with
    | some shapes =>
      rintro rfl
      exact hclass hother
    | none => exact List.cons_ne_nil _ _

/-- The strategy for an instruction that is not excluded, from what the document says about it. -/
theorem strategy?_policy (h : ¬ d.policy.isExcluded i.opname) :
    d.policy.strategy? i =
      match d.entryOf? i with
      | some e => some (listedStrategy e.rule ((d.classOf? i).map (·.rule)))
      | none => (((d.classOf? i).map (·.rule)).filter (! ·.onlyListed)).map classStrategy := by
  rw [strategy?, if_neg h]
  simp only [instructionRule?_policy, classRule?_policy]
  cases d.entryOf? i <;> rfl

theorem strategy?_policy_eq_none_iff (h : d.Valid) :
    d.policy.strategy? i = none ↔ d.LeavesOut i := by
  by_cases hexcluded : d.policy.isExcluded i.opname
  · obtain ⟨suffix, hsuffix, hends⟩ := isExcluded_iff.mp hexcluded
    exact iff_of_true (by rw [strategy?, if_pos hexcluded]) (.excluded hsuffix hends)
  rw [strategy?_policy hexcluded]
  cases hentry : d.entryOf? i with
  | some e =>
    refine iff_of_false (by simp) ?_
    rintro (⟨hsuffix, hends⟩ | ⟨hunlisted, -⟩)
    · exact hexcluded (isExcluded_iff.mpr ⟨_, hsuffix, hends⟩)
    · cases hentry.symm.trans (entryOf?_eq_none_iff.mpr hunlisted)
  | none =>
    have hunlisted := entryOf?_eq_none_iff.mp hentry
    simp only [Option.map_eq_none_iff, Option.filter_eq_none_iff, Option.map_eq_some_iff,
      Bool.not_eq_true', Bool.not_eq_false]
    constructor
    · intro hall
      refine .unlisted hunlisted fun c hc hname => ?_
      exact hall c.rule ⟨c, classOf?_of_mem h hc hname, rfl⟩
    · rintro (⟨hsuffix, hends⟩ | ⟨-, hclass⟩) rule ⟨c, hc, rfl⟩
      · exact absurd (isExcluded_iff.mpr ⟨_, hsuffix, hends⟩) hexcluded
      · exact hclass c (List.mem_of_find?_eq_some hc) (by simpa using List.find?_some hc)

theorem shapes_listedStrategy {e : InstructionDocument} (he : d.entryOf? i = some e) :
    (listedStrategy e.rule ((d.classOf? i).map (·.rule))).shapes = d.shapesOf i := by
  simp only [listedStrategy, Document.shapesOf, he, Option.bind_some]
  cases e.rule.shapes? with
  | some shapes => rfl
  | none =>
    cases d.classOf? i with
    | none => rfl
    | some c =>
      cases hshapes : c.shapes? <;> simp [ClassDocument.rule, standardShapes, hshapes]

theorem shapes_classStrategy {c : ClassDocument} (he : d.entryOf? i = none)
    (hc : d.classOf? i = some c) : (classStrategy c.rule).shapes = d.shapesOf i := by
  simp only [classStrategy, ClassDocument.rule, Document.shapesOf, he, hc, Option.bind_some,
    Option.bind_none, Option.none_or]
  rfl

/-- The requests follow what the document says, whether the instruction is listed or declared by the
rule of its class. -/
theorem requests_of_strategy? {s : Strategy} (h : d.policy.strategy? i = some s) :
    s.requests = (d.shapesOf i).map (d.requestOf i) := by
  have hexcluded : ¬ d.policy.isExcluded i.opname := by
    intro hexcluded
    rw [strategy?, if_pos hexcluded] at h
    cases h
  rw [strategy?_policy hexcluded] at h
  cases hentry : d.entryOf? i with
  | some e =>
    simp only [hentry, Option.some.injEq] at h
    subst h
    rw [Strategy.requests, shapes_listedStrategy hentry]
    refine List.map_congr_left fun shape _ => ?_
    simp only [Document.requestOf, hentry, listedStrategy]
    cases d.classOf? i <;> rfl
  | none =>
    simp only [hentry] at h
    obtain ⟨rule, hrule, rfl⟩ := Option.map_eq_some_iff.mp h
    obtain ⟨c, hc, rfl⟩ := Option.map_eq_some_iff.mp (Option.filter_eq_some_iff.mp hrule).1
    rw [Strategy.requests, shapes_classStrategy hentry hc]
    refine List.map_congr_left fun shape _ => ?_
    simp only [Document.requestOf, hentry, hc]
    rfl

theorem declaresAsTold_policy (h : d.Valid) (i : Instruction) : DeclaresAsTold d d.policy i where
  entry _ he hname := entryOf?_of_mem h he hname
  unlisted := entryOf?_eq_none_iff.mpr
  ofClass _ hc hname := classOf?_of_mem h hc hname
  noClass := classOf?_eq_none_iff.mpr
  leavesOut := strategy?_policy_eq_none_iff h
  requests s hs := by
    rw [requests_of_strategy? hs, ne_eq, List.map_eq_nil_iff]
    exact ⟨shapesOf_ne_nil h i, rfl⟩

/-- A text that can be decoded is accepted if it is valid, and the policy that it is accepted as
declares each instruction as the text says. -/
theorem declares_as_told {source : String} (h : documentRecord.decode.document source = .ok d) :
    ((∃ p, Policy.documentKind.parse source = .ok p) ↔ d.Valid) ∧
      ∀ p, Policy.documentKind.parse source = .ok p → ∀ i, DeclaresAsTold d p i := by
  have hparse : Policy.documentKind.parse source = _ :=
    DocumentKind.parse_of_decoded (fun _ => rfl) h
  simp only [hparse, mapError_eq_ok_iff, Document.validate_eq_ok_iff]
  refine ⟨by simp, ?_⟩
  rintro p ⟨hvalid, rfl⟩ i
  exact declaresAsTold_policy hvalid i

/-- A load, under a name of its own. -/
def loadNamed (opname : String) : Instruction where
  opname := opname
  className := "Memory"
  opcode := 61
  operands := []
  capabilities := []
  extensions := []
  version? := none

/-- A policy with a class that only declares listed instructions. One of these has an excluded
ending. -/
def loadRules : Value := .object [
  ("version", .number (.integer 1)),
  ("exclude_suffixes", .array [.string "INTEL"]),
  ("classes", .array [.object [("class", .string "Memory"), ("only_listed", .bool true),
    ("shapes", .array [.string "ptr_template", .string "bda"]),
    ("type_class", .string "integer")]]),
  ("instructions", .array [
    .object [("instruction", .string "OpLoad"), ("result_type", .string "T")],
    .object [("instruction", .string "OpLoadINTEL")]])]

/-- The load has the shapes and the type class of its class. The one with the excluded ending is
left out though it is listed, and the other one since it is not. -/
theorem loadRules_declares_as_told :
    ∃ d p, documentRecord.decode.document loadRules.indentedText = .ok d ∧
      Policy.documentKind.parse loadRules.indentedText = .ok p ∧ d.Valid ∧
      (p.strategy? (loadNamed "OpLoad")).map (·.requests) =
        some [⟨.pointerTemplate, some "T", none, some .integer, []⟩,
          ⟨.physical, some "T", none, some .integer, []⟩] ∧
      d.LeavesOut (loadNamed "OpLoadINTEL") ∧ d.LeavesOut (loadNamed "OpCopyMemory") ∧
      ∀ opname, DeclaresAsTold d p (loadNamed opname) := by
  obtain ⟨d, p, hd, hvalid, hrequests, hexcluded, hunlisted⟩ :
      ∃ d p, documentRecord.decode loadRules.tree = .ok d ∧ d.validate = .ok p ∧
        (p.strategy? (loadNamed "OpLoad")).map (·.requests) =
          some [⟨.pointerTemplate, some "T", none, some .integer, []⟩,
            ⟨.physical, some "T", none, some .integer, []⟩] ∧
        p.strategy? (loadNamed "OpLoadINTEL") = none ∧
        p.strategy? (loadNamed "OpCopyMemory") = none :=
    ⟨_, _, rfl, rfl, by decide +kernel, by decide +kernel, by decide +kernel⟩
  have hdocument : documentRecord.decode.document loadRules.indentedText = .ok d := by
    rw [Decoder.document_indentedText, hd]
  have hparse : Policy.documentKind.parse loadRules.indentedText = .ok p := by
    rw [DocumentKind.parse_of_decoded (fun _ => rfl) hdocument, hvalid]
    rfl
  obtain ⟨haccepted, hdeclares⟩ := declares_as_told hdocument
  have htold := hdeclares p hparse
  exact ⟨d, p, hdocument, hparse, haccepted.mp ⟨p, hparse⟩, hrequests,
    (htold _).leavesOut.mp hexcluded, (htold _).leavesOut.mp hunlisted, fun _ => htold _⟩

end SpirvBindings.Policy
