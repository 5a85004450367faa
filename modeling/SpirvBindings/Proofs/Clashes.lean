import SpirvBindings.Proofs.FanOut
import SpirvBindings.Proofs.Templates

/-! When two names of a signature clash. The parameters of operands have different names, and none
of them is a generic letter. So a clash has one of two causes. A parameter may have the name of a
literal that a memory access adds, or of the alignment that a physical access needs, for these are
not made fresh. Or it may have the name of a type that is generic and has several letters. -/

namespace SpirvBindings

open Identifier

/-- No two parameters have one name, and none has the name of a template parameter. -/
structure Declaration.NamesApart (d : Declaration) : Prop where
  nodup : (d.parameters.map (·.name)).Nodup
  templates : ∀ t ∈ d.templates, t.name ∉ d.parameters.map (·.name)

/-- The tokens of a signature that template parameters can stand for. -/
def Declaration.typeTokens (d : Declaration) : List String :=
  (Signature.typeTexts d.result d.parameters).flatMap tokens

/-! ### Names that are no letters -/

theorem isUpper_of_isDigit {c : Char} (h : c.isDigit) : c.isUpper = false := by
  unfold Char.isDigit at h
  unfold Char.isUpper
  grind

namespace Naming

theorem not_isGenericLetter_lowerFirst (text : String) : ¬ isGenericLetter (lowerFirst text) := by
  rw [isGenericLetter_iff]
  rintro ⟨c, hc, hupper⟩
  simp only [lowerFirst, String.toList_ofList] at hc
  cases htext : text.toList with
  | nil => simp [htext] at hc
  | cons first rest =>
    rw [htext, List.modifyHead_cons, List.cons.injEq] at hc
    rw [← hc.1, Char.isUpper_toLower_eq_false] at hupper
    exact Bool.false_ne_true hupper

theorem not_isGenericLetter_escapeReserved {name : String} (h : ¬ isGenericLetter name) :
    ¬ isGenericLetter (escapeReserved name) := by
  unfold escapeReserved
  split
  · rw [isGenericLetter_iff]
    rintro ⟨c, hc, hupper⟩
    have hhead : ("_" ++ name).toList.head? = some '_' := by simp
    rw [hc, List.head?_cons, Option.some.injEq] at hhead
    rw [hhead] at hupper
    revert hupper
    decide
  · exact h

theorem not_isGenericLetter_scopeName (raw : String) : ¬ isGenericLetter (scopeName raw) := by
  apply not_isGenericLetter_escapeReserved
  rw [isGenericLetter_iff]
  rintro ⟨c, hc, -⟩
  have hlength := congrArg List.length hc
  simp at hlength

end Naming

namespace Expansion

theorem not_isGenericLetter_numbered {name : String} (h : ¬ isGenericLetter name) (k : Nat) :
    ¬ isGenericLetter (numbered name k) := by
  cases k with
  | zero => exact h
  | succ k =>
    rw [isGenericLetter_iff]
    rintro ⟨c, hc, hupper⟩
    have hdigits : (toString (k + 2)).toList = Nat.toDigits 10 (k + 2) := by simp
    rw [numbered, String.toList_append, hdigits] at hc
    have hlast : c ∈ Nat.toDigits 10 (k + 2) := by
      have hmem := List.getLast_mem (Nat.toDigits_ne_nil (n := k + 2) (b := 10))
      have hsub := List.mem_append_right name.toList hmem
      rw [hc, List.mem_singleton] at hsub
      exact hsub ▸ hmem
    have hdigit := Nat.isDigit_of_mem_toDigits (by decide) (by decide) hlast
    rw [isUpper_of_isDigit hdigit] at hupper
    exact Bool.false_ne_true hupper

theorem Source.not_isGenericLetter_rawName (o : Operand) (source : Source) :
    ¬ isGenericLetter (source.rawName o) := by
  have hparameter : ¬ isGenericLetter (Naming.parameterName o.rawName) :=
    Naming.not_isGenericLetter_escapeReserved (Naming.not_isGenericLetter_lowerFirst _)
  cases source with
  | entry e => exact hparameter
  | rule r =>
    cases r with
    | scope => exact Naming.not_isGenericLetter_scopeName o.rawName
    | pointer => exact Naming.not_isGenericLetter_lowerFirst (Naming.strip o.rawName)
    | _ => exact hparameter

/-- A slot that is named in order is not called like a generic letter. -/
theorem NamedInOrder.not_isGenericLetter {slots : List Slot} (h : NamedInOrder slots) {slot : Slot}
    (hslot : slot ∈ slots) : ¬ isGenericLetter slot.name := by
  obtain ⟨j, hj⟩ := List.getElem?_of_mem hslot
  obtain ⟨-, k, hk⟩ := freshName_spec ((slots.take j).map (·.name))
    (slot.source.rawName slot.operand)
  rw [h j slot hj, hk]
  exact not_isGenericLetter_numbered (Source.not_isGenericLetter_rawName _ _) k

/-! ### The names that an access takes -/

/-- The names that literals take: their own, and that of the alignment if a default mentions it. -/
def takenNames (literals : List Parameter) : List String :=
  literals.map (·.name) ++
    if literals.any (·.default? == some alignmentName) then [alignmentName] else []

/-- The names that a memory access takes in a shape. -/
def accessNames : Shape → List String
  | .physical => ["__aligned", "__alignment", "alignment"]
  | _ => ["memoryAccess", "memoryAccessParam"]

theorem mem_accessNames_iff {shape : Shape} {name : String} :
    name ∈ accessNames shape ↔ ∃ literals ∈ accessLists shape [], name ∈ takenNames literals := by
  have hall : ∀ shape, (∀ name ∈ accessNames shape, ∃ literals ∈ accessLists shape [],
      name ∈ takenNames literals) ∧
        ∀ literals ∈ accessLists shape [], ∀ name ∈ takenNames literals,
          name ∈ accessNames shape := by
    intro shape
    cases shape <;> decide +kernel
  constructor
  · exact (hall shape).1 name
  · rintro ⟨literals, hliterals, hname⟩
    exact (hall shape).2 literals hliterals name hname

theorem mem_takenNames_iff {literals : List Parameter} {name : String} :
    name ∈ takenNames literals ↔ name ∈ literals.map (·.name) ∨
      name = alignmentName ∧ ∃ p ∈ literals, p.default? = some alignmentName := by
  rw [takenNames, List.mem_append]
  refine or_congr_right ?_
  split
  next h =>
    have hany : ∃ p ∈ literals, p.default? = some alignmentName := by simpa using h
    simp [hany]
  next h =>
    have hnone : ¬ ∃ p ∈ literals, p.default? = some alignmentName := by simpa using h
    simp [hnone]

/-- The literals of an access have different names, none of them a letter or the alignment. -/
theorem names_of_mem_accessLists {shape : Shape} {literals : List Parameter}
    (h : literals ∈ accessLists shape []) :
    (literals.map (·.name)).Nodup ∧ alignmentName ∉ literals.map (·.name) ∧
      ∀ name ∈ literals.map (·.name), ¬ isGenericLetter name := by
  have hall : ∀ shape, ∀ literals ∈ accessLists shape [],
      (literals.map (·.name)).Nodup ∧ alignmentName ∉ literals.map (·.name) ∧
        ∀ name ∈ literals.map (·.name), ¬ isGenericLetter name := by
    intro shape
    cases shape <;> decide +kernel
  exact hall shape literals h

theorem names_of_mem_extents {shape : Shape} {access : Bool} {count : Nat} {e : Extent}
    (h : e ∈ extents shape access count) :
    (e.literals.map (·.name)).Nodup ∧ alignmentName ∉ e.literals.map (·.name) ∧
      ∀ name ∈ e.literals.map (·.name), ¬ isGenericLetter name := by
  rcases literals_of_mem_extents h with hnil | hliterals
  · simp [hnil]
  · exact names_of_mem_accessLists hliterals

/-! ### The names of templates -/

theorem exists_mem_signatureTemplates_iff {result name : String} {ps : List Parameter}
    {generics : List String} {values : List ValueParameter} :
    (∃ t ∈ signatureTemplates result ps generics values, t.name = name) ↔
      name ∈ (Signature.typeTexts result ps).flatMap tokens ∧
        ((∃ v ∈ values, v.name = name) ∨ isGenericLetter name ∨ name ∈ generics) := by
  rw [← Signature.exists_templateOf?_iff]
  constructor
  · rintro ⟨t, ht, rfl⟩
    obtain ⟨htoken, hof⟩ := Signature.mem_templates_iff.mp
      ((Signature.moveBehindTypes_perm _ _).mem_iff.mp ht)
    exact ⟨htoken, t, hof⟩
  · rintro ⟨htoken, t, hof⟩
    obtain ⟨ht, hname⟩ := (mem_signatureTemplates_iff htoken hof t).mpr rfl
    exact ⟨t, ht, hname⟩

variable {m : TypeMap} {i : Instruction} {r : Request} {c : Choice}

/-- A template parameter whose name is no letter is the alignment or a generic type. -/
theorem Choice.exists_template_iff (hc : c ∈ choices m i r) {ps : List Parameter} {name : String}
    (hletter : ¬ isGenericLetter name) :
    (∃ t ∈ (c.declaration m i r ps).templates, t.name = name) ↔
      (name = alignmentName ∧ ∃ p ∈ ps, p.default? = some alignmentName) ∨
        name ∈ (c.declaration m i r ps).typeTokens ∧ name ∈ c.generics m i r := by
  have hvalues : (∃ v ∈ valueParameters c.guarded ps, v.name = name) ↔
      name = alignmentName ∧ ∃ p ∈ ps, p.default? = some alignmentName := by
    have hsize : name ≠ vectorSize.name := by
      rintro rfl
      exact hletter (by decide)
    simp only [guarded_eq_widened hc, exists_valueParameter_iff, hsize, and_false, false_or]
  have htoken : (∃ p ∈ ps, p.default? = some alignmentName) →
      alignmentName ∈ (c.declaration m i r ps).typeTokens := alignmentName_mem_tokens
  rw [templates_declaration, exists_mem_signatureTemplates_iff, hvalues]
  constructor
  · rintro ⟨hmem, halign | hgeneric | hgeneric⟩
    · exact .inl halign
    · exact absurd hgeneric hletter
    · exact .inr ⟨hmem, hgeneric⟩
  · rintro (⟨rfl, hany⟩ | ⟨hmem, hgeneric⟩)
    · exact ⟨htoken hany, .inl ⟨rfl, hany⟩⟩
    · exact ⟨hmem, .inr (.inr hgeneric)⟩

/-! ### Names of one declaration -/

theorem Slot.default?_spell (defaultType : String) (s : Setting) (slot : Slot) :
    (slot.spell defaultType s).default? = none := by
  unfold Slot.spell
  split
  next => rfl
  next r _ =>
    cases r with
    | pointer =>
      obtain ⟨shape, type, variant⟩ := s
      cases shape <;> rfl
    | _ => rfl

theorem Outline.map_name_listOf (defaultType : String) (s : Setting) (l : Outline) (e : Extent) :
    (l.listOf defaultType s e).map (·.name) =
      (l.reached e).map (·.name) ++ e.literals.map (·.name) := by
  simp [Outline.listOf, Slot.name_spell]

/-- Only the literals of a list have defaults. -/
theorem Outline.exists_default_listOf_iff (defaultType : String) (s : Setting) (l : Outline)
    (e : Extent) (value : String) :
    (∃ p ∈ l.listOf defaultType s e, p.default? = some value) ↔
      ∃ p ∈ e.literals, p.default? = some value := by
  simp only [Outline.listOf, List.mem_append, List.mem_map]
  constructor
  · rintro ⟨p, ⟨slot, -, rfl⟩ | hp, hdefault⟩
    · rw [Slot.default?_spell] at hdefault
      cases hdefault
    · exact ⟨p, hp, hdefault⟩
  · rintro ⟨p, hp, hdefault⟩
    exact ⟨p, .inr hp, hdefault⟩

/-- The names of the parameters of operands. -/
def operandNames (m : TypeMap) (i : Instruction) : List String :=
  (outline m i).slots.map (·.name)

/-- No generic type that occurs in the signature has the name of a parameter. -/
def GenericsApart (generics : List String) (d : Declaration) : Prop :=
  ∀ name ∈ generics, name ∈ d.typeTokens → name ∉ d.parameters.map (·.name)

/-- A declaration of some names and literals, whose templates are an alignment of the literals or
generic types, has its names apart unless the literals take one of the names or a generic type has
the name of a parameter. -/
theorem namesApart_iff_of_names {d : Declaration} {names generics : List String}
    {literals : List Parameter}
    (hnames : d.parameters.map (·.name) = names ++ literals.map (·.name)) (hnodup : names.Nodup)
    (hliterals : (literals.map (·.name)).Nodup)
    (halignment : alignmentName ∉ literals.map (·.name))
    (htemplate : ∀ name ∈ d.parameters.map (·.name), (∃ t ∈ d.templates, t.name = name) ↔
      (name = alignmentName ∧ ∃ p ∈ literals, p.default? = some alignmentName) ∨
        name ∈ d.typeTokens ∧ name ∈ generics) :
    d.NamesApart ↔ (∀ name ∈ names, name ∉ takenNames literals) ∧ GenericsApart generics d := by
  constructor
  · rintro ⟨hdistinct, htemplates⟩
    refine ⟨fun name hname htaken => ?_, fun name hgeneric htoken hname => ?_⟩
    · have hmem : name ∈ d.parameters.map (·.name) := by
        rw [hnames]
        exact List.mem_append_left _ hname
      rcases mem_takenNames_iff.mp htaken with hliteral | halign
      · rw [hnames] at hdistinct
        exact (List.nodup_append.mp hdistinct).2.2 name hname name hliteral rfl
      · obtain ⟨t, ht, rfl⟩ := (htemplate name hmem).mpr (.inl halign)
        exact htemplates t ht hmem
    · obtain ⟨t, ht, rfl⟩ := (htemplate name hname).mpr (.inr ⟨htoken, hgeneric⟩)
      exact htemplates t ht hname
  · rintro ⟨htaken, hgenerics⟩
    refine ⟨?_, fun t ht hname => ?_⟩
    · rw [hnames]
      refine List.nodup_append.mpr ⟨hnodup, hliterals, ?_⟩
      rintro name hname _ hliteral rfl
      exact htaken name hname (mem_takenNames_iff.mpr (.inl hliteral))
    · rcases (htemplate _ hname).mp ⟨t, ht, rfl⟩ with halign | ⟨htoken, hgeneric⟩
      · rw [hnames] at hname
        rcases List.mem_append.mp hname with hname | hliteral
        · exact htaken _ hname (mem_takenNames_iff.mpr (.inr halign))
        · exact halignment (halign.1 ▸ hliteral)
      · exact hgenerics _ hgeneric htoken hname

theorem Choice.namesApart_iff (hc : c ∈ choices m i r)
    (hmade : (outline m i).MadeFrom m i c.variant i.arguments) {e : Extent}
    (he : e ∈ extents r.shape (outline m i).access (outline m i).optional.length) :
    (c.declaration m i r ((outline m i).listOf m.defaultType (c.setting r) e)).NamesApart ↔
      (∀ name ∈ ((outline m i).reached e).map (·.name), name ∉ takenNames e.literals) ∧
        GenericsApart (c.generics m i r)
          (c.declaration m i r ((outline m i).listOf m.defaultType (c.setting r) e)) := by
  have hnamed := outline_namedInOrder m i
  have hnames := Outline.map_name_listOf m.defaultType (c.setting r) (outline m i) e
  obtain ⟨hliterals, halignment, hletters⟩ := names_of_mem_extents he
  have hreached : (((outline m i).reached e).map (·.name)).Sublist (operandNames m i) := by
    rw [Outline.reached_eq_take hmade.ordered]
    exact (List.take_sublist _ _).map _
  have hletter : ∀ name ∈ ((outline m i).listOf m.defaultType (c.setting r) e).map (·.name),
      ¬ isGenericLetter name := by
    rw [hnames, List.forall_mem_append]
    refine ⟨fun name hname => ?_, hletters⟩
    obtain ⟨slot, hslot, rfl⟩ := List.mem_map.mp (hreached.subset hname)
    exact hnamed.not_isGenericLetter hslot
  refine namesApart_iff_of_names hnames (hnamed.nodup.sublist hreached) hliterals halignment ?_
  intro name hname
  rw [Choice.exists_template_iff hc (hletter name hname), Outline.exists_default_listOf_iff]

/-! ### Names of an expansion -/

/-- No list has an operand whose name its literals take if no operand has a name that the access
takes. -/
theorem Outline.forall_extents_iff {l : Outline} (h : l.slots = l.required ++ l.optional)
    {shape : Shape} :
    (∀ e ∈ extents shape l.access l.optional.length, ∀ name ∈ (l.reached e).map (·.name),
        name ∉ takenNames e.literals) ↔
      (l.access → ∀ name ∈ l.slots.map (·.name), name ∉ accessNames shape) := by
  constructor
  · intro hextents haccess name hname htaken
    obtain ⟨literals, hliterals, hliteral⟩ := mem_accessNames_iff.mp htaken
    have hmem : (⟨l.optional.length, literals⟩ : Extent) ∈
        extents shape l.access l.optional.length :=
      mem_extents_iff.mpr (.inr ⟨rfl, by simpa [haccess] using hliterals⟩)
    refine hextents _ hmem name ?_ hliteral
    rw [Outline.reached, List.take_length, ← h]
    exact hname
  · intro haccess e he name hname htaken
    have hnone : takenNames [] = [] := rfl
    rcases mem_extents_iff.mp he with ⟨-, hnil⟩ | ⟨-, hliterals⟩
    · simp [hnil, hnone] at htaken
    · cases hl : l.access with
      | false =>
        have hnil : e.literals = [] := by simpa [hl] using hliterals
        simp [hnil, hnone] at htaken
      | true =>
        have hmem : e.literals ∈ accessLists shape [] := by simpa [hl] using hliterals
        refine haccess hl name ?_ (mem_accessNames_iff.mpr ⟨_, hmem, htaken⟩)
        rw [Outline.reached_eq_take h] at hname
        exact ((List.take_sublist _ _).map _).subset hname

/-- The declarations of a choice are one for each extent. -/
theorem Choice.forall_declarations_iff {P : Declaration → Prop} :
    (∀ d ∈ c.declarations m i r, P d) ↔
      ∀ e ∈ extents r.shape (outline m i).access (outline m i).optional.length,
        P (c.declaration m i r ((outline m i).listOf m.defaultType (c.setting r) e)) := by
  have hlists : (c.parameterSet m i r).lists =
      (extents r.shape (outline m i).access (outline m i).optional.length).map
        ((outline m i).listOf m.defaultType (c.setting r)) := Outline.lists_parameterSet _ _ _
  simp only [Choice.declarations, hlists, List.forall_mem_map]

theorem Choice.declarations_ne_nil (m : TypeMap) (i : Instruction) (r : Request) (c : Choice) :
    c.declarations m i r ≠ [] := by
  intro hnil
  obtain ⟨e, he, -⟩ := exists_mem_extents r.shape (outline m i).access
    (Nat.zero_le (outline m i).optional.length)
  have hnone : ∀ d ∈ c.declarations m i r, False := by simp [hnil]
  exact Choice.forall_declarations_iff.mp hnone e he

/-- What holds of all declarations of each choice under one condition holds of all declarations
under this condition, unless there are none. -/
theorem forall_flatMap_declarations_iff {P : Declaration → Prop} {Q : Prop}
    (h : ∀ c ∈ choices m i r, (∀ d ∈ c.declarations m i r, P d) ↔ Q) :
    (∀ d ∈ (choices m i r).flatMap (Choice.declarations m i r), P d) ↔
      (choices m i r).flatMap (Choice.declarations m i r) = [] ∨ Q := by
  rw [List.forall_mem_flatMap]
  cases hcs : choices m i r with
  | nil => simp
  | cons first rest =>
    rw [hcs] at h
    have hfirst := h first List.mem_cons_self
    have hne : (first :: rest).flatMap (Choice.declarations m i r) ≠ [] := by
      rw [List.flatMap_cons]
      exact List.append_ne_nil_of_left_ne_nil (Choice.declarations_ne_nil m i r first) _
    rw [or_iff_right hne]
    constructor
    · exact fun hall => hfirst.mp (hall first List.mem_cons_self)
    · exact fun hcond c hc => (h c hc).mpr hcond

/-- All names of an expansion are apart if and only if, for each of its choices, no parameter of an
operand has a name that an optional memory access takes, and no generic type that occurs in a
signature has the name of a parameter. -/
theorem expand_namesApart_iff {ds : List Declaration}
    (h : i.expand r m = .ok (.declarations ds)) :
    (∀ d ∈ ds, d.NamesApart) ↔
      ∀ c ∈ choices m i r,
        ((∃ o ∈ i.arguments, isFreeAccess m i o) →
          ∀ name ∈ operandNames m i, name ∉ accessNames r.shape) ∧
        ∀ d ∈ c.declarations m i r, GenericsApart (c.generics m i r) d := by
  obtain ⟨-, -, hstop, rfl⟩ := expand_eq_declarations_iff.mp h
  simp only [List.forall_mem_flatMap]
  refine forall₂_congr fun c hc => ?_
  have hmade := outline_madeFrom (hstop c hc)
  have hextents : (∀ e ∈ extents r.shape (outline m i).access (outline m i).optional.length,
      ∀ name ∈ ((outline m i).reached e).map (·.name), name ∉ takenNames e.literals) ↔
        ((∃ o ∈ i.arguments, isFreeAccess m i o) →
          ∀ name ∈ operandNames m i, name ∉ accessNames r.shape) := by
    rw [← hmade.access_iff_exists]
    exact Outline.forall_extents_iff hmade.ordered
  rw [Choice.forall_declarations_iff, Choice.forall_declarations_iff, ← hextents, ← forall₂_and]
  exact forall₂_congr fun e he => Choice.namesApart_iff hc hmade he

/-- A store with a required memory access and an optional one. -/
def twiceAccessed : Instruction where
  opname := "OpStore"
  className := "Memory"
  opcode := 62
  operands := [⟨"IdRef", some "Pointer", none⟩, ⟨"IdRef", some "Object", none⟩,
    ⟨"MemoryAccess", none, none⟩, ⟨"MemoryAccess", none, some .optional⟩]
  capabilities := []
  extensions := []
  version? := none

/-- The literals of the optional access take the name of the required one. -/
theorem twiceAccessed_names_clash :
    ∃ d d' d'', twiceAccessed.expand ⟨.reference, none, none, none, []⟩ .standard =
        .ok (.declarations [d, d', d'']) ∧
      d'.parameters.map (·.name) = ["pointer", "object", "memoryAccess", "memoryAccess"] ∧
        ¬ d'.NamesApart := by
  obtain ⟨d, d', d'', hds, hnames⟩ :
      ∃ d d' d'', twiceAccessed.expand ⟨.reference, none, none, none, []⟩ .standard =
          .ok (.declarations [d, d', d'']) ∧
        d'.parameters.map (·.name) = ["pointer", "object", "memoryAccess", "memoryAccess"] :=
    ⟨_, _, _, rfl, rfl⟩
  refine ⟨d, d', d'', hds, hnames, fun hapart => ?_⟩
  have hnodup := hapart.nodup
  rw [hnames] at hnodup
  revert hnodup
  decide

/-- A physical access takes other names. -/
theorem twiceAccessed_namesApart_physical :
    ∃ d, twiceAccessed.expand ⟨.physical, none, none, none, []⟩ .standard =
        .ok (.declarations [d]) ∧ d.NamesApart ∧
      ∀ c ∈ choices .standard twiceAccessed ⟨.physical, none, none, none, []⟩,
        ((∃ o ∈ twiceAccessed.arguments, isFreeAccess .standard twiceAccessed o) →
          ∀ name ∈ operandNames .standard twiceAccessed, name ∉ accessNames .physical) ∧
        ∀ d ∈ c.declarations .standard twiceAccessed ⟨.physical, none, none, none, []⟩,
          GenericsApart (c.generics .standard twiceAccessed ⟨.physical, none, none, none, []⟩) d := by
  obtain ⟨d, hds, hnodup, htemplates⟩ :
      ∃ d, twiceAccessed.expand ⟨.physical, none, none, none, []⟩ .standard =
          .ok (.declarations [d]) ∧ (d.parameters.map (·.name)).Nodup ∧
        ∀ t ∈ d.templates, t.name ∉ d.parameters.map (·.name) :=
    ⟨_, rfl, by decide +kernel, by decide +kernel⟩
  have hapart : d.NamesApart := ⟨hnodup, htemplates⟩
  exact ⟨d, hds, hapart, (expand_namesApart_iff hds).mp (by simpa using hapart)⟩

end Expansion

end SpirvBindings
