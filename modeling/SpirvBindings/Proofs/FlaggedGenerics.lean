import SpirvBindings.Proofs.Clashes

/-! Names that an entry of the type map calls generic. Such a name is a token of the signatures that
are spelled with it, and a token is a type parameter if the template collector knows it: it is a
letter, or it was noted for an operand, or it is the element as it stands. A name of one character
is not noted, and an element that a guard widens to a vector is known by the whole vector text only.
A token that is called like a value parameter stands for that. So a flagged name is declared if and
only if none of this keeps it from being one. -/

namespace SpirvBindings

open Identifier

/-! ### Characters of tokens -/

theorem Identifier.isChar_of_mem_pieces {cs piece : List Char} (h : piece ∈ pieces cs) :
    ∀ ch ∈ piece, isChar ch := by
  induction cs generalizing piece with
  | nil => simp [List.mem_singleton.mp h]
  | cons first rest ih =>
    by_cases hfirst : isChar first
    · rw [pieces_cons_of_isChar hfirst] at h
      cases hrest : pieces rest with
      | nil => exact absurd hrest (pieces_ne_nil rest)
      | cons head tail =>
        rw [hrest] at h ih
        rcases List.mem_cons.mp h with rfl | htail
        · exact List.forall_mem_cons.mpr ⟨hfirst, ih List.mem_cons_self⟩
        · exact ih (List.mem_cons_of_mem _ htail)
    · rw [pieces_cons_of_not_isChar hfirst] at h
      rcases List.mem_cons.mp h with rfl | hrest
      · simp
      · exact ih hrest

theorem Identifier.isChar_of_mem_tokens {text token : String} (h : token ∈ tokens text) :
    ∀ ch ∈ token.toList, isChar ch := by
  obtain ⟨piece, hpiece, rfl⟩ := List.mem_map.mp h
  rw [String.toList_ofList]
  exact isChar_of_mem_pieces (List.mem_filter.mp hpiece).1

theorem TypeEntry.isGeneric_iff {e : TypeEntry} {name : String} (hletter : ¬ isGenericLetter name) :
    e.isGeneric name ↔ e.generic? = some true := by
  unfold TypeEntry.isGeneric
  cases e.generic? <;> simp [hletter]

/-- A token is a type parameter if no value parameter has its name and it is known to be generic. -/
theorem Signature.templateOf?_eq_typename_iff {generics : List String}
    {values : List ValueParameter} {token : String} :
    templateOf? generics values token = some (.typename token) ↔
      (¬ ∃ v ∈ values, v.name = token) ∧ (isGenericLetter token ∨ token ∈ generics) := by
  rcases templateOf?_cases generics values token with ⟨v, hv, hname, hof⟩ | ⟨hno, hof⟩
  · rw [hof]
    exact iff_of_false (by simp) fun h => h.1 ⟨v, hv, hname⟩
  · rw [hof, Option.ite_none_right_eq_some, and_iff_left rfl, and_iff_right hno]

namespace Expansion

variable {m : TypeMap} {i : Instruction} {r : Request} {c : Choice}

/-! ### Known names -/

/-- What a fold adds step by step, by induction on the steps. -/
theorem mem_foldl_iff {α β : Type} {f : List β → α → List β} {x : β} {P : α → Prop}
    (hstep : ∀ xs a, x ∈ f xs a ↔ x ∈ xs ∨ P a) (as : List α) (xs : List β) :
    x ∈ as.foldl f xs ↔ x ∈ xs ∨ ∃ a ∈ as, P a := by
  induction as generalizing xs with
  | nil => simp
  | cons a as ih => rw [List.foldl_cons, ih, hstep, or_assoc, List.exists_mem_cons_iff]

/-- A name that is added if it is known and not there yet is there. -/
theorem mem_ite_append_iff {known : Bool} {names : List String} {name x : String} :
    x ∈ (if known && ! names.contains name then names ++ [name] else names) ↔
      x ∈ names ∨ known ∧ name = x := by
  cases known with
  | false => simp
  | true =>
    by_cases hthere : name ∈ names
    · have hnames : name = x → x ∈ names := fun heq => heq ▸ hthere
      simpa [hthere] using hnames
    · simp [hthere, eq_comm]

theorem mem_addGenerics_iff {names : List String} {types : List ResolvedType} {name : String} :
    name ∈ addGenerics names types ↔ name ∈ names ∨ ∃ t ∈ types, t.generic ∧ t.name = name :=
  mem_foldl_iff (P := fun t : ResolvedType => t.generic ∧ t.name = name)
    (fun _ _ => mem_ite_append_iff) types names

/-- The slots of an outline note the types of their entries that are generic and not of one
character. -/
theorem Outline.mem_generics_iff {l : Outline} {defaultType : String} {s : Setting}
    {name : String} :
    name ∈ (l.parameterSet defaultType s).generics ↔
      ∃ slot ∈ l.slots, ∃ e, slot.source = .entry e ∧ e.typeAt s.variant = name ∧
        e.isGeneric name ∧ 1 < name.utf8ByteSize := by
  have hstep : ∀ (names : List String) (slot : Slot), name ∈ slot.note s.variant names ↔
      name ∈ names ∨ ∃ e, slot.source = .entry e ∧ e.typeAt s.variant = name ∧
        e.isGeneric name ∧ 1 < name.utf8ByteSize := by
    intro names slot
    unfold Slot.note
    cases slot.source with
    | rule rule => simp
    | entry e =>
      rw [mem_ite_append_iff]
      refine or_congr_right ?_
      simp only [Bool.and_eq_true, decide_eq_true_eq, Source.entry.injEq, exists_eq_left']
      constructor
      · rintro ⟨⟨hgeneric, hlong⟩, rfl⟩
        exact ⟨rfl, hgeneric, hlong⟩
      · rintro ⟨rfl, hgeneric, hlong⟩
        exact ⟨⟨hgeneric, hlong⟩, rfl⟩
  refine (mem_foldl_iff hstep l.slots []).trans ?_
  simp

/-! ### Declared names -/

/-- A value parameter of a declaration is called like a token. -/
inductive Choice.Captures (c : Choice) (ps : List Parameter) (name : String) : Prop
  | size (hguard : widens c.guard?) (hname : name = vectorSize.name)
  | alignment (hname : name = alignmentName) (hdefault : ∃ p ∈ ps, p.default? = some alignmentName)

theorem Choice.captures_iff (hc : c ∈ choices m i r) {ps : List Parameter} {name : String} :
    c.Captures ps name ↔ ∃ v ∈ valueParameters c.guarded ps, v.name = name := by
  rw [guarded_eq_widened hc, exists_valueParameter_iff]
  constructor
  · rintro (⟨hguard, hname⟩ | ⟨hname, hdefault⟩)
    · exact .inl ⟨hguard, hname⟩
    · exact .inr ⟨hname, hdefault⟩
  · rintro (⟨hguard, hname⟩ | ⟨hname, hdefault⟩)
    · exact .size hguard hname
    · exact .alignment hname hdefault

/-- How a token gets known as a type parameter. -/
inductive Choice.Keeps (m : TypeMap) (i : Instruction) (r : Request) (c : Choice) (name : String) :
    Prop
  | letter (hletter : isGenericLetter name)
  | operand {o : Operand} {e : TypeEntry} (ho : o ∈ i.arguments)
      (he : m.entryOfOperand? i o = some e) (hname : e.select c.variant = .ok name)
      (hflag : e.generic? = some true) (hlong : 1 < name.utf8ByteSize)
  | element (hgeneric : c.element.generic) (hname : c.element.name = name)
      (hguard : ¬ widens c.guard?) (huses : i.hasResultType ∨ r.operandType? = none)

/-- A token that is no letter is the name of a guarded element only if no guard widens that. -/
theorem Choice.name_guarded_eq_iff (hc : c ∈ choices m i r) {text token : String}
    (htoken : token ∈ tokens text) :
    c.guarded.type.generic ∧ c.guarded.type.name = token ↔
      c.element.generic ∧ c.element.name = token ∧ ¬ widens c.guard? := by
  rw [guarded_eq_widened hc, widened]
  by_cases hguard : widens c.guard?
  -- A vector text has a bracket, and no token has one.
  · have hvector : "vector<" ++ c.element.name ++ ", N>" ≠ token := by
      rintro rfl
      have hbracket : '<' ∈ ("vector<" ++ c.element.name ++ ", N>").toList := by simp
      have hchar := isChar_of_mem_tokens htoken _ hbracket
      revert hchar
      decide
    simp [hguard, hvector]
  · simp [hguard]

theorem generic_resultType_iff {type : ResolvedType} {name : String} :
    (resultType i type).generic ∧ (resultType i type).name = name ↔
      i.hasResultType ∧ type.generic ∧ type.name = name := by
  unfold resultType
  split
  next h => simp [h]
  next h => simp [h, ResolvedType.concrete]

/-- A requested operand type is generic only if it is a letter. -/
theorem generic_operandType_iff {type : ResolvedType} {name : String}
    (hletter : ¬ isGenericLetter name) :
    (operandType r type).generic ∧ (operandType r type).name = name ↔
      r.operandType? = none ∧ type.generic ∧ type.name = name := by
  unfold operandType
  cases r.operandType? with
  | none => simp
  | some text =>
    simp only [Option.map_some, Option.getD_some, reduceCtorEq, false_and, iff_false, not_and,
      ResolvedType.ofText]
    split
    next htext =>
      rintro - rfl
      exact hletter htext
    next => simp [ResolvedType.concrete]

/-- A token is a letter or a generic type of a choice if and only if it gets known as such. -/
theorem Choice.mem_generics_iff (hc : c ∈ choices m i r)
    (hmade : (outline m i).MadeFrom m i c.variant i.arguments) {text token : String}
    (htoken : token ∈ tokens text) :
    isGenericLetter token ∨ token ∈ c.generics m i r ↔ c.Keeps m i r token := by
  have hguarded := Choice.name_guarded_eq_iff hc htoken
  by_cases hletter : isGenericLetter token
  · exact ⟨fun _ => .letter hletter, fun _ => .inl hletter⟩
  have hset : token ∈ (c.parameterSet m i r).generics ↔ ∃ slot ∈ (outline m i).slots, ∃ e,
      slot.source = .entry e ∧ e.typeAt c.variant = token ∧ e.generic? = some true ∧
        1 < token.utf8ByteSize := by
    simp only [← TypeEntry.isGeneric_iff hletter]
    exact Outline.mem_generics_iff
  simp only [hletter, Bool.false_eq_true, false_or, Choice.generics, mem_addGenerics_iff, hset,
    List.exists_mem_cons_iff, List.not_mem_nil, false_and, exists_false, or_false,
    generic_resultType_iff, generic_operandType_iff hletter, hguarded]
  constructor
  · rintro (⟨slot, hslot, e, hsource, htype, hflag, hlong⟩ | ⟨hresult, hgeneric, hname, hguard⟩ |
      ⟨hoperand, hgeneric, hname, hguard⟩)
    · obtain ⟨type, hselect⟩ := hmade.inRange slot hslot e hsource
      obtain rfl : type = token := (TypeEntry.typeAt_of_select hselect).symm.trans htype
      obtain ⟨ho, he, -⟩ := hmade.exists_slot_iff.mp ⟨slot, hslot, rfl, hsource⟩
      exact .operand ho (Source.ofOperand?_eq_entry_iff.mp he) hselect hflag hlong
    · exact .element hgeneric hname hguard (.inl hresult)
    · exact .element hgeneric hname hguard (.inr hoperand)
  · intro h
    cases h with
    | letter h => exact absurd h hletter
    | operand ho he hname hflag hlong =>
      obtain ⟨slot, hslot, -, hsource⟩ := hmade.exists_slot_iff.mpr
        ⟨ho, Source.ofOperand?_eq_entry_iff.mpr he, rfl⟩
      exact .inl ⟨slot, hslot, _, hsource, TypeEntry.typeAt_of_select hname, hflag, hlong⟩
    | element hgeneric hname hguard huses =>
      exact .inr (huses.imp (⟨·, hgeneric, hname, hguard⟩) (⟨·, hgeneric, hname, hguard⟩))

/-- A token of a signature is one of its type parameters if and only if it is known as one and no
value parameter is called like it. -/
theorem Choice.typename_mem_templates_iff (hc : c ∈ choices m i r)
    (hmade : (outline m i).MadeFrom m i c.variant i.arguments) {ps : List Parameter}
    {token : String} (htoken : token ∈ (c.declaration m i r ps).typeTokens) :
    .typename token ∈ (c.declaration m i r ps).templates ↔
      ¬ c.Captures ps token ∧ c.Keeps m i r token := by
  obtain ⟨text, -, htext⟩ := List.mem_flatMap.mp htoken
  rw [templates_declaration, signatureTemplates,
    (Signature.moveBehindTypes_perm pointerTemplate _).mem_iff, Signature.mem_templates_iff,
    Choice.captures_iff hc, ← Choice.mem_generics_iff hc hmade htext]
  exact (and_iff_right htoken).trans Signature.templateOf?_eq_typename_iff

/-! ### Flagged names -/

/-- The type that an entry selects for a choice, if the entry calls it generic and is used for an
operand or for the element. -/
inductive Choice.Flags (m : TypeMap) (i : Instruction) (r : Request) (c : Choice) (name : String) :
    Prop
  | operand {o : Operand} {e : TypeEntry} (ho : o ∈ i.arguments)
      (he : m.entryOfOperand? i o = some e) (hname : e.select c.variant = .ok name)
      (hflag : e.generic? = some true)
  | element {e : TypeEntry} (hresult : r.resultType? = none) (he : m.entryOfResult? i = some e)
      (hname : e.select c.variant = .ok name) (hflag : e.generic? = some true)

/-- All flagged names that are tokens of a declaration are type parameters of it. -/
def Choice.FlaggedDeclared (m : TypeMap) (i : Instruction) (r : Request) (c : Choice)
    (d : Declaration) : Prop :=
  ∀ name, c.Flags m i r name → name ∈ d.typeTokens → .typename name ∈ d.templates

/-- The declarations of an expansion, choice by choice, have all flagged names among their type
parameters if and only if each such name is known as generic and called like no value parameter. -/
theorem expand_flaggedDeclared_iff {ds : List Declaration}
    (h : i.expand r m = .ok (.declarations ds)) :
    ds = (choices m i r).flatMap (Choice.declarations m i r) ∧
      ∀ c ∈ choices m i r, ∀ d ∈ c.declarations m i r,
        (c.FlaggedDeclared m i r d ↔ ∀ name, c.Flags m i r name → name ∈ d.typeTokens →
          ¬ c.Captures d.parameters name ∧ c.Keeps m i r name) := by
  obtain ⟨-, -, hstop, hds⟩ := expand_eq_declarations_iff.mp h
  refine ⟨hds, fun c hc d hd => ?_⟩
  have hmade := outline_madeFrom (hstop c hc)
  obtain ⟨ps, -, rfl⟩ := List.mem_map.mp hd
  exact forall₃_congr fun name _ htoken => Choice.typename_mem_templates_iff hc hmade htoken

/-- A copy of an object. -/
def copyObject (capabilities : List String) : Instruction where
  opname := "OpCopyObject"
  className := "Composite"
  opcode := 83
  operands := [⟨"IdResultType", none, none⟩, ⟨"IdResult", none, none⟩,
    ⟨"IdRef", some "Operand", none⟩]
  capabilities := capabilities
  extensions := []
  version? := none

/-- A generic type of several letters for the objects. -/
def copiedVectors : TypeMap where
  defaultType := "uint32_t"
  classes := []
  instructions := [("OpCopyObject", {
    result? := some ⟨"IdResultType", none, "Vec", some true, false, [], []⟩
    parameters := [] })]

/-- A request with nothing but a shape. -/
def plainRequest : Request := ⟨.reference, none, none, none, []⟩

/-- An element that a guard widens to a vector is not declared. -/
theorem copyObject_undeclared :
    ∃ c ∈ choices copiedVectors (copyObject ["VectorAnyINTEL"]) plainRequest, ∃ d,
      (copyObject ["VectorAnyINTEL"]).expand plainRequest copiedVectors =
          .ok (.declarations [d]) ∧
        c.declarations copiedVectors (copyObject ["VectorAnyINTEL"]) plainRequest = [d] ∧
        d.typeTokens = ["vector", "Vec", "N", "vector", "Vec", "N"] ∧
        d.templates = [.value ⟨"uint32_t", "N"⟩] ∧
          ¬ c.FlaggedDeclared copiedVectors (copyObject ["VectorAnyINTEL"]) plainRequest d := by
  obtain ⟨c, hc, d, hd, hds, htokens, htemplates⟩ :
      ∃ c ∈ choices copiedVectors (copyObject ["VectorAnyINTEL"]) plainRequest, ∃ d,
        (copyObject ["VectorAnyINTEL"]).expand plainRequest copiedVectors =
            .ok (.declarations [d]) ∧
          c.declarations copiedVectors (copyObject ["VectorAnyINTEL"]) plainRequest = [d] ∧
          d.typeTokens = ["vector", "Vec", "N", "vector", "Vec", "N"] ∧
            d.templates = [.value ⟨"uint32_t", "N"⟩] :=
    ⟨_, List.mem_singleton_self _, _, rfl, rfl, by decide +kernel, by decide +kernel⟩
  refine ⟨c, hc, d, hd, hds, htokens, htemplates, fun hdeclared => ?_⟩
  have hflags : c.Flags copiedVectors (copyObject ["VectorAnyINTEL"]) plainRequest "Vec" :=
    .element rfl rfl rfl rfl
  have hmem := hdeclared "Vec" hflags (by simp [htokens])
  simp [htemplates] at hmem

/-- Without the guard it is. -/
theorem copyObject_declared :
    ∃ c ∈ choices copiedVectors (copyObject []) plainRequest, ∃ d,
      (copyObject []).expand plainRequest copiedVectors = .ok (.declarations [d]) ∧
        d ∈ c.declarations copiedVectors (copyObject []) plainRequest ∧
        d.typeTokens = ["Vec", "Vec"] ∧ d.templates = [.typename "Vec"] ∧
          c.FlaggedDeclared copiedVectors (copyObject []) plainRequest d := by
  obtain ⟨c, hc, d, hd, hds, helement, hguard, htokens, htemplates⟩ :
      ∃ c ∈ choices copiedVectors (copyObject []) plainRequest, ∃ d,
        (copyObject []).expand plainRequest copiedVectors = .ok (.declarations [d]) ∧
          c.declarations copiedVectors (copyObject []) plainRequest = [d] ∧
          c.element = ⟨"Vec", true, false, []⟩ ∧ c.guard? = none ∧
          d.typeTokens = ["Vec", "Vec"] ∧ d.templates = [.typename "Vec"] :=
    ⟨_, List.mem_singleton_self _, _, rfl, rfl, rfl, rfl, by decide +kernel, by decide +kernel⟩
  have hmem : d ∈ c.declarations copiedVectors (copyObject []) plainRequest := by
    rw [hds]
    exact List.mem_singleton_self d
  refine ⟨c, hc, d, hd, hmem, htokens, htemplates, ?_⟩
  refine ((expand_flaggedDeclared_iff hd).2 c hc d hmem).mpr fun name _ htoken => ?_
  obtain rfl : name = "Vec" := by simpa [htokens] using htoken
  refine ⟨?_, .element ?_ ?_ ?_ (.inr rfl)⟩
  · rintro (⟨-, hname⟩ | ⟨hname, -⟩) <;> exact absurd hname (by decide)
  · rw [helement]
  · rw [helement]
  · rw [hguard]
    exact Bool.false_ne_true

end Expansion

end SpirvBindings
