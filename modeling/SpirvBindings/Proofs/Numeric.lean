import Mathlib.Data.List.Infix
import SpirvBindings.Proofs.Capabilities
import SpirvBindings.Proofs.FanOut

/-! The overloads of a numeric instruction. A capability admits the scalars of the kind and width
of the first width tag in its name, and all scalars if there is no tag. Under each guard the results
are exactly the scalars of the type class that the guard admits, in order, each once for every
parameter list, and spelled as a vector if the guard speaks of vectors. -/

namespace SpirvBindings

/-! ### Widths in names -/

namespace Capability

/-- A text is part of the name of a capability. -/
def Contains (capability part : String) : Prop := part.toList <:+: capability.toList

theorem occursIn_iff {part text : List Char} : occursIn part text ↔ part <:+: text := by
  induction text with
  | nil => simp [occursIn]
  | cons c cs ih => rw [occursIn, Bool.or_eq_true, List.infix_cons_iff, ih, List.isPrefixOf_iff_prefix]

theorem mentions_iff {capability part : String} :
    mentions capability part ↔ Contains capability part := occursIn_iff

instance (capability part : String) : Decidable (Contains capability part) :=
  decidable_of_iff _ mentions_iff

def floatTags : List (String × Scalar.Width) :=
  [("Float16", .bits16), ("Float32", .bits32), ("Float64", .bits64)]

def integerTags : List (String × Scalar.Width) := [("Int16", .bits16), ("Int64", .bits64)]

/-- The width of the first of some tags that a capability contains. -/
def FirstTag (capability : String) (tags : List (String × Scalar.Width))
    (width : Scalar.Width) : Prop :=
  ∃ before text after, tags = before ++ (text, width) :: after ∧ Contains capability text ∧
    ∀ tag ∈ before, ¬ Contains capability tag.1

/-- No one of some tags is in the name of a capability. -/
def NoTag (capability : String) (tags : List (String × Scalar.Width)) : Prop :=
  ∀ tag ∈ tags, ¬ Contains capability tag.1

/-- A capability admits all scalars if it contains no width tag. Otherwise it admits the floats of
its first float tag, or if it has none, the integers of its first integer tag. -/
inductive AdmitsScalar (capability : String) (s : Scalar) : Prop
  | untagged (hfloat : NoTag capability floatTags) (hinteger : NoTag capability integerTags)
  | float (hs : s.isFloat) (hfirst : FirstTag capability floatTags s.width)
  | integer (hs : s.isInteger) (hfloat : NoTag capability floatTags)
      (hfirst : FirstTag capability integerTags s.width)

theorem tags_of_find?_eq_some {capability : String} {tags : List (String × Scalar.Width)}
    {tag : String × Scalar.Width} (h : tags.find? (mentions capability ·.1) = some tag) :
    ¬ NoTag capability tags ∧ ∀ width, FirstTag capability tags width ↔ width = tag.2 := by
  obtain ⟨htag, before, after, htags, hbefore⟩ := List.find?_eq_some_iff_append.mp h
  have hcontains := mentions_iff.mp htag
  refine ⟨fun hnone => hnone tag (List.mem_of_find?_eq_some h) hcontains, fun width => ?_⟩
  constructor
  · rintro ⟨before', text, after', htags', htext, hbefore'⟩
    have hfind : tags.find? (mentions capability ·.1) = some (text, width) := by
      refine List.find?_eq_some_iff_append.mpr ⟨mentions_iff.mpr htext, before', after', htags', ?_⟩
      intro t ht
      simpa [← mentions_iff] using hbefore' t ht
    rw [h, Option.some.injEq] at hfind
    rw [hfind]
  · rintro rfl
    refine ⟨before, tag.1, after, htags, hcontains, fun t ht => ?_⟩
    simpa [← mentions_iff] using hbefore t ht

theorem tags_of_find?_eq_none {capability : String} {tags : List (String × Scalar.Width)}
    (h : tags.find? (mentions capability ·.1) = none) :
    NoTag capability tags ∧ ∀ width, ¬ FirstTag capability tags width := by
  have hnone : NoTag capability tags := by
    intro tag htag hcontains
    exact List.find?_eq_none.mp h tag htag (mentions_iff.mpr hcontains)
  refine ⟨hnone, ?_⟩
  rintro width ⟨before, text, after, rfl, htext, -⟩
  exact hnone (text, width) (by simp) htext

/-- The float tags are looked for before the integer tags. -/
theorem widthTag?_eq (capability : String) :
    widthTag? capability =
      ((floatTags.find? (mentions capability ·.1)).map fun tag => ⟨tag.1, true, tag.2⟩).or
        ((integerTags.find? (mentions capability ·.1)).map fun tag => ⟨tag.1, false, tag.2⟩) := by
  have htags : widthTags = floatTags.map (fun tag => ⟨tag.1, true, tag.2⟩) ++
      integerTags.map (fun tag => ⟨tag.1, false, tag.2⟩) := rfl
  rw [widthTag?, htags, List.find?_append, List.find?_map, List.find?_map]
  rfl

theorem admits_name_iff {capability : String} {s : Scalar} :
    admits capability s.name ↔ AdmitsScalar capability s := by
  have hadmits : admits capability s.name = (widthTag? capability).all (·.admits s) := by
    unfold admits
    rw [Scalar.ofName?_name]
    cases widthTag? capability <;> rfl
  have hkind : s.isInteger = ! s.isFloat := rfl
  rw [hadmits, widthTag?_eq]
  cases hfloat : floatTags.find? (mentions capability ·.1) with
  | some tag =>
    obtain ⟨htagged, hfirst⟩ := tags_of_find?_eq_some hfloat
    simp only [Option.map_some, Option.some_or, Option.all_some, WidthTag.admits, Bool.and_eq_true,
      beq_iff_eq, ← hfirst]
    constructor
    · rintro ⟨hs, hwidth⟩
      exact .float hs hwidth
    · rintro (⟨hnone, -⟩ | ⟨hs, hwidth⟩ | ⟨-, hnone, -⟩)
      · exact absurd hnone htagged
      · exact ⟨hs, hwidth⟩
      · exact absurd hnone htagged
  | none =>
    obtain ⟨hfloats, hno⟩ := tags_of_find?_eq_none hfloat
    cases hinteger : integerTags.find? (mentions capability ·.1) with
    | some tag =>
      obtain ⟨htagged, hfirst⟩ := tags_of_find?_eq_some hinteger
      simp only [Option.map_some, Option.map_none, Option.none_or, Option.all_some,
        WidthTag.admits, Bool.and_eq_true, beq_iff_eq, ← hfirst]
      constructor
      · rintro ⟨hs, hwidth⟩
        exact .integer (by rw [hkind, hs]; rfl) hfloats hwidth
      · rintro (⟨-, hnone⟩ | ⟨-, hwidth⟩ | ⟨hs, -, hwidth⟩)
        · exact absurd hnone htagged
        · exact absurd hwidth (hno _)
        · exact ⟨by simpa [hkind] using hs, hwidth⟩
    | none => simpa using AdmitsScalar.untagged hfloats (tags_of_find?_eq_none hinteger).1

instance (capability : String) (s : Scalar) : Decidable (AdmitsScalar capability s) :=
  decidable_of_iff _ admits_name_iff

end Capability

namespace Expansion

open Capability

/-! ### Choices under one guard -/

/-- A guard admits a scalar. Without a guard that is any. -/
def GuardAdmits (guard? : Option String) (s : Scalar) : Prop :=
  ∀ capability, guard? = some capability → AdmitsScalar capability s

instance (guard? : Option String) (s : Scalar) : Decidable (GuardAdmits guard? s) :=
  match guard? with
  | some capability => decidable_of_iff (AdmitsScalar capability s) (by simp [GuardAdmits])
  | none => isTrue (by simp [GuardAdmits])

/-- The scalars of a type class that a guard admits. -/
def admittedScalars (C : TypeClass) (guard? : Option String) : List Scalar :=
  C.scalars.filter (GuardAdmits guard? ·)

/-- The spelling of an element type under a guard: a vector if the guard speaks of vectors. -/
def elementSpelling (guard? : Option String) (element : String) : String :=
  match guard? with
  | some capability =>
    if Contains capability "Vector" then "vector<" ++ element ++ ", N>" else element
  | none => element

theorem name_widened (guard? : Option String) (type : ResolvedType) :
    (widened guard? type).type.name = elementSpelling guard? type.name := by
  cases guard? with
  | none => rfl
  | some capability =>
    simp only [widened, widens, Option.any_some, mentions_iff, elementSpelling]
    split <;> rfl

/-- The choice of a scalar under a guard. -/
def scalarChoice (guard? : Option String) (s : Scalar) : Choice :=
  ⟨0, .concrete s.name, guard?, widened guard? (.concrete s.name)⟩

/-- A group of a concatenation, if the parts show which group they are in. -/
theorem filter_flatMap_of_key {α β γ : Type} [DecidableEq γ] {f : α → List β} {as : List α}
    (key : β → γ) (key' : α → γ) (h : ∀ a ∈ as, ∀ b ∈ f a, key b = key' a) (k : γ) :
    (as.flatMap f).filter (key · = k) = (as.filter (key' · = k)).flatMap f := by
  induction as with
  | nil => rfl
  | cons a as ih =>
    obtain ⟨ha, has⟩ := List.forall_mem_cons.mp h
    rw [List.flatMap_cons, List.filter_append, ih has]
    by_cases hk : key' a = k
    · have hall : (f a).filter (key · = k) = f a := by
        rw [List.filter_eq_self]
        exact fun b hb => by simp [ha b hb, hk]
      rw [hall, List.filter_cons_of_pos (by simpa using hk), List.flatMap_cons]
    · have hnone : (f a).filter (key · = k) = [] := by
        rw [List.filter_eq_nil_iff]
        exact fun b hb => by simp [ha b hb, hk]
      rw [hnone, List.filter_cons_of_neg (by simpa using hk), List.nil_append]

theorem flatMap_ite_singleton {α β : Type} (p : α → Prop) [DecidablePred p] (f : α → β)
    (as : List α) : (as.flatMap fun a => if p a then [f a] else []) = (as.filter (p ·)).map f := by
  induction as with
  | nil => rfl
  | cons a as ih => by_cases ha : p a <;> simp [ha, ih]

variable {m : TypeMap} {i : Instruction} {r : Request} {C : TypeClass}

/-- Under one guard a scalar has one choice, or none if the guard does not admit it. -/
theorem filter_choicesOf (hcapabilities : i.capabilities.Nodup) {guard? : Option String}
    (hguard : guard? ∈ guards i) (s : Scalar) :
    (choicesOf i 0 (.concrete s.name)).filter (·.guard? = guard?) =
      if GuardAdmits guard? s then [scalarChoice guard? s] else [] := by
  have honly : (guards i).filter (id · = guard?) = [guard?] := by
    simp only [id, List.filter_eq]
    rw [List.count_eq_one_of_mem (nodup_guards hcapabilities) hguard, List.replicate_one]
  have hadmits : GuardAdmits guard? s ↔
      guardedElement? (.concrete s.name) guard? = some (widened guard? (.concrete s.name)) := by
    simp only [guardedElement?_eq_some_iff, and_true, GuardAdmits, ← admits_name_iff]
    rfl
  have hnone : ¬ GuardAdmits guard? s → guardedElement? (.concrete s.name) guard? = none := by
    intro hno
    rw [Option.eq_none_iff_forall_ne_some]
    intro guarded hguarded
    exact hno (hadmits.mpr ((guardedElement?_eq_some_iff.mp hguarded).2 ▸ hguarded))
  rw [choicesOf, List.filterMap_eq_flatMap_toList, filter_flatMap_of_key Choice.guard? id, honly,
    List.flatMap_singleton]
  · split
    next h => rw [hadmits.mp h]; rfl
    next h => rw [hnone h]; rfl
  · intro g _ c hc
    obtain ⟨guarded, -, rfl⟩ := Option.map_eq_some_iff.mp (Option.mem_toList.mp hc)
    rfl

/-- The element types of an instruction without a requested or mapped result are the scalars of its
type class. -/
theorem elements_of_class (hmapped : m.entryOfResult? i = none) (hrequest : r.resultType? = none)
    (hclass : typeClass? i r = some C) (variant : Nat) :
    elements m i r variant = .ok (C.scalars.map fun s => .concrete s.name) := by
  simp only [elements, hrequest, TypeMap.resolveResult, hmapped, hclass]
  rfl

/-- The choices under one guard are those of the scalars that it admits. -/
theorem filter_choices (hcapabilities : i.capabilities.Nodup)
    (hmapped : m.entryOfResult? i = none) (hvariants : m.variantCount i = 1)
    (hrequest : r.resultType? = none) (hclass : typeClass? i r = some C) {guard? : Option String}
    (hguard : guard? ∈ guards i) :
    (choices m i r).filter (·.guard? = guard?) =
      (admittedScalars C guard?).map (scalarChoice guard?) := by
  have hchoices : choices m i r = C.scalars.flatMap fun s => choicesOf i 0 (.concrete s.name) := by
    rw [choices, hvariants, List.range_one, List.flatMap_singleton, choicesAt,
      elements_of_class hmapped hrequest hclass, yield, List.flatMap_map]
  rw [hchoices, List.filter_flatMap, admittedScalars, ← flatMap_ite_singleton]
  exact List.flatMap_congr fun s _ => filter_choicesOf hcapabilities hguard s

/-! ### Results under one guard -/

theorem length_lists (m : TypeMap) (i : Instruction) (r : Request) (c : Choice) :
    (c.parameterSet m i r).lists.length =
      (extents r.shape (outline m i).access (outline m i).optional.length).length := by
  rw [Choice.parameterSet, Outline.lists_parameterSet, List.length_map]
  rfl

theorem length_extents_pos (shape : Shape) (access : Bool) (count : Nat) :
    0 < (extents shape access count).length := by
  obtain ⟨e, he, -⟩ := exists_mem_extents shape access (Nat.zero_le count)
  exact List.length_pos_of_mem he

/-- A choice of a scalar has one result for all of its declarations. -/
theorem map_result_declarations (hresult : i.hasResultType) (guard? : Option String) (s : Scalar) :
    ((scalarChoice guard? s).declarations m i r).map (·.result) =
      List.replicate (extents r.shape (outline m i).access (outline m i).optional.length).length
        (elementSpelling guard? s.name) := by
  have hname : ∀ d ∈ (scalarChoice guard? s).declarations m i r,
      d.result = elementSpelling guard? s.name := by
    intro d hd
    obtain ⟨ps, -, rfl⟩ := List.mem_map.mp hd
    simp only [Choice.declaration, declare, resultType, hresult, ↓reduceIte]
    exact name_widened guard? (.concrete s.name)
  rw [List.eq_replicate_iff, List.length_map, Choice.declarations, List.length_map, length_lists]
  refine ⟨rfl, fun result hmem => ?_⟩
  obtain ⟨d, hd, rfl⟩ := List.mem_map.mp hmem
  exact hname d hd

/-- The declarations of an instruction of a type class, if each choice has `count` parameter lists.
Under each guard the results are the scalars that it admits, in order and `count` times each. -/
structure NumericExact (m : TypeMap) (i : Instruction) (r : Request) (C : TypeClass) (count : Nat)
    (ds : List Declaration) : Prop where
  lists : ∀ c ∈ choices m i r, ∃ set, parameters m i (c.setting r) = .ok set ∧
    set.lists.length = count
  results : ∀ guard? ∈ guards i, (ds.filter (·.guard? i = guard?)).map (·.result) =
    (admittedScalars C guard?).flatMap fun s =>
      List.replicate count (elementSpelling guard? s.name)
  guard : ∀ d ∈ ds, d.guard? i ∈ guards i
  name : ∀ d ∈ ds, d.name = guardedName i (d.guard? i)

/-- The overloads of an instruction of a type class are exactly the scalars that its guards
admit. -/
theorem expand_numericExact {ds : List Declaration} (hresult : i.hasResultType)
    (hcapabilities : i.capabilities.Nodup) (hmapped : m.entryOfResult? i = none)
    (hvariants : m.variantCount i = 1) (hrequest : r.resultType? = none)
    (hclass : typeClass? i r = some C) (h : i.expand r m = .ok (.declarations ds)) :
    ∃ count, 0 < count ∧ NumericExact m i r C count ds := by
  obtain ⟨-, -, hstop, rfl⟩ := expand_eq_declarations_iff.mp h
  have hguards : ∀ d ∈ (choices m i r).flatMap (·.declarations m i r),
      d.guard? i ∈ guards i ∧ d.name = guardedName i (d.guard? i) := by
    intro d hd
    obtain ⟨c, hc, hd⟩ := List.mem_flatMap.mp hd
    have hguard := (mem_choices_iff.mp hc).2.2.1
    rw [guard?_of_mem_declarations hc hd]
    obtain ⟨ps, -, rfl⟩ := List.mem_map.mp hd
    exact ⟨hguard, overloadName_eq_guardedName hguard⟩
  refine ⟨_, length_extents_pos r.shape (outline m i).access (outline m i).optional.length,
    ?lists, ?results, fun d hd => (hguards d hd).1, fun d hd => (hguards d hd).2⟩
  case lists =>
    intro c hc
    exact ⟨_, parameters_eq_ok_iff.mpr ⟨hstop c hc, rfl⟩, length_lists m i r c⟩
  case results =>
    intro guard? hguard
    rw [filter_flatMap_of_key (Declaration.guard? i) Choice.guard?
      fun c hc d hd => guard?_of_mem_declarations hc hd]
    rw [filter_choices hcapabilities hmapped hvariants hrequest hclass hguard, List.flatMap_map,
      List.map_flatMap]
    exact List.flatMap_congr fun s _ => map_result_declarations hresult guard? s

/-- An atomic addition of floats of one width, or of vectors of floats of another. -/
def floatAdd : Instruction where
  opname := "OpAtomicFAddEXT"
  className := "Atomic"
  opcode := 6035
  operands := [⟨"IdResultType", none, none⟩, ⟨"IdResult", none, none⟩,
    ⟨"IdRef", some "Pointer", none⟩, ⟨"IdScope", some "Memory", none⟩,
    ⟨"IdMemorySemantics", some "Semantics", none⟩, ⟨"IdRef", some "Value", none⟩]
  capabilities := ["AtomicFloat32AddEXT", "AtomicFloat16VectorNV"]
  extensions := ["SPV_EXT_shader_atomic_float_add", "SPV_NV_shader_atomic_fp16_vector"]
  version? := none

theorem floatAdd_numericExact :
    ∃ ds, floatAdd.expand ⟨.reference, none, none, none, []⟩ .standard =
        .ok (.declarations ds) ∧
      ds.map (fun d => (d.name, d.result)) =
        [("atomicAddEXT_AtomicFloat16VectorNV", "vector<float16_t, N>"),
          ("atomicAddEXT_AtomicFloat32AddEXT", "float32_t")] ∧
      ∃ count, 0 < count ∧
        NumericExact .standard floatAdd ⟨.reference, none, none, none, []⟩ .float count ds := by
  obtain ⟨ds, hds, hnames⟩ :
      ∃ ds, floatAdd.expand ⟨.reference, none, none, none, []⟩ .standard =
          .ok (.declarations ds) ∧
        ds.map (fun d => (d.name, d.result)) =
          [("atomicAddEXT_AtomicFloat16VectorNV", "vector<float16_t, N>"),
            ("atomicAddEXT_AtomicFloat32AddEXT", "float32_t")] :=
    ⟨_, rfl, by decide +kernel⟩
  exact ⟨ds, hds, hnames, expand_numericExact rfl (by decide +kernel) rfl rfl rfl rfl hds⟩

end Expansion

end SpirvBindings
