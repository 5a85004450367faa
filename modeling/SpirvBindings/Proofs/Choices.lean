import Mathlib.Data.List.Nodup
import SpirvBindings.Expansion.Overload
import SpirvBindings.Proofs.Outline.Lists
import SpirvBindings.Proofs.Results

/-! The choices that declarations are made from: a variant, an element type and a capability that
admits it. An expansion that ends with declarations is the concatenation of those of its choices,
in the order of variants, elements and capabilities. The choices of a request are fixed by its
result type and its type class. -/

namespace SpirvBindings.Expansion

/-! ### Collected results -/

section Collect

variable {ε α β γ : Type}

/-- The results of a computation, none if it fails. -/
def yield : Except ε (List β) → List β
  | .ok bs => bs
  | .error _ => []

/-- A collection succeeds if all its members do, and then it has all their results. -/
theorem collect_eq_ok_iff {f : α → Except ε (List β)} {as : List α} {bs : List β} :
    collect f as = .ok bs ↔
      (∀ a ∈ as, ∃ cs, f a = .ok cs) ∧ bs = as.flatMap fun a => yield (f a) := by
  induction as generalizing bs with
  | nil => simp [collect, eq_comm]
  | cons a as ih =>
    simp only [collect, bind_eq_ok_iff, ih, List.forall_mem_cons, List.flatMap_cons]
    constructor
    · rintro ⟨cs, ha, rest, ⟨has, rfl⟩, hbs⟩
      cases hbs
      exact ⟨⟨⟨cs, ha⟩, has⟩, by rw [ha]; rfl⟩
    · rintro ⟨⟨⟨cs, ha⟩, has⟩, rfl⟩
      exact ⟨cs, ha, _, ⟨has, rfl⟩, by rw [ha]; rfl⟩

theorem collect_append {f : α → Except ε (List β)} {as as' : List α} :
    collect f (as ++ as') = do
      let bs ← collect f as
      let bs' ← collect f as'
      return bs ++ bs' := by
  induction as with
  | nil =>
    simp only [List.nil_append, collect]
    cases collect f as' <;> rfl
  | cons a as ih =>
    simp only [List.cons_append, collect, ih]
    cases f a <;> cases collect f as <;> cases collect f as' <;>
      simp [bind, Except.bind, pure, Except.pure]

/-- A collection of collections is one collection. -/
theorem collect_flatMap {f : γ → Except ε (List β)} {g : α → List γ} {as : List α} :
    collect (fun a => collect f (g a)) as = collect f (as.flatMap g) := by
  induction as with
  | nil => rfl
  | cons a as ih => rw [List.flatMap_cons, collect_append, collect, ih]

/-- Members that give nothing can be left out of a collection. -/
theorem collect_filterMap {f : α → Except ε (List β)} {g : α → Option γ}
    {h : γ → Except ε (List β)} {as : List α} (hnone : ∀ a, g a = none → f a = .ok [])
    (hsome : ∀ a c, g a = some c → f a = h c) :
    collect f as = collect h (as.filterMap g) := by
  induction as with
  | nil => rfl
  | cons a as ih =>
    cases ha : g a with
    | none =>
      rw [List.filterMap_cons_none ha, collect, hnone a ha, ih]
      cases collect h (as.filterMap g) <;> rfl
    | some c => rw [List.filterMap_cons_some ha, collect, collect, hsome a c ha, ih]

/-- A collection fails by one of its members. -/
theorem exists_of_collect_eq_error {f : α → Except ε (List β)} {as : List α} {e : ε}
    (h : collect f as = .error e) : ∃ a ∈ as, f a = .error e := by
  induction as with
  | nil => cases h
  | cons a as ih =>
    rw [collect] at h
    cases ha : f a with
    | error x =>
      rw [ha] at h
      cases h
      exact ⟨a, List.mem_cons_self, ha⟩
    | ok bs =>
      rw [ha] at h
      cases has : collect f as with
      | error x =>
        rw [has] at h
        cases h
        obtain ⟨a', hmem, ha'⟩ := ih has
        exact ⟨a', List.mem_cons_of_mem a hmem, ha'⟩
      | ok rest =>
        rw [has] at h
        cases h

/-- Two computations end alike if both give results or both fail with the same error. -/
def EndAlike : Except ε α → Except ε γ → Prop
  | .ok _, .ok _ => True
  | .error x, .error y => x = y
  | _, _ => False

theorem EndAlike.collect {f : α → Except ε (List β)} {g : α → Except ε (List γ)} {as : List α}
    (h : ∀ a ∈ as, EndAlike (f a) (g a)) :
    EndAlike (collect f as) (collect g as) := by
  induction as with
  | nil => trivial
  | cons a as ih =>
    obtain ⟨ha, has⟩ := List.forall_mem_cons.mp h
    have hrest := ih has
    simp only [Expansion.collect]
    revert ha hrest
    cases f a <;> cases g a <;> cases Expansion.collect f as <;> cases Expansion.collect g as <;>
      simp +contextual [EndAlike, bind, Except.bind, pure, Except.pure]

end Collect

/-! ### Guarded elements -/

/-- Whether a guard widens its element to a vector. -/
def widens (guard? : Option String) : Bool := guard?.any (Capability.mentions · "Vector")

/-- An element under a guard that admits it. -/
def widened (guard? : Option String) (element : ResolvedType) : GuardedElement :=
  if widens guard? then ⟨{ element with name := "vector<" ++ element.name ++ ", N>" }, [vectorSize]⟩
  else ⟨element, []⟩

theorem guardedElement?_eq_some_iff {element : ResolvedType} {guard? : Option String}
    {guarded : GuardedElement} :
    guardedElement? element guard? = some guarded ↔
      (∀ capability, guard? = some capability →
        Capability.admits capability (if element.generic then "" else element.name)) ∧
        guarded = widened guard? element := by
  cases guard? with
  | none =>
    simp only [guardedElement?, widened, widens, Option.any_none, Bool.false_eq_true, ↓reduceIte,
      Option.some.injEq, reduceCtorEq, false_implies, implies_true, true_and]
    exact eq_comm
  | some capability =>
    have hname : "vector<" ++ element.name ++ ", " ++ vectorSize.name ++ ">" =
        "vector<" ++ element.name ++ ", N>" := by
      simp only [vectorSize, String.append_assoc]
      rfl
    simp only [guardedElement?, widened, widens, Option.any_some, hname, Option.some.injEq,
      forall_eq']
    by_cases hadmits : Capability.admits capability (if element.generic then "" else element.name)
    · simp only [hadmits, ↓reduceIte, true_and]
      by_cases hvector : Capability.mentions capability "Vector"
      · simp only [hvector, ↓reduceIte, Option.some.injEq]
        exact eq_comm
      · simp only [hvector, Bool.false_eq_true, ↓reduceIte, Option.some.injEq]
        exact eq_comm
    · simp [hadmits]

/-! ### Choices -/

/-- A variant, an element type and a capability that admits it, with the guarded element. -/
structure Choice where
  variant : Nat
  element : ResolvedType
  guard? : Option String
  guarded : GuardedElement
  deriving DecidableEq, Repr

/-- The capabilities that overloads are guarded by, none for a kernel instruction. -/
def guards (i : Instruction) : List (Option String) := (alternatives? i).getD []

/-- The guards are the capabilities other than the base capability. If there are none, there is one
alternative without a guard. -/
theorem guards_cases (i : Instruction) :
    guards i = [] ∨ (guards i = [none] ∧ i.capabilities.all (· == "Shader")) ∨
      ∃ names, names = i.capabilities.filter (· != "Shader") ∧ guards i = names.map some := by
  unfold guards alternatives?
  split
  · exact .inl rfl
  · split
    next hnil =>
      refine .inr (.inl ⟨rfl, ?_⟩)
      simpa [List.filter_eq_nil_iff] using hnil
    next => exact .inr (.inr ⟨_, rfl, rfl⟩)

theorem nodup_guards {i : Instruction} (h : i.capabilities.Nodup) : (guards i).Nodup := by
  rcases guards_cases i with hnil | ⟨hnone, -⟩ | ⟨names, rfl, hsome⟩
  · rw [hnil]
    exact List.nodup_nil
  · rw [hnone]
    exact List.nodup_singleton _
  · rw [hsome]
    exact (h.filter _).map fun _ _ => Option.some.inj

/-- The choices of an element type at a variant. -/
def choicesOf (i : Instruction) (variant : Nat) (element : ResolvedType) : List Choice :=
  (guards i).filterMap fun guard? =>
    (guardedElement? element guard?).map fun guarded => ⟨variant, element, guard?, guarded⟩

/-- The choices of a variant. -/
def choicesAt (m : TypeMap) (i : Instruction) (r : Request) (variant : Nat) : List Choice :=
  (yield (elements m i r variant)).flatMap (choicesOf i variant)

def choices (m : TypeMap) (i : Instruction) (r : Request) : List Choice :=
  (List.range (m.variantCount i)).flatMap (choicesAt m i r)

namespace Choice

def setting (r : Request) (c : Choice) : Setting :=
  ⟨r.shape, (operandType r c.guarded.type).name, c.variant⟩

def parameterSet (m : TypeMap) (i : Instruction) (r : Request) (c : Choice) : ParameterSet :=
  (outline m i).parameterSet m.defaultType (c.setting r)

/-- The declaration of a choice with a parameter list. -/
def declaration (m : TypeMap) (i : Instruction) (r : Request) (c : Choice)
    (ps : List Parameter) : Declaration :=
  declare i r (1 < (guards i).length) c.element c.guard? c.guarded (c.parameterSet m i r) ps

def declarations (m : TypeMap) (i : Instruction) (r : Request) (c : Choice) : List Declaration :=
  (c.parameterSet m i r).lists.map (c.declaration m i r)

/-- What becomes of a choice: its declarations, unless an operand stops them at its variant. -/
def result (m : TypeMap) (i : Instruction) (r : Request) (c : Choice) :
    Except Stop (List Declaration) :=
  match stop? m i c.variant with
  | some stop => .error stop
  | none => .ok (c.declarations m i r)

end Choice

theorem mem_choices_iff {m : TypeMap} {i : Instruction} {r : Request} {c : Choice} :
    c ∈ choices m i r ↔
      c.variant < m.variantCount i ∧ c.element ∈ yield (elements m i r c.variant) ∧
        c.guard? ∈ guards i ∧ guardedElement? c.element c.guard? = some c.guarded := by
  simp only [choices, choicesAt, choicesOf, List.mem_flatMap, List.mem_range, List.mem_filterMap,
    Option.map_eq_some_iff]
  constructor
  · rintro ⟨_, hv, _, he, _, hg, _, ha, rfl⟩
    exact ⟨hv, he, hg, ha⟩
  · rintro ⟨hv, he, hg, ha⟩
    exact ⟨_, hv, _, he, _, hg, _, ha, rfl⟩

theorem guarded_eq_widened {m : TypeMap} {i : Instruction} {r : Request} {c : Choice}
    (h : c ∈ choices m i r) : c.guarded = widened c.guard? c.element := by
  obtain ⟨-, -, -, hguarded⟩ := mem_choices_iff.mp h
  exact (guardedElement?_eq_some_iff.mp hguarded).2

theorem elements_congr {m : TypeMap} {i : Instruction} {r r' : Request}
    (hresult : r.resultType? = r'.resultType?) (hclass : r.typeClass? = r'.typeClass?) :
    elements m i r = elements m i r' := by
  funext variant
  simp only [elements, typeClass?, hresult, hclass]

/-- The choices do not look at the shape, the operand type and the conditions. -/
theorem choices_congr {m : TypeMap} {i : Instruction} {r r' : Request}
    (hresult : r.resultType? = r'.resultType?) (hclass : r.typeClass? = r'.typeClass?) :
    choices m i r = choices m i r' := by
  have hat : choicesAt m i r = choicesAt m i r' := by
    funext variant
    simp only [choicesAt, elements_congr hresult hclass]
  simp only [choices, hat]

/-! ### Expansions -/

theorem overloads_eq_result (m : TypeMap) (i : Instruction) (r : Request) (c : Choice)
    (h : guardedElement? c.element c.guard? = some c.guarded) :
    overloads m i r (1 < (guards i).length) c.variant c.element c.guard? = c.result m i r := by
  simp only [overloads, h, parameters_eq, Choice.result]
  cases stop? m i c.variant <;> rfl

/-- The declarations of a variant are those of its choices. -/
theorem variantOverloads_eq (m : TypeMap) (i : Instruction) (r : Request) (variant : Nat) :
    variantOverloads m i r (guards i) variant =
      (elements m i r variant).mapError .outOfRange >>= fun types =>
        collect (Choice.result m i r) (types.flatMap (choicesOf i variant)) := by
  have hcollect : ∀ element,
      collect (overloads m i r (1 < (guards i).length) variant element) (guards i) =
        collect (Choice.result m i r) (choicesOf i variant element) := by
    intro element
    apply collect_filterMap
    · intro guard? h
      simp only [overloads, Option.map_eq_none_iff.mp h]
    · intro guard? c h
      obtain ⟨guarded, hg, rfl⟩ := Option.map_eq_some_iff.mp h
      exact overloads_eq_result m i r ⟨variant, element, guard?, guarded⟩ hg
  simp only [variantOverloads, hcollect, collect_flatMap]

/-- A choice that nothing stops, with its declarations. -/
theorem collect_result_eq_ok_iff {m : TypeMap} {i : Instruction} {r : Request}
    {cs : List Choice} {ds : List Declaration} :
    collect (Choice.result m i r) cs = .ok ds ↔
      (∀ c ∈ cs, stop? m i c.variant = none) ∧ ds = cs.flatMap (Choice.declarations m i r) := by
  have hok : ∀ c : Choice, (∃ ds, c.result m i r = .ok ds) ↔ stop? m i c.variant = none := by
    intro c
    unfold Choice.result
    cases stop? m i c.variant <;> simp
  have hyield : ∀ c : Choice, stop? m i c.variant = none →
      yield (c.result m i r) = c.declarations m i r := by
    intro c h
    simp only [Choice.result, h, yield]
  rw [collect_eq_ok_iff]
  simp only [hok]
  constructor
  · rintro ⟨hcs, rfl⟩
    exact ⟨hcs, List.flatMap_congr fun c hc => hyield c (hcs c hc)⟩
  · rintro ⟨hcs, rfl⟩
    exact ⟨hcs, (List.flatMap_congr fun c hc => hyield c (hcs c hc)).symm⟩

theorem variantOverloads_eq_ok_iff {m : TypeMap} {i : Instruction} {r : Request} {variant : Nat}
    {ds : List Declaration} :
    variantOverloads m i r (guards i) variant = .ok ds ↔
      (∃ types, elements m i r variant = .ok types) ∧
        (∀ c ∈ choicesAt m i r variant, stop? m i c.variant = none) ∧
          ds = (choicesAt m i r variant).flatMap (Choice.declarations m i r) := by
  rw [variantOverloads_eq, choicesAt]
  cases elements m i r variant with
  | error x => simp [Except.mapError, bind, Except.bind]
  | ok types =>
    simp only [Except.ok.injEq, exists_eq', true_and]
    exact collect_result_eq_ok_iff

/-- An expansion ends with declarations if the instruction is meant for shaders, all variants have
element types and nothing stops a choice. The declarations are those of the choices. -/
theorem expand_eq_declarations_iff {m : TypeMap} {i : Instruction} {r : Request}
    {ds : List Declaration} :
    i.expand r m = .ok (.declarations ds) ↔
      (alternatives? i).isSome ∧
        (∀ variant < m.variantCount i, ∃ types, elements m i r variant = .ok types) ∧
          (∀ c ∈ choices m i r, stop? m i c.variant = none) ∧
            ds = (choices m i r).flatMap (Choice.declarations m i r) := by
  cases hg : alternatives? i with
  | none => simp [Instruction.expand, hg]
  | some gs =>
    have hguards : gs = guards i := by simp [guards, hg]
    have hexpand : i.expand r m = .ok (.declarations ds) ↔
        collect (variantOverloads m i r (guards i)) (List.range (m.variantCount i)) = .ok ds := by
      simp only [Instruction.expand, hg, ← hguards]
      cases collect (variantOverloads m i r gs) (List.range (m.variantCount i)) with
      | ok bs => simp
      | error stop => cases stop <;> simp
    have hyield : ∀ variant, (∃ types, elements m i r variant = .ok types) →
        (∀ c ∈ choicesAt m i r variant, stop? m i c.variant = none) →
        yield (variantOverloads m i r (guards i) variant) =
          (choicesAt m i r variant).flatMap (Choice.declarations m i r) := by
      intro variant htypes hstop
      rw [variantOverloads_eq_ok_iff.mpr ⟨htypes, hstop, rfl⟩]
      rfl
    rw [hexpand, collect_eq_ok_iff]
    simp only [variantOverloads_eq_ok_iff, List.mem_range, Option.isSome_some, true_and, choices,
      List.mem_flatMap, List.flatMap_assoc]
    constructor
    · rintro ⟨hok, rfl⟩
      have hat : ∀ variant < m.variantCount i, (∃ types, elements m i r variant = .ok types) ∧
          ∀ c ∈ choicesAt m i r variant, stop? m i c.variant = none := by
        intro variant hv
        obtain ⟨_, htypes, hstop, -⟩ := hok variant hv
        exact ⟨htypes, hstop⟩
      refine ⟨fun variant hv => (hat variant hv).1, ?_, ?_⟩
      · rintro c ⟨variant, hv, hc⟩
        exact (hat variant hv).2 c hc
      · apply List.flatMap_congr
        intro variant hv
        obtain ⟨htypes, hstop⟩ := hat variant (List.mem_range.mp hv)
        exact hyield variant htypes hstop
    · rintro ⟨htypes, hstop, rfl⟩
      refine ⟨fun variant hv => ⟨_, htypes variant hv, fun c hc => hstop c ⟨variant, hv, hc⟩, rfl⟩,
        ?_⟩
      apply List.flatMap_congr
      intro variant hv
      have hv' := List.mem_range.mp hv
      exact (hyield variant (htypes variant hv') fun c hc => hstop c ⟨variant, hv', hc⟩).symm

end SpirvBindings.Expansion
