import SpirvBindings.Proofs.Accounts
import SpirvBindings.Proofs.Admission
import SpirvBindings.Proofs.Shapes

/-! When the types of an instruction run out of variants. An expansion consults the entries of the
operands and, unless a result type is requested, the entry of the result. If all overload lists that
it consults are empty or as long as the number of variants, no type is missing, in the expansion and
in a whole header. If one of them is shorter, the variant behind its last type has none, and both
fail as long as nothing hides that variant: no operand leaves the instruction out, and no capability
names a width. -/

namespace SpirvBindings

/-! ### Entries -/

theorem TypeEntry.exists_select_eq_ok_iff {e : TypeEntry} {variant : Nat} :
    (∃ type, e.select variant = .ok type) ↔
      e.overloads = [] ∨ variant < e.overloads.length := by
  unfold TypeEntry.select
  by_cases hempty : e.overloads = []
  · simp [hempty]
  · by_cases hlt : variant < e.overloads.length
    · simp [hempty, hlt]
    · simp [hempty, hlt]

/-- The entries that an expansion consults. -/
inductive TypeMap.Consults (m : TypeMap) (i : Instruction) (r : Request) (e : TypeEntry) : Prop
  | operand {o : Operand} (ho : o ∈ i.arguments) (he : m.entryOfOperand? i o = some e)
  | result (hr : r.resultType? = none) (he : m.entryOfResult? i = some e)

/-- The entries that an expansion consults, that of the result first. -/
def TypeMap.consulted (m : TypeMap) (i : Instruction) (r : Request) : List TypeEntry :=
  (if r.resultType? = none then (m.entryOfResult? i).toList else []) ++
    i.arguments.filterMap (m.entryOfOperand? i)

theorem TypeMap.mem_consulted_iff {m : TypeMap} {i : Instruction} {r : Request} {e : TypeEntry} :
    e ∈ m.consulted i r ↔ m.Consults i r e := by
  rw [TypeMap.consulted, List.mem_append, List.mem_filterMap]
  constructor
  · rintro (he | ⟨o, ho, he⟩)
    · split at he
      next hr => exact .result hr (Option.mem_toList.mp he)
      next => cases he
    · exact .operand ho he
  · rintro (⟨ho, he⟩ | ⟨hr, he⟩)
    · exact .inr ⟨_, ho, he⟩
    · exact .inl (by rw [if_pos hr]; exact Option.mem_toList.mpr he)

/-- All overload lists that an expansion consults are empty or have a type for each variant and no
more. -/
def TypeMap.Even (m : TypeMap) (i : Instruction) (r : Request) : Prop :=
  ∀ e, m.Consults i r e → e.overloads = [] ∨ e.overloads.length = m.variantCount i

/-- An overload list that an expansion consults is shorter than the number of variants. -/
def TypeMap.Uneven (m : TypeMap) (i : Instruction) (r : Request) : Prop :=
  ∃ e, m.Consults i r e ∧ e.overloads ≠ [] ∧ e.overloads.length < m.variantCount i

instance (m : TypeMap) (i : Instruction) (r : Request) : Decidable (m.Even i r) :=
  decidable_of_iff (∀ e ∈ m.consulted i r, e.overloads = [] ∨ e.overloads.length = m.variantCount i)
    (by simp only [TypeMap.mem_consulted_iff, TypeMap.Even])

instance (m : TypeMap) (i : Instruction) (r : Request) : Decidable (m.Uneven i r) :=
  decidable_of_iff
    (∃ e ∈ m.consulted i r, e.overloads ≠ [] ∧ e.overloads.length < m.variantCount i)
    (by simp only [TypeMap.mem_consulted_iff, TypeMap.Uneven])

/-- A header of the sources expands an instruction for a request. -/
def Sources.Asks (s : Sources) (i : Instruction) (r : Request) : Prop :=
  i ∈ s.grammar.instructions ∧ ∃ strategy, s.policy.strategy? i = some strategy ∧
    r ∈ strategy.requests

namespace Expansion

variable {m : TypeMap} {i : Instruction} {r : Request}

/-! ### Operands -/

/-- Only an operand whose entry has no type at the variant runs out of range. -/
theorem Outline.exists_of_stop?_outOfRange {l : Outline} {o : Operand} {variant : Nat}
    {x : VariantOutOfRange} (h : l.stop? m i variant o = some (.outOfRange x)) :
    ∃ e, m.entryOfOperand? i o = some e ∧ e.select variant = .error x := by
  unfold Outline.stop? at h
  cases hquantifier : unsupportedQuantifier? o with
  | some reason => simp [hquantifier] at h
  | none =>
    simp only [hquantifier] at h
    split at h
    · simp at h
    · cases he : m.entryOfOperand? i o with
      | none => cases hrule : Rule.ofOperand o <;> simp [he, hrule] at h
      | some e =>
        cases htype : e.select variant with
        | ok type => simp [he, htype] at h
        | error y =>
          simp only [he, htype, Option.some.injEq, Stop.outOfRange.injEq] at h
          exact ⟨e, rfl, h ▸ htype⟩

/-- All that stops an operand, but for a type that is missing, stops it at every variant. -/
theorem Outline.stop?_eq_of_inRange {l : Outline} {o : Operand} {variant variant' : Nat}
    (h : ∀ x, l.stop? m i variant o ≠ some (.outOfRange x))
    (hrange : ∀ e, m.entryOfOperand? i o = some e → ∃ type, e.select variant' = .ok type) :
    l.stop? m i variant' o = l.stop? m i variant o := by
  unfold Outline.stop? at h ⊢
  cases hquantifier : unsupportedQuantifier? o with
  | some reason => rfl
  | none =>
    simp only [hquantifier] at h ⊢
    split
    · rfl
    next hplace =>
      cases he : m.entryOfOperand? i o with
      | none => rfl
      | some e =>
        obtain ⟨type', htype'⟩ := hrange e he
        cases htype : e.select variant with
        | ok type => simp only [htype, htype']
        | error x => exact absurd (by simp [hplace, he, htype]) (h x)

theorem Outline.exists_of_firstStop?_outOfRange {l : Outline} {os : List Operand} {variant : Nat}
    {x : VariantOutOfRange} (h : l.firstStop? m i variant os = some (.outOfRange x)) :
    ∃ o ∈ os, ∃ e, m.entryOfOperand? i o = some e ∧ e.select variant = .error x := by
  induction os generalizing l with
  | nil => cases h
  | cons o os ih =>
    rcases Option.or_eq_some_iff.mp h with ho | ⟨-, hos⟩
    · exact ⟨o, List.mem_cons_self, Outline.exists_of_stop?_outOfRange ho⟩
    · obtain ⟨o', hmem, hentry⟩ := ih hos
      exact ⟨o', List.mem_cons_of_mem o hmem, hentry⟩

theorem Outline.firstStop?_eq_of_inRange {l : Outline} {os : List Operand}
    {variant variant' : Nat} (h : ∀ x, l.firstStop? m i variant os ≠ some (.outOfRange x))
    (hrange : ∀ o ∈ os, ∀ e, m.entryOfOperand? i o = some e →
      ∃ type, e.select variant' = .ok type) :
    l.firstStop? m i variant' os = l.firstStop? m i variant os := by
  induction os generalizing l with
  | nil => rfl
  | cons o os ih =>
    obtain ⟨ho, hos⟩ := List.forall_mem_cons.mp hrange
    have hfirst : ∀ x, l.stop? m i variant o ≠ some (.outOfRange x) := by
      intro x hx
      exact h x (Option.or_eq_some_iff.mpr (.inl hx))
    rw [Outline.firstStop?, Outline.firstStop?, Outline.stop?_eq_of_inRange hfirst ho]
    cases hstop : l.stop? m i variant o with
    | some stop => rfl
    | none =>
      have hrest : ∀ x, (l.take m i o).firstStop? m i variant os ≠ some (.outOfRange x) := by
        intro x hx
        exact h x (Option.or_eq_some_iff.mpr (.inr ⟨hstop, hx⟩))
      exact ih hrest hos

/-- An instruction that some operand leaves out at a variant is left out at the first one. -/
theorem stop?_zero_of_skipped {variant : Nat} {reason : SkipReason}
    (h : stop? m i variant = some (.skipped reason)) : stop? m i 0 = some (.skipped reason) := by
  have hzero : ∀ e : TypeEntry, ∃ type, e.select 0 = .ok type := by
    intro e
    rw [TypeEntry.exists_select_eq_ok_iff, List.length_pos_iff_ne_nil]
    exact em _
  have hskipped : ∀ x, stop? m i variant ≠ some (.outOfRange x) := by simp [h]
  exact (Outline.firstStop?_eq_of_inRange hskipped fun _ _ e _ => hzero e).trans h

/-! ### Expansions -/

theorem elements_eq_error_iff {variant : Nat} {x : VariantOutOfRange} :
    elements m i r variant = .error x ↔
      r.resultType? = none ∧ ∃ e, m.entryOfResult? i = some e ∧ e.select variant = .error x := by
  unfold elements TypeMap.resolveResult
  cases r.resultType? with
  | some text => simp
  | none =>
    cases m.entryOfResult? i with
    | none => simp [bind, Except.bind, pure, Except.pure]
    | some e =>
      cases htype : e.select variant with
      | ok type =>
        simp [TypeEntry.resolve_of_select htype, bind, Except.bind, pure, Except.pure, htype]
      | error y => simp [TypeEntry.resolve_of_select_error htype, bind, Except.bind, htype]

theorem elements_ne_nil {variant : Nat} {types : List ResolvedType}
    (h : elements m i r variant = .ok types) : types ≠ [] := by
  have hclass : elementsOfClass (typeClass? i r) ≠ [] := by
    cases typeClass? i r with
    | none => exact List.cons_ne_nil _ _
    | some c => cases c <;> exact List.cons_ne_nil _ _
  unfold elements at h
  -- The type letter of a name is not to be evaluated.
  generalize elementsOfClass (typeClass? i r) = classTypes at h hclass
  split at h
  next => cases h; exact List.cons_ne_nil _ _
  next =>
    obtain ⟨mapped?, -, htypes⟩ := bind_eq_ok_iff.mp h
    cases mapped? with
    | some type => cases htypes; exact List.cons_ne_nil _ _
    | none => cases htypes; exact hclass

/-- What ends the expansion at a variant is a type that the result has not, or what stops an
operand. -/
theorem stop_of_variantOverloads_error {variant : Nat} {stop : Stop}
    (h : variantOverloads m i r (guards i) variant = .error stop) :
    (∃ x, elements m i r variant = .error x ∧ stop = .outOfRange x) ∨
      stop? m i variant = some stop := by
  rw [variantOverloads_eq] at h
  cases helements : elements m i r variant with
  | error x =>
    rw [helements] at h
    cases h
    exact .inl ⟨x, rfl, rfl⟩
  | ok types =>
    rw [helements] at h
    obtain ⟨c, hc, hresult⟩ := exists_of_collect_eq_error h
    obtain ⟨element, -, hc⟩ := List.mem_flatMap.mp hc
    obtain ⟨guard?, -, hc⟩ := List.mem_filterMap.mp hc
    obtain ⟨guarded, -, rfl⟩ := Option.map_eq_some_iff.mp hc
    unfold Choice.result at hresult
    split at hresult
    next stop' hstop =>
      cases hresult
      exact .inr hstop
    next => cases hresult

/-- All that an expansion can do: the instruction is not meant for shaders, it has declarations, an
operand leaves it out at some variant, or an entry that it consults has no type for some variant. -/
theorem expand_cases (m : TypeMap) (i : Instruction) (r : Request) :
    i.expand r m = .ok .filtered ∨ (∃ ds, i.expand r m = .ok (.declarations ds)) ∨
      (∃ reason, i.expand r m = .ok (.skipped reason) ∧
        ∃ variant, stop? m i variant = some (.skipped reason)) ∨
      ∃ x, i.expand r m = .error x ∧
        ∃ variant < m.variantCount i, ∃ e, m.Consults i r e ∧ e.select variant = .error x := by
  unfold Instruction.expand
  cases hg : alternatives? i with
  | none => exact .inl rfl
  | some gs =>
    have hguards : gs = guards i := by simp [guards, hg]
    subst hguards
    refine .inr ?_
    simp only
    cases hcollect : collect (variantOverloads m i r (guards i))
      (List.range (m.variantCount i)) with
    | ok ds => exact .inl ⟨ds, rfl⟩
    | error stop =>
      obtain ⟨variant, hvariant, hstop⟩ := exists_of_collect_eq_error hcollect
      have hlt := List.mem_range.mp hvariant
      refine .inr ?_
      rcases stop_of_variantOverloads_error hstop with ⟨x, hx, rfl⟩ | hoperand
      · obtain ⟨hr, e, he, hselect⟩ := elements_eq_error_iff.mp hx
        exact .inr ⟨x, rfl, variant, hlt, e, .result hr he, hselect⟩
      · cases stop with
        | skipped reason => exact .inl ⟨reason, rfl, variant, hoperand⟩
        | outOfRange x =>
          obtain ⟨o, ho, e, he, hselect⟩ := Outline.exists_of_firstStop?_outOfRange hoperand
          exact .inr ⟨x, rfl, variant, hlt, e, .operand ho he, hselect⟩

/-! ### Nothing hides a variant -/

theorem exists_mem_guards (h : (alternatives? i).isSome) : ∃ guard?, guard? ∈ guards i := by
  unfold guards
  unfold alternatives? at h ⊢
  split at h
  · cases h
  next hkernel =>
    rw [if_neg hkernel]
    split
    · exact ⟨none, List.mem_singleton_self _⟩
    next capabilities hne =>
      obtain ⟨capability, hmem⟩ := List.exists_mem_of_ne_nil _ hne
      exact ⟨some capability, List.mem_map_of_mem hmem⟩

/-- If no capability names a width, each variant with element types has a choice. -/
theorem exists_choice {variant : Nat} {types : List ResolvedType}
    (hshader : (alternatives? i).isSome)
    (huntagged : ∀ capability ∈ i.capabilities,
      Capability.NoTag capability (Capability.floatTags ++ Capability.integerTags))
    (hvariant : variant < m.variantCount i) (htypes : elements m i r variant = .ok types) :
    ∃ c ∈ choices m i r, c.variant = variant := by
  obtain ⟨element, helement⟩ := List.exists_mem_of_ne_nil _ (elements_ne_nil htypes)
  obtain ⟨guard?, hguard⟩ := exists_mem_guards hshader
  have hadmits : ∀ capability, guard? = some capability →
      Capability.admits capability (if element.generic then "" else element.name) := by
    intro capability hcapability
    obtain ⟨⟨hnone, -⟩ | ⟨guard, hspecific, hsome⟩, -⟩ := specificCapabilities_of_mem_guards hguard
    · rw [hnone] at hcapability
      cases hcapability
    · rw [hsome, Option.some.injEq] at hcapability
      exact Capability.admits_of_noTag (huntagged _ (hcapability ▸ List.mem_of_mem_filter hspecific)) _
  refine ⟨⟨variant, element, guard?, widened guard? element⟩, ?_, rfl⟩
  exact mem_choices_iff.mpr ⟨hvariant, by rw [htypes]; exact helement, hguard,
    guardedElement?_eq_some_iff.mpr ⟨hadmits, rfl⟩⟩

/-- Where an expansion ends with declarations and no capability names a width, each entry that is
consulted has a type for each variant. -/
theorem exists_select_of_declarations {e : TypeEntry} {ds : List Declaration}
    (h : i.expand r m = .ok (.declarations ds)) (he : m.Consults i r e)
    (huntagged : ∀ capability ∈ i.capabilities,
      Capability.NoTag capability (Capability.floatTags ++ Capability.integerTags))
    {variant : Nat} (hvariant : variant < m.variantCount i) :
    ∃ type, e.select variant = .ok type := by
  obtain ⟨hshader, helements, hstop, -⟩ := expand_eq_declarations_iff.mp h
  obtain ⟨types, htypes⟩ := helements variant hvariant
  cases he with
  | operand ho hentry =>
    obtain ⟨c, hc, rfl⟩ := exists_choice hshader huntagged hvariant htypes
    exact (outline_madeFrom (hstop c hc)).exists_select ho hentry
  | result hr hentry =>
    cases hselect : e.select variant with
    | ok type => exact ⟨type, rfl⟩
    | error x =>
      have herror := elements_eq_error_iff.mpr ⟨hr, e, hentry, hselect⟩
      rw [htypes] at herror
      cases herror

/-! ### Even and uneven lists -/

/-- No type is missing if all lists are even. -/
theorem expand_ok_of_even (h : m.Even i r) : ∃ expansion, i.expand r m = .ok expansion := by
  rcases expand_cases m i r with hfiltered | ⟨ds, hds⟩ | ⟨reason, hskipped, -⟩ |
    ⟨x, -, variant, hvariant, e, he, hselect⟩
  · exact ⟨_, hfiltered⟩
  · exact ⟨_, hds⟩
  · exact ⟨_, hskipped⟩
  · have hrange : e.overloads = [] ∨ variant < e.overloads.length :=
      (h e he).imp_right fun hlength => hvariant.trans_eq hlength.symm
    obtain ⟨type, htype⟩ := TypeEntry.exists_select_eq_ok_iff.mpr hrange
    rw [hselect] at htype
    cases htype

/-- An uneven list, with nothing that hides the variant behind its last type. -/
structure RunsOut (m : TypeMap) (i : Instruction) (r : Request) : Prop where
  unfiltered : i.expand r m ≠ .ok .filtered
  untagged : ∀ capability ∈ i.capabilities,
    Capability.NoTag capability (Capability.floatTags ++ Capability.integerTags)
  unskipped : ∃ s : Setting, s.variant = 0 ∧ ∀ reason, parameters m i s ≠ .error (.skipped reason)
  uneven : m.Uneven i r

theorem expand_error_of_runsOut (h : RunsOut m i r) : ∃ x, i.expand r m = .error x := by
  rcases expand_cases m i r with hfiltered | ⟨ds, hds⟩ | ⟨reason, -, variant, hstop⟩ | ⟨x, hx, -⟩
  · exact absurd hfiltered h.unfiltered
  · obtain ⟨e, he, hne, hlt⟩ := h.uneven
    have htype := exists_select_of_declarations hds he h.untagged hlt
    rcases TypeEntry.exists_select_eq_ok_iff.mp htype with hempty | hself
    · exact absurd hempty hne
    · exact absurd hself (Nat.lt_irrefl _)
  · obtain ⟨s, hs, hskip⟩ := h.unskipped
    refine absurd ?_ (hskip reason)
    rw [parameters_eq, hs, stop?_zero_of_skipped hstop]
  · exact ⟨x, hx⟩

/-! ### Headers -/

theorem exists_declareAll_eq_ok {rs : List Request}
    (h : ∀ r ∈ rs, ∃ expansion, i.expand r m = .ok expansion) (ds : List Declaration) :
    ∃ o, i.declareAll m ds rs = .ok o := by
  induction rs generalizing ds with
  | nil => exact ⟨_, rfl⟩
  | cons r rs ih =>
    obtain ⟨⟨expansion, hr⟩, hrs⟩ := List.forall_mem_cons.mp h
    simp only [Instruction.declareAll, hr]
    cases expansion with
    | declarations more => exact ih hrs _
    | filtered => exact ⟨_, rfl⟩
    | skipped reason => exact ⟨_, rfl⟩

theorem generate_ok_of_even {s : Sources} (h : ∀ i r, s.Asks i r → s.typeMap.Even i r)
    (comments : Bool) : ∃ header, s.generate comments = .ok header := by
  refine ⟨_, Sources.generate_eq_ok_iff.mpr ⟨fun i hi => ?_, rfl⟩⟩
  unfold Instruction.outcome
  cases hstrategy : s.policy.strategy? i with
  | none => exact ⟨_, rfl⟩
  | some strategy =>
    refine exists_declareAll_eq_ok (fun r hr => ?_) []
    exact expand_ok_of_even (h i r ⟨hi, strategy, hstrategy, hr⟩)

theorem Alike.error_right {x : VariantOutOfRange} {y : Except VariantOutOfRange Expansion}
    (h : Alike (.error x) y) : y = .error x := by
  cases h
  rfl

/-- The requests of one strategy ask for one result type and one type class. -/
theorem types_of_mem_requests {strategy : Strategy} (hr : r ∈ strategy.requests) :
    r.resultType? = strategy.resultType? ∧ r.typeClass? = strategy.typeClass? := by
  obtain ⟨shape, -, rfl⟩ := List.mem_map.mp hr
  exact ⟨rfl, rfl⟩

/-- A request that fails is not the only one of its strategy to fail, so the first one does. -/
theorem outcome_error_of_expand {p : Policy} {strategy : Strategy} {x : VariantOutOfRange}
    (hstrategy : p.strategy? i = some strategy) (hr : r ∈ strategy.requests)
    (h : i.expand r m = .error x) : i.outcome p m = .error x := by
  have hall : ∀ q ∈ strategy.requests, i.expand q m = .error x := by
    intro q hq
    obtain ⟨hresult, hclass⟩ := types_of_mem_requests hr
    obtain ⟨hresult', hclass'⟩ := types_of_mem_requests hq
    have halike := expand_alike (m := m) (i := i) (hresult.trans hresult'.symm)
      (hclass.trans hclass'.symm)
    rw [h] at halike
    exact halike.error_right
  simp only [Instruction.outcome, hstrategy]
  cases hrequests : strategy.requests with
  | nil => simp [hrequests] at hr
  | cons first rest =>
    have hfirst := hall first (by simp [hrequests])
    simp only [Instruction.declareAll, hfirst]

theorem generate_error_of_runsOut {s : Sources} (hasks : s.Asks i r) (h : RunsOut s.typeMap i r)
    (comments : Bool) : ∃ failure, s.generate comments = .error failure := by
  obtain ⟨hi, strategy, hstrategy, hr⟩ := hasks
  obtain ⟨x, hx⟩ := expand_error_of_runsOut h
  have houtcome := outcome_error_of_expand hstrategy hr hx
  cases hgenerate : s.generate comments with
  | error failure => exact ⟨failure, rfl⟩
  | ok header =>
    obtain ⟨o, ho⟩ := (Sources.generate_eq_ok_iff.mp hgenerate).1 i hi
    rw [houtcome] at ho
    cases ho

/-- Neither an expansion nor a header runs out of variants if all overload lists that are consulted
are even, and both do if one is uneven and nothing hides the variant that it lacks. -/
theorem overloads_even_or_runOut :
    (∀ m i r, TypeMap.Even m i r → ∃ expansion, i.expand r m = .ok expansion) ∧
      (∀ s : Sources, (∀ i r, s.Asks i r → s.typeMap.Even i r) →
        ∀ comments, ∃ header, s.generate comments = .ok header) ∧
      ∀ m i r, RunsOut m i r → (∃ x, i.expand r m = .error x) ∧
        ∀ s : Sources, s.typeMap = m → s.Asks i r →
          ∀ comments, ∃ failure, s.generate comments = .error failure := by
  refine ⟨fun m i r => expand_ok_of_even, fun s => generate_ok_of_even, fun m i r h => ?_⟩
  refine ⟨expand_error_of_runsOut h, ?_⟩
  rintro s rfl hasks comments
  exact generate_error_of_runsOut hasks h comments

/-- A dot product. -/
def dot : Instruction where
  opname := "OpDot"
  className := "Arithmetic"
  opcode := 148
  operands := [⟨"IdResultType", none, none⟩, ⟨"IdResult", none, none⟩,
    ⟨"IdRef", some "Vector 1", none⟩]
  capabilities := []
  extensions := []
  version? := none

/-- Floats of two widths for the operand of a dot product, and some floats for its result. -/
def dotTypes (results : List String) : TypeMap where
  defaultType := "uint32_t"
  classes := []
  instructions := [("OpDot", {
    result? := some ⟨"IdResultType", none, "float32_t", none, false, [], results⟩
    parameters :=
      [⟨"IdRef", some "Vector1", "float32_t", none, false, [], ["float32_t", "float64_t"]⟩] })]

/-- A header of a dot product. -/
def dotSources (results : List String) : Sources where
  grammar := ⟨some 1, some 6, some 4, [dot], []⟩
  policy := ⟨[], [], [("Arithmetic", ⟨[.reference], false, none⟩)], []⟩
  typeMap := dotTypes results
  builtins := .standard

/-- A dot product with a result for each operand is declared; one with a single result is not. -/
theorem dot_even_or_runsOut :
    (∃ expansion, dot.expand ⟨.reference, none, none, none, []⟩
        (dotTypes ["float32_t", "float64_t"]) = .ok expansion) ∧
      (∃ header, (dotSources ["float32_t", "float64_t"]).generate false = .ok header) ∧
      (∃ x, dot.expand ⟨.reference, none, none, none, []⟩ (dotTypes ["float32_t"]) = .error x) ∧
      ∃ failure, (dotSources ["float32_t"]).generate false = .error failure := by
  obtain ⟨hexpand, hgenerate, hrunsOut⟩ := overloads_even_or_runOut
  have hasks : ∀ results i r, (dotSources results).Asks i r →
      i = dot ∧ r = ⟨.reference, none, none, none, []⟩ := by
    rintro results i r ⟨hi, strategy, hstrategy, hr⟩
    obtain rfl := List.mem_singleton.mp hi
    cases hstrategy
    exact ⟨rfl, List.mem_singleton.mp hr⟩
  have heven : (dotTypes ["float32_t", "float64_t"]).Even dot
      ⟨.reference, none, none, none, []⟩ := by decide +kernel
  have huneven : RunsOut (dotTypes ["float32_t"]) dot ⟨.reference, none, none, none, []⟩ := by
    refine ⟨?_, by simp [dot], ⟨⟨.reference, "float32_t", 0⟩, rfl, ?_⟩, by decide +kernel⟩
    · intro h
      cases h
    · intro reason h
      cases h
  refine ⟨hexpand _ _ _ heven, hgenerate _ ?_ false, (hrunsOut _ _ _ huneven).1,
    (hrunsOut _ _ _ huneven).2 (dotSources ["float32_t"]) rfl
      ⟨List.mem_singleton_self dot, _, rfl, List.mem_singleton_self _⟩ false⟩
  intro i r h
  obtain ⟨rfl, rfl⟩ := hasks _ i r h
  exact heven

end Expansion

end SpirvBindings
