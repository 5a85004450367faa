import SpirvBindings.Proofs.Admission
import SpirvBindings.Proofs.FanOut
import SpirvBindings.Proofs.Variants

/-! When an instruction is left out. An operand offends by its quantifier, by its place behind the
operands before it, or because it has neither a mapping nor a rule. If no type is missing, the
parameters of an instruction fail if and only if some operand offends, with the reason of the first
one that does. An expansion asks for parameters only where a guard admits a type: it is left out if
and only if some operand offends and some guard admits some type. Where no guard admits any type it
has no declarations. -/

namespace SpirvBindings.Expansion

variable {m : TypeMap} {i : Instruction} {r : Request} {before : List Operand} {o : Operand}
  {reason : SkipReason}

/-! ### Offending operands -/

/-- An operand can occur any number of times, or nobody knows how often. -/
def BadQuantifier (o : Operand) : Prop :=
  o.quantifier? = some .variadic ∨ o.quantifier? = some .unknown

/-- An operand is out of place behind an optional memory access that is not mapped. A required one
is out of place behind any optional one. -/
inductive OutOfPlace (m : TypeMap) (i : Instruction) (before : List Operand) (o : Operand) : Prop
  | access {a : Operand} (ha : a ∈ before) (hfree : isFreeAccess m i a)
  | required (ho : ¬ o.isOptional) {a : Operand} (ha : a ∈ before) (hoptional : a.isOptional)

/-- The kinds of operands that rules are about. -/
def ruledKinds : List String :=
  ["IdRef", "IdScope", "IdMemorySemantics", "GroupOperation", "MemoryAccess"]

/-- Why an operand has no rule: there is none for its kind, or none for the name of a reference. -/
inductive Unruled (o : Operand) : SkipReason → Prop
  | kind (h : o.kind ∉ ruledKinds) : Unruled o (.unsupportedKind o.kind)
  | name (hkind : o.kind = "IdRef") (hname : Rule.ofReference? (strippedName o) = none) :
    Unruled o (.unsupportedOperand o.kind (strippedName o))

/-- An operand offends behind the operands before it. -/
def Offends (m : TypeMap) (i : Instruction) (before : List Operand) (o : Operand) : Prop :=
  BadQuantifier o ∨ OutOfPlace m i before o ∨
    m.entryOfOperand? i o = none ∧ ∃ reason, Unruled o reason

/-- The reason against an offending operand: its quantifier before its place, and its place before a
rule that is missing. -/
inductive OffendsBy (m : TypeMap) (i : Instruction) (before : List Operand) (o : Operand) :
    SkipReason → Prop
  | variadic (h : o.quantifier? = some .variadic) :
    OffendsBy m i before o (.unsupportedQuantifier o.kind "*")
  | unknown (h : o.quantifier? = some .unknown) :
    OffendsBy m i before o (.unsupportedQuantifier o.kind "unknown")
  | place (hquantifier : ¬ BadQuantifier o) (hplace : OutOfPlace m i before o) :
    OffendsBy m i before o (.requiredAfterOptional o.kind)
  | unruled (hquantifier : ¬ BadQuantifier o) (hplace : ¬ OutOfPlace m i before o)
      (hmapped : m.entryOfOperand? i o = none) {reason : SkipReason} (hrule : Unruled o reason) :
    OffendsBy m i before o reason

theorem OffendsBy.offends (h : OffendsBy m i before o reason) : Offends m i before o := by
  rcases h with h | h | ⟨-, hplace⟩ | ⟨-, -, hmapped, hrule⟩
  · exact .inl (.inl h)
  · exact .inl (.inr h)
  · exact .inr (.inl hplace)
  · exact .inr (.inr ⟨hmapped, _, hrule⟩)

theorem Offends.exists_reason (h : Offends m i before o) :
    ∃ reason, OffendsBy m i before o reason := by
  by_cases hquantifier : BadQuantifier o
  · rcases hquantifier with hvariadic | hunknown
    · exact ⟨_, .variadic hvariadic⟩
    · exact ⟨_, .unknown hunknown⟩
  by_cases hplace : OutOfPlace m i before o
  · exact ⟨_, .place hquantifier hplace⟩
  obtain hbad | hout | ⟨hmapped, _, hrule⟩ := h
  · exact absurd hbad hquantifier
  · exact absurd hout hplace
  · exact ⟨_, .unruled hquantifier hplace hmapped hrule⟩

/-- The operand at a position of a list offends behind those before it. -/
def OffendsAt (m : TypeMap) (i : Instruction) (os : List Operand) (position : Nat) : Prop :=
  ∃ o, os[position]? = some o ∧ Offends m i (os.take position) o

/-- The reason against the first operand of a list that offends. -/
def FirstOffence (m : TypeMap) (i : Instruction) (os : List Operand) (reason : SkipReason) : Prop :=
  ∃ position o, os[position]? = some o ∧ OffendsBy m i (os.take position) o reason ∧
    ∀ earlier < position, ¬ OffendsAt m i os earlier

/-! ### One operand -/

theorem unsupportedQuantifier?_eq_none_iff : unsupportedQuantifier? o = none ↔ ¬ BadQuantifier o := by
  unfold unsupportedQuantifier? BadQuantifier
  split <;> simp_all

theorem Rule.ofOperand_eq_error_iff : Rule.ofOperand o = .error reason ↔ Unruled o reason := by
  unfold Rule.ofOperand
  constructor
  · intro h
    split at h
    next hkind =>
      split at h
      next => cases h
      next hname =>
        cases h
        exact .name hkind hname
    all_goals cases h
    exact .kind (by simp_all [ruledKinds])
  · rintro (hkind | ⟨hkind, hname⟩)
    · simp only [ruledKinds, List.mem_cons, List.not_mem_nil, or_false, not_or] at hkind
      split <;> simp_all
    · simp [hkind, hname]

theorem Outline.MadeFrom.outOfPlace_iff {variant : Nat} {l : Outline}
    (h : l.MadeFrom m i variant before) :
    (l.access || (! o.isOptional && l.slots.any (·.operand.isOptional))) ↔
      OutOfPlace m i before o := by
  have hoptional : l.access = false →
      (l.slots.any (·.operand.isOptional) ↔ ∃ a ∈ before, a.isOptional) := by
    intro hno
    rcases h.operands with ⟨hos, -⟩ | ⟨_, -, haccess, -⟩
    · simp [hos]
    · rw [hno] at haccess
      cases haccess
  cases haccess : l.access with
  | true =>
    obtain ⟨a, ha, hfree⟩ := h.access_iff_exists.mp haccess
    exact iff_of_true rfl (.access ha hfree)
  | false =>
    simp only [Bool.false_or, Bool.and_eq_true, Bool.not_eq_true', hoptional haccess]
    constructor
    · rintro ⟨ho, a, ha, hopt⟩
      exact .required (by simp [ho]) ha hopt
    · rintro (⟨ha, hfree⟩ | ⟨ho, ha, hopt⟩)
      · rw [h.access_iff_exists.mpr ⟨_, ha, hfree⟩] at haccess
        cases haccess
      · exact ⟨by simpa using ho, _, ha, hopt⟩

theorem Outline.stop?_of_offendsBy {variant : Nat} {l : Outline} (h : l.MadeFrom m i variant before)
    (hoffends : OffendsBy m i before o reason) :
    l.stop? m i variant o = some (.skipped reason) := by
  unfold Outline.stop?
  rcases hoffends with hvariadic | hunknown | ⟨hquantifier, hplace⟩ |
    ⟨hquantifier, hplace, hmapped, hrule⟩
  · simp [unsupportedQuantifier?, hvariadic]
  · simp [unsupportedQuantifier?, hunknown]
  · simp only [unsupportedQuantifier?_eq_none_iff.mpr hquantifier]
    rw [if_pos (h.outOfPlace_iff.mpr hplace)]
  · simp only [unsupportedQuantifier?_eq_none_iff.mpr hquantifier]
    rw [if_neg (mt h.outOfPlace_iff.mp hplace)]
    simp only [hmapped, Rule.ofOperand_eq_error_iff.mpr hrule]

theorem Outline.stop?_of_not_offends {variant : Nat} {l : Outline}
    (h : l.MadeFrom m i variant before)
    (hrange : ∀ e, m.entryOfOperand? i o = some e → ∃ type, e.select variant = .ok type)
    (hoffends : ¬ Offends m i before o) : l.stop? m i variant o = none := by
  obtain ⟨hquantifier, hrest⟩ := not_or.mp hoffends
  obtain ⟨hplace, hresolved⟩ := not_or.mp hrest
  unfold Outline.stop?
  simp only [unsupportedQuantifier?_eq_none_iff.mpr hquantifier]
  rw [if_neg (mt h.outOfPlace_iff.mp hplace)]
  cases hentry : m.entryOfOperand? i o with
  | some e =>
    obtain ⟨type, htype⟩ := hrange e hentry
    simp only [htype]
  | none =>
    cases hrule : Rule.ofOperand o with
    | ok rule => rfl
    | error reason =>
      exact absurd ⟨hentry, reason, Rule.ofOperand_eq_error_iff.mp hrule⟩ hresolved

/-! ### All operands -/

theorem FirstOffence.offendsAt {os : List Operand} (h : FirstOffence m i os reason) :
    ∃ position, OffendsAt m i os position := by
  obtain ⟨position, o, ho, hby, -⟩ := h
  exact ⟨position, o, ho, hby.offends⟩

theorem offendsAt_length_iff {os : List Operand} :
    OffendsAt m i (before ++ o :: os) before.length ↔ Offends m i before o := by
  simp [OffendsAt]

/-- The first offence of a list whose first operands do not offend and whose next one does. -/
theorem firstOffence_append_cons_iff {os : List Operand}
    (hbefore : ∀ position < before.length, ¬ OffendsAt m i (before ++ o :: os) position)
    (ho : Offends m i before o) :
    FirstOffence m i (before ++ o :: os) reason ↔ OffendsBy m i before o reason := by
  have hhere : (before ++ o :: os)[before.length]? = some o := by simp
  have htake : (before ++ o :: os).take before.length = before := by simp
  constructor
  · rintro ⟨position, o', ho', hby, hearlier⟩
    have hle : position ≤ before.length :=
      Nat.le_of_not_lt fun hlt => hearlier _ hlt (offendsAt_length_iff.mpr ho)
    have hge : before.length ≤ position :=
      Nat.le_of_not_lt fun hlt => hbefore _ hlt ⟨o', ho', hby.offends⟩
    obtain rfl : position = before.length := Nat.le_antisymm hle hge
    rw [hhere, Option.some.injEq] at ho'
    rwa [htake, ← ho'] at hby
  · intro hby
    exact ⟨before.length, o, hhere, by rwa [htake], hbefore⟩

/-- One more operand does not offend. -/
theorem not_offendsAt_append {os : List Operand}
    (hbefore : ∀ position < before.length, ¬ OffendsAt m i (before ++ o :: os) position)
    (ho : ¬ Offends m i before o) :
    ∀ position < (before ++ [o]).length, ¬ OffendsAt m i (before ++ [o] ++ os) position := by
  intro position hposition
  rw [← List.append_cons]
  rw [List.length_append, List.length_singleton] at hposition
  rcases Nat.lt_succ_iff_lt_or_eq.mp hposition with hlt | rfl
  · exact hbefore position hlt
  · exact mt offendsAt_length_iff.mp ho

theorem not_offendsAt_of_length_le {os : List Operand} {position : Nat} (h : os.length ≤ position) :
    ¬ OffendsAt m i os position := by
  rintro ⟨o, ho, -⟩
  exact absurd (List.getElem?_eq_some_iff.mp ho).1 (Nat.not_lt_of_le h)

/-- What stops the operands that are left, by induction on them. The operands before them do not
offend. -/
theorem Outline.firstStop?_exact {variant : Nat} {l : Outline} {os : List Operand}
    (h : l.MadeFrom m i variant before)
    (hbefore : ∀ position < before.length, ¬ OffendsAt m i (before ++ os) position)
    (hrange : ∀ o ∈ os, ∀ e, m.entryOfOperand? i o = some e → ∃ type, e.select variant = .ok type) :
    (∀ reason, l.firstStop? m i variant os = some (.skipped reason) ↔
        FirstOffence m i (before ++ os) reason) ∧
      (l.firstStop? m i variant os = none ↔ ∀ position, ¬ OffendsAt m i (before ++ os) position) := by
  induction os generalizing l before with
  | nil =>
    have hnone : ∀ position, ¬ OffendsAt m i (before ++ []) position := by
      intro position
      rcases Nat.lt_or_ge position before.length with hlt | hge
      · exact hbefore position hlt
      · exact not_offendsAt_of_length_le (by simpa using hge)
    refine ⟨fun reason => iff_of_false (by simp [Outline.firstStop?]) ?_, iff_of_true rfl hnone⟩
    intro hfirst
    obtain ⟨position, hat⟩ := hfirst.offendsAt
    exact hnone position hat
  | cons o os ih =>
    obtain ⟨ho, hos⟩ := List.forall_mem_cons.mp hrange
    rw [Outline.firstStop?]
    by_cases hoffends : Offends m i before o
    · obtain ⟨first, hfirst⟩ := hoffends.exists_reason
      rw [Outline.stop?_of_offendsBy h hfirst, Option.some_or]
      refine ⟨fun reason => ?_, iff_of_false (by simp)
        fun hnone => hnone _ (offendsAt_length_iff.mpr hoffends)⟩
      rw [firstOffence_append_cons_iff hbefore hoffends, Option.some.injEq, Stop.skipped.injEq]
      constructor
      · rintro rfl
        exact hfirst
      · intro hby
        have hstops := (Outline.stop?_of_offendsBy h hfirst).symm.trans
          (Outline.stop?_of_offendsBy h hby)
        simpa using hstops
    · have hstop := Outline.stop?_of_not_offends h ho hoffends
      rw [hstop, Option.none_or, List.append_cons before o os]
      exact ih (Outline.take_madeFrom h hstop) (not_offendsAt_append hbefore hoffends) hos

/-- All operands of an instruction have a type at a variant, as far as they are mapped. -/
def InRange (m : TypeMap) (i : Instruction) (variant : Nat) : Prop :=
  ∀ o ∈ i.arguments, ∀ e, m.entryOfOperand? i o = some e → ∃ type, e.select variant = .ok type

theorem stop?_exact {variant : Nat} (h : InRange m i variant) :
    (∀ reason, stop? m i variant = some (.skipped reason) ↔
        FirstOffence m i i.arguments reason) ∧
      (stop? m i variant = none ↔ ∀ position, ¬ OffendsAt m i i.arguments position) := by
  have hempty : Outline.empty.MadeFrom m i variant [] :=
    ⟨rfl, .inl ⟨rfl, rfl⟩, by simp [Outline.empty], by simp [Outline.empty]⟩
  exact Outline.firstStop?_exact hempty (by simp) h

/-! ### Expansions -/

/-- Some guard admits some type of some variant. -/
def SomePasses (m : TypeMap) (i : Instruction) (r : Request) : Prop :=
  ∃ variant < m.variantCount i, ∃ types, elements m i r variant = .ok types ∧
    ∃ type ∈ types, ∃ guard? ∈ guards i, GuardAdmitsType guard? type

theorem somePasses_iff : SomePasses m i r ↔ choices m i r ≠ [] := by
  constructor
  · rintro ⟨variant, hvariant, types, htypes, type, htype, guard?, hguard, hadmits⟩
    refine List.ne_nil_of_mem (a := guardChoice variant type guard?) ?_
    refine mem_choices_iff.mpr ⟨hvariant, by rwa [guardChoice, htypes], hguard, ?_⟩
    rw [guardChoice, guardedElement?_eq, if_pos hadmits]
  · intro hne
    obtain ⟨c, hc⟩ := List.exists_mem_of_ne_nil _ hne
    obtain ⟨hvariant, helement, hguard, hguarded⟩ := mem_choices_iff.mp hc
    cases helements : elements m i r c.variant with
    | error x => simp [helements, yield] at helement
    | ok types =>
      rw [helements, yield] at helement
      refine ⟨c.variant, hvariant, types, helements, c.element, helement, c.guard?, hguard, ?_⟩
      by_contra hno
      rw [guardedElement?_eq, if_neg hno] at hguarded
      cases hguarded

/-- All entries that an expansion consults have a type for each variant. -/
def AllInRange (m : TypeMap) (i : Instruction) (r : Request) : Prop :=
  ∀ e, m.Consults i r e → ∀ variant < m.variantCount i, ∃ type, e.select variant = .ok type

theorem AllInRange.inRange (h : AllInRange m i r) {variant : Nat}
    (hvariant : variant < m.variantCount i) : InRange m i variant :=
  fun _ ho e he => h e (.operand ho he) variant hvariant

theorem AllInRange.exists_elements (h : AllInRange m i r) {variant : Nat}
    (hvariant : variant < m.variantCount i) : ∃ types, elements m i r variant = .ok types := by
  cases helements : elements m i r variant with
  | ok types => exact ⟨types, rfl⟩
  | error x =>
    obtain ⟨hr, e, he, hselect⟩ := elements_eq_error_iff.mp helements
    obtain ⟨type, htype⟩ := h e (.result hr he) variant hvariant
    rw [hselect] at htype
    cases htype

/-- Every entry has a type for the first variant. -/
theorem inRange_zero (m : TypeMap) (i : Instruction) : InRange m i 0 := by
  intro o _ e _
  rw [TypeEntry.exists_select_eq_ok_iff, List.length_pos_iff_ne_nil]
  exact em _

theorem expand_of_not_somePasses (hshader : i.expand r m ≠ .ok .filtered) (h : AllInRange m i r)
    (hnone : ¬ SomePasses m i r) : i.expand r m = .ok (.declarations []) := by
  have hchoices : choices m i r = [] := not_not.mp (mt somePasses_iff.mpr hnone)
  have hsome : (alternatives? i).isSome := by
    cases hguards : alternatives? i with
    | some _ => rfl
    | none => exact absurd (by simp [Instruction.expand, hguards]) hshader
  rw [expand_eq_declarations_iff, hchoices]
  exact ⟨hsome, fun variant hvariant => h.exists_elements hvariant, by simp, rfl⟩

/-- An expansion is left out for the first operand that offends, unless no guard admits a type. -/
theorem expand_skipped_iff (hshader : i.expand r m ≠ .ok .filtered) (h : AllInRange m i r) :
    i.expand r m = .ok (.skipped reason) ↔
      FirstOffence m i i.arguments reason ∧ SomePasses m i r := by
  obtain ⟨hskipped, -⟩ := stop?_exact (inRange_zero m i)
  constructor
  · intro hexpand
    constructor
    · rcases expand_cases m i r with hfiltered | ⟨ds, hds⟩ | ⟨reason', hreason, _, hstop⟩ | ⟨x, hx, -⟩
      · exact absurd hfiltered hshader
      · rw [hexpand] at hds
        cases hds
      · rw [hexpand] at hreason
        cases hreason
        exact (hskipped reason).mp (stop?_zero_of_skipped hstop)
      · rw [hexpand] at hx
        cases hx
    · by_contra hnone
      rw [expand_of_not_somePasses hshader h hnone] at hexpand
      cases hexpand
  · rintro ⟨hfirst, hpasses⟩
    rcases expand_cases m i r with hfiltered | ⟨ds, hds⟩ | ⟨reason', hreason, _, hstop⟩ |
      ⟨x, -, variant, hvariant, e, he, hselect⟩
    · exact absurd hfiltered hshader
    · obtain ⟨-, -, hstop, -⟩ := expand_eq_declarations_iff.mp hds
      obtain ⟨c, hc⟩ := List.exists_mem_of_ne_nil _ (somePasses_iff.mp hpasses)
      have hrange := h.inRange (mem_choices_iff.mp hc).1
      obtain ⟨position, hat⟩ := hfirst.offendsAt
      exact absurd hat ((stop?_exact hrange).2.mp (hstop c hc) position)
    · have hzero := stop?_zero_of_skipped hstop
      rw [(hskipped reason).mpr hfirst, Option.some.injEq, Stop.skipped.injEq] at hzero
      rw [hreason, hzero]
    · obtain ⟨type, htype⟩ := h e he variant hvariant
      rw [hselect] at htype
      cases htype

/-- The parameters of an instruction fail by its first operand that offends, and there are some if
no operand does. -/
structure ParametersSkipExactly (m : TypeMap) (i : Instruction) (s : Setting) : Prop where
  skips : (∃ reason, parameters m i s = .error (.skipped reason)) ↔
    ∃ position, OffendsAt m i i.arguments position
  reason : ∀ reason, parameters m i s = .error (.skipped reason) ↔
    FirstOffence m i i.arguments reason
  succeeds : (∃ set, parameters m i s = .ok set) ↔
    ∀ position, ¬ OffendsAt m i i.arguments position

/-- An expansion is left out if some operand offends and some guard admits a type, and then for the
first operand that offends. It has no declarations if no guard admits a type. -/
structure ExpansionSkipsExactly (m : TypeMap) (i : Instruction) (r : Request) : Prop where
  skips : (∃ reason, i.expand r m = .ok (.skipped reason)) ↔
    (∃ position, OffendsAt m i i.arguments position) ∧ SomePasses m i r
  reason : ∀ reason, i.expand r m = .ok (.skipped reason) ↔
    FirstOffence m i i.arguments reason ∧ SomePasses m i r
  empty : ¬ SomePasses m i r → i.expand r m = .ok (.declarations [])
  succeeds : (∃ ds, i.expand r m = .ok (.declarations ds)) ↔
    (∀ position, ¬ OffendsAt m i i.arguments position) ∨ ¬ SomePasses m i r

theorem exists_firstOffence_iff :
    (∃ reason, FirstOffence m i i.arguments reason) ↔
      ∃ position, OffendsAt m i i.arguments position := by
  refine ⟨fun ⟨_, h⟩ => h.offendsAt, fun hsome => ?_⟩
  classical
  obtain ⟨o, ho, hoffends⟩ := Nat.find_spec hsome
  obtain ⟨reason, hby⟩ := hoffends.exists_reason
  exact ⟨reason, Nat.find hsome, o, ho, hby, fun _ hlt => Nat.find_min hsome hlt⟩

theorem parametersSkipExactly {s : Setting} (h : InRange m i s.variant) :
    ParametersSkipExactly m i s := by
  obtain ⟨hskipped, hnone⟩ := stop?_exact h
  have hreason : ∀ reason, parameters m i s = .error (.skipped reason) ↔
      FirstOffence m i i.arguments reason := by
    intro reason
    rw [← hskipped reason, parameters_eq]
    cases stop? m i s.variant <;> simp
  refine ⟨?_, hreason, ?_⟩
  · simp only [hreason, exists_firstOffence_iff]
  · simp only [parameters_eq_ok_iff, hnone, exists_and_left, exists_eq, and_true]

theorem expansionSkipsExactly (hshader : i.expand r m ≠ .ok .filtered) (h : AllInRange m i r) :
    ExpansionSkipsExactly m i r := by
  have hreason : ∀ reason, i.expand r m = .ok (.skipped reason) ↔
      FirstOffence m i i.arguments reason ∧ SomePasses m i r :=
    fun _ => expand_skipped_iff hshader h
  refine ⟨?_, hreason, expand_of_not_somePasses hshader h, ?_⟩
  · simp only [hreason, exists_and_right, exists_firstOffence_iff]
  · have hskips : (∃ reason, i.expand r m = .ok (.skipped reason)) ↔
        ¬ ∃ ds, i.expand r m = .ok (.declarations ds) := by
      rcases expand_cases m i r with hfiltered | ⟨ds, hds⟩ | ⟨reason, hreason, -⟩ |
        ⟨x, -, variant, hvariant, e, he, hselect⟩
      · exact absurd hfiltered hshader
      · simp [hds]
      · simp [hreason]
      · obtain ⟨type, htype⟩ := h e he variant hvariant
        rw [hselect] at htype
        cases htype
    rw [← not_not (a := ∃ ds, _), ← hskips]
    simp only [hreason, exists_and_right, exists_firstOffence_iff, not_and_or, not_exists]

/-- Operands that offend are all that leaves an instruction out, as long as no type is missing. -/
theorem skips_exact (m : TypeMap) (i : Instruction) :
    (∀ s : Setting, InRange m i s.variant → ParametersSkipExactly m i s) ∧
      ∀ r : Request, i.expand r m ≠ .ok .filtered → AllInRange m i r →
        ExpansionSkipsExactly m i r :=
  ⟨fun _ => parametersSkipExactly, fun _ => expansionSkipsExactly⟩

/-- An exchange of narrow floats, with a required value behind an optional memory access. -/
def lateValue : Instruction where
  opname := "OpAtomicExchange"
  className := "Atomic"
  opcode := 229
  operands := [⟨"IdResultType", none, none⟩, ⟨"IdResult", none, none⟩,
    ⟨"IdRef", some "Pointer", none⟩, ⟨"MemoryAccess", none, some .optional⟩,
    ⟨"IdRef", some "Value", none⟩, ⟨"LiteralInteger", some "Count", some .variadic⟩]
  capabilities := ["AtomicFloat16VectorNV"]
  extensions := []
  version? := none

/-- The exchange is left out for its value where its capability admits the result, and has no
declarations where it does not. -/
theorem lateValue_skips_exact :
    parameters .standard lateValue ⟨.reference, "T", 0⟩ =
        .error (.skipped (.requiredAfterOptional "IdRef")) ∧
      ParametersSkipExactly .standard lateValue ⟨.reference, "T", 0⟩ ∧
      lateValue.expand ⟨.reference, some "float16_t", none, none, []⟩ .standard =
        .ok (.skipped (.requiredAfterOptional "IdRef")) ∧
      ExpansionSkipsExactly .standard lateValue ⟨.reference, some "float16_t", none, none, []⟩ ∧
      lateValue.expand ⟨.reference, some "int32_t", none, none, []⟩ .standard =
        .ok (.declarations []) ∧
      ExpansionSkipsExactly .standard lateValue ⟨.reference, some "int32_t", none, none, []⟩ := by
  obtain ⟨hparameters, hexpansion⟩ := skips_exact .standard lateValue
  have hlayers : TypeMap.standard.layers lateValue = [] := by decide
  have hrange : InRange .standard lateValue 0 := inRange_zero .standard lateValue
  have hall : ∀ r, AllInRange .standard lateValue r := by
    rintro r e (⟨-, he⟩ | ⟨-, he⟩)
    · simp [TypeMap.entryOfOperand?, hlayers] at he
    · simp [TypeMap.entryOfResult?, hlayers] at he
  have hskipped : lateValue.expand ⟨.reference, some "float16_t", none, none, []⟩ .standard =
      .ok (.skipped (.requiredAfterOptional "IdRef")) := rfl
  have hempty : lateValue.expand ⟨.reference, some "int32_t", none, none, []⟩ .standard =
      .ok (.declarations []) := rfl
  refine ⟨rfl, hparameters _ hrange, hskipped, hexpansion _ ?_ (hall _), hempty,
    hexpansion _ ?_ (hall _)⟩
  · simp [hskipped]
  · simp [hempty]

end SpirvBindings.Expansion
