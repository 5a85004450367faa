import SpirvBindings.Proofs.Outline.Basic

/-! The operands and the lists of an outline. An outline that nothing stops has its required slots
first and its slots in the order of the operands, and only an optional memory access at the end is
no slot. Each parameter list spells a prefix of the slots, and only the lists of all slots have the
literals of a memory access behind them. -/

namespace SpirvBindings.Expansion

/-! ### The operands of an outline -/

/-- An outline is made from some operands: the required slots come first, the slots are for the
operands in order, only a memory access at the end is left over, and the mapped slots have a type
at the variant. -/
structure Outline.MadeFrom (m : TypeMap) (i : Instruction) (variant : Nat) (os : List Operand)
    (l : Outline) : Prop where
  ordered : l.slots = l.required ++ l.optional
  operands : os = l.slots.map (·.operand) ∧ l.access = false ∨
    ∃ o, os = l.slots.map (·.operand) ++ [o] ∧ l.access = true ∧
      Source.ofOperand? m i o = some (.rule .memoryAccess) ∧ o.isOptional
  sources : ∀ slot ∈ l.slots, Source.ofOperand? m i slot.operand = some slot.source ∧
    slot.source.isAccess slot.operand = false
  inRange : ∀ slot ∈ l.slots, ∀ e, slot.source = .entry e → ∃ type, e.select variant = .ok type

/-- Nothing stops an operand of a supported quantifier in its place with a source in range. -/
theorem Outline.stop?_eq_none_iff {m : TypeMap} {i : Instruction} {variant : Nat} {l : Outline}
    {o : Operand} :
    l.stop? m i variant o = none ↔
      unsupportedQuantifier? o = none ∧ l.access = false ∧ (o.isOptional ∨ l.optional = []) ∧
        ∃ source, Source.ofOperand? m i o = some source ∧
          ∀ e, source = .entry e → ∃ type, e.select variant = .ok type := by
  have hplace : (l.access || (! o.isOptional && l.slots.any (·.operand.isOptional))) = false ↔
      l.access = false ∧ (o.isOptional ∨ l.optional = []) := by
    simp only [Outline.optional, List.filter_eq_nil_iff, Bool.or_eq_false_iff,
      Bool.and_eq_false_iff, Bool.not_eq_false', List.any_eq_false]
  unfold Outline.stop? Source.ofOperand?
  cases unsupportedQuantifier? o with
  | some reason => simp
  | none =>
    cases hp : (l.access || (! o.isOptional && l.slots.any (·.operand.isOptional))) with
    | true =>
      have hno : ¬ (l.access = false ∧ (o.isOptional ∨ l.optional = [])) := by
        rw [← hplace, hp]
        simp
      simp only [↓reduceIte, reduceCtorEq, true_and, false_iff]
      exact fun h => hno ⟨h.1, h.2.1⟩
    | false =>
      obtain ⟨haccess, hopt⟩ := hplace.mp hp
      cases m.entryOfOperand? i o with
      | some e => cases he : e.select variant <;> simp [haccess, hopt, he]
      | none => cases Rule.ofOperand o <;> simp [haccess, hopt]

theorem Source.eq_of_isAccess {o : Operand} {source : Source} (h : source.isAccess o) :
    source = .rule .memoryAccess ∧ o.isOptional := by
  cases source with
  | entry e => cases h
  | rule r =>
    cases r with
    | memoryAccess => exact ⟨rfl, h⟩
    | _ => cases h

theorem Source.ofOperand?_eq_entry_iff {m : TypeMap} {i : Instruction} {o : Operand}
    {e : TypeEntry} :
    Source.ofOperand? m i o = some (.entry e) ↔ m.entryOfOperand? i o = some e := by
  unfold Source.ofOperand?
  cases m.entryOfOperand? i o with
  | some e => simp
  | none => cases Rule.ofOperand o <;> simp

theorem Source.ofOperand?_eq_rule_iff {m : TypeMap} {i : Instruction} {o : Operand} {rule : Rule} :
    Source.ofOperand? m i o = some (.rule rule) ↔
      m.entryOfOperand? i o = none ∧ Rule.ofOperand o = .ok rule := by
  unfold Source.ofOperand?
  cases m.entryOfOperand? i o with
  | some e => simp
  | none => cases Rule.ofOperand o <;> simp

/-- A slot that an operand in its place adds keeps the required slots first. -/
theorem Outline.ordered_append {l : Outline} {slot : Slot}
    (h : l.slots = l.required ++ l.optional)
    (hplace : slot.operand.isOptional ∨ l.optional = []) :
    let l' : Outline := { l with slots := l.slots ++ [slot] }
    l'.slots = l'.required ++ l'.optional := by
  simp only [Outline.required, Outline.optional, List.filter_append] at h hplace ⊢
  cases ho : slot.operand.isOptional with
  | true => simp [ho, ← List.append_assoc, ← h]
  | false =>
    have hnil : l.slots.filter (·.operand.isOptional) = [] := by simpa [ho] using hplace
    rw [hnil, List.append_nil] at h
    simp [ho, hnil, ← h]

theorem Outline.take_madeFrom {m : TypeMap} {i : Instruction} {variant : Nat} {l : Outline}
    {os : List Operand} {o : Operand} (h : l.MadeFrom m i variant os)
    (hstop : l.stop? m i variant o = none) : (l.take m i o).MadeFrom m i variant (os ++ [o]) := by
  obtain ⟨-, haccess, hopt, source, hsource, hrange⟩ := Outline.stop?_eq_none_iff.mp hstop
  have hos : os = l.slots.map (·.operand) := by
    rcases h.operands with ⟨hos, -⟩ | ⟨_, -, htrue, -⟩
    · exact hos
    · simp [haccess] at htrue
  unfold Outline.take
  simp only [hsource]
  split
  next ha =>
    obtain ⟨rfl, ho⟩ := Source.eq_of_isAccess ha
    exact ⟨h.ordered, .inr ⟨o, by rw [hos], rfl, hsource, ho⟩, h.sources, h.inRange⟩
  next ha =>
    refine ⟨Outline.ordered_append h.ordered hopt,
      .inl ⟨by simp [hos, Outline.slotFor], haccess⟩, ?_, ?_⟩
    · intro slot hslot
      rcases List.mem_append.mp hslot with hslot | hslot
      · exact h.sources slot hslot
      · obtain rfl := List.mem_singleton.mp hslot
        exact ⟨hsource, Bool.eq_false_iff.mpr ha⟩
    · intro slot hslot
      rcases List.mem_append.mp hslot with hslot | hslot
      · exact h.inRange slot hslot
      · obtain rfl := List.mem_singleton.mp hslot
        exact hrange

/-- Operands that nothing stops, by induction on those that are left. -/
theorem Outline.foldl_take_madeFrom {m : TypeMap} {i : Instruction} {variant : Nat}
    {os : List Operand} {l : Outline} {done : List Operand} (h : l.MadeFrom m i variant done)
    (hstop : l.firstStop? m i variant os = none) :
    (os.foldl (Outline.take m i) l).MadeFrom m i variant (done ++ os) := by
  induction os generalizing l done with
  | nil => simpa using h
  | cons o os ih =>
    obtain ⟨ho, hos⟩ := Option.or_eq_none_iff.mp hstop
    simpa using ih (Outline.take_madeFrom h ho) hos

theorem outline_madeFrom {m : TypeMap} {i : Instruction} {variant : Nat}
    (h : stop? m i variant = none) : (outline m i).MadeFrom m i variant i.arguments := by
  have hempty : Outline.empty.MadeFrom m i variant [] :=
    ⟨rfl, .inl ⟨rfl, rfl⟩, by simp [Outline.empty], by simp [Outline.empty]⟩
  exact Outline.foldl_take_madeFrom hempty h

/-- The slots are for the operands that have a source, but for an optional memory access. -/
theorem Outline.MadeFrom.exists_slot_iff {m : TypeMap} {i : Instruction} {variant : Nat}
    {os : List Operand} {l : Outline} (h : l.MadeFrom m i variant os) {o : Operand}
    {source : Source} :
    (∃ slot ∈ l.slots, slot.operand = o ∧ slot.source = source) ↔
      o ∈ os ∧ Source.ofOperand? m i o = some source ∧ source.isAccess o = false := by
  constructor
  · rintro ⟨slot, hslot, rfl, rfl⟩
    refine ⟨?_, h.sources slot hslot⟩
    have hmem : slot.operand ∈ l.slots.map (·.operand) := List.mem_map_of_mem hslot
    rcases h.operands with ⟨rfl, -⟩ | ⟨a, rfl, -⟩
    · exact hmem
    · exact List.mem_append_left _ hmem
  · rintro ⟨ho, hsource, hno⟩
    have hmem : o ∈ l.slots.map (·.operand) := by
      rcases h.operands with ⟨rfl, -⟩ | ⟨a, rfl, -, haccess, ha⟩
      · exact ho
      · refine (List.mem_append.mp ho).resolve_right fun hlast => ?_
        obtain rfl := List.mem_singleton.mp hlast
        rw [haccess, Option.some.injEq] at hsource
        subst hsource
        exact Bool.false_ne_true (hno.symm.trans ha)
    obtain ⟨slot, hslot, rfl⟩ := List.mem_map.mp hmem
    have hslotSource := (h.sources slot hslot).1
    rw [hsource, Option.some.injEq] at hslotSource
    exact ⟨slot, hslot, rfl, hslotSource.symm⟩

/-- The entry of an operand has a type at the variant. -/
theorem Outline.MadeFrom.exists_select {m : TypeMap} {i : Instruction} {variant : Nat}
    {os : List Operand} {l : Outline} (h : l.MadeFrom m i variant os) {o : Operand} {e : TypeEntry}
    (ho : o ∈ os) (he : m.entryOfOperand? i o = some e) :
    ∃ type, e.select variant = .ok type := by
  obtain ⟨slot, hslot, -, hsource⟩ := h.exists_slot_iff.mpr
    ⟨ho, Source.ofOperand?_eq_entry_iff.mpr he, rfl⟩
  exact h.inRange slot hslot e hsource

/-- The slots stand in the places of their operands. Only a memory access may stand behind them. -/
theorem Outline.MadeFrom.operand_getElem? {m : TypeMap} {i : Instruction} {variant : Nat}
    {os : List Operand} {l : Outline} (h : l.MadeFrom m i variant os) (j : Nat) :
    (∃ slot, l.slots[j]? = some slot ∧ os[j]? = some slot.operand) ∨
      l.slots[j]? = none ∧
        ∀ o, os[j]? = some o → Source.ofOperand? m i o = some (.rule .memoryAccess) := by
  cases hslot : l.slots[j]? with
  | some slot =>
    have hj : j < l.slots.length := (List.getElem?_eq_some_iff.mp hslot).1
    refine .inl ⟨slot, rfl, ?_⟩
    rcases h.operands with ⟨rfl, -⟩ | ⟨o, rfl, -⟩
    · simp [hslot]
    · rw [List.getElem?_append_left (by simpa using hj)]
      simp [hslot]
  | none =>
    have hj : l.slots.length ≤ j := List.getElem?_eq_none_iff.mp hslot
    refine .inr ⟨rfl, fun o ho => ?_⟩
    rcases h.operands with ⟨rfl, -⟩ | ⟨access, rfl, -, haccess, -⟩
    · simp [hslot] at ho
    · rw [List.getElem?_append_right (by simpa using hj)] at ho
      obtain rfl := List.mem_singleton.mp (List.mem_of_getElem? ho)
      exact haccess

/-- The required slots are for the required operands. -/
theorem Outline.MadeFrom.exists_required_iff {m : TypeMap} {i : Instruction} {variant : Nat}
    {os : List Operand} {l : Outline} (h : l.MadeFrom m i variant os) (P : Operand → Prop) :
    (∃ o ∈ os, ¬ o.isOptional ∧ P o) ↔ ∃ slot ∈ l.required, P slot.operand := by
  have hoperand : ∀ o, ¬ o.isOptional → (o ∈ os ↔ ∃ slot ∈ l.slots, slot.operand = o) := by
    intro o ho
    rcases h.operands with ⟨rfl, -⟩ | ⟨a, rfl, -, -, ha⟩
    · rw [List.mem_map]
    · rw [List.mem_append, List.mem_map, List.mem_singleton, or_iff_left]
      rintro rfl
      exact ho ha
  constructor
  · rintro ⟨o, ho, hrequired, hP⟩
    obtain ⟨slot, hslot, rfl⟩ := (hoperand o hrequired).mp ho
    exact ⟨slot, List.mem_filter.mpr ⟨hslot, by simpa using hrequired⟩, hP⟩
  · rintro ⟨slot, hslot, hP⟩
    obtain ⟨hmem, hrequired⟩ := List.mem_filter.mp hslot
    have hrequired' : ¬ slot.operand.isOptional := by simpa using hrequired
    exact ⟨slot.operand, (hoperand _ hrequired').mpr ⟨slot, hmem, rfl⟩, hrequired', hP⟩

/-- An access is all that is optional if the only optional operand is a memory access. -/
theorem Outline.MadeFrom.access_iff {m : TypeMap} {i : Instruction} {variant : Nat}
    {os : List Operand} {l : Outline} (h : l.MadeFrom m i variant os) :
    (l.access ∧ l.optional = []) ↔
      ∃ o, os.filter (·.isOptional) = [o] ∧ m.entryOfOperand? i o = none ∧
        Rule.ofOperand o = .ok .memoryAccess := by
  have hfilter : (l.slots.map (·.operand)).filter (·.isOptional) = l.optional.map (·.operand) := by
    rw [List.filter_map]
    rfl
  simp only [← Source.ofOperand?_eq_rule_iff]
  rcases h.operands with ⟨rfl, haccess⟩ | ⟨a, rfl, haccess, hsource, ha⟩
  · simp only [haccess, Bool.false_eq_true, false_and, false_iff, hfilter]
    rintro ⟨o, ho, hsource⟩
    obtain ⟨slot, hslot, rfl⟩ : ∃ slot ∈ l.optional, slot.operand = o := by
      rw [← List.mem_map, ho]
      exact List.mem_singleton_self o
    obtain ⟨hmem, hoptional⟩ := List.mem_filter.mp hslot
    obtain ⟨hslot, hno⟩ := h.sources slot hmem
    rw [hslot, Option.some.injEq] at hsource
    rw [hsource] at hno
    exact Bool.false_ne_true (hno.symm.trans hoptional)
  · have hall : (l.slots.map (·.operand) ++ [a]).filter (·.isOptional) =
        l.optional.map (·.operand) ++ [a] := by
      rw [List.filter_append, hfilter, List.filter_singleton, ha, cond_true]
    rw [hall]
    constructor
    · rintro ⟨-, hnil⟩
      exact ⟨a, by rw [hnil]; rfl, hsource⟩
    · rintro ⟨o, ho, -⟩
      have hlength := congrArg List.length ho
      simp only [List.length_append, List.length_map, List.length_singleton] at hlength
      exact ⟨haccess, List.eq_nil_of_length_eq_zero (by omega)⟩

/-! ### Lists -/

/-- How far a parameter list reaches: over so many optional slots, with literals behind them. -/
structure Extent where
  count : Nat
  literals : List Parameter
  deriving DecidableEq, Repr

/-- The extents of the lists of a signature with a number of optional slots. -/
def extents (shape : Shape) (access : Bool) (count : Nat) : List Extent :=
  if access then (List.range count).map (⟨·, []⟩) ++ (accessLists shape []).map (⟨count, ·⟩)
  else (List.range (count + 1)).map (⟨·, []⟩)

theorem accessLists_eq (shape : Shape) (base : List Parameter) :
    accessLists shape base = (accessLists shape []).map (base ++ ·) := by
  cases shape <;> simp [accessLists]

theorem Draft.lists_eq (d : Draft) (shape : Shape) :
    d.lists shape = (extents shape d.access d.optional.length).map fun e =>
      d.required ++ d.optional.take e.count ++ e.literals := by
  unfold Draft.lists extents
  cases d.access with
  | false => simp
  | true =>
    simp only [↓reduceIte, List.map_append, List.map_map, Function.comp_def, List.append_nil]
    rw [accessLists_eq, List.range_succ, List.map_append, List.map_singleton,
      List.dropLast_concat, List.take_length]

/-- The slots that a list of a given extent is spelled from. -/
def Outline.reached (l : Outline) (e : Extent) : List Slot := l.required ++ l.optional.take e.count

/-- The list of a given extent. -/
def Outline.listOf (defaultType : String) (s : Setting) (l : Outline) (e : Extent) :
    List Parameter :=
  (l.reached e).map (Slot.spell defaultType s) ++ e.literals

theorem Outline.length_listOf (defaultType : String) (s : Setting) (l : Outline) (e : Extent) :
    (l.listOf defaultType s e).length = (l.reached e).length + e.literals.length := by
  simp [Outline.listOf]

theorem Outline.lists_parameterSet (defaultType : String) (s : Setting) (l : Outline) :
    (l.parameterSet defaultType s).lists =
      (extents s.shape l.access l.optional.length).map (l.listOf defaultType s) := by
  simp [Outline.parameterSet, Draft.lists_eq, Outline.draft, Outline.listOf, Outline.reached]

/-- Every list spells a prefix of the slots. -/
theorem Outline.reached_eq_take {l : Outline} (h : l.slots = l.required ++ l.optional)
    (e : Extent) : l.reached e = l.slots.take (l.required.length + e.count) := by
  rw [Outline.reached, h, List.take_length_add_append]

/-- The extents reach over some of the optional slots with nothing behind them, or over all of them
with the literals of an access, if there is one. -/
theorem mem_extents_iff {shape : Shape} {access : Bool} {count : Nat} {e : Extent} :
    e ∈ extents shape access count ↔
      e.count < count ∧ e.literals = [] ∨
        e.count = count ∧ if access then e.literals ∈ accessLists shape [] else e.literals = [] := by
  obtain ⟨k, literals⟩ := e
  cases access with
  | true => simp [extents, List.mem_append, eq_comm, and_comm]
  | false =>
    simp only [extents, Bool.false_eq_true, ↓reduceIte, List.mem_map, List.mem_range,
      Extent.mk.injEq, ← or_and_right, Nat.lt_succ_iff_lt_or_eq]
    simp [eq_comm]

theorem count_le_of_mem_extents {shape : Shape} {access : Bool} {count : Nat} {e : Extent}
    (h : e ∈ extents shape access count) : e.count ≤ count := by
  rcases mem_extents_iff.mp h with ⟨hlt, -⟩ | ⟨heq, -⟩ <;> omega

/-- The literals of an extent, if there are any, are those of an access. -/
theorem literals_of_mem_extents {shape : Shape} {access : Bool} {count : Nat} {e : Extent}
    (h : e ∈ extents shape access count) : e.literals = [] ∨ e.literals ∈ accessLists shape [] := by
  rcases mem_extents_iff.mp h with ⟨-, hnil⟩ | ⟨-, hliterals⟩
  · exact .inl hnil
  · cases access with
    | false => exact .inl hliterals
    | true => exact .inr hliterals

/-- Only the lists of all optional slots have literals. -/
theorem count_of_mem_extents {shape : Shape} {access : Bool} {count : Nat} {e : Extent}
    (h : e ∈ extents shape access count) : e.literals = [] ∨ e.count = count := by
  rcases mem_extents_iff.mp h with ⟨-, hnil⟩ | ⟨heq, -⟩
  · exact .inl hnil
  · exact .inr heq

theorem exists_mem_accessLists (shape : Shape) : ∃ literals, literals ∈ accessLists shape [] := by
  cases shape <;> exact ⟨_, List.mem_cons_self⟩

/-- Some extent reaches over each number of optional slots. -/
theorem exists_mem_extents (shape : Shape) (access : Bool) {k count : Nat} (h : k ≤ count) :
    ∃ e ∈ extents shape access count, e.count = k := by
  rcases Nat.lt_or_eq_of_le h with hlt | rfl
  · exact ⟨⟨k, []⟩, mem_extents_iff.mpr (.inl ⟨hlt, rfl⟩), rfl⟩
  · obtain ⟨literals, hliterals⟩ := exists_mem_accessLists shape
    refine ⟨⟨k, if access then literals else []⟩, mem_extents_iff.mpr (.inr ⟨rfl, ?_⟩), rfl⟩
    cases access <;> simp [hliterals]

/-- The literals of an access come in growing numbers. -/
theorem pairwise_length_accessLists (shape : Shape) :
    ((accessLists shape []).map List.length).Pairwise (· < ·) := by
  cases shape <;> decide

/-- Later extents reach further. -/
theorem pairwise_extents (shape : Shape) (access : Bool) (count : Nat) :
    (extents shape access count).Pairwise fun e e' =>
      e.count + e.literals.length < e'.count + e'.literals.length := by
  have hrange : ∀ n, ((List.range n).map fun k => (⟨k, []⟩ : Extent)).Pairwise fun e e' =>
      e.count + e.literals.length < e'.count + e'.literals.length := by
    intro n
    rw [List.pairwise_map]
    exact List.pairwise_lt_range
  unfold extents
  cases access with
  | false => exact hrange _
  | true =>
    refine List.pairwise_append.mpr ⟨hrange count, ?_, ?_⟩
    · have hliterals := List.pairwise_map.mp (pairwise_length_accessLists shape)
      exact List.pairwise_map.mpr (hliterals.imp fun h => Nat.add_lt_add_left h count)
    · intro e he e' he'
      obtain ⟨k, hk, rfl⟩ := List.mem_map.mp he
      obtain ⟨literals, -, rfl⟩ := List.mem_map.mp he'
      have hlt := List.mem_range.mp hk
      simp only [List.length_nil]
      omega

/-- The lists of one spelling grow. -/
theorem Outline.pairwise_length_lists (defaultType : String) (s : Setting) (l : Outline) :
    ((l.parameterSet defaultType s).lists.map List.length).Pairwise (· < ·) := by
  have hlength : ∀ e ∈ extents s.shape l.access l.optional.length,
      (l.listOf defaultType s e).length = l.required.length + (e.count + e.literals.length) := by
    intro e he
    have hcount := count_le_of_mem_extents he
    rw [Outline.length_listOf, Outline.reached, List.length_append, List.length_take]
    omega
  simp only [Outline.lists_parameterSet, List.map_map, Function.comp_def]
  rw [List.map_congr_left hlength, List.pairwise_map]
  exact (pairwise_extents _ _ _).imp fun h => Nat.add_lt_add_left h _

end SpirvBindings.Expansion
