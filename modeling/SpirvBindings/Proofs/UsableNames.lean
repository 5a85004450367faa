import SpirvBindings.Proofs.FanOut

/-! Names that can be used. An operand name with a letter, a digit, an underscore or a hyphen
anywhere in it is stripped to a word of identifier characters. Each way to name a parameter turns
such a word into an identifier that starts with a small letter or an underscore and is not reserved,
and a number behind a usable name leaves it usable, since no reserved word ends in a digit. So all
parameters of an instruction have usable names. A parameter name is its own parameter name, and what
is stripped from an operand name makes no difference wherever it stands. -/

namespace SpirvBindings

open Identifier

namespace Naming

/-- An identifier that can name a parameter: it starts with a small letter or an underscore and is
not reserved. -/
structure IsUsable (name : String) : Prop where
  chars : ∀ c ∈ name.toList, isChar c
  start : ∃ c ∈ name.toList.head?, c.isLower ∨ c = '_'
  unreserved : ¬ isReserved name

theorem isUsable_iff {name : String} : IsUsable name ↔
    name.toList.all isChar ∧ name.toList.head?.any (fun c => c.isLower || c == '_') ∧
      ! isReserved name := by
  have hparts : IsUsable name ↔ (∀ c ∈ name.toList, isChar c) ∧
      (∃ c ∈ name.toList.head?, c.isLower ∨ c = '_') ∧ ¬ isReserved name :=
    ⟨fun h => ⟨h.chars, h.start, h.unreserved⟩, fun h => ⟨h.1, h.2.1, h.2.2⟩⟩
  rw [hparts]
  simp [Option.any_eq_true]

instance (name : String) : Decidable (IsUsable name) := decidable_of_iff _ isUsable_iff.symm

/-- Something is left of a text when it is stripped. -/
def IsNamed (raw : String) : Prop := ∃ c ∈ raw.toList, isChar c ∨ c = '-'

instance (raw : String) : Decidable (IsNamed raw) :=
  decidable_of_iff (raw.toList.any fun c => isChar c || c == '-') (by simp [IsNamed])

/-! ### Characters -/

theorem isChar_toLower {c : Char} (h : isChar c) : isChar c.toLower := by
  by_cases hupper : c.isUpper
  · have halpha : c.isAlpha := by simp [Char.isAlpha, hupper]
    rw [← Char.isLower_toLower_eq_isAlpha] at halpha
    simp [isChar, Char.isAlphanum, Char.isAlpha, halpha]
  · rwa [Char.toLower_eq_of_not_isUpper hupper]

theorem isLower_or_eq_underscore {c : Char} (h : isChar c) (hupper : ¬ c.isUpper)
    (hdigit : ¬ c.isDigit) : c.isLower ∨ c = '_' := by
  simpa [isChar, Char.isAlphanum, Char.isAlpha, hupper, hdigit] using h

theorem isChar_of_strippedChar?_eq_some {c d : Char} (h : strippedChar? c = some d) :
    isChar d := by
  unfold strippedChar? at h
  split at h
  · cases h
    decide
  · split at h
    next hchar =>
      cases h
      exact hchar
    next => cases h

theorem exists_strippedChar?_iff {c : Char} :
    (∃ d, strippedChar? c = some d) ↔ isChar c ∨ c = '-' := by
  unfold strippedChar?
  split
  next hhyphen => simp [hhyphen]
  next hhyphen => split <;> simp_all

/-! ### Stripped names -/

theorem isChar_of_mem_strip (raw : String) : ∀ c ∈ (strip raw).toList, isChar c := by
  intro c hc
  rw [toList_strip] at hc
  obtain ⟨_, -, hstripped⟩ := List.mem_filterMap.mp hc
  exact isChar_of_strippedChar?_eq_some hstripped

theorem strip_ne_empty_iff {raw : String} : strip raw ≠ "" ↔ IsNamed raw := by
  have hempty : strip raw = "" ↔ ∀ c ∈ raw.toList, strippedChar? c = none := by
    rw [← String.toList_inj, toList_strip]
    exact List.filterMap_eq_nil_iff
  simp only [ne_eq, hempty, IsNamed, ← exists_strippedChar?_iff, not_forall,
    Option.ne_none_iff_exists', exists_prop]

/-- The stripped name of a named text has a first character, and all are of identifiers. -/
theorem exists_strip_eq_cons {raw : String} (h : IsNamed raw) :
    ∃ first rest, (strip raw).toList = first :: rest ∧ isChar first ∧ ∀ c ∈ rest, isChar c := by
  have hchars := isChar_of_mem_strip raw
  cases hraw : (strip raw).toList with
  | nil => exact absurd (String.toList_eq_nil_iff.mp hraw) (strip_ne_empty_iff.mpr h)
  | cons first rest =>
    rw [hraw, List.forall_mem_cons] at hchars
    exact ⟨first, rest, rfl, hchars⟩

/-- A word of identifier characters is its own stripped name. -/
theorem strip_eq_self {name : String} (h : ∀ c ∈ name.toList, isChar c) : strip name = name := by
  have hself : ∀ c ∈ name.toList, strippedChar? c = some c := by
    intro c hc
    have hhyphen : c ≠ '-' := by
      rintro rfl
      exact absurd (h _ hc) (by decide)
    simp [strippedChar?, hhyphen, h c hc]
  rw [← String.toList_inj, toList_strip, List.filterMap_congr hself, List.filterMap_some]

/-! ### Usable names -/

theorem IsUsable.exists_head {name : String} (h : IsUsable name) :
    ∃ c rest, name.toList = c :: rest ∧ ¬ c.isUpper ∧ ¬ c.isDigit := by
  obtain ⟨c, hc, hstart⟩ := h.start
  obtain ⟨rest, hname⟩ := List.head?_eq_some_iff.mp hc
  refine ⟨c, rest, hname, ?_⟩
  rcases hstart with hlower | rfl
  · unfold Char.isLower at hlower
    unfold Char.isUpper Char.isDigit
    grind
  · decide

theorem head?_ne_underscore_of_isReserved {name : String} (h : isReserved name) :
    name.toList.head? ≠ some '_' := by
  have hall : reservedWords.all fun word => word.toList.head? != some '_' := by decide +kernel
  simpa using List.all_eq_true.mp hall name (by simpa [isReserved] using h)

theorem not_isDigit_getLast_of_isReserved {name : String} (h : isReserved name) :
    ∀ c ∈ name.toList.getLast?, ¬ c.isDigit := by
  have hall : reservedWords.all fun word => word.toList.getLast?.all (! ·.isDigit) := by
    decide +kernel
  have hlast := List.all_eq_true.mp hall name (by simpa [isReserved] using h)
  simpa [Option.all_eq_true] using hlast

/-- A word that does not start with a capital is usable once it is escaped. -/
theorem isUsable_escapeReserved {name : String} (hchars : ∀ c ∈ name.toList, isChar c)
    (hstart : ∃ c ∈ name.toList.head?, ¬ c.isUpper) : IsUsable (escapeReserved name) := by
  obtain ⟨c, hc, hupper⟩ := hstart
  unfold escapeReserved
  split
  next =>
    refine ⟨?_, ⟨'_', by simp, .inr rfl⟩, ?_⟩
    · rw [String.toList_append, List.forall_mem_append]
      exact ⟨List.all_eq_true.mp (by decide), hchars⟩
    · intro hmem
      have hstarts : ("_" ++ name).toList.head? = some '_' := by simp
      exact head?_ne_underscore_of_isReserved hmem hstarts
  next hkept =>
    rw [Bool.or_eq_true, not_or] at hkept
    have hdigit : ¬ c.isDigit := by
      have hhead := hkept.2
      rwa [startsWithDigit, Option.mem_def.mp hc] at hhead
    have hmem : c ∈ name.toList := List.mem_of_mem_head? hc
    exact ⟨hchars, ⟨c, hc, isLower_or_eq_underscore (hchars c hmem) hupper hdigit⟩, hkept.1⟩

theorem isUsable_parameterName (raw : String) (h : IsNamed raw) : IsUsable (parameterName raw) := by
  obtain ⟨first, rest, hraw, hfirst, hrest⟩ := exists_strip_eq_cons h
  have hlower : (lowerFirst (strip raw)).toList = first.toLower :: rest := by
    simp [lowerFirst, hraw]
  apply isUsable_escapeReserved
  · rw [hlower]
    exact List.forall_mem_cons.mpr ⟨isChar_toLower hfirst, hrest⟩
  · rw [hlower]
    exact ⟨first.toLower, rfl, by simp⟩

theorem isUsable_scopeName (raw : String) (h : IsNamed raw) : IsUsable (scopeName raw) := by
  obtain ⟨first, rest, hraw, hfirst, hrest⟩ := exists_strip_eq_cons h
  have hlower : (lower (strip raw) ++ "Scope").toList =
      first.toLower :: (rest.map Char.toLower ++ "Scope".toList) := by
    simp [lower, hraw]
  apply isUsable_escapeReserved
  · rw [hlower, List.forall_mem_cons, List.forall_mem_append, List.forall_mem_map]
    exact ⟨isChar_toLower hfirst, fun c hc => isChar_toLower (hrest c hc),
      List.all_eq_true.mp (by decide)⟩
  · rw [hlower]
    exact ⟨first.toLower, rfl, by simp⟩

/-- A usable name is its own parameter name. -/
theorem IsUsable.parameterName_eq {name : String} (h : IsUsable name) :
    parameterName name = name := by
  obtain ⟨c, rest, hname, hupper, hdigit⟩ := h.exists_head
  have hlower : lowerFirst name = name := by
    rw [← String.toList_inj]
    simp only [lowerFirst, String.toList_ofList, hname, List.modifyHead_cons]
    rw [Char.toLower_eq_of_not_isUpper hupper]
  have hdigit' : ¬ startsWithDigit name := by simpa [startsWithDigit, hname] using hdigit
  rw [parameterName, strip_eq_self h.chars, hlower, escapeReserved]
  simp [h.unreserved, hdigit']

theorem parameterName_parameterName (raw : String) :
    parameterName (parameterName raw) = parameterName raw := by
  by_cases h : IsNamed raw
  · exact (isUsable_parameterName raw h).parameterName_eq
  · have hempty : strip raw = "" := by
      by_contra hne
      exact h (strip_ne_empty_iff.mp hne)
    have hname : parameterName raw = "" := by
      rw [parameterName, hempty]
      decide
    rw [hname]
    decide

/-- What is stripped from a name makes no difference anywhere in it. -/
theorem strip_insert {quoting : String} (h : ¬ IsNamed quoting) (before after : String) :
    strip (before ++ quoting ++ after) = strip (before ++ after) := by
  have hempty : strip quoting = "" := by
    by_contra hne
    exact h (strip_ne_empty_iff.mp hne)
  rw [strip_append, strip_append, strip_append, hempty, String.append_empty]

end Naming

namespace Expansion

open Naming

variable {m : TypeMap} {i : Instruction} {s : Setting}

/-! ### Names of parameters -/

/-- No reserved word ends in a digit, so that a number makes no name reserved. -/
theorem isUsable_numbered {name : String} (h : IsUsable name) (k : Nat) :
    IsUsable (numbered name k) := by
  cases k with
  | zero => exact h
  | succ k =>
    have htext : (numbered name (k + 1)).toList = name.toList ++ Nat.toDigits 10 (k + 2) := by
      simp [numbered]
    have hdigits : ∀ c ∈ Nat.toDigits 10 (k + 2), c.isDigit := fun c hc =>
      Nat.isDigit_of_mem_toDigits (by decide) (by decide) hc
    obtain ⟨c, hc, hstart⟩ := h.start
    refine ⟨?_, ⟨c, ?_, hstart⟩, ?_⟩
    · rw [htext, List.forall_mem_append]
      refine ⟨h.chars, fun c hc => ?_⟩
      simp [isChar, Char.isAlphanum, hdigits c hc]
    · rw [htext, Option.mem_def, List.head?_append, Option.mem_def.mp hc]
      rfl
    · intro hreserved
      have hlast := List.getLast_mem (Nat.toDigits_ne_nil (n := k + 2) (b := 10))
      refine not_isDigit_getLast_of_isReserved hreserved _ ?_ (hdigits _ hlast)
      rw [htext, List.getLast?_append_of_ne_nil _ Nat.toDigits_ne_nil, Option.mem_def,
        List.getLast?_eq_some_getLast]

theorem isUsable_freshName (used : List String) {name : String} (h : IsUsable name) :
    IsUsable (freshName used name) := by
  obtain ⟨-, k, hk⟩ := freshName_spec used name
  rw [hk]
  exact isUsable_numbered h k

/-- The rule of a pointer is for the one name that is stripped to `Pointer`. -/
theorem strip_rawName_of_pointer {o : Operand} (h : Rule.ofOperand o = .ok .pointer) :
    strip o.rawName = "Pointer" := by
  unfold Rule.ofOperand at h
  split at h
  case h_1 =>
    cases hname : o.name? with
    | none =>
      have hnone : Rule.ofReference? (strippedName o) = none := by
        rw [strippedName, hname]
        rfl
      rw [hnone] at h
      cases h
    | some name =>
      have hstripped : strippedName o = strip o.rawName := by
        simp [strippedName, Operand.rawName, hname]
      rw [← hstripped]
      cases hrule : Rule.ofReference? (strippedName o) with
      | none =>
        rw [hrule] at h
        cases h
      | some rule =>
        rw [hrule] at h
        cases h
        unfold Rule.ofReference? at hrule
        split at hrule
        next hpointer => exact hpointer
        all_goals cases hrule
  all_goals simp at h

/-- Whatever an operand is made from, its name is usable before it is numbered. -/
theorem Source.isUsable_rawName {o : Operand} {source : Source}
    (h : Source.ofOperand? m i o = some source) (hnamed : IsNamed o.rawName) :
    IsUsable (source.rawName o) := by
  cases source with
  | entry e => exact isUsable_parameterName o.rawName hnamed
  | rule r =>
    cases r with
    | scope => exact isUsable_scopeName o.rawName hnamed
    | pointer =>
      have hpointer := strip_rawName_of_pointer (Source.ofOperand?_eq_rule_iff.mp h).2
      change IsUsable (lowerFirst (strip o.rawName))
      rw [hpointer]
      decide +kernel
    | _ => exact isUsable_parameterName o.rawName hnamed

theorem isUsable_literal {shape : Shape} {literals : List Parameter}
    (h : literals ∈ accessLists shape []) {p : Parameter} (hp : p ∈ literals) :
    IsUsable p.name := by
  have hall : ∀ shape, (accessLists shape []).all fun literals =>
      literals.all fun p => decide (IsUsable p.name) := by
    intro shape
    cases shape <;> decide +kernel
  simpa using List.all_eq_true.mp (List.all_eq_true.mp (hall shape) literals h) p hp

/-- All slots have usable names if all operands have something to make a name from. -/
theorem Outline.isUsable_name {variant : Nat} {l : Outline}
    (hmade : l.MadeFrom m i variant i.arguments) (hnames : NamedInOrder l.slots)
    (hnamed : ∀ o ∈ i.arguments, IsNamed o.rawName) {slot : Slot} (hslot : slot ∈ l.slots) :
    IsUsable slot.name := by
  obtain ⟨hsource, hno⟩ := hmade.sources slot hslot
  obtain ⟨hoperand, -⟩ := hmade.exists_slot_iff.mp ⟨slot, hslot, rfl, rfl⟩
  obtain ⟨j, hj⟩ := List.getElem?_of_mem hslot
  rw [hnames j slot hj]
  exact isUsable_freshName _ (Source.isUsable_rawName hsource (hnamed _ hoperand))

/-- All parameters of an instruction have usable names, if no operand is named by quoting and
spacing alone. The parameter name of a parameter name is the name itself. An operand name is
stripped part by part, and quoting or spacing within it makes no difference. -/
theorem parameters_named_usably :
    (∀ m i s set, parameters m i s = .ok set → (∀ o ∈ i.arguments, IsNamed o.rawName) →
      ∀ ps ∈ set.lists, ∀ p ∈ ps, IsUsable p.name) ∧
    (∀ raw, parameterName (parameterName raw) = parameterName raw) ∧
    (∀ before after, strip (before ++ after) = strip before ++ strip after) ∧
    ∀ quoting, ¬ IsNamed quoting → ∀ before after,
      strip (before ++ quoting ++ after) = strip (before ++ after) := by
  refine ⟨?_, parameterName_parameterName, strip_append, fun quoting h => strip_insert h⟩
  intro m i s set h hnamed ps hps p hp
  obtain ⟨hstop, rfl⟩ := parameters_eq_ok_iff.mp h
  rw [Outline.lists_parameterSet] at hps
  obtain ⟨e, he, rfl⟩ := List.mem_map.mp hps
  rcases List.mem_append.mp hp with hslot | hliteral
  · have hmade := outline_madeFrom hstop
    obtain ⟨slot, hreached, rfl⟩ := List.mem_map.mp hslot
    rw [Outline.reached_eq_take hmade.ordered] at hreached
    rw [Slot.name_spell]
    exact Outline.isUsable_name hmade (outline_namedInOrder m i) hnamed
      (List.mem_of_mem_take hreached)
  · rcases literals_of_mem_extents he with hnil | hliterals
    · simp [hnil] at hliteral
    · exact isUsable_literal hliterals hliteral

/-- A store whose operand names are reserved, start with a digit or repeat. -/
def awkwardStore : Instruction where
  opname := "OpStore"
  className := "Memory"
  opcode := 62
  operands := [⟨"IdRef", some "'Pointer'", none⟩, ⟨"IdRef", some "'Point'", none⟩,
    ⟨"IdRef", some "'3-D Point'", none⟩, ⟨"IdRef", some "'Object'", none⟩,
    ⟨"IdRef", some "Object", none⟩, ⟨"IdScope", none, none⟩,
    ⟨"MemoryAccess", none, some .optional⟩]
  capabilities := []
  extensions := []
  version? := none

/-- Types for the operands of the store that have no rule. -/
def pointTypes : TypeMap where
  defaultType := "uint32_t"
  classes := []
  instructions := [("OpStore", {
    result? := none
    parameters := [⟨"IdRef", some "Point", "uint32_t", none, false, [], []⟩,
      ⟨"IdRef", some "3_DPoint", "uint32_t", none, false, [], []⟩] })]

theorem awkwardStore_named_usably :
    ∃ set ps, parameters pointTypes awkwardStore ⟨.physical, "T", 0⟩ = .ok set ∧
      (∀ o ∈ awkwardStore.arguments, IsNamed o.rawName) ∧ set.lists = [ps] ∧
        ps.map (·.name) = ["pointer", "_point", "_3_DPoint", "object", "object2", "idscopeScope",
          "__aligned", "__alignment"] ∧
        ∀ p ∈ ps, IsUsable p.name := by
  obtain ⟨set, ps, hset, hlists, hnames⟩ :
      ∃ set ps, parameters pointTypes awkwardStore ⟨.physical, "T", 0⟩ = .ok set ∧
        set.lists = [ps] ∧
          ps.map (·.name) = ["pointer", "_point", "_3_DPoint", "object", "object2", "idscopeScope",
            "__aligned", "__alignment"] := ⟨_, _, rfl, rfl, rfl⟩
  have hnamed : ∀ o ∈ awkwardStore.arguments, IsNamed o.rawName := by decide +kernel
  have husable := parameters_named_usably.1 _ _ _ set hset hnamed
  exact ⟨set, ps, hset, hnamed, hlists, hnames, husable ps (by simp [hlists])⟩

end Expansion

end SpirvBindings
