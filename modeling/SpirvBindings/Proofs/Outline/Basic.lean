import Mathlib.Data.List.Basic
import SpirvBindings.Expansion.Parameters

/-! The outline of a signature: the operands that become parameters, each with what its parameter
is made from and with its final name, and whether a memory access extends the longest list. An
outline is fixed by the type map and the instruction. The shape, the operand type and the variant
only decide how an outline is spelled, and the variant alone decides whether some operand stops
the expansion first. Proved: the parameters of an instruction are its spelled outline unless an
operand stops them. -/

namespace SpirvBindings

/-- The type of an entry at a variant. Past the end of the overloads it is the type without
overloads. -/
def TypeEntry.typeAt (e : TypeEntry) (variant : Nat) : String :=
  (e.overloads[variant]?).getD e.type

theorem TypeEntry.typeAt_of_select {e : TypeEntry} {variant : Nat} {type : String}
    (h : e.select variant = .ok type) : e.typeAt variant = type := by
  unfold TypeEntry.select at h
  split at h
  next hempty =>
    cases h
    simp [TypeEntry.typeAt, List.isEmpty_iff.mp hempty]
  next =>
    split at h
    next t ht => cases h; simp [TypeEntry.typeAt, ht]
    next => cases h

theorem TypeEntry.resolve_of_select {e : TypeEntry} {variant : Nat} {type : String}
    (h : e.select variant = .ok type) :
    e.resolve variant = .ok ⟨type, e.isGeneric type, e.isConst, e.attributes⟩ := by
  simp only [TypeEntry.resolve, h]
  rfl

theorem TypeEntry.resolve_of_select_error {e : TypeEntry} {variant : Nat} {x : VariantOutOfRange}
    (h : e.select variant = .error x) : e.resolve variant = .error x := by
  simp only [TypeEntry.resolve, h]
  rfl

namespace Expansion

/-! ### Slots -/

/-- The name of the parameter that a rule makes, before it is made fresh. -/
def Rule.rawName (r : Rule) (o : Operand) : String :=
  match r with
  | .scope => Naming.scopeName o.rawName
  | .pointer => Naming.lowerFirst (Naming.strip o.rawName)
  | _ => Naming.parameterName o.rawName

/-- The parameter that a rule makes under a given name. -/
def Rule.spell (defaultType : String) (s : Setting) (r : Rule) (name : String) : Parameter :=
  match r with
  | .memoryAccess | .literal => .marked literalMark defaultType name
  | .defaultType | .scope => .plain defaultType name
  | .operandType => .plain s.operandType name
  | .bool => .plain "bool" name
  | .pointer =>
    match s.shape with
    | .reference => .marked referenceMark (pointerType s.shape s.operandType) name
    | _ => .plain (pointerType s.shape s.operandType) name

/-- What the parameter of an operand is made from: an entry of the type map, or else a rule. -/
inductive Source
  | entry (e : TypeEntry)
  | rule (r : Rule)
  deriving DecidableEq, Repr

namespace Source

def rawName (o : Operand) : Source → String
  | .entry _ => Naming.parameterName o.rawName
  | .rule r => r.rawName o

/-- An optional memory access makes no parameter of its own. -/
def isAccess (o : Operand) : Source → Bool
  | .rule .memoryAccess => o.isOptional
  | _ => false

def isPointer : Source → Bool
  | .rule .pointer => true
  | _ => false

/-- The source for an operand. An operand that stops the expansion may have none. -/
def ofOperand? (m : TypeMap) (i : Instruction) (o : Operand) : Option Source :=
  match m.entryOfOperand? i o with
  | some e => some (.entry e)
  | none =>
    match Rule.ofOperand o with
    | .ok r => some (.rule r)
    | .error _ => none

end Source

/-- An operand that becomes a parameter. -/
structure Slot where
  operand : Operand
  source : Source
  name : String
  deriving DecidableEq, Repr

namespace Slot

def spell (defaultType : String) (s : Setting) (slot : Slot) : Parameter :=
  match slot.source with
  | .entry e => ⟨e.attributes, e.isConst, e.typeAt s.variant, slot.name, none⟩
  | .rule r => r.spell defaultType s slot.name

/-- Notes the type of a mapped slot if it is a generic name of several letters. -/
def note (variant : Nat) (names : List String) (slot : Slot) : List String :=
  match slot.source with
  | .entry e =>
    let type := e.typeAt variant
    if e.isGeneric type && 1 < type.utf8ByteSize && ! names.contains type then names ++ [type]
    else names
  | .rule _ => names

end Slot

/-! ### Outlines -/

structure Outline where
  slots : List Slot
  access : Bool
  deriving DecidableEq, Repr

namespace Outline

def empty : Outline := ⟨[], false⟩

def required (l : Outline) : List Slot := l.slots.filter (! ·.operand.isOptional)

def optional (l : Outline) : List Slot := l.slots.filter (·.operand.isOptional)

/-- The slot that an operand gets behind the slots that are there. -/
def slotFor (l : Outline) (o : Operand) (source : Source) : Slot :=
  ⟨o, source, freshName (l.slots.map (·.name)) (source.rawName o)⟩

/-- Takes in one operand. -/
def take (m : TypeMap) (i : Instruction) (l : Outline) (o : Operand) : Outline :=
  match Source.ofOperand? m i o with
  | none => l
  | some source =>
    if source.isAccess o then { l with access := true }
    else { l with slots := l.slots ++ [l.slotFor o source] }

/-- What stops the expansion at an operand. -/
def stop? (m : TypeMap) (i : Instruction) (variant : Nat) (l : Outline) (o : Operand) :
    Option Stop :=
  match unsupportedQuantifier? o with
  | some reason => some (.skipped reason)
  | none =>
    if l.access || (! o.isOptional && l.slots.any (·.operand.isOptional)) then
      some (.skipped (.requiredAfterOptional o.kind))
    else
      match m.entryOfOperand? i o with
      | some e =>
        match e.select variant with
        | .ok _ => none
        | .error x => some (.outOfRange x)
      | none =>
        match Rule.ofOperand o with
        | .ok _ => none
        | .error reason => some (.skipped reason)

/-- What stops the expansion at the first operand that does. -/
def firstStop? (m : TypeMap) (i : Instruction) (variant : Nat) : Outline → List Operand →
    Option Stop
  | _, [] => none
  | l, o :: os => (l.stop? m i variant o).or (firstStop? m i variant (l.take m i o) os)

/-- The draft that an outline is spelled as. -/
def draft (defaultType : String) (s : Setting) (l : Outline) : Draft where
  required := l.required.map (Slot.spell defaultType s)
  optional := l.optional.map (Slot.spell defaultType s)
  access := l.access
  used := l.slots.map (·.name)
  guarded := s.shape == .pointerTemplate && l.slots.any (·.source.isPointer)
  generics := l.slots.foldl (Slot.note s.variant) []

end Outline

/-! ### Drafts are spelled outlines -/

theorem Draft.outOfPlace?_draft (defaultType : String) (s : Setting) (l : Outline) (o : Operand) :
    (l.draft defaultType s).outOfPlace? o =
      if l.access || (! o.isOptional && l.slots.any (·.operand.isOptional)) then
        some (.requiredAfterOptional o.kind)
      else none := by
  have hopt : (l.draft defaultType s).optional.isEmpty = ! l.slots.any (·.operand.isOptional) := by
    rw [Bool.eq_iff_iff]
    simp [Outline.draft, Outline.optional, List.filter_eq_nil_iff]
  simp only [Draft.outOfPlace?, hopt, Bool.not_not]
  rfl

/-- Adding a parameter to a spelled outline spells the outline with one more slot. -/
theorem Draft.add_draft (defaultType : String) (s : Setting) (l : Outline) (o : Operand)
    (source : Source) (parameter : String → Parameter)
    (h : ∀ name, parameter name = Slot.spell defaultType s ⟨o, source, name⟩) :
    (l.draft defaultType s).add o (source.rawName o) parameter =
      { { l with slots := l.slots ++ [l.slotFor o source] }.draft defaultType s with
        guarded := (l.draft defaultType s).guarded
        generics := (l.draft defaultType s).generics } := by
  by_cases ho : o.isOptional
  · simp [Draft.add, Outline.draft, Outline.required, Outline.optional, Outline.slotFor, h, ho]
  · simp [Draft.add, Outline.draft, Outline.required, Outline.optional, Outline.slotFor, h, ho]

theorem Draft.noteGeneric_eq (d : Draft) (slot : Slot) (variant : Nat) (e : TypeEntry)
    (h : slot.source = .entry e) :
    d.noteGeneric
        ⟨e.typeAt variant, e.isGeneric (e.typeAt variant), e.isConst, e.attributes⟩ =
      { d with generics := slot.note variant d.generics } := by
  simp only [Draft.noteGeneric, Slot.note, h]
  split <;> rfl

theorem Draft.addMapped_draft (defaultType : String) (s : Setting) (l : Outline) (o : Operand)
    (e : TypeEntry) :
    (l.draft defaultType s).addMapped o
        ⟨e.typeAt s.variant, e.isGeneric (e.typeAt s.variant), e.isConst, e.attributes⟩ =
      { l with slots := l.slots ++ [l.slotFor o (.entry e)] }.draft defaultType s := by
  have hadd := Draft.add_draft defaultType s l o (.entry e)
    (fun name => ⟨e.attributes, e.isConst, e.typeAt s.variant, name, none⟩) (fun _ => rfl)
  have hcomm : ∀ (d : Draft) (g : List String) (n : String) (p : String → Parameter),
      { d with generics := g }.add o n p = { d.add o n p with generics := g } := by
    intro d g n p
    simp only [Draft.add]
    split <;> rfl
  rw [Draft.addMapped, Draft.noteGeneric_eq _ (l.slotFor o (.entry e)) _ _ rfl, hcomm]
  simp only [Source.rawName] at hadd
  rw [hadd]
  simp [Outline.draft, Source.isPointer, Outline.slotFor]

/-- A rule that is no optional access adds the parameter it spells, and a pointer of its own type
guards the signature. -/
theorem Draft.addByRule_eq (d : Draft) (defaultType : String) (s : Setting) (o : Operand)
    (r : Rule) (h : (Source.rule r).isAccess o = false) :
    d.addByRule defaultType s o r =
      { d.add o (r.rawName o) (r.spell defaultType s) with
        guarded := d.guarded || (s.shape == .pointerTemplate && (Source.rule r).isPointer) } := by
  have hadd : ∀ (n : String) (p : String → Parameter),
      d.add o n p = { d.add o n p with guarded := d.guarded || false } := by
    intro n p
    simp only [Draft.add, Bool.or_false]
    split <;> rfl
  cases r with
  | memoryAccess =>
    have ho : o.isOptional = false := h
    simp only [Draft.addByRule, ho, Source.isPointer, Bool.and_false]
    exact hadd _ _
  | pointer =>
    obtain ⟨shape, type, variant⟩ := s
    cases shape with
    | reference => exact hadd _ _
    | pointerTemplate =>
      exact congrArg (fun g => { d.add o _ (.plain pointerTemplate) with guarded := g })
        (Bool.or_true d.guarded).symm
    | physical => exact hadd _ _
  | _ =>
    simp only [Draft.addByRule, Source.isPointer, Bool.and_false]
    exact hadd _ _

theorem Draft.addByRule_draft (defaultType : String) (s : Setting) (l : Outline) (o : Operand)
    (r : Rule) (h : (Source.rule r).isAccess o = false) :
    (l.draft defaultType s).addByRule defaultType s o r =
      { l with slots := l.slots ++ [l.slotFor o (.rule r)] }.draft defaultType s := by
  have hadd := Draft.add_draft defaultType s l o (.rule r) (r.spell defaultType s) (fun _ => rfl)
  simp only [Source.rawName] at hadd
  rw [Draft.addByRule_eq _ _ _ _ _ h, hadd]
  simp [Outline.draft, Outline.slotFor, Slot.note, Bool.and_or_distrib_left]

theorem Draft.addByRule_access (d : Draft) (defaultType : String) (s : Setting) (o : Operand)
    (r : Rule) (h : (Source.rule r).isAccess o = true) :
    d.addByRule defaultType s o r = { d with access := true } := by
  cases r <;> simp_all [Source.isAccess, Draft.addByRule]

/-- One operand: what stops a draft is what stops its outline, and else both take it in. -/
theorem place_draft (m : TypeMap) (i : Instruction) (s : Setting) (l : Outline) (o : Operand) :
    place m i s (l.draft m.defaultType s) o =
      match l.stop? m i s.variant o with
      | some stop => .error stop
      | none => .ok ((l.take m i o).draft m.defaultType s) := by
  simp only [place, Outline.stop?, TypeMap.resolveOperand, Draft.outOfPlace?_draft]
  cases unsupportedQuantifier? o with
  | some reason => rfl
  | none =>
    simp only
    by_cases hplace : (l.access || (! o.isOptional && l.slots.any (·.operand.isOptional))) = true
    · simp only [hplace, ↓reduceIte]
    simp only [hplace]
    cases he : m.entryOfOperand? i o with
    | some e =>
      cases ht : e.select s.variant with
      | ok type =>
        have hmapped := Draft.addMapped_draft m.defaultType s l o e
        rw [TypeEntry.typeAt_of_select ht] at hmapped
        simp [TypeEntry.resolve_of_select ht, Outline.take, Source.ofOperand?, he, ht,
          Source.isAccess, hmapped]
      | error x => simp [TypeEntry.resolve_of_select_error ht, ht]
    | none =>
      cases hr : Rule.ofOperand o with
      | error reason => rfl
      | ok r =>
        cases ha : (Source.rule r).isAccess o with
        | true =>
          simp [Outline.take, Source.ofOperand?, he, hr, ha, Draft.addByRule_access _ _ _ _ _ ha]
          rfl
        | false =>
          simp [Outline.take, Source.ofOperand?, he, hr, ha, Draft.addByRule_draft _ _ _ _ _ ha]

/-- All operands, by induction on those that are left. -/
theorem foldlM_place_draft (m : TypeMap) (i : Instruction) (s : Setting) (os : List Operand)
    (l : Outline) :
    os.foldlM (place m i s) (l.draft m.defaultType s) =
      match l.firstStop? m i s.variant os with
      | some stop => .error stop
      | none => .ok ((os.foldl (Outline.take m i) l).draft m.defaultType s) := by
  induction os generalizing l with
  | nil => rfl
  | cons o os ih =>
    rw [List.foldlM_cons, place_draft, Outline.firstStop?]
    cases l.stop? m i s.variant o with
    | some stop => rfl
    | none => exact ih (l.take m i o)

/-! ### The outline of an instruction -/

/-- The outline of an instruction, as far as its operands have sources. -/
def outline (m : TypeMap) (i : Instruction) : Outline := i.arguments.foldl (Outline.take m i) .empty

/-- What stops the expansion of an instruction at a variant. -/
def stop? (m : TypeMap) (i : Instruction) (variant : Nat) : Option Stop :=
  Outline.empty.firstStop? m i variant i.arguments

def Outline.parameterSet (defaultType : String) (s : Setting) (l : Outline) : ParameterSet :=
  let d := l.draft defaultType s
  ⟨d.lists s.shape, d.conditions, d.generics⟩

/-- The parameters of an instruction are its spelled outline, unless an operand stops them. Neither
the outline nor what stops it looks at the shape or at the operand type. -/
theorem parameters_eq (m : TypeMap) (i : Instruction) (s : Setting) :
    parameters m i s =
      match stop? m i s.variant with
      | some stop => .error stop
      | none => .ok ((outline m i).parameterSet m.defaultType s) := by
  have hfold := foldlM_place_draft m i s i.arguments .empty
  have hempty : Outline.empty.draft m.defaultType s = .empty := by
    simp [Outline.draft, Outline.empty, Outline.required, Outline.optional, Draft.empty]
  rw [hempty] at hfold
  rw [parameters, hfold, stop?]
  cases Outline.empty.firstStop? m i s.variant i.arguments <;> rfl

end Expansion

end SpirvBindings
