import Mathlib.Data.List.Pairwise
import SpirvBindings.Header.Generation
import SpirvBindings.Proofs.Outline.Entries
import SpirvBindings.Proofs.Uniqueness.Signatures

/-! When the declarations of an instruction have different signatures. They are made from pairs of a
request and a choice. If no capability, no shape and no overload is listed twice, no pair occurs
twice, and the signatures are different if and only if any two pairs under one guard are told apart
by the result, by a required operand, or by the literals of a physical access. Nothing ensures this:
an instruction without pointers has one signature in all shapes. -/

namespace SpirvBindings

/-! ### Listed once -/

/-- No shape is listed twice for a class or an instruction. -/
structure Policy.ShapesNodup (p : Policy) : Prop where
  classes : ∀ name rule, (name, rule) ∈ p.classes → rule.shapes.Nodup
  instructions : ∀ name rule, (name, rule) ∈ p.instructions →
    ∀ shapes, rule.shapes? = some shapes → shapes.Nodup

/-- No type is listed twice among the overloads of an entry. -/
structure TypeMap.OverloadsNodup (m : TypeMap) : Prop where
  results : ∀ name mapping, (name, mapping) ∈ m.classes ++ m.instructions →
    ∀ e, mapping.result? = some e → e.overloads.Nodup
  parameters : ∀ name mapping, (name, mapping) ∈ m.classes ++ m.instructions →
    ∀ e ∈ mapping.parameters, e.overloads.Nodup

theorem Policy.ShapesNodup.nodup_shapes {p : Policy} (h : p.ShapesNodup) {i : Instruction}
    {s : Strategy} (hs : p.strategy? i = some s) : s.shapes.Nodup := by
  have hclass : ∀ rule, p.classRule? i.className = some rule → rule.shapes.Nodup :=
    fun rule hrule => h.classes _ rule (mem_of_lookup hrule)
  unfold Policy.strategy? at hs
  split at hs
  · cases hs
  · simp only at hs
    split at hs
    next rule hrule =>
      cases hs
      have hlisted := h.instructions _ rule (mem_of_lookup hrule)
      unfold listedStrategy
      cases hshapes : rule.shapes? with
      | some shapes => exact hlisted shapes hshapes
      | none =>
        cases hbyClass : p.classRule? i.className with
        | some byClass => exact hclass byClass hbyClass
        | none => exact List.nodup_singleton _
    next =>
      obtain ⟨rule, hrule, rfl⟩ := Option.map_eq_some_iff.mp hs
      exact hclass rule ((Option.filter_eq_some_iff.mp hrule).1)

theorem TypeMap.OverloadsNodup.nodup_overloads {m : TypeMap} (h : m.OverloadsNodup)
    {i : Instruction} {o : Operand} {e : TypeEntry} (he : m.entryOfOperand? i o = some e) :
    e.overloads.Nodup := by
  obtain ⟨name, mapping, hmapping, hparameter⟩ := TypeMap.exists_mapping_of_entryOfOperand? he
  exact h.parameters name mapping hmapping e hparameter

namespace Expansion

/-! ### Pairs of a request and a choice -/

/-- A concatenation has nothing twice if each part shows what it was made from. -/
theorem nodup_flatMap_of_key {α β : Type} {f : α → List β} {as : List α} (key : β → α)
    (has : as.Nodup) (hf : ∀ a ∈ as, (f a).Nodup) (hkey : ∀ a ∈ as, ∀ b ∈ f a, key b = a) :
    (as.flatMap f).Nodup := by
  refine List.nodup_flatMap.mpr ⟨hf, has.pairwise_of_forall_ne ?_⟩
  intro a ha a' ha' hne b hb hb'
  exact hne ((hkey a ha b hb).symm.trans (hkey a' ha' b hb'))

/-- A concatenation of parts without duplicates has none if the parts are disjoint. -/
theorem nodup_flatMap_iff {α β : Type} {f : α → List β} {as : List α} (has : as.Nodup)
    (hf : ∀ a ∈ as, (f a).Nodup) :
    (as.flatMap f).Nodup ↔ ∀ a ∈ as, ∀ a' ∈ as, a ≠ a' → (f a).Disjoint (f a') := by
  rw [List.nodup_flatMap, and_iff_right hf]
  constructor
  · intro hpairwise a ha a' ha' hne
    have hsymm : Std.Symm (Function.onFun List.Disjoint f) :=
      ⟨fun _ _ h b hb hb' => h hb' hb⟩
    exact hpairwise.forall ha ha' hne
  · intro hdisjoint
    exact has.pairwise_of_forall_ne fun a ha a' ha' hne => hdisjoint a ha a' ha' hne

theorem nodup_elementsOfClass (class? : Option TypeClass) : (elementsOfClass class?).Nodup := by
  cases class? with
  | none => exact List.nodup_singleton _
  | some c =>
    apply List.Nodup.of_map ResolvedType.name
    cases c <;> decide +kernel

theorem nodup_elements {m : TypeMap} {i : Instruction} {r : Request} {variant : Nat} :
    (yield (elements m i r variant)).Nodup := by
  unfold elements
  have hclass := nodup_elementsOfClass (typeClass? i r)
  -- The type letter of a name is not to be evaluated.
  generalize elementsOfClass (typeClass? i r) = types at hclass ⊢
  cases r.resultType? with
  | some text => exact List.nodup_singleton _
  | none =>
    cases m.resolveResult i variant with
    | error x => exact List.nodup_nil
    | ok type? =>
      cases type? with
      | none => exact hclass
      | some type => exact List.nodup_singleton _

theorem nodup_choices {m : TypeMap} {i : Instruction} {r : Request} (h : i.capabilities.Nodup) :
    (choices m i r).Nodup := by
  have hof : ∀ variant element c, c ∈ choicesOf i variant element →
      c.variant = variant ∧ c.element = element := by
    intro variant element c hc
    obtain ⟨guard?, -, hguarded⟩ := List.mem_filterMap.mp hc
    obtain ⟨guarded, -, rfl⟩ := Option.map_eq_some_iff.mp hguarded
    exact ⟨rfl, rfl⟩
  have hnodup : ∀ variant element, (choicesOf i variant element).Nodup := by
    intro variant element
    refine List.Nodup.filterMap ?_ (nodup_guards h)
    intro g g' c hg hg'
    obtain ⟨_, -, rfl⟩ := Option.map_eq_some_iff.mp hg
    obtain ⟨_, -, heq⟩ := Option.map_eq_some_iff.mp hg'
    exact (congrArg Choice.guard? heq).symm
  apply nodup_flatMap_of_key Choice.variant List.nodup_range
  · intro variant _
    apply nodup_flatMap_of_key Choice.element nodup_elements
    · intro element _
      exact hnodup variant element
    · intro element _ c hc
      exact (hof variant element c hc).2
  · intro variant _ c hc
    obtain ⟨element, -, hc⟩ := List.mem_flatMap.mp hc
    exact (hof variant element c hc).1

/-- The pairs that the declarations of an instruction are made from. -/
def pairs (m : TypeMap) (i : Instruction) (rs : List Request) : List (Request × Choice) :=
  rs.flatMap fun r => (choices m i r).map (r, ·)

theorem mem_pairs_iff {m : TypeMap} {i : Instruction} {rs : List Request} {r : Request}
    {c : Choice} : (r, c) ∈ pairs m i rs ↔ r ∈ rs ∧ c ∈ choices m i r := by
  simp [pairs]

theorem nodup_pairs {m : TypeMap} {i : Instruction} {rs : List Request}
    (h : i.capabilities.Nodup) (hrs : rs.Nodup) : (pairs m i rs).Nodup := by
  apply nodup_flatMap_of_key Prod.fst hrs
  · intro r _
    exact (nodup_choices h).map fun _ _ heq => congrArg Prod.snd heq
  · intro r _ x hx
    obtain ⟨c, -, rfl⟩ := List.mem_map.mp hx
    rfl

theorem nodup_requests {s : Strategy} (h : s.shapes.Nodup) : s.requests.Nodup :=
  h.map fun _ _ heq => congrArg Request.shape heq

/-! ### Declarations of all requests -/

theorem declareAll_eq_declared_iff {m : TypeMap} {i : Instruction} {rs : List Request}
    {ds ds' : List Declaration} :
    i.declareAll m ds rs = .ok (.declared ds') ↔
      (∀ r ∈ rs, ∃ more, i.expand r m = .ok (.declarations more)) ∧
        ds' = ds ++ (pairs m i rs).flatMap fun x => x.2.declarations m i x.1 := by
  induction rs generalizing ds with
  | nil => simp [Instruction.declareAll, pairs, eq_comm]
  | cons r rs ih =>
    have hpairs : (pairs m i (r :: rs)).flatMap (fun x => x.2.declarations m i x.1) =
        (choices m i r).flatMap (Choice.declarations m i r) ++
          (pairs m i rs).flatMap fun x => x.2.declarations m i x.1 := by
      simp [pairs, List.flatMap_map]
    rw [List.forall_mem_cons, hpairs, ← List.append_assoc]
    cases hr : i.expand r m with
    | error e => simp [Instruction.declareAll, hr]
    | ok expansion =>
      cases expansion with
      | filtered => simp [Instruction.declareAll, hr]
      | skipped reason => simp [Instruction.declareAll, hr]
      | declarations more =>
        obtain ⟨-, -, -, rfl⟩ := expand_eq_declarations_iff.mp hr
        simp [Instruction.declareAll, hr, ih]

/-- The declarations of an instruction are those of its pairs. Nothing stops a choice. -/
theorem outcome_eq_declared {m : TypeMap} {p : Policy} {i : Instruction} {ds : List Declaration}
    (h : i.outcome p m = .ok (.declared ds)) :
    ∃ s, p.strategy? i = some s ∧
      ds = (pairs m i s.requests).flatMap (fun x => x.2.declarations m i x.1) ∧
        ∀ r ∈ s.requests, ∀ c ∈ choices m i r, stop? m i c.variant = none := by
  unfold Instruction.outcome at h
  cases hs : p.strategy? i with
  | none => simp [hs] at h
  | some s =>
    simp only [hs] at h
    obtain ⟨hexpand, hds⟩ := declareAll_eq_declared_iff.mp h
    refine ⟨s, rfl, by simpa using hds, ?_⟩
    intro r hr
    obtain ⟨more, hmore⟩ := hexpand r hr
    exact (expand_eq_declarations_iff.mp hmore).2.2.1

/-! ### Different signatures -/

/-- The declarations of an instruction have different signatures if and only if two choices under
one guard are always told apart. -/
theorem nodup_signatures_iff {m : TypeMap} {p : Policy} {i : Instruction} {ds : List Declaration}
    (hcapabilities : i.capabilities.Nodup) (hshapes : p.ShapesNodup)
    (hoverloads : m.OverloadsNodup) (h : i.outcome p m = .ok (.declared ds)) :
    (ds.map Declaration.signature).Nodup ↔
      ∃ s, p.strategy? i = some s ∧
        ∀ r ∈ s.requests, ∀ c ∈ choices m i r, ∀ r' ∈ s.requests, ∀ c' ∈ choices m i r',
          (r, c) ≠ (r', c') → c.guard? = c'.guard? → ToldApart m i r c r' c' := by
  obtain ⟨s, hs, rfl, hstop⟩ := outcome_eq_declared h
  have hnodup := nodup_pairs (m := m) hcapabilities (nodup_requests (hshapes.nodup_shapes hs))
  have hoperand : ∀ r ∈ s.requests, r.operandType? = s.operandType? := by
    intro r hr
    obtain ⟨_, -, rfl⟩ := List.mem_map.mp hr
    rfl
  have hapart : ∀ r ∈ s.requests, ∀ c ∈ choices m i r, ∀ r' ∈ s.requests, ∀ c' ∈ choices m i r',
      ((c.signatures m i r).Disjoint (c'.signatures m i r') ↔
        (c.guard? = c'.guard? → ToldApart m i r c r' c')) := by
    intro r hr c hc r' hr' c' hc'
    exact Choice.disjoint_signatures_iff_toldApart (fun o e => hoverloads.nodup_overloads)
      ((hoperand r hr).trans (hoperand r' hr').symm) hc hc' (hstop r hr c hc)
      (hstop r' hr' c' hc')
  have hmap : ((pairs m i s.requests).flatMap fun x => x.2.declarations m i x.1).map
      Declaration.signature = (pairs m i s.requests).flatMap fun x => x.2.signatures m i x.1 :=
    List.map_flatMap
  rw [hmap, nodup_flatMap_iff hnodup fun x _ => x.2.nodup_signatures m i x.1]
  constructor
  · intro hdisjoint
    refine ⟨s, hs, fun r hr c hc r' hr' c' hc' hne => ?_⟩
    rw [← hapart r hr c hc r' hr' c' hc']
    exact hdisjoint (r, c) (mem_pairs_iff.mpr ⟨hr, hc⟩) (r', c') (mem_pairs_iff.mpr ⟨hr', hc'⟩) hne
  · rintro ⟨s', hs', htold⟩ ⟨r, c⟩ hx ⟨r', c'⟩ hx' hne
    rw [hs, Option.some.injEq] at hs'
    subst hs'
    obtain ⟨hr, hc⟩ := mem_pairs_iff.mp hx
    obtain ⟨hr', hc'⟩ := mem_pairs_iff.mp hx'
    exact (hapart r hr c hc r' hr' c' hc').mpr (htold r hr c hc r' hr' c' hc' hne)

/-- A barrier, which has no pointer. -/
def memoryBarrier : Instruction where
  opname := "OpMemoryBarrier"
  className := "Barrier"
  opcode := 225
  operands := [⟨"IdScope", some "Memory", none⟩, ⟨"IdMemorySemantics", some "Semantics", none⟩]
  capabilities := []
  extensions := []
  version? := none

/-- A store through a pointer. -/
def atomicStore : Instruction where
  opname := "OpAtomicStore"
  className := "Atomic"
  opcode := 228
  operands := [⟨"IdRef", some "Pointer", none⟩, ⟨"IdScope", some "Memory", none⟩,
    ⟨"IdMemorySemantics", some "Semantics", none⟩, ⟨"IdRef", some "Value", none⟩]
  capabilities := []
  extensions := []
  version? := none

/-- Barriers and atomic instructions in two shapes. -/
def twoShapes : Policy where
  excludedSuffixes := []
  sections := []
  classes := [("Barrier", ⟨[.reference, .pointerTemplate], false, none⟩),
    ("Atomic", ⟨[.reference, .pointerTemplate], false, none⟩)]
  instructions := []

theorem shapesNodup_twoShapes : twoShapes.ShapesNodup := by
  refine ⟨fun name rule hrule => ?_, fun name rule hrule => by cases hrule⟩
  have hall : ∀ entry ∈ twoShapes.classes, entry.2.shapes.Nodup := by decide +kernel
  exact hall (name, rule) hrule

theorem overloadsNodup_standard : TypeMap.standard.OverloadsNodup := by
  have hall : ∀ entry ∈ TypeMap.standard.classes ++ TypeMap.standard.instructions,
      (∀ e ∈ entry.2.result?, e.overloads.Nodup) ∧ ∀ e ∈ entry.2.parameters, e.overloads.Nodup := by
    decide +kernel
  exact ⟨fun name mapping hmapping e he => (hall (name, mapping) hmapping).1 e he,
    fun name mapping hmapping => (hall (name, mapping) hmapping).2⟩

/-- A barrier has one declaration in both shapes. -/
theorem memoryBarrier_repeated :
    memoryBarrier.capabilities.Nodup ∧ twoShapes.ShapesNodup ∧ TypeMap.standard.OverloadsNodup ∧
      ∃ d, memoryBarrier.outcome twoShapes .standard = .ok (.declared [d, d]) ∧
        ¬ ([d, d].map Declaration.signature).Nodup := by
  refine ⟨List.nodup_nil, shapesNodup_twoShapes, overloadsNodup_standard, ?_⟩
  obtain ⟨d, hd⟩ : ∃ d, memoryBarrier.outcome twoShapes .standard = .ok (.declared [d, d]) :=
    ⟨_, rfl⟩
  exact ⟨d, hd, by simp⟩

/-- The declarations of a store through a pointer are told apart. -/
theorem atomicStore_toldApart :
    ∃ d d', atomicStore.outcome twoShapes .standard = .ok (.declared [d, d']) ∧
      ∃ s, twoShapes.strategy? atomicStore = some s ∧
        ∀ r ∈ s.requests, ∀ c ∈ choices .standard atomicStore r, ∀ r' ∈ s.requests,
          ∀ c' ∈ choices .standard atomicStore r', (r, c) ≠ (r', c') → c.guard? = c'.guard? →
            ToldApart .standard atomicStore r c r' c' := by
  obtain ⟨d, d', houtcome, hnodup⟩ :
      ∃ d d', atomicStore.outcome twoShapes .standard = .ok (.declared [d, d']) ∧
        ([d, d'].map Declaration.signature).Nodup := ⟨_, _, rfl, by decide +kernel⟩
  have htold := (nodup_signatures_iff List.nodup_nil shapesNodup_twoShapes
    overloadsNodup_standard houtcome).mp hnodup
  exact ⟨d, d', houtcome, htold⟩

end Expansion

end SpirvBindings
