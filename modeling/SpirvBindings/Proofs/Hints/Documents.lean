import SpirvBindings.Proofs.Hints.Places

/-! Hints in whole documents. A document without a list of instructions is refused and stays as it
was. Every other one has a hint at each place for one and is the same elsewhere, and the hints are
counted. Hints of another type overwrite those that are there: with the places as they were, nothing
of the first ones is left. A document that is read back as it was printed still is with its hints,
since these put no list or object into another. -/

namespace SpirvBindings.Hints

open Json (Value)
open Json.Value (Members SameBut)

/-! ### Hints over hints -/

theorem takesHint_hinted (hint : String) (v : Value) : takesHint (hinted hint v) = takesHint v := by
  cases v with
  | object ms =>
    have hname : "name" ≠ hintKey := by decide
    have hkind : "kind" ≠ hintKey := by decide
    simp only [hinted, takesHint, Members.get?_put, if_neg hname, if_neg hkind]
  | _ => rfl

theorem isObject_hinted (hint : String) (v : Value) : isObject (hinted hint v) = isObject v := by
  cases v <;> rfl

theorem isBuiltinKind_overList (f : List Value → List Value) (v : Value) :
    isBuiltinKind (overList "enumerants" f v) = isBuiltinKind v := by
  rw [isBuiltinKind, isBuiltinKind, member?_overList_of_ne (by decide)]

/-- A change that leaves nothing of another one made before it. -/
def Overwrites {α : Type} (g f : α → α) : Prop := ∀ x, g (f x) = g x

namespace Overwrites

theorem map {f g : Value → Value} (h : Overwrites g f) :
    Overwrites (fun vs : List Value => vs.map g) (·.map f) := fun vs => by
  simp only [List.map_map]
  exact List.map_congr_left fun v _ => h v

theorem modifyFirst {f g : Value → Value} (h : Overwrites g f) {p : Value → Bool}
    (hp : ∀ v, p (f v) = p v) : Overwrites (Hints.modifyFirst p g) (Hints.modifyFirst p f) := by
  intro vs
  induction vs with
  | nil => rfl
  | cons v vs ih => by_cases hv : p v <;> simp [Hints.modifyFirst, hv, hp, ih, h v]

theorem overList {f g : List Value → List Value} (h : Overwrites g f) (key : String) :
    Overwrites (Hints.overList key g) (Hints.overList key f) := by
  intro v
  cases v with
  | object ms =>
    simp only [Hints.overList, Members.modify_modify]
    congr 2
    funext u
    cases u with
    | array items => exact congrArg Value.array (h items)
    | _ => rfl
  | _ => rfl

theorem hinted (hint hint' : String) : Overwrites (Hints.hinted hint') (Hints.hinted hint) := by
  intro v
  cases v with
  | object ms => exact congrArg Value.object (Members.put_put _ _ _ ms)
  | _ => rfl

theorem hintInstructions (type type' : String) :
    Overwrites (Hints.hintInstructions type') (Hints.hintInstructions type) := by
  refine .overList (.map (.overList (.map fun o => ?_) _)) _
  by_cases htakes : takesHint o
  · rw [if_pos htakes, takesHint_hinted, if_pos htakes, hinted, if_pos htakes]
  · rw [if_neg htakes, if_neg htakes]

theorem hintBuiltins (type type' : String) :
    Overwrites (Hints.hintBuiltins type') (Hints.hintBuiltins type) :=
  .overList (.modifyFirst (.overList (.map (.hinted _ _)) _) (isBuiltinKind_overList _)) _

end Overwrites

theorem find?_modifyFirst {p : Value → Bool} {f : Value → Value} {items : List Value}
    (hf : ∀ v, p (f v) = p v) : (modifyFirst p f items).find? p = (items.find? p).map f := by
  induction items with
  | nil => rfl
  | cons v items ih => by_cases hp : p v <;> simp [modifyFirst, hp, hf, ih]

/-- The last hints stay. -/
theorem hints_hints (type type' : String) (v : Value) :
    hintBuiltins type' (hintInstructions type' (hintBuiltins type (hintInstructions type v))) =
      hintBuiltins type' (hintInstructions type' v) := by
  -- operands and enumerants are under different keys, so each pair of hints can meet
  have hcomm : hintInstructions type' (hintBuiltins type (hintInstructions type v)) =
      hintBuiltins type (hintInstructions type' (hintInstructions type v)) :=
    overList_comm (by decide) _ _ _
  rw [hcomm, Overwrites.hintBuiltins, Overwrites.hintInstructions]

theorem list?_instructions_hints (type : String) (v : Value) :
    list? "instructions" (hintBuiltins type (hintInstructions type v)) =
      (list? "instructions" v).map (·.map (overList "operands" (hintOperands type))) := by
  rw [hintBuiltins, list?_overList_of_ne (by decide), hintInstructions, list?_overList]

theorem operands_hints (type : String) (v : Value) :
    operands (hintBuiltins type (hintInstructions type v)) = hintOperands type (operands v) := by
  rw [operands, operands, list?_instructions_hints]
  cases list? "instructions" v with
  | none => rfl
  | some instructions =>
    rw [Option.map_some, Option.getD_some, Option.getD_some, List.flatMap_map, hintOperands,
      List.map_flatMap]
    refine List.flatMap_congr fun instruction _ => ?_
    rw [list?_overList]
    cases list? "operands" instruction <;> rfl

theorem builtinEnumerants_hints (type : String) (v : Value) :
    builtinEnumerants (hintBuiltins type (hintInstructions type v)) =
      (builtinEnumerants v).map (hinted ("static const " ++ type)) := by
  rw [builtinEnumerants, builtinEnumerants, hintBuiltins, list?_overList, hintInstructions,
    list?_overList_of_ne (by decide)]
  cases list? "operand_kinds" v with
  | none => rfl
  | some kinds =>
    rw [Option.map_some, Option.getD_some, Option.getD_some,
      find?_modifyFirst (isBuiltinKind_overList _)]
    cases kinds.find? isBuiltinKind with
    | none => rfl
    | some kind =>
      rw [Option.map_some, Option.bind_some, Option.bind_some, list?_overList]
      cases list? "enumerants" kind <;> rfl

/-- Hints are no places for more hints. -/
theorem hintCount_hints (type : String) (v : Value) :
    hintCount (hintBuiltins type (hintInstructions type v)) = hintCount v := by
  rw [hintCount, hintCount, operands_hints, builtinEnumerants_hints, hintOperands, List.countP_map,
    List.countP_map]
  congr 1
  · refine List.countP_congr fun o _ => ?_
    rw [Function.comp]
    split
    · rw [takesHint_hinted]
    · rfl
  · refine List.countP_congr fun e _ => ?_
    rw [Function.comp, isObject_hinted]

theorem document_of_add {type : String} {v : Value} {a : Hinted} (h : add type v = .ok a) :
    a.document = hintBuiltins type (hintInstructions type v) := by
  unfold add at h
  split at h
  next => cases h
  next =>
    cases h
    rfl

/-- Hints over hints are the hints that would be there without the first ones. -/
theorem add_of_add {type : String} {v : Value} {a : Hinted} (h : add type v = .ok a)
    (type' : String) : add type' a.document = add type' v := by
  rw [document_of_add h, add, add, list?_instructions_hints, hints_hints, hintCount_hints]
  cases list? "instructions" v <;> rfl

/-! ### Hints and printing -/

/-- A change after which values survive being printed as they did before. -/
def Preserves (f : Value → Value) : Prop := ∀ ⦃n v⦄, v.Survives n → (f v).Survives n

/-- The same of a change of lists. -/
def PreservesItems (f : List Value → List Value) : Prop :=
  ∀ ⦃n vs⦄, (∀ v ∈ vs, v.Survives n) → ∀ v ∈ f vs, v.Survives n

namespace Preserves

theorem map {f : Value → Value} (h : Preserves f) : PreservesItems (·.map f) := by
  intro n vs hvs w hw
  obtain ⟨v, hv, rfl⟩ := List.mem_map.mp hw
  exact h (hvs v hv)

theorem modifyFirst {f : Value → Value} (h : Preserves f) (p : Value → Bool) :
    PreservesItems (Hints.modifyFirst p f) := by
  intro n vs hvs
  induction vs with
  | nil => exact hvs
  | cons v vs ih =>
    obtain ⟨hv, hrest⟩ := List.forall_mem_cons.mp hvs
    unfold Hints.modifyFirst
    split
    · exact List.forall_mem_cons.mpr ⟨h hv, hrest⟩
    · exact List.forall_mem_cons.mpr ⟨hv, ih hrest⟩

theorem overList {f : List Value → List Value} (h : PreservesItems f) (key : String) :
    Preserves (Hints.overList key f) := by
  intro n v hv
  cases v with
  | object ms =>
    obtain ⟨k, rfl, horder, hcontents⟩ := Value.survives_object_iff.mp hv
    refine Value.survives_object_iff.mpr ⟨k, rfl, horder.modify _ _, fun p hp => ?_⟩
    rcases Members.mem_modify hp with hmem | ⟨u, hu, rfl⟩
    · exact hcontents p hmem
    · have hsurvives := hcontents _ hu
      cases u with
      | array items =>
        obtain ⟨l, rfl, hitems⟩ := Value.survives_array_iff.mp hsurvives
        exact Value.survives_array_iff.mpr ⟨l, rfl, h hitems⟩
      | _ => exact hsurvives
  | _ => exact hv

/-- A hint is a string, so that it adds no nesting. -/
theorem hinted (hint : String) : Preserves (Hints.hinted hint) := by
  intro n v hv
  cases v with
  | object ms =>
    obtain ⟨k, rfl, horder, hcontents⟩ := Value.survives_object_iff.mp hv
    refine Value.survives_object_iff.mpr ⟨k, rfl, horder.put _ _, fun p hp => ?_⟩
    rcases Members.mem_put hp with rfl | hmem
    · exact Value.survives_string k hint
    · exact hcontents p hmem
  | _ => exact hv

theorem hintInstructions (type : String) : Preserves (Hints.hintInstructions type) := by
  refine overList (map (overList (map fun n o ho => ?_) _)) _
  split
  · exact hinted type ho
  · exact ho

theorem hintBuiltins (type : String) : Preserves (Hints.hintBuiltins type) :=
  overList (modifyFirst (overList (map (hinted _)) _) _) _

end Preserves

/-- Hints add no nesting, so that a document survives with them as it did without. -/
theorem survives_of_add {type : String} {n : Nat} {v : Value} (hv : v.Survives n) {a : Hinted}
    (h : add type v = .ok a) : a.document.Survives n := by
  rw [document_of_add h]
  exact Preserves.hintBuiltins type (Preserves.hintInstructions type hv)

/-! ### Documents -/

/-- What a caller has that hands over its document: the number of hints or a fault, and the document
as it is then. -/
def addInPlace (type : String) (v : Value) : Except Fault Nat × Value :=
  match add type v with
  | .ok hinted => (.ok hinted.written, hinted.document)
  | .error fault => (.error fault, v)

theorem addInPlace_of_not_hasInstructions {v : Value} (h : ¬ HasInstructions v) (type : String) :
    addInPlace type v = (.error .noInstructions, v) := by
  rw [hasInstructions_iff, Option.not_isSome_iff_eq_none] at h
  rw [addInPlace, add, h]

theorem addInPlace_of_hasInstructions {v : Value} (h : HasInstructions v) (type : String) :
    addInPlace type v = (.ok (hintCount v), hintBuiltins type (hintInstructions type v)) := by
  rw [hasInstructions_iff, Option.isSome_iff_exists] at h
  obtain ⟨instructions, h⟩ := h
  rw [addInPlace, add, h]

theorem hasInstructions_hints {v : Value} (h : HasInstructions v) (type : String) :
    HasInstructions (hintBuiltins type (hintInstructions type v)) := by
  rw [hasInstructions_iff] at h ⊢
  rwa [list?_instructions_hints, Option.isSome_map]

/-- A document `w` is `v` with `n` hints of a type. -/
structure HintsAdded (type : String) (v : Value) (n : Nat) (w : Value) : Prop where
  number : (n : ℕ∞) =
    Set.encard {path | TypedOperand v path} + Set.encard {path | BuiltinEnumerant v path}
  operand : ∀ path ms, TypedOperand v path → v.at? path = some (.object ms) →
    w.at? path = some (.object (Members.put "hlsl_type" (.string type) ms))
  enumerant : ∀ path ms, BuiltinEnumerant v path → v.at? path = some (.object ms) →
    w.at? path = some (.object (Members.put "hlsl_type" (.string ("static const " ++ type)) ms))
  elsewhere : SameBut (fun path => TypedOperand v path ∨ BuiltinEnumerant v path) v w

theorem hintsAdded (type : String) (v : Value) :
    HintsAdded type v (hintCount v) (hintBuiltins type (hintInstructions type v)) where
  number := hintCount_eq_encard v
  operand path ms hplace hms := by
    obtain @⟨i, j, _, there, typed⟩ := hplace
    obtain ⟨o, ho, htakes⟩ := typedOperand_iff.mp (.mk there typed)
    rw [ho] at hms
    cases hms
    rw [operandPath, at?_instructions_hintBuiltins, ← operandPath, at?_hintInstructions, ho,
      Option.map_some, if_pos htakes]
    rfl
  enumerant path ms hplace hms := by
    obtain @⟨k, j, _, hbuiltin, hfirst, -⟩ := hplace
    have hfirst' : ∀ k' < k, ¬ IsBuiltin (hintInstructions type v) k' := fun k' hk' h =>
      hfirst k' hk' (isBuiltin_hintInstructions.mp h)
    rw [at?_hintBuiltins type (isBuiltin_hintInstructions.mpr hbuiltin) hfirst', enumerantPath,
      at?_operand_kinds_hintInstructions, ← enumerantPath, hms]
    rfl
  elsewhere := by
    refine ((sameBut_hintInstructions type v).mono fun _ => .inl).trans ?_
    exact (sameBut_hintBuiltins type _).mono fun _ h => .inr (builtinEnumerant_hintInstructions h)

/-- What hints of a type do to any document. -/
structure AddsExactly (type : String) (v : Value) : Prop where
  refused : ¬ HasInstructions v → addInPlace type v = (.error .noInstructions, v)
  added : HasInstructions v → ∃ n w, addInPlace type v = (.ok n, w) ∧ HintsAdded type v n w ∧
    ∀ type', ∃ w', addInPlace type' w = (.ok n, w') ∧ addInPlace type' v = (.ok n, w')

/-- A document without a list of instructions is refused and stays as it was. Every other one gets
its hints where they belong and nowhere else, they are counted, and hints over hints leave what the
last ones alone leave. -/
theorem addInPlace_exactly (type : String) (v : Value) : AddsExactly type v where
  refused h := addInPlace_of_not_hasInstructions h type
  added h := by
    refine ⟨_, _, addInPlace_of_hasInstructions h type, hintsAdded type v, fun type' => ?_⟩
    refine ⟨_, ?_, addInPlace_of_hasInstructions h type'⟩
    rw [addInPlace_of_hasInstructions (hasInstructions_hints h type), hintCount_hints, hints_hints]

/-- Instructions that are no objects and operands without a name get nothing, and neither does the
second operand kind of builtin variables. -/
def mixedDocument : Value :=
  .object [("instructions", .array [.null, .object [("operands", .array [
      .object [("kind", .string "IdResultType")],
      .object [("hlsl_type", .null), ("name", .bool true)],
      .object [("kind", .string "IdRef")]])]]),
    ("operand_kinds", .array [
      .object [("enumerants", .array [.object [], .string "Layer"]), ("kind", .string "BuiltIn")],
      .object [("enumerants", .array [.object []]), ("kind", .string "BuiltIn")]])]

theorem mixedDocument_addInPlace_exactly :
    HasInstructions mixedDocument ∧ (addInPlace "uint32_t" mixedDocument).1 = .ok 3 ∧
      AddsExactly "uint32_t" mixedDocument :=
  ⟨⟨_, rfl⟩, rfl, addInPlace_exactly _ _⟩

end SpirvBindings.Hints
