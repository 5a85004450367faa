import SpirvBindings.Grammar.Hints
import SpirvBindings.Proofs.Json.Paths

/-! The places in a document that hints are written to. They are the operands of instructions that
have a name or are the result type, and the enumerants of the first operand kind of builtin
variables. In every JSON value, of whatever form at whatever place, each object at one of these
places gets its hint, beside them the value stays the same, and the number of hints is the number of
these places. -/

namespace SpirvBindings.Hints

open Json (Path Value)
open Json.Value (Members SameBut)

/-! ### Places -/

def operandPath (instruction operand : Nat) : Path :=
  [.key "instructions", .index instruction, .key "operands", .index operand]

def enumerantPath (kind enumerant : Nat) : Path :=
  [.key "operand_kinds", .index kind, .key "enumerants", .index enumerant]

def HasInstructions (v : Value) : Prop := ∃ items, v.at? [.key "instructions"] = some (.array items)

/-- A path leads to an operand of an instruction that has a name or is the result type. -/
inductive TypedOperand (v : Value) : Path → Prop
  | mk {i j : Nat} {ms : Members} (there : v.at? (operandPath i j) = some (.object ms))
    (typed : "name" ∈ ms.map Prod.fst ∨ ms.get? "kind" = some (.string "IdResultType")) :
    TypedOperand v (operandPath i j)

def IsBuiltin (v : Value) (kind : Nat) : Prop :=
  v.at? [.key "operand_kinds", .index kind, .key "kind"] = some (.string "BuiltIn")

/-- A path leads to an enumerant of the first operand kind of builtin variables. -/
inductive BuiltinEnumerant (v : Value) : Path → Prop
  | mk {k j : Nat} {ms : Members} (builtin : IsBuiltin v k) (first : ∀ k' < k, ¬ IsBuiltin v k')
    (there : v.at? (enumerantPath k j) = some (.object ms)) : BuiltinEnumerant v (enumerantPath k j)

/-! ### Lists in objects -/

theorem list?_eq_some_iff {key : String} {v : Value} {items : List Value} :
    list? key v = some items ↔ v.member? key = some (.array items) := by
  unfold list?
  split
  next h => rw [h]; simp
  next h => simpa using h items

theorem hasInstructions_iff {v : Value} : HasInstructions v ↔ (list? "instructions" v).isSome := by
  simp only [HasInstructions, Value.at?_singleton, Option.isSome_iff_exists, list?_eq_some_iff,
    Value.step?]

/-- What is on the way through a list is on the way through an item of it. -/
theorem at?_list (key : String) (i : Nat) (path : Path) (v : Value) :
    v.at? (.key key :: .index i :: path) = ((list? key v).bind (·[i]?)).bind (Value.at? path) := by
  simp only [Value.at?_cons, list?, Value.step?]
  cases v.member? key with
  | none => rfl
  | some u => cases u <;> rfl

theorem member?_overList_of_ne {key other : String} (hne : other ≠ key)
    (f : List Value → List Value) (v : Value) :
    (overList key f v).member? other = v.member? other := by
  cases v with
  | object ms => simp only [overList, Value.member?, Members.get?_modify, if_neg hne]
  | _ => rfl

theorem list?_overList_of_ne {key other : String} (hne : other ≠ key) (f : List Value → List Value)
    (v : Value) : list? other (overList key f v) = list? other v := by
  rw [list?, list?, member?_overList_of_ne hne]

theorem list?_overList (key : String) (f : List Value → List Value) (v : Value) :
    list? key (overList key f v) = (list? key v).map f := by
  cases v with
  | object ms =>
    simp only [overList, list?, Value.member?, Members.get?_modify, if_pos]
    cases Members.get? ms key with
    | none => rfl
    | some u => cases u <;> rfl
  | _ => rfl

/-- An item of a list in which all items change. -/
theorem getElem?_overList_map (key : String) (f : Value → Value) (v : Value) (i : Nat) :
    (list? key (overList key (·.map f) v)).bind (·[i]?) = ((list? key v).bind (·[i]?)).map f := by
  rw [list?_overList]
  cases list? key v with
  | none => rfl
  | some items => exact List.getElem?_map

theorem at?_overList_of_ne {key other : String} (hne : other ≠ key) (f : List Value → List Value)
    (v : Value) (path : Path) :
    (overList key f v).at? (.key other :: path) = v.at? (.key other :: path) := by
  rw [Value.at?_cons, Value.at?_cons, Value.step?, member?_overList_of_ne hne]

theorem overList_comm {key key' : String} (hne : key ≠ key') (f g : List Value → List Value)
    (v : Value) : overList key' g (overList key f v) = overList key f (overList key' g v) := by
  cases v with
  | object ms => exact congrArg _ (Members.modify_comm hne _ _ ms)
  | _ => rfl

theorem sameBut_overList {T : Path → Prop} {key : String} {f : List Value → List Value} {v : Value}
    (h : ∀ items, list? key v = some items →
      SameBut (fun t => T (.key key :: t)) (.array items) (.array (f items))) :
    SameBut T v (overList key f v) := by
  cases v with
  | object ms =>
    refine .object_modify fun u hu => ?_
    cases u with
    | array items => exact h items (list?_eq_some_iff.mpr hu)
    | _ => exact .refl _ _
  | _ => exact .refl _ _

/-! ### The first operand kind of builtin variables -/

theorem modifyFirst_eq_modify (p : Value → Bool) (f : Value → Value) (items : List Value) :
    modifyFirst p f items = items.modify (items.findIdx p) f := by
  induction items with
  | nil => rfl
  | cons v items ih =>
    by_cases hp : p v <;> simp [modifyFirst, List.findIdx_cons, hp, ih]

theorem isBuiltinKind_iff {v : Value} :
    isBuiltinKind v = true ↔ v.member? "kind" = some (.string "BuiltIn") := by
  unfold isBuiltinKind
  cases v.member? "kind" with
  | none => simp
  | some u => cases u <;> simp [Value.string?]

theorem isBuiltin_iff {v : Value} {k : Nat} : IsBuiltin v k ↔
    ∃ u, (list? "operand_kinds" v).bind (·[k]?) = some u ∧ isBuiltinKind u := by
  simp only [IsBuiltin, at?_list, Option.bind_eq_some_iff, Value.at?_singleton, isBuiltinKind_iff,
    Value.step?]

/-- The first operand kind of builtin variables is where a search finds it. -/
theorem findIdx_eq_iff {v : Value} {kinds : List Value}
    (hkinds : list? "operand_kinds" v = some kinds) {k : Nat} :
    (IsBuiltin v k ∧ ∀ k' < k, ¬ IsBuiltin v k') ↔
      k < kinds.length ∧ kinds.findIdx isBuiltinKind = k := by
  simp only [isBuiltin_iff, hkinds, Option.bind_some]
  constructor
  · rintro ⟨⟨u, hu, hbuiltin⟩, hfirst⟩
    obtain ⟨hlt, rfl⟩ := List.getElem?_eq_some_iff.mp hu
    refine ⟨hlt, (List.findIdx_eq hlt).mpr ⟨hbuiltin, fun j hj => ?_⟩⟩
    refine Bool.eq_false_iff.mpr fun hthere => hfirst j hj ⟨kinds[j], ?_, hthere⟩
    exact List.getElem?_eq_getElem (hj.trans hlt)
  · rintro ⟨hlt, hk⟩
    obtain ⟨hbuiltin, hfirst⟩ := (List.findIdx_eq hlt).mp hk
    refine ⟨⟨kinds[k], List.getElem?_eq_getElem hlt, hbuiltin⟩, fun j hj => ?_⟩
    rintro ⟨u, hu, hthere⟩
    obtain ⟨_, rfl⟩ := List.getElem?_eq_some_iff.mp hu
    exact absurd hthere (Bool.eq_false_iff.mp (hfirst j hj))

/-! ### What is at the places -/

theorem takesHint_iff {v : Value} : takesHint v = true ↔ ∃ ms, v = .object ms ∧
    ("name" ∈ ms.map Prod.fst ∨ Members.get? ms "kind" = some (.string "IdResultType")) := by
  cases v with
  | object ms =>
    simp only [takesHint, Bool.or_eq_true, Members.get?_isSome_iff, Value.object.injEq,
      exists_eq_left', beq_iff_eq, Option.bind_eq_some_iff]
    refine or_congr_right ⟨?_, fun h => ⟨_, h, rfl⟩⟩
    rintro ⟨u, hu, hstring⟩
    cases u with
    | string s => rw [hu, Option.some.inj hstring]
    | _ => cases hstring
  | _ => simp [takesHint]

theorem isObject_iff {v : Value} : isObject v = true ↔ ∃ ms, v = .object ms := by
  cases v <;> simp [isObject]

/-- What is in a list of an item of a list. -/
theorem at?_lists (key key' : String) (i j : Nat) (v : Value) :
    v.at? [.key key, .index i, .key key', .index j] =
      ((list? key v).bind (·[i]?)).bind fun u => (list? key' u).bind (·[j]?) := by
  rw [at?_list]
  refine congrArg _ (funext fun u => ?_)
  rw [at?_list]
  exact Option.bind_fun_some _

theorem typedOperand_iff {v : Value} {i j : Nat} :
    TypedOperand v (operandPath i j) ↔ ∃ o, v.at? (operandPath i j) = some o ∧ takesHint o := by
  simp only [takesHint_iff]
  constructor
  · generalize hpath : operandPath i j = path
    rintro ⟨there, typed⟩
    exact ⟨_, there, _, rfl, typed⟩
  · rintro ⟨_, there, ms, rfl, typed⟩
    exact ⟨there, typed⟩

/-- An operand gets its hint. -/
theorem at?_hintInstructions (type : String) (v : Value) (i j : Nat) :
    (hintInstructions type v).at? (operandPath i j) =
      (v.at? (operandPath i j)).map fun o => if takesHint o then hinted type o else o := by
  rw [operandPath, at?_lists, at?_lists, hintInstructions, getElem?_overList_map]
  cases (list? "instructions" v).bind (·[i]?) with
  | none => rfl
  | some instruction => exact getElem?_overList_map "operands" _ instruction j

/-- An enumerant of the first operand kind of builtin variables gets its hint. -/
theorem at?_hintBuiltins (type : String) {v : Value} {k : Nat} (hbuiltin : IsBuiltin v k)
    (hfirst : ∀ k' < k, ¬ IsBuiltin v k') (j : Nat) :
    (hintBuiltins type v).at? (enumerantPath k j) =
      (v.at? (enumerantPath k j)).map (hinted ("static const " ++ type)) := by
  simp only [enumerantPath, at?_lists, hintBuiltins, list?_overList]
  cases hkinds : list? "operand_kinds" v with
  | none => rfl
  | some kinds =>
    obtain ⟨-, hk⟩ := (findIdx_eq_iff hkinds).mp ⟨hbuiltin, hfirst⟩
    simp only [Option.map_some, Option.bind_some, modifyFirst_eq_modify, List.getElem?_modify, hk,
      if_pos, Option.map_eq_map]
    cases kinds[k]? with
    | none => rfl
    | some kind => exact getElem?_overList_map "enumerants" _ kind j

/-! ### What stays the same -/

theorem sameBut_hintInstructions (type : String) (v : Value) :
    SameBut (TypedOperand v) v (hintInstructions type v) := by
  refine sameBut_overList fun instructions hinstructions => .array_map fun i instruction hi => ?_
  refine sameBut_overList fun operands hoperands => .array_map fun j operand hj => ?_
  split
  next htakes =>
    refine .of_nil (typedOperand_iff.mpr ⟨operand, ?_, htakes⟩) _ _
    rw [operandPath, at?_lists, hinstructions, Option.bind_some, hi, Option.bind_some, hoperands,
      Option.bind_some, hj]
  next => exact .refl _ _

theorem sameBut_hintBuiltins (type : String) (v : Value) :
    SameBut (BuiltinEnumerant v) v (hintBuiltins type v) := by
  refine sameBut_overList fun kinds hkinds => ?_
  rw [modifyFirst_eq_modify]
  refine .array (List.length_modify ..) fun k kind kind' hk hk' => ?_
  rw [List.getElem?_modify, hk] at hk'
  cases hk'
  split
  next hfirst =>
    obtain ⟨hlt, -⟩ := List.getElem?_eq_some_iff.mp hk
    obtain ⟨hbuiltin, hbefore⟩ := (findIdx_eq_iff hkinds).mpr ⟨hlt, hfirst⟩
    refine sameBut_overList fun enumerants henumerants => .array_map fun j enumerant hj => ?_
    cases enumerant with
    | object ms =>
      have there : v.at? (enumerantPath k j) = some (.object ms) := by
        rw [enumerantPath, at?_lists, hkinds, Option.bind_some, hk, Option.bind_some, henumerants,
          Option.bind_some, hj]
      exact .of_nil (.mk hbuiltin hbefore there) _ _
    | _ => exact .refl _ _
  next => exact .refl _ _

/-- Hints of operands are beside the operand kinds. -/
theorem at?_operand_kinds_hintInstructions (type : String) (v : Value) (path : Path) :
    (hintInstructions type v).at? (.key "operand_kinds" :: path) =
      v.at? (.key "operand_kinds" :: path) :=
  at?_overList_of_ne (by decide) _ v path

/-- Hints of enumerants are beside the instructions. -/
theorem at?_instructions_hintBuiltins (type : String) (v : Value) (path : Path) :
    (hintBuiltins type v).at? (.key "instructions" :: path) = v.at? (.key "instructions" :: path) :=
  at?_overList_of_ne (by decide) _ v path

theorem isBuiltin_hintInstructions {type : String} {v : Value} {k : Nat} :
    IsBuiltin (hintInstructions type v) k ↔ IsBuiltin v k := by
  rw [IsBuiltin, IsBuiltin, at?_operand_kinds_hintInstructions]

theorem builtinEnumerant_hintInstructions {type : String} {v : Value} {path : Path}
    (h : BuiltinEnumerant (hintInstructions type v) path) : BuiltinEnumerant v path := by
  obtain ⟨builtin, first, there⟩ := h
  simp only [isBuiltin_hintInstructions] at builtin first
  exact .mk builtin first ((at?_operand_kinds_hintInstructions type v _).symm.trans there)

/-! ### The number of hints -/

/-- The paths to all typed operands. -/
def operandPaths (v : Value) : List Path :=
  (Value.itemPaths (fun i =>
    (Value.pathsWhere takesHint ((list? "operands" i).getD [])).map (.key "operands" :: ·))
    ((list? "instructions" v).getD [])).map (.key "instructions" :: ·)

/-- The paths to all enumerants of the first operand kind of builtin variables. -/
def enumerantPaths (v : Value) : List Path :=
  (Value.pathsWhere isObject (builtinEnumerants v)).map (.key "operand_kinds" ::
    .index (((list? "operand_kinds" v).getD []).findIdx isBuiltinKind) :: .key "enumerants" :: ·)

theorem getElem?_getD_nil {α : Type} (xs? : Option (List α)) (i : Nat) :
    (xs?.getD [])[i]? = xs?.bind (·[i]?) := by
  cases xs? <;> rfl

theorem mem_operandPaths {v : Value} {path : Path} :
    path ∈ operandPaths v ↔ TypedOperand v path := by
  simp only [operandPaths, List.mem_map, Value.mem_itemPaths, Value.mem_pathsWhere,
    getElem?_getD_nil]
  constructor
  · rintro ⟨-, ⟨i, instruction, -, hi, ⟨-, ⟨j, operand, hj, htakes, rfl⟩, rfl⟩, rfl⟩, rfl⟩
    refine typedOperand_iff.mpr ⟨operand, ?_, htakes⟩
    rw [operandPath, at?_lists, hi, Option.bind_some, hj]
  · intro h
    obtain ⟨i, j, rfl⟩ : ∃ i j, path = operandPath i j := by
      obtain ⟨-, -⟩ := h
      exact ⟨_, _, rfl⟩
    obtain ⟨operand, there, htakes⟩ := typedOperand_iff.mp h
    rw [operandPath, at?_lists, Option.bind_eq_some_iff] at there
    obtain ⟨instruction, hi, hj⟩ := there
    exact ⟨_, ⟨i, instruction, _, hi, ⟨_, ⟨j, operand, hj, htakes, rfl⟩, rfl⟩, rfl⟩, rfl⟩

theorem nodup_operandPaths (v : Value) : (operandPaths v).Nodup :=
  Value.nodup_map_cons (Value.nodup_itemPaths
    (fun _ => Value.nodup_map_cons (Value.nodup_pathsWhere _ _) _) _) _

theorem length_operandPaths (v : Value) :
    (operandPaths v).length = (operands v).countP takesHint := by
  simp only [operandPaths, List.length_map, Value.length_itemPaths, Value.length_pathsWhere,
    operands, List.countP_flatMap]
  rfl

theorem mem_enumerantPaths {v : Value} {path : Path} :
    path ∈ enumerantPaths v ↔ BuiltinEnumerant v path := by
  simp only [enumerantPaths, List.mem_map, Value.mem_pathsWhere, builtinEnumerants,
    getElem?_getD_nil, List.find?_eq_getElem?_findIdx, Option.bind_eq_some_iff, isObject_iff]
  constructor
  · rintro ⟨-, ⟨j, -, ⟨enumerants, ⟨kind, ⟨kinds, hkinds, hk⟩, hes⟩, hj⟩, ⟨ms, rfl⟩, rfl⟩, rfl⟩
    simp only [hkinds, Option.getD_some] at hk ⊢
    obtain ⟨hlt, -⟩ := List.getElem?_eq_some_iff.mp hk
    obtain ⟨hbuiltin, hfirst⟩ := (findIdx_eq_iff hkinds).mpr ⟨hlt, rfl⟩
    have there : v.at? (enumerantPath (kinds.findIdx isBuiltinKind) j) = some (.object ms) := by
      rw [enumerantPath, at?_lists, hkinds, Option.bind_some, hk, Option.bind_some, hes,
        Option.bind_some, hj]
    exact .mk hbuiltin hfirst there
  · rintro @⟨k, j, ms, hbuiltin, hfirst, there⟩
    obtain ⟨kind, hkind, -⟩ := isBuiltin_iff.mp hbuiltin
    obtain ⟨kinds, hkinds, -⟩ := Option.bind_eq_some_iff.mp hkind
    obtain ⟨-, hk⟩ := (findIdx_eq_iff hkinds).mp ⟨hbuiltin, hfirst⟩
    rw [enumerantPath, at?_lists, hkind, Option.bind_some, Option.bind_eq_some_iff] at there
    obtain ⟨enumerants, hes, hj⟩ := there
    rw [hkinds, Option.bind_some] at hkind
    simp only [hkinds, Option.getD_some, hk]
    exact ⟨_, ⟨j, _, ⟨enumerants, ⟨kind, ⟨kinds, rfl, hkind⟩, hes⟩, hj⟩, ⟨ms, rfl⟩, rfl⟩, rfl⟩

theorem nodup_enumerantPaths (v : Value) : (enumerantPaths v).Nodup :=
  (Value.nodup_pathsWhere _ _).map fun _ _ h => by simpa using h

theorem length_enumerantPaths (v : Value) :
    (enumerantPaths v).length = (builtinEnumerants v).countP isObject := by
  rw [enumerantPaths, List.length_map, Value.length_pathsWhere]

/-- As many hints are counted as there are places for them. -/
theorem hintCount_eq_encard (v : Value) : (hintCount v : ℕ∞) =
    Set.encard {path | TypedOperand v path} + Set.encard {path | BuiltinEnumerant v path} := by
  rw [Value.encard_eq_length (nodup_operandPaths v) fun _ => mem_operandPaths,
    Value.encard_eq_length (nodup_enumerantPaths v) fun _ => mem_enumerantPaths,
    length_operandPaths, length_enumerantPaths, hintCount, Nat.cast_add]

end SpirvBindings.Hints
