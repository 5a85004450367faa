import SpirvBindings.Proofs.Associations
import SpirvBindings.TypeMap.Resolution

/-! Where the entries come from that an instruction is resolved with. Each of them stands in a
mapping of the type map, and the types that it selects are among the texts of the type map. -/

namespace SpirvBindings

/-! ### Texts -/

/-- The types that an entry can select. -/
def TypeEntry.typeTexts (e : TypeEntry) : List String := e.type :: e.overloads

/-- The texts of all types of a type map. -/
def TypeMap.typeTexts (m : TypeMap) : List String :=
  m.defaultType :: (m.classes ++ m.instructions).flatMap fun (_, mapping) =>
    (mapping.result?.toList ++ mapping.parameters).flatMap TypeEntry.typeTexts

theorem TypeMap.defaultType_mem_typeTexts (m : TypeMap) : m.defaultType ∈ m.typeTexts :=
  List.mem_cons_self

theorem TypeEntry.mem_typeTexts_of_select {e : TypeEntry} {variant : Nat} {type : String}
    (h : e.select variant = .ok type) : type ∈ e.typeTexts := by
  unfold TypeEntry.select at h
  split at h
  · cases h
    exact List.mem_cons_self
  · split at h
    next text htext =>
      cases h
      exact List.mem_cons_of_mem _ (List.mem_of_getElem? htext)
    next => cases h

/-! ### Mappings -/

namespace TypeMap

variable {m : TypeMap} {i : Instruction} {o : Operand} {e : TypeEntry}

/-- The layers of an instruction are mappings of the type map. -/
theorem exists_of_mem_layers {mapping : TypeMapping} (h : mapping ∈ m.layers i) :
    ∃ name, (name, mapping) ∈ m.classes ++ m.instructions := by
  rcases List.mem_append.mp h with hinstruction | hclass
  · have hlookup := mem_of_lookup (Option.mem_toList.mp hinstruction)
    exact ⟨_, List.mem_append_right _ hlookup⟩
  · have hlookup := mem_of_lookup (Option.mem_toList.mp hclass)
    exact ⟨_, List.mem_append_left _ hlookup⟩

theorem exists_mapping_of_entryOfOperand? (h : m.entryOfOperand? i o = some e) :
    ∃ name mapping, (name, mapping) ∈ m.classes ++ m.instructions ∧ e ∈ mapping.parameters := by
  obtain ⟨mapping, hmapping, hfind⟩ := List.exists_of_findSome?_eq_some h
  obtain ⟨name, hname⟩ := exists_of_mem_layers hmapping
  refine ⟨name, mapping, hname, ?_⟩
  unfold TypeMapping.find? TypeMapping.findNamed? TypeMapping.findForKind? at hfind
  rcases Option.or_eq_some_iff.mp hfind with hnamed | ⟨-, hkind⟩
  · obtain ⟨name, -, hname⟩ := Option.bind_eq_some_iff.mp hnamed
    exact List.mem_of_find?_eq_some hname
  · exact List.mem_of_find?_eq_some hkind

theorem exists_mapping_of_entryOfResult? (h : m.entryOfResult? i = some e) :
    ∃ name mapping, (name, mapping) ∈ m.classes ++ m.instructions ∧ mapping.result? = some e := by
  obtain ⟨mapping, hmapping, hresult⟩ := List.exists_of_findSome?_eq_some h
  obtain ⟨name, hname⟩ := exists_of_mem_layers hmapping
  exact ⟨name, mapping, hname, hresult⟩

/-- The types of an entry of a mapping are among the texts of the type map. -/
theorem mem_typeTexts {name type : String} {mapping : TypeMapping}
    (hmapping : (name, mapping) ∈ m.classes ++ m.instructions)
    (he : e ∈ mapping.result?.toList ++ mapping.parameters) (htype : type ∈ e.typeTexts) :
    type ∈ m.typeTexts := by
  apply List.mem_cons_of_mem
  exact List.mem_flatMap.mpr ⟨_, hmapping, List.mem_flatMap.mpr ⟨e, he, htype⟩⟩

theorem mem_typeTexts_of_operand {variant : Nat} {type : String}
    (he : m.entryOfOperand? i o = some e) (htype : e.select variant = .ok type) :
    type ∈ m.typeTexts := by
  obtain ⟨name, mapping, hmapping, hparameter⟩ := exists_mapping_of_entryOfOperand? he
  exact mem_typeTexts hmapping (List.mem_append_right _ hparameter)
    (TypeEntry.mem_typeTexts_of_select htype)

theorem mem_typeTexts_of_result {variant : Nat} {type : String}
    (he : m.entryOfResult? i = some e) (htype : e.select variant = .ok type) :
    type ∈ m.typeTexts := by
  obtain ⟨name, mapping, hmapping, hresult⟩ := exists_mapping_of_entryOfResult? he
  exact mem_typeTexts hmapping (List.mem_append_left _ (Option.mem_toList.mpr hresult))
    (TypeEntry.mem_typeTexts_of_select htype)

end TypeMap

end SpirvBindings
