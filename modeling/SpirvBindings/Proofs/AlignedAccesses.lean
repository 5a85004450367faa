import SpirvBindings.Proofs.Clashes
import SpirvBindings.Proofs.Shapes

/-! Which accesses through a physical pointer are aligned. The aligned form of a memory access is
put behind the longest list and replaces it. The lists that stop before another optional operand
stay as they are, without the access, and a required access is one literal in all lists. So all
lists are aligned if and only if the access is the only optional operand. A declaration has the
alignment as a template parameter exactly where its list is aligned. -/

namespace SpirvBindings.Expansion

variable {m : TypeMap} {i : Instruction} {s : Setting} {r : Request} {c : Choice}

/-! ### Aligned lists -/

/-- What an aligned access adds to a list. -/
def alignedLiterals : List Parameter :=
  [{ literal "__aligned" with default? := some "/*Aligned*/0x00000002" },
    { literal "__alignment" with default? := some alignmentName }]

def IsAligned (ps : List Parameter) : Prop := ∀ p ∈ alignedLiterals, p ∈ ps

/-- The optional operands are one memory access that is not mapped. -/
def OnlyAccess (m : TypeMap) (i : Instruction) : Prop :=
  ∃ o, i.arguments.filter (·.isOptional) = [o] ∧ isFreeAccess m i o

theorem accessLists_physical : accessLists .physical [] = [alignedLiterals] := rfl

/-- The literals of a physical list, if there are any, are aligned. -/
theorem literals_of_mem_extents_physical {access : Bool} {count : Nat} {e : Extent}
    (h : e ∈ extents .physical access count) : e.literals = [] ∨ e.literals = alignedLiterals := by
  refine (literals_of_mem_extents h).imp_right fun hmem => ?_
  rwa [accessLists_physical, List.mem_singleton] at hmem

/-- The parameters of operands have no defaults, so an aligned list is one with the literals of an
aligned access. -/
theorem Outline.isAligned_listOf_iff {l : Outline} {e : Extent}
    (he : e ∈ extents .physical l.access l.optional.length) (defaultType : String) (s : Setting) :
    IsAligned (l.listOf defaultType s e) ↔ e.literals = alignedLiterals := by
  constructor
  · intro haligned
    refine (literals_of_mem_extents_physical he).resolve_left fun hnil => ?_
    have hmem := haligned { literal "__alignment" with default? := some alignmentName } (by decide)
    obtain ⟨p, hp, -⟩ := (Outline.exists_default_listOf_iff _ _ _ _ _).mp ⟨_, hmem, rfl⟩
    rw [hnil] at hp
    exact List.not_mem_nil hp
  · intro hliterals p hp
    exact List.mem_append_right _ (hliterals ▸ hp)

/-- An alignment is a default of a list if and only if the list is aligned. -/
theorem Outline.exists_alignment_iff {l : Outline} {e : Extent}
    (he : e ∈ extents .physical l.access l.optional.length) (defaultType : String) (s : Setting) :
    (∃ p ∈ l.listOf defaultType s e, p.default? = some alignmentName) ↔
      IsAligned (l.listOf defaultType s e) := by
  rw [Outline.exists_default_listOf_iff, Outline.isAligned_listOf_iff he]
  rcases literals_of_mem_extents_physical he with hnil | hliterals
  · rw [hnil]
    exact iff_of_false (by simp) (by simp [alignedLiterals])
  · rw [hliterals]
    exact iff_of_true (by decide) rfl

/-! ### The last list -/

/-- Some lists with one list behind them: only this last list may be aligned, and it is if an
instruction has an optional memory access that is not mapped. -/
def LastAligned (m : TypeMap) (i : Instruction) (lists : List (List Parameter)) : Prop :=
  ∃ shorter last, lists = shorter ++ [last] ∧
    shorter.length = ((sequenceOperands m i).filter (·.isOptional)).length ∧
      (∀ ps ∈ shorter, ¬ IsAligned ps) ∧
        (IsAligned last ↔ ∃ o ∈ i.arguments, isFreeAccess m i o)

theorem extents_physical (access : Bool) (count : Nat) :
    extents .physical access count = (List.range count).map (⟨·, []⟩) ++
      [⟨count, if access then alignedLiterals else []⟩] := by
  cases access with
  | true => rfl
  | false => simp [extents, List.range_succ]

theorem Outline.MadeFrom.lastAligned {l : Outline} (h : l.MadeFrom m i s.variant i.arguments)
    (hshape : s.shape = .physical) : LastAligned m i (l.parameterSet m.defaultType s).lists := by
  have hoperands := h.sequence
  have haccess := h.access_iff_exists
  have hextents := extents_physical l.access l.optional.length
  have hlast : (⟨l.optional.length, if l.access then alignedLiterals else []⟩ : Extent) ∈
      extents .physical l.access l.optional.length := by
    rw [hextents]
    exact List.mem_append_right _ (List.mem_singleton_self _)
  have hcount : l.optional.length = ((sequenceOperands m i).filter (·.isOptional)).length := by
    rw [hoperands, List.filter_map, List.length_map]
    rfl
  rw [Outline.lists_parameterSet, hshape, hextents, List.map_append, List.map_singleton]
  refine ⟨_, _, rfl, by simp [hcount], ?_, ?_⟩
  · intro ps hps haligned
    obtain ⟨e, he, rfl⟩ := List.mem_map.mp hps
    have hmem : e ∈ extents .physical l.access l.optional.length := by
      rw [hextents]
      exact List.mem_append_left _ he
    obtain ⟨k, -, rfl⟩ := List.mem_map.mp he
    have hliterals := (Outline.isAligned_listOf_iff hmem _ _).mp haligned
    exact absurd hliterals (by simp [alignedLiterals])
  · rw [Outline.isAligned_listOf_iff hlast, ← haccess]
    cases l.access <;> simp [alignedLiterals]

/-- No operand of the sequence is optional if and only if all optional operands are accesses. -/
theorem Outline.MadeFrom.onlyAccess_iff {variant : Nat} {l : Outline}
    (h : l.MadeFrom m i variant i.arguments) :
    OnlyAccess m i ↔ ((sequenceOperands m i).filter (·.isOptional)).length = 0 ∧
      ∃ o ∈ i.arguments, isFreeAccess m i o := by
  have hoperands := h.sequence
  have haccess := h.access_iff_exists
  have hcount : ((sequenceOperands m i).filter (·.isOptional)).length = l.optional.length := by
    rw [hoperands, List.filter_map, List.length_map]
    rfl
  rw [hcount, ← haccess, List.length_eq_zero_iff, and_comm, h.access_iff, OnlyAccess]
  refine exists_congr fun o => and_congr_right fun ho => ?_
  have hoptional : o.isOptional := (List.mem_filter.mp (ho ▸ List.mem_singleton_self o)).2
  rw [isFreeAccess_iff, Source.ofOperand?_eq_rule_iff]
  simp [hoptional]

/-- All lists are aligned if the last one is and no other is there. -/
theorem LastAligned.forall_iff {lists : List (List Parameter)} (h : LastAligned m i lists) :
    (∀ ps ∈ lists, IsAligned ps) ↔ ((sequenceOperands m i).filter (·.isOptional)).length = 0 ∧
      ∃ o ∈ i.arguments, isFreeAccess m i o := by
  obtain ⟨shorter, last, rfl, hlength, hshorter, hlast⟩ := h
  rw [List.forall_mem_append, List.forall_mem_singleton, hlast, ← hlength,
    List.length_eq_zero_iff]
  refine and_congr_left fun _ => ⟨fun haligned => ?_, ?_⟩
  · exact List.eq_nil_iff_forall_not_mem.mpr fun ps hps => hshorter ps hps (haligned ps hps)
  · rintro rfl
    simp

/-! ### The alignment of a declaration -/

/-- A declaration has the alignment as a template parameter if one of its defaults names it. -/
theorem Choice.alignmentTemplate_mem_iff (hc : c ∈ choices m i r) (ps : List Parameter) :
    alignmentTemplate ∈ (c.declaration m i r ps).templates ↔
      ∃ p ∈ ps, p.default? = some alignmentName := by
  constructor
  · intro hmem
    rw [templates_declaration] at hmem
    obtain ⟨-, hof⟩ := Signature.mem_templates_iff.mp
      ((Signature.moveBehindTypes_perm _ _).mem_iff.mp hmem)
    have hvalue : ∃ v ∈ valueParameters c.guarded ps, v.name = alignmentName := by
      unfold Signature.templateOf? at hof
      split at hof
      next v hv =>
        have hname := List.find?_some hv
        exact ⟨v, List.mem_of_find?_eq_some hv, of_decide_eq_true hname⟩
      next => split at hof <;> cases hof
    rw [guarded_eq_widened hc, exists_valueParameter_iff] at hvalue
    rcases hvalue with ⟨-, hsize⟩ | ⟨-, hdefault⟩
    · exact absurd hsize (by decide)
    · exact hdefault
  · intro hdefault
    exact (((declaration_templatesExact hc ps).aligned hdefault _).mpr rfl).1

/-- In a physical shape only the last parameter list of an instruction may be aligned, and all lists
are if and only if the only optional operand is a memory access that is not mapped. The declarations
of each choice have such lists, and have the alignment as a template parameter where their lists are
aligned. -/
theorem physicalAccess_aligned_iff (m : TypeMap) (i : Instruction) :
    (∀ s set, s.shape = .physical → parameters m i s = .ok set →
      LastAligned m i set.lists ∧ ((∀ ps ∈ set.lists, IsAligned ps) ↔ OnlyAccess m i)) ∧
      ∀ r ds, r.shape = .physical → i.expand r m = .ok (.declarations ds) →
        (∀ c ∈ choices m i r, LastAligned m i ((c.declarations m i r).map (·.parameters))) ∧
          (∀ d ∈ ds, alignmentTemplate ∈ d.templates ↔ IsAligned d.parameters) ∧
            ((∀ d ∈ ds, alignmentTemplate ∈ d.templates) ↔ ds = [] ∨ OnlyAccess m i) := by
  have hlists : ∀ s set, s.shape = .physical → parameters m i s = .ok set →
      LastAligned m i set.lists ∧ ((∀ ps ∈ set.lists, IsAligned ps) ↔ OnlyAccess m i) := by
    intro s set hshape hset
    obtain ⟨hstop, rfl⟩ := parameters_eq_ok_iff.mp hset
    have hmade := outline_madeFrom hstop
    have hlast := hmade.lastAligned hshape
    exact ⟨hlast, hlast.forall_iff.trans hmade.onlyAccess_iff.symm⟩
  refine ⟨hlists, fun r ds hshape h => ?_⟩
  obtain ⟨-, -, hstop, rfl⟩ := expand_eq_declarations_iff.mp h
  have hchoice : ∀ c ∈ choices m i r,
      LastAligned m i ((c.declarations m i r).map (·.parameters)) ∧
        ((∀ d ∈ c.declarations m i r, IsAligned d.parameters) ↔ OnlyAccess m i) := by
    intro c hc
    have hset : parameters m i (c.setting r) = .ok (c.parameterSet m i r) :=
      parameters_eq_ok_iff.mpr ⟨hstop c hc, rfl⟩
    have hparameters : (c.declarations m i r).map (·.parameters) =
        (c.parameterSet m i r).lists := by
      rw [Choice.declarations, List.map_map]
      exact List.map_id _
    have hall : (∀ ps ∈ (c.declarations m i r).map (·.parameters), IsAligned ps) ↔
        ∀ d ∈ c.declarations m i r, IsAligned d.parameters := List.forall_mem_map
    rw [← hall, hparameters]
    exact hlists _ _ hshape hset
  have htemplate : ∀ d ∈ (choices m i r).flatMap (Choice.declarations m i r),
      (alignmentTemplate ∈ d.templates ↔ IsAligned d.parameters) := by
    simp only [List.forall_mem_flatMap]
    intro c hc
    rw [Choice.forall_declarations_iff, hshape]
    intro e he
    rw [Choice.alignmentTemplate_mem_iff hc]
    exact Outline.exists_alignment_iff he _ _
  refine ⟨fun c hc => (hchoice c hc).1, htemplate, ?_⟩
  rw [forall₂_congr htemplate]
  exact forall_flatMap_declarations_iff fun c hc => (hchoice c hc).2

/-- A matrix load that leaves out its stride is not aligned, though it has an access that is not
mapped. -/
theorem matrixLoad_unaligned :
    (∃ o ∈ matrixLoad.arguments, isFreeAccess matrixTypes matrixLoad o) ∧
      ∃ set unaligned aligned, parameters matrixTypes matrixLoad ⟨.physical, "T", 0⟩ = .ok set ∧
        set.lists = [unaligned, aligned] ∧ ¬ IsAligned unaligned ∧ IsAligned aligned ∧
          ∃ d d', matrixLoad.expand ⟨.physical, none, none, none, []⟩ matrixTypes =
              .ok (.declarations [d, d']) ∧
            alignmentTemplate ∉ d.templates ∧ alignmentTemplate ∈ d'.templates := by
  refine ⟨by decide +kernel, _, _, _, rfl, rfl, ?_, ?_, _, _, rfl, by decide +kernel,
    by decide +kernel⟩
  · unfold IsAligned
    decide +kernel
  · unfold IsAligned
    decide +kernel

/-- A store has one physical form, and this is aligned. -/
theorem store_aligned :
    ∃ set d, parameters .standard store ⟨.physical, "T", 0⟩ = .ok set ∧
      store.expand ⟨.physical, none, none, none, []⟩ .standard = .ok (.declarations [d]) ∧
        set.lists.length = 1 ∧ (∀ ps ∈ set.lists, IsAligned ps) ∧
          alignmentTemplate ∈ d.templates := by
  obtain ⟨hlists, hdeclarations⟩ := physicalAccess_aligned_iff .standard store
  have honly : OnlyAccess .standard store :=
    ⟨⟨"MemoryAccess", none, some .optional⟩, rfl, by decide +kernel⟩
  obtain ⟨set, hset, hlength⟩ :
      ∃ set, parameters .standard store ⟨.physical, "T", 0⟩ = .ok set ∧ set.lists.length = 1 :=
    ⟨_, rfl, rfl⟩
  obtain ⟨d, hd⟩ :
      ∃ d, store.expand ⟨.physical, none, none, none, []⟩ .standard = .ok (.declarations [d]) :=
    ⟨_, rfl⟩
  have haligned := (hlists _ _ rfl hset).2.mpr honly
  obtain ⟨-, -, htemplates⟩ := hdeclarations _ _ rfl hd
  exact ⟨set, d, hset, hd, hlength, haligned, htemplates.mpr (.inr honly) d (by simp)⟩

end SpirvBindings.Expansion
