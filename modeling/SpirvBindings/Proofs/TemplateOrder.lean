import SpirvBindings.Proofs.Clashes

/-! The order of the template parameters of a declaration. They are taken in the order in which
their names first appear in the signature, and only the pointer type is moved, right behind the
last of the other types. So the pointer type is always the last type, but a type that first appears
behind a vector size stays behind it: types come before values if and only if their names do. -/

namespace SpirvBindings

open Identifier

/-! ### First appearances -/

/-- Members that are kept stand in the order in which they stood. -/
theorem idxOf_lt_of_idxOf_filter_lt {p : String → Bool} {x y : String} (hx : p x) (hy : p y)
    {names : List String} (h : (names.filter p).idxOf x < (names.filter p).idxOf y) :
    names.idxOf x < names.idxOf y := by
  induction names with
  | nil => exact h
  | cons name names ih =>
    by_cases hname : p name
    · rw [List.filter_cons_of_pos hname] at h
      rcases eq_or_ne name y with rfl | hyname
      · rw [List.idxOf_cons_self] at h
        exact absurd h (Nat.not_lt_zero _)
      rcases eq_or_ne name x with rfl | hxname
      · rw [List.idxOf_cons_self, List.idxOf_cons_ne _ hyname]
        exact Nat.succ_pos _
      · rw [List.idxOf_cons_ne _ hxname, List.idxOf_cons_ne _ hyname] at h ⊢
        exact Nat.succ_lt_succ (ih (Nat.lt_of_succ_lt_succ h))
    · rw [List.filter_cons_of_neg hname] at h
      have hxname : name ≠ x := fun heq => hname (heq ▸ hx)
      have hyname : name ≠ y := fun heq => hname (heq ▸ hy)
      rw [List.idxOf_cons_ne _ hxname, List.idxOf_cons_ne _ hyname]
      exact Nat.succ_lt_succ (ih h)

/-- Without the repetitions, names stand in the order of first appearance. -/
theorem pairwise_idxOf_eraseDups (names : List String) :
    names.eraseDups.Pairwise fun x y => names.idxOf x < names.idxOf y := by
  induction hn : names.length using Nat.strongRecOn generalizing names with
  | ind n ih =>
    cases names with
    | nil => simp
    | cons name names =>
      have hlength : (names.filter fun y => ! y == name).length < n := by
        have hle := List.length_filter_le (fun y => ! y == name) names
        simp only [List.length_cons] at hn
        omega
      have hkept : ∀ x ∈ (names.filter fun y => ! y == name).eraseDups, ! x == name :=
        fun x hx => (List.mem_filter.mp (List.mem_eraseDups.mp hx)).2
      have hne : ∀ x ∈ (names.filter fun y => ! y == name).eraseDups, name ≠ x := by
        rintro x hx rfl
        simpa using hkept name hx
      rw [List.eraseDups_cons, List.pairwise_cons]
      refine ⟨fun x hx => ?_, ?_⟩
      · rw [List.idxOf_cons_self, List.idxOf_cons_ne _ (hne x hx)]
        exact Nat.succ_pos _
      · refine List.Pairwise.imp_of_mem ?_ (ih _ hlength _ rfl)
        intro x y hx hy hlt
        rw [List.idxOf_cons_ne _ (hne x hx), List.idxOf_cons_ne _ (hne y hy)]
        exact Nat.succ_lt_succ (idxOf_lt_of_idxOf_filter_lt (hkept x hx) (hkept y hy) hlt)

/-! ### Types first -/

namespace Signature

/-- No type stands behind a value. -/
def TypesFirst (ts : List TemplateParameter) : Prop :=
  ts.Pairwise fun t u => u.isTypename → t.isTypename

instance (ts : List TemplateParameter) : Decidable (TypesFirst ts) :=
  inferInstanceAs (Decidable (ts.Pairwise fun t u => u.isTypename → t.isTypename))

/-- A type right behind the last type keeps the types first. -/
theorem typesFirst_insertBehindTypes_iff {p : TemplateParameter} (hp : p.isTypename)
    (ts : List TemplateParameter) : TypesFirst (insertBehindTypes p ts) ↔ TypesFirst ts := by
  induction ts with
  | nil => exact iff_of_true (List.pairwise_singleton _ p) .nil
  | cons t ts ih =>
    rw [insertBehindTypes]
    split
    next hany =>
      have hperm := insertBehindTypes_perm p ts
      rw [TypesFirst, TypesFirst, List.pairwise_cons, List.pairwise_cons]
      refine and_congr ?_ ih
      constructor
      · exact fun h u hu => h u (hperm.mem_iff.mpr (List.mem_cons_of_mem p hu))
      · intro h u hu
        -- A type in the rest makes the head a type, so the head may stand before the new one.
        rcases List.mem_cons.mp (hperm.mem_iff.mp hu) with rfl | hu
        · obtain ⟨v, hv, htype⟩ := List.any_eq_true.mp hany
          rcases List.mem_cons.mp hv with rfl | hv
          · exact fun _ => htype
          · exact fun _ => h v hv htype
        · exact h u hu
    next =>
      rw [TypesFirst, List.pairwise_cons]
      exact and_iff_right fun _ _ _ => hp

/-- A type that is inserted is the last type. -/
theorem filter_insertBehindTypes {p : TemplateParameter} (hp : p.isTypename)
    (ts : List TemplateParameter) :
    (insertBehindTypes p ts).filter (·.isTypename) = ts.filter (·.isTypename) ++ [p] := by
  induction ts with
  | nil => simp [insertBehindTypes, hp]
  | cons t ts ih =>
    rw [insertBehindTypes]
    split
    next => by_cases ht : t.isTypename <;> simp [ht, ih]
    next hnone =>
      have hnil : (t :: ts).filter (·.isTypename) = [] := by
        simpa [List.filter_eq_nil_iff] using hnone
      rw [List.filter_cons_of_pos hp, hnil, List.nil_append]

/-- If one is a type and the other a value, the type has the earlier place. -/
def TypePrecedes (place : TemplateParameter → Nat) (t u : TemplateParameter) : Prop :=
  t.isTypename → ¬ u.isTypename → place t < place u

/-- In a list in the order of some places, the types come first if and only if their places do. -/
theorem typesFirst_iff_of_pairwise {place : TemplateParameter → Nat} {ts : List TemplateParameter}
    (h : ts.Pairwise fun t u => place t < place u) :
    TypesFirst ts ↔ ∀ t ∈ ts, ∀ u ∈ ts, TypePrecedes place t u := by
  constructor
  · intro hfirst t ht u hu
    have hself : ∀ t ∈ ts, TypePrecedes place t t := fun t _ htype hvalue => absurd htype hvalue
    have hforth : ts.Pairwise (TypePrecedes place) := h.imp fun hlt _ _ => hlt
    have hback : ts.Pairwise (flip (TypePrecedes place)) :=
      hfirst.imp fun hkeeps hu ht => absurd (hkeeps hu) ht
    exact hforth.forall_of_forall_of_flip hself hback ht hu
  · intro hplaces
    refine h.imp_of_mem fun {t u} ht hu hlt hu' => ?_
    by_contra ht'
    exact absurd (hplaces u hu t ht hu' ht') (Nat.lt_asymm hlt)

/-- The pointer type, if it is there, is the last type. -/
def PointerLast (ts : List TemplateParameter) : Prop :=
  .typename Expansion.pointerTemplate ∈ ts →
    (ts.filter (·.isTypename)).getLast? = some (.typename Expansion.pointerTemplate)

theorem pointerLast_moveBehindTypes (ts : List TemplateParameter) :
    PointerLast (moveBehindTypes Expansion.pointerTemplate ts) := by
  intro hmem
  have hthere := (moveBehindTypes_perm _ _).mem_iff.mp hmem
  simp only [moveBehindTypes, List.contains_iff_mem, hthere, ↓reduceIte]
  rw [filter_insertBehindTypes rfl, List.getLast?_concat]

/-- The types come first if they do without the one that is moved. -/
theorem typesFirst_moveBehindTypes_iff (name : String) (ts : List TemplateParameter) :
    TypesFirst (moveBehindTypes name ts) ↔ TypesFirst (ts.erase (.typename name)) := by
  simp only [moveBehindTypes, List.contains_iff_mem]
  split
  next => exact typesFirst_insertBehindTypes_iff rfl _
  next hno => rw [List.erase_of_not_mem hno]

/-- The template parameters of a signature stand in the order of their first appearance. -/
theorem pairwise_idxOf_templates (result : String) (ps : List Parameter) (generics : List String)
    (values : List ValueParameter) :
    (templates result ps generics values).Pairwise fun t u =>
      ((typeTexts result ps).flatMap tokens).idxOf t.name <
        ((typeTexts result ps).flatMap tokens).idxOf u.name := by
  have hnames : ((templates result ps generics values).map TemplateParameter.name).Sublist
      ((typeTexts result ps).flatMap tokens).eraseDups := names_templates_sublist
  have hsorted := (pairwise_idxOf_eraseDups ((typeTexts result ps).flatMap tokens)).sublist hnames
  rwa [List.pairwise_map] at hsorted

end Signature

/-! ### Orders of a declaration -/

/-- Each type other than the pointer type first appears before each value. -/
def Declaration.TypesAppearFirst (d : Declaration) : Prop :=
  ∀ type value, .typename type ∈ d.templates → type ≠ Expansion.pointerTemplate →
    .value value ∈ d.templates → d.typeTokens.idxOf type < d.typeTokens.idxOf value.name

namespace Expansion

variable {m : TypeMap} {i : Instruction} {r : Request} {c : Choice}

/-- The types of a declaration come first if and only if they appear first. -/
theorem Choice.typesFirst_iff {ps : List Parameter} :
    Signature.TypesFirst (c.declaration m i r ps).templates ↔
      (c.declaration m i r ps).TypesAppearFirst := by
  have htemplates := templates_declaration m i r c ps
  have hps : (c.declaration m i r ps).parameters = ps := rfl
  generalize c.declaration m i r ps = d at htemplates hps ⊢
  subst hps
  rw [signatureTemplates] at htemplates
  generalize hts : Signature.templates d.result d.parameters (c.generics m i r)
    (valueParameters c.guarded d.parameters) = ts at htemplates
  have hsorted : ts.Pairwise fun t u =>
      d.typeTokens.idxOf t.name < d.typeTokens.idxOf u.name := by
    rw [← hts]
    exact Signature.pairwise_idxOf_templates _ _ _ _
  have hmem : ∀ t, t ∈ ts.erase (.typename pointerTemplate) ↔
      t ≠ .typename pointerTemplate ∧ t ∈ d.templates := by
    intro t
    have hnodup : ts.Nodup := by
      rw [← hts]
      exact List.Nodup.of_map _ Signature.nodup_names_templates
    rw [hnodup.mem_erase_iff, htemplates, (Signature.moveBehindTypes_perm _ _).mem_iff]
  -- Without the pointer type, the parameters stand in the order of first appearance.
  rw [htemplates, Signature.typesFirst_moveBehindTypes_iff,
    Signature.typesFirst_iff_of_pairwise (hsorted.sublist List.erase_sublist)]
  simp only [hmem]
  constructor
  · intro h type value htype hne hvalue
    exact h (.typename type) ⟨by simpa using hne, htype⟩ (.value value) ⟨by simp, hvalue⟩ rfl
      Bool.false_ne_true
  · rintro h (type | value) ⟨hne, ht⟩ (type' | value') ⟨-, hu⟩ htype hvalue
    · exact absurd rfl hvalue
    · exact h type value' ht (by simpa using hne) hu
    · cases htype
    · cases htype

/-- In the declarations of an expansion the pointer type is the last type, and all types come before
all values if and only if each other type first appears before each value. -/
theorem expand_typesFirst_iff {ds : List Declaration} (h : i.expand r m = .ok (.declarations ds))
    {d : Declaration} (hd : d ∈ ds) :
    Signature.PointerLast d.templates ∧
      (Signature.TypesFirst d.templates ↔ d.TypesAppearFirst) := by
  obtain ⟨-, -, -, rfl⟩ := expand_eq_declarations_iff.mp h
  obtain ⟨c, -, hd⟩ := List.mem_flatMap.mp hd
  obtain ⟨ps, -, rfl⟩ := List.mem_map.mp hd
  refine ⟨?_, Choice.typesFirst_iff⟩
  rw [templates_declaration]
  exact Signature.pointerLast_moveBehindTypes _

/-- A generic type for the added value. -/
def addedValues : TypeMap where
  defaultType := "uint32_t"
  classes := []
  instructions := [("OpAtomicFAddEXT", {
    result? := none
    parameters := [⟨"IdRef", some "Value", "U", none, false, [], []⟩] })]

/-- The type of the added value appears behind the vector size. -/
theorem halfVectorAdd_types_late :
    ∃ d, halfVectorAdd.expand ⟨.reference, none, none, none, []⟩ addedValues =
        .ok (.declarations [d]) ∧
      d.templates = [.value ⟨"uint32_t", "N"⟩, .typename "U"] ∧
        ¬ Signature.TypesFirst d.templates :=
  ⟨_, rfl, by decide +kernel, by decide +kernel⟩

/-- With a pointer type of its own the pointer moves in front of the vector size. -/
theorem halfVectorAdd_typesFirst :
    ∃ d, halfVectorAdd.expand ⟨.pointerTemplate, none, some "float16_t", none, []⟩ .standard =
        .ok (.declarations [d]) ∧
      d.typeTokens.idxOf "N" < d.typeTokens.idxOf "P" ∧
      d.templates = [.typename "P", .value ⟨"uint32_t", "N"⟩] ∧
        Signature.PointerLast d.templates ∧ Signature.TypesFirst d.templates := by
  obtain ⟨d, hds, htokens, htemplates⟩ :
      ∃ d, halfVectorAdd.expand ⟨.pointerTemplate, none, some "float16_t", none, []⟩ .standard =
          .ok (.declarations [d]) ∧
        d.typeTokens.idxOf "N" < d.typeTokens.idxOf "P" ∧
          d.templates = [.typename "P", .value ⟨"uint32_t", "N"⟩] :=
    ⟨_, rfl, by decide +kernel, by decide +kernel⟩
  obtain ⟨hlast, hfirst⟩ := expand_typesFirst_iff hds (List.mem_singleton_self d)
  refine ⟨d, hds, htokens, htemplates, hlast, hfirst.mpr ?_⟩
  intro type value htype hne _
  have hpointer : type = "P" := by simpa [htemplates] using htype
  exact absurd hpointer hne

end Expansion

end SpirvBindings
