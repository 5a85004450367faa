import Mathlib.Data.List.Forall2
import SpirvBindings.Loading
import SpirvBindings.Proofs.Associations
import SpirvBindings.Proofs.Results

/-! Validation of configuration documents. The mappings of a type map, the rules of a policy and the
builtin variables are all validated in one way: each document has a key and a content, and its key
has to be new. Such a list is accepted if each of its documents is valid and no key is there twice;
then what is found under a key is the content of the document that has it. Any other list is refused
for the first document that is not valid or has a key that is there already. -/

namespace SpirvBindings

variable {ε β δ : Type}

/-! ### Lists that correspond -/

section

variable {α : Type} {R : α → β → Prop} {as : List α} {bs : List β}

theorem exists_right_of_mem (h : List.Forall₂ R as bs) {a : α} (ha : a ∈ as) :
    ∃ b ∈ bs, R a b := by
  induction h with
  | nil => cases ha
  | cons hfirst _ ih =>
    rcases List.mem_cons.mp ha with rfl | ha
    · exact ⟨_, List.mem_cons_self, hfirst⟩
    · obtain ⟨b, hb, hR⟩ := ih ha
      exact ⟨b, List.mem_cons_of_mem _ hb, hR⟩

theorem exists_left_of_mem (h : List.Forall₂ R as bs) {b : β} (hb : b ∈ bs) :
    ∃ a ∈ as, R a b :=
  exists_right_of_mem h.flip hb

theorem exists_forall₂_iff : (∃ bs, List.Forall₂ R as bs) ↔ ∀ a ∈ as, ∃ b, R a b := by
  constructor
  · rintro ⟨bs, h⟩ a ha
    obtain ⟨b, -, hb⟩ := exists_right_of_mem h ha
    exact ⟨b, hb⟩
  · intro h
    induction as with
    | nil => exact ⟨[], .nil⟩
    | cons a as ih =>
      obtain ⟨⟨b, hb⟩, has⟩ := List.forall_mem_cons.mp h
      obtain ⟨bs, hbs⟩ := ih has
      exact ⟨b :: bs, .cons hb hbs⟩

/-- What holds of all pairs of members holds of what corresponds to them. -/
theorem pairwise_iff_of_forall₂ {P : α → α → Prop} {Q : β → β → Prop} (h : List.Forall₂ R as bs)
    (hPQ : ∀ a a' b b', R a b → R a' b' → (P a a' ↔ Q b b')) : as.Pairwise P ↔ bs.Pairwise Q := by
  induction h with
  | nil => exact iff_of_true .nil .nil
  | cons hfirst hrest ih =>
    rw [List.pairwise_cons, List.pairwise_cons, ih]
    refine and_congr_left fun _ => ?_
    constructor
    · intro hP b hb
      obtain ⟨a, ha, hR⟩ := exists_left_of_mem hrest hb
      exact (hPQ _ _ _ _ hfirst hR).mp (hP a ha)
    · intro hQ a ha
      obtain ⟨b, hb, hR⟩ := exists_right_of_mem hrest ha
      exact (hPQ _ _ _ _ hfirst hR).mpr (hQ b hb)

end

/-! ### Keyed entries -/

/-- Checks documents in order, behind the entries that are already accepted. A key that is already
there is refused. -/
def checkKeyed (check : δ → Except ε (String × β)) (repeated : String → ε)
    (accepted : List (String × β)) : List δ → Except ε (List (String × β))
  | [] => .ok accepted
  | d :: ds => do
    let entry ← check d
    if (accepted.lookup entry.1).isSome then .error (repeated entry.1)
    else checkKeyed check repeated (accepted ++ [entry]) ds

section

variable {check : δ → Except ε (String × β)} {repeated : String → ε} {ds : List δ}
  {accepted entries : List (String × β)}

theorem nodup_keys_append_singleton {entry : String × β} :
    ((accepted ++ [entry]).map Prod.fst).Nodup ↔
      entry.1 ∉ accepted.map Prod.fst ∧ (accepted.map Prod.fst).Nodup := by
  rw [List.map_append, List.map_singleton, ← List.concat_eq_append, List.nodup_concat]

/-- Documents are accepted if each of them is valid and each key is there once. -/
theorem checkKeyed_eq_ok_iff (haccepted : (accepted.map Prod.fst).Nodup) :
    checkKeyed check repeated accepted ds = .ok entries ↔
      ∃ new, List.Forall₂ (fun d entry => check d = .ok entry) ds new ∧
        ((accepted ++ new).map Prod.fst).Nodup ∧ entries = accepted ++ new := by
  induction ds generalizing accepted with
  | nil => simp [checkKeyed, haccepted, eq_comm]
  | cons d ds ih =>
    simp only [checkKeyed, bind_eq_ok_iff, List.forall₂_cons_left_iff]
    constructor
    · rintro ⟨entry, hentry, hrest⟩
      split at hrest
      next => cases hrest
      next hfresh =>
        rw [Bool.not_eq_true, Option.isSome_eq_false_iff, Option.isNone_iff_eq_none,
          lookup_eq_none_iff_not_mem] at hfresh
        obtain ⟨new, hnew, hnodup, rfl⟩ :=
          (ih (nodup_keys_append_singleton.mpr ⟨hfresh, haccepted⟩)).mp hrest
        rw [List.append_assoc] at hnodup
        exact ⟨entry :: new, ⟨entry, new, hentry, hnew, rfl⟩, hnodup, by simp⟩
    · rintro ⟨_, ⟨entry, new, hentry, hnew, rfl⟩, hnodup, rfl⟩
      rw [List.append_cons] at hnodup
      have haccepted' : ((accepted ++ [entry]).map Prod.fst).Nodup := by
        rw [List.map_append] at hnodup
        exact (List.nodup_append.mp hnodup).1
      refine ⟨entry, hentry, ?_⟩
      rw [lookup_eq_none_iff_not_mem.mpr (nodup_keys_append_singleton.mp haccepted').1]
      exact (ih haccepted').mpr ⟨new, hnew, hnodup, List.append_cons ..⟩

theorem checkKeyed_nil_eq_ok_iff :
    checkKeyed check repeated [] ds = .ok entries ↔
      List.Forall₂ (fun d entry => check d = .ok entry) ds entries ∧
        (entries.map Prod.fst).Nodup := by
  rw [checkKeyed_eq_ok_iff (by simp)]
  constructor
  · rintro ⟨new, hnew, hnodup, rfl⟩
    exact ⟨hnew, hnodup⟩
  · rintro ⟨hnew, hnodup⟩
    exact ⟨entries, hnew, hnodup, rfl⟩

/-! ### Refused entries -/

/-- A document is refused behind accepted entries: it is not valid, or one of them has its key. -/
def Refused (check : δ → Except ε (String × β)) (repeated : String → ε)
    (accepted : List (String × β)) (d : δ) (e : ε) : Prop :=
  check d = .error e ∨
    ∃ entry, check d = .ok entry ∧ entry.1 ∈ accepted.map Prod.fst ∧ repeated entry.1 = e

/-- What the first document does: it is refused itself, or it is accepted and a later one is
refused. -/
theorem checkKeyed_cons_eq_error_iff {d : δ} {e : ε} :
    checkKeyed check repeated accepted (d :: ds) = .error e ↔
      Refused check repeated accepted d e ∨ ∃ entry, check d = .ok entry ∧
        entry.1 ∉ accepted.map Prod.fst ∧
        checkKeyed check repeated (accepted ++ [entry]) ds = .error e := by
  rw [checkKeyed, Refused]
  cases hcheck : check d with
  | error e' =>
    change Except.error e' = _ ↔ _
    simp
  | ok entry =>
    change (if _ then _ else _) = _ ↔ _
    have hthere : (accepted.lookup entry.1).isSome ↔ entry.1 ∈ accepted.map Prod.fst := by
      rw [Option.isSome_iff_ne_none, ne_eq, lookup_eq_none_iff_not_mem, not_not]
    simp only [hthere, Except.ok.injEq, exists_eq_left', reduceCtorEq, false_or]
    split
    next h => simp [h]
    next h => simp [h]

/-- A document is refused behind documents that are accepted. -/
theorem checkKeyed_eq_error_iff {e : ε} (haccepted : (accepted.map Prod.fst).Nodup) :
    checkKeyed check repeated accepted ds = .error e ↔
      ∃ before d after new, ds = before ++ d :: after ∧
        List.Forall₂ (fun d entry => check d = .ok entry) before new ∧
        ((accepted ++ new).map Prod.fst).Nodup ∧
        Refused check repeated (accepted ++ new) d e := by
  induction ds generalizing accepted with
  | nil => simp [checkKeyed]
  | cons d ds ih =>
    rw [checkKeyed_cons_eq_error_iff]
    constructor
    · rintro (hrefused | ⟨entry, hentry, hfresh, hrest⟩)
      · exact ⟨[], d, ds, [], rfl, .nil, by simpa using haccepted, by simpa using hrefused⟩
      · obtain ⟨before, d', after, new, rfl, hbefore, hnodup, hrefused⟩ :=
          (ih (nodup_keys_append_singleton.mpr ⟨hfresh, haccepted⟩)).mp hrest
        rw [← List.append_cons] at hnodup hrefused
        exact ⟨d :: before, d', after, entry :: new, rfl, .cons hentry hbefore, hnodup, hrefused⟩
    · rintro ⟨before, d', after, new, hds, hbefore, hnodup, hrefused⟩
      cases hbefore with
      | nil =>
        obtain ⟨rfl, -⟩ := List.cons.inj hds
        exact .inl (by simpa using hrefused)
      | @cons first entry before new hentry hbefore =>
        obtain ⟨rfl, rfl⟩ := List.cons.inj hds
        rw [List.append_cons] at hnodup hrefused
        have haccepted' : ((accepted ++ [entry]).map Prod.fst).Nodup := by
          rw [List.map_append] at hnodup
          exact (List.nodup_append.mp hnodup).1
        exact .inr ⟨entry, hentry, (nodup_keys_append_singleton.mp haccepted').1,
          (ih haccepted').mpr ⟨before, d', after, new, rfl, hbefore, hnodup, hrefused⟩⟩

end

/-! ### Keys of documents -/

section

variable {κ : Type} {check : δ → Except ε (String × β)} {repeated : String → ε} {key : δ → κ}
  {ds : List δ}

theorem pairwise_key_iff_nodup {entries : List (String × β)}
    (hkeyed : ∀ d d' e e', check d = .ok e → check d' = .ok e' → (key d = key d' ↔ e.1 = e'.1))
    (h : List.Forall₂ (fun d entry => check d = .ok entry) ds entries) :
    ds.Pairwise (key · ≠ key ·) ↔ (entries.map Prod.fst).Nodup := by
  rw [List.Nodup, List.pairwise_map]
  exact pairwise_iff_of_forall₂ h fun d d' e e' he he' => (hkeyed d d' e e' he he').not

/-- Documents that show their keys are accepted if each is valid and no two of them show one key. -/
theorem exists_checkKeyed_eq_ok_iff
    (hkeyed : ∀ d d' e e', check d = .ok e → check d' = .ok e' → (key d = key d' ↔ e.1 = e'.1)) :
    (∃ entries, checkKeyed check repeated [] ds = .ok entries) ↔
      (∀ d ∈ ds, ∃ e, check d = .ok e) ∧ ds.Pairwise (key · ≠ key ·) := by
  simp only [checkKeyed_nil_eq_ok_iff, ← exists_forall₂_iff]
  constructor
  · rintro ⟨entries, hentries, hnodup⟩
    exact ⟨⟨entries, hentries⟩, (pairwise_key_iff_nodup hkeyed hentries).mpr hnodup⟩
  · rintro ⟨⟨entries, hentries⟩, hapart⟩
    exact ⟨entries, hentries, (pairwise_key_iff_nodup hkeyed hentries).mp hapart⟩

/-- Documents whose check only looks at them are accepted with the keys and contents they have. -/
theorem checkKeyed_nil_eq_ok_iff_of_check {valid : δ → Prop} {name : δ → String}
    {content : δ → β} {entries : List (String × β)}
    (hcheck : ∀ d entry, check d = .ok entry ↔ valid d ∧ entry = (name d, content d)) :
    checkKeyed check repeated [] ds = .ok entries ↔
      (∀ d ∈ ds, valid d) ∧ (ds.map name).Nodup ∧
        entries = ds.map fun d => (name d, content d) := by
  have hentries : List.Forall₂ (fun d entry => check d = .ok entry) ds entries ↔
      (∀ d ∈ ds, valid d) ∧ ds.map (fun d => (name d, content d)) = entries := by
    rw [← List.forall₂_eq_eq_eq, List.forall₂_map_left_iff, ← List.forall₂_and_left]
    simp only [hcheck, eq_comm]
  rw [checkKeyed_nil_eq_ok_iff, hentries]
  constructor
  · rintro ⟨⟨hvalid, rfl⟩, hnodup⟩
    rw [List.map_map] at hnodup
    exact ⟨hvalid, hnodup, rfl⟩
  · rintro ⟨hvalid, hnodup, rfl⟩
    refine ⟨⟨hvalid, rfl⟩, ?_⟩
    rw [List.map_map]
    exact hnodup

/-- The document that is refused is the first one that is not valid or shows the key of a document
before it. -/
theorem checkKeyed_nil_eq_error_iff
    (hkeyed : ∀ d d' e e', check d = .ok e → check d' = .ok e' → (key d = key d' ↔ e.1 = e'.1))
    {e : ε} :
    checkKeyed check repeated [] ds = .error e ↔
      ∃ before d after, ds = before ++ d :: after ∧
        ((∀ o ∈ before, ∃ entry, check o = .ok entry) ∧ before.Pairwise (key · ≠ key ·)) ∧
        (check d = .error e ∨ ∃ entry, check d = .ok entry ∧ (∃ o ∈ before, key o = key d) ∧
          repeated entry.1 = e) := by
  rw [checkKeyed_eq_error_iff (by simp)]
  refine exists_congr fun before => exists_congr fun d => exists_congr fun after => ?_
  simp only [List.nil_append, exists_and_left, ← exists_forall₂_iff]
  refine and_congr_right fun _ => ?_
  constructor
  · rintro ⟨new, hnew, hnodup, hrefused⟩
    refine ⟨⟨⟨new, hnew⟩, (pairwise_key_iff_nodup hkeyed hnew).mpr hnodup⟩, ?_⟩
    refine hrefused.imp_right ?_
    rintro ⟨entry, h, hthere, rfl⟩
    obtain ⟨other, hother, hsame⟩ := List.mem_map.mp hthere
    obtain ⟨o, ho, hcheck⟩ := exists_left_of_mem hnew hother
    exact ⟨entry, h, ⟨o, ho, (hkeyed o d other entry hcheck h).mpr hsame⟩, rfl⟩
  · rintro ⟨⟨⟨new, hnew⟩, hapart⟩, hrefused⟩
    refine ⟨new, hnew, (pairwise_key_iff_nodup hkeyed hnew).mp hapart, ?_⟩
    refine hrefused.imp_right ?_
    rintro ⟨entry, h, ⟨o, ho, hsame⟩, rfl⟩
    obtain ⟨other, hother, hcheck⟩ := exists_right_of_mem hnew ho
    exact ⟨entry, h, List.mem_map.mpr ⟨other, hother, (hkeyed o d other entry hcheck h).mp hsame⟩,
      rfl⟩

end

/-! ### Layers of a type map -/

namespace TypeMap

theorem validateLayer_eq_checkKeyed (layer : Layer) (accepted : List (String × TypeMapping))
    (ds : List MappingDocument) :
    validateLayer layer accepted ds =
      checkKeyed (·.validate layer) (.repeatedKey layer) accepted ds := by
  induction ds generalizing accepted with
  | nil => rfl
  | cons d ds ih =>
    simp only [validateLayer, checkKeyed, ih]
    refine bind_congr fun entry => ?_
    split <;> rfl

/-- A mapping document is valid if it has a key and some types, at most one of them for the
result. -/
theorem MappingDocument.validate_eq_ok_iff {layer : Layer} {d : MappingDocument} {key : String}
    {mapping : TypeMapping} :
    d.validate layer = .ok (key, mapping) ↔
      d.key? = some key ∧ ∃ entries, d.types? = some entries ∧ entries ≠ [] ∧
        entries.countP (·.isResult) ≤ 1 ∧ mapping = MappingDocument.mapping entries := by
  unfold MappingDocument.validate
  cases d.key? with
  | none => simp
  | some key' =>
    cases d.types? with
    | none => simp
    | some entries =>
      simp only [Option.some.injEq, exists_eq_left']
      split
      next hempty => simp [List.isEmpty_iff.mp hempty]
      next hne =>
        split
        next hseveral =>
          refine iff_of_false (by simp) ?_
          rintro ⟨-, -, hone, -⟩
          omega
        next hone =>
          rw [Except.ok.injEq, Prod.mk.injEq]
          have hne' : entries ≠ [] := fun h => hne (List.isEmpty_iff.mpr h)
          have hone' : entries.countP (·.isResult) ≤ 1 := by omega
          simp only [hne', hone', ne_eq, not_false_eq_true, true_and, eq_comm]

theorem MappingDocument.key?_eq_of_validate {layer : Layer} {d : MappingDocument}
    {entry : String × TypeMapping}
    (h : d.validate layer = .ok entry) : d.key? = some entry.1 :=
  (validate_eq_ok_iff.mp h).1

theorem MappingDocument.keyed (layer : Layer) (d d' : MappingDocument)
    (e e' : String × TypeMapping) (h : d.validate layer = .ok e) (h' : d'.validate layer = .ok e') :
    d.key? = d'.key? ↔ e.1 = e'.1 := by
  rw [key?_eq_of_validate h, key?_eq_of_validate h', Option.some.injEq]

end TypeMap

/-! ### Rules of a policy -/

namespace Policy

/-- The key and the rule of a class document. -/
def ClassDocument.check (d : ClassDocument) : Except Fault (String × ClassRule) :=
  if d.shapes? = some [] then .error (.emptyClassShapes d.className)
  else .ok (d.className, d.rule)

/-- The key and the rule of an instruction document. -/
def InstructionDocument.check (d : InstructionDocument) :
    Except Fault (String × InstructionRule) :=
  if d.rule.shapes? = some [] then .error (.emptyInstructionShapes d.opname)
  else .ok (d.opname, d.rule)

theorem ClassDocument.check_eq_ok_iff {d : ClassDocument} {entry : String × ClassRule} :
    d.check = .ok entry ↔ d.shapes? ≠ some [] ∧ entry = (d.className, d.rule) := by
  unfold ClassDocument.check
  split <;> simp_all [eq_comm]

theorem InstructionDocument.check_eq_ok_iff {d : InstructionDocument}
    {entry : String × InstructionRule} :
    d.check = .ok entry ↔ d.rule.shapes? ≠ some [] ∧ entry = (d.opname, d.rule) := by
  unfold InstructionDocument.check
  split <;> simp_all [eq_comm]

theorem validateClasses_eq_checkKeyed (accepted : List (String × ClassRule))
    (ds : List ClassDocument) :
    validateClasses accepted ds = checkKeyed (·.check) .repeatedClass accepted ds := by
  induction ds generalizing accepted with
  | nil => rfl
  | cons d ds ih =>
    simp only [validateClasses, checkKeyed, ClassDocument.check, ih]
    split <;> rfl

theorem validateInstructions_eq_checkKeyed (accepted : List (String × InstructionRule))
    (ds : List InstructionDocument) :
    validateInstructions accepted ds = checkKeyed (·.check) .repeatedInstruction accepted ds := by
  induction ds generalizing accepted with
  | nil => rfl
  | cons d ds ih =>
    simp only [validateInstructions, checkKeyed, InstructionDocument.check, ih]
    split <;> rfl

/-- Classes are accepted with their rules, if no list of shapes is empty and none is there twice. -/
theorem validateClasses_eq_ok_iff {ds : List ClassDocument} {rules : List (String × ClassRule)} :
    validateClasses [] ds = .ok rules ↔
      (∀ d ∈ ds, d.shapes? ≠ some []) ∧ (ds.map (·.className)).Nodup ∧
        rules = ds.map fun d => (d.className, d.rule) := by
  rw [validateClasses_eq_checkKeyed]
  exact checkKeyed_nil_eq_ok_iff_of_check fun _ _ => ClassDocument.check_eq_ok_iff

theorem validateInstructions_eq_ok_iff {ds : List InstructionDocument}
    {rules : List (String × InstructionRule)} :
    validateInstructions [] ds = .ok rules ↔
      (∀ d ∈ ds, d.rule.shapes? ≠ some []) ∧ (ds.map (·.opname)).Nodup ∧
        rules = ds.map fun d => (d.opname, d.rule) := by
  rw [validateInstructions_eq_checkKeyed]
  exact checkKeyed_nil_eq_ok_iff_of_check fun _ _ => InstructionDocument.check_eq_ok_iff

/-- Sections are accepted as they are, if none is there twice. -/
theorem validateSections_eq_ok_iff {accepted kinds ss : List SectionKind}
    (haccepted : accepted.Nodup) :
    validateSections accepted ss = .ok kinds ↔ (accepted ++ ss).Nodup ∧ kinds = accepted ++ ss := by
  induction ss generalizing accepted with
  | nil => simp [validateSections, haccepted, eq_comm]
  | cons s ss ih =>
    have hsplit : accepted ++ s :: ss = accepted ++ [s] ++ ss := by simp
    rw [validateSections]
    split
    next hthere =>
      refine iff_of_false (by simp) ?_
      rintro ⟨hnodup, -⟩
      exact (List.nodup_append.mp hnodup).2.2 s (by simpa using hthere) s (by simp) rfl
    next hfresh =>
      have haccepted' : (accepted ++ [s]).Nodup := by
        rw [List.nodup_append]
        refine ⟨haccepted, List.nodup_singleton s, ?_⟩
        rintro a ha _ hs rfl
        exact hfresh (by simpa [List.mem_singleton.mp hs] using ha)
      rw [ih haccepted', ← hsplit]

end Policy

/-! ### Builtin variables -/

theorem BuiltinTable.validateEntries_eq_checkKeyed (accepted : List (String × Builtin))
    (ds : List EntryDocument) :
    validateEntries accepted ds =
      checkKeyed (fun d => .ok (d.name, d.builtin)) .repeated accepted ds := by
  induction ds generalizing accepted with
  | nil => rfl
  | cons d ds ih =>
    simp only [validateEntries, checkKeyed, ih]
    rfl

/-! ### Texts -/

/-- What becomes of a text that can be decoded is decided by the validation of its document. -/
theorem DocumentKind.parse_of_decoded {k : DocumentKind β} {decoder : Json.Decoder δ}
    {validate : δ → Except ε β} {cause : ε → Cause}
    (hk : ∀ source, k.ofText source = (decoder.document source).mapError .json >>= fun d =>
      (validate d).mapError cause)
    {source : String} {d : δ} (h : decoder.document source = .ok d) :
    k.parse source = (validate d).mapError fun fault => ⟨[], cause fault⟩ := by
  rw [DocumentKind.parse, hk, h]
  change ((validate d).mapError cause).mapError _ = _
  cases validate d <;> rfl

end SpirvBindings
