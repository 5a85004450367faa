import Mathlib.Data.List.Perm.Basic
import SpirvBindings.Proofs.Configuration.Validation

/-! Lists that differ by their order, by changes of their members, and by members that are added to
either of them. If the changes keep keys and contents alike, and the added members are valid and
have keys of their own, such lists of keyed documents are accepted alike. Then the same is found
under each key that no added member has. -/

namespace SpirvBindings

variable {α β δ ε κ τ : Type}

/-! ### Rearranged lists -/

/-- The members that are added to a list. Each of them is new, and apart from the members of the
list and from the others. -/
structure Additions (New : α → Prop) (Apart : α → α → Prop) (common added : List α) : Prop where
  new : ∀ a ∈ added, New a
  fresh : ∀ c ∈ common, ∀ a ∈ added, Apart c a
  apart : added.Pairwise Apart

/-- Two lists have, each in an order of its own, members that are related in pairs, and additions. -/
inductive Rearranged (S : α → α → Prop) (New : α → Prop) (Apart : α → α → Prop) (as bs : List α) :
    Prop
  | intro {common common' added added' : List α} (left : as.Perm (common ++ added))
    (right : bs.Perm (common' ++ added')) (related : List.Forall₂ S common common')
    (additions : Additions New Apart common added)
    (additions' : Additions New Apart common' added')

section

variable {S : α → α → Prop} {New : α → Prop} {Apart : α → α → Prop} {as bs : List α}

theorem Additions.none (common : List α) : Additions New Apart common [] :=
  ⟨by simp, by simp, .nil⟩

theorem Rearranged.symm (h : Rearranged S New Apart as bs) :
    Rearranged (flip S) New Apart bs as := by
  obtain ⟨left, right, related, additions, additions'⟩ := h
  exact ⟨right, left, related.flip, additions', additions⟩

theorem Rearranged.of_perm (hS : ∀ a, S a a) (h : as.Perm bs) : Rearranged S New Apart as bs :=
  ⟨by rw [List.append_nil], by rw [List.append_nil]; exact h.symm, List.forall₂_same.mpr
    fun a _ => hS a, .none as, .none as⟩

end

/-! ### Filtered lists -/

section

variable {p : α → Bool} {as bs : List α}

/-- What occurs at most once is found alike in every order. -/
theorem filter_eq_of_perm (h : as.Perm bs) (hone : (as.filter p).length ≤ 1) :
    as.filter p = bs.filter p := by
  have hperm := h.filter p
  generalize as.filter p = cs at hone hperm
  match cs with
  | [] => exact (List.perm_nil.mp hperm.symm).symm
  | [c] => exact (List.perm_singleton.mp hperm.symm).symm
  | _ :: _ :: _ => simp at hone

/-- Of members with different keys, at most one has a given key. -/
theorem length_filter_le_one {key : α → κ} (h : as.Pairwise (key · ≠ key ·))
    (hp : ∀ a b, p a → p b → key a = key b) : (as.filter p).length ≤ 1 := by
  have hpairwise := h.filter p
  have hmem : ∀ a ∈ as.filter p, p a := fun a ha => (List.mem_filter.mp ha).2
  generalize as.filter p = cs at hpairwise hmem
  match cs with
  | [] => exact Nat.zero_le 1
  | [_] => exact Nat.le_refl 1
  | a :: b :: _ =>
    have hne := (List.pairwise_cons.mp hpairwise).1 b List.mem_cons_self
    exact absurd (hp a b (hmem a (by simp)) (hmem b (by simp))) hne

end

/-! ### Corresponding members -/

section

variable {R : τ → α → Prop} {ts : List τ} {as : List α}

theorem forall₂_append_left_iff {us : List τ} :
    List.Forall₂ R (ts ++ us) as ↔
      ∃ bs cs, as = bs ++ cs ∧ List.Forall₂ R ts bs ∧ List.Forall₂ R us cs := by
  constructor
  · intro h
    induction ts generalizing as with
    | nil => exact ⟨[], as, rfl, .nil, h⟩
    | cons t ts ih =>
      obtain ⟨a, as, ha, has, rfl⟩ := List.forall₂_cons_left_iff.mp h
      obtain ⟨bs, cs, rfl, hbs, hcs⟩ := ih has
      exact ⟨a :: bs, cs, rfl, .cons ha hbs, hcs⟩
  · rintro ⟨bs, cs, rfl, hbs, hcs⟩
    exact List.rel_append hbs hcs

end

/-- Additions stay additions in what corresponds to them, each member to one. -/
theorem Additions.corresponding {R : τ → α → Prop} {New : α → Prop} {Apart : α → α → Prop}
    (hR : ∀ t a b, R t a → R t b → a = b) {ts us : List τ} {as bs : List α}
    (h : Additions (fun t => ∃ a, R t a ∧ New a) (fun t u => ∀ a b, R t a → R u b → Apart a b) ts us)
    (hts : List.Forall₂ R ts as) (hus : List.Forall₂ R us bs) : Additions New Apart as bs := by
  refine ⟨?_, ?_, ?_⟩
  · intro b hb
    obtain ⟨u, hu, hub⟩ := exists_left_of_mem hus hb
    obtain ⟨a, hua, hnew⟩ := h.new u hu
    rwa [hR u b a hub hua]
  · intro a ha b hb
    obtain ⟨t, ht, hta⟩ := exists_left_of_mem hts ha
    obtain ⟨u, hu, hub⟩ := exists_left_of_mem hus hb
    exact h.fresh t ht u hu a b hta hub
  · refine (pairwise_iff_of_forall₂ hus fun t u a b hta hub => ?_).mp h.apart
    refine ⟨fun hapart => hapart a b hta hub, fun hapart a' b' hta' hub' => ?_⟩
    rwa [hR t a' a hta' hta, hR u b' b hub' hub]

/-- Related lists correspond to related lists. -/
theorem exists_forall₂_of_related {R : τ → α → Prop} {T : τ → τ → Prop} {S : α → α → Prop}
    (hT : ∀ t u a, T t u → R t a → ∃ b, R u b ∧ S a b) {ts us : List τ} {as : List α}
    (h : List.Forall₂ T ts us) (hts : List.Forall₂ R ts as) :
    ∃ bs, List.Forall₂ R us bs ∧ List.Forall₂ S as bs := by
  induction h generalizing as with
  | nil =>
    cases hts
    exact ⟨[], .nil, .nil⟩
  | cons hfirst _ ih =>
    obtain ⟨a, as, ha, has, rfl⟩ := List.forall₂_cons_left_iff.mp hts
    obtain ⟨b, hb, hab⟩ := hT _ _ a hfirst ha
    obtain ⟨bs, hbs, hS⟩ := ih has
    exact ⟨b :: bs, .cons hb hbs, .cons hab hS⟩

/-- What corresponds to a list, a member to a member, can be rearranged as the list is. -/
theorem Rearranged.exists_corresponding {R : τ → α → Prop} {T : τ → τ → Prop} {S : α → α → Prop}
    {New : α → Prop} {Apart : α → α → Prop} (hR : ∀ t a b, R t a → R t b → a = b)
    (hT : ∀ t u a, T t u → R t a → ∃ b, R u b ∧ S a b) {ts us : List τ} {as : List α}
    (h : Rearranged T (fun t => ∃ a, R t a ∧ New a) (fun t u => ∀ a b, R t a → R u b → Apart a b)
      ts us) (hts : List.Forall₂ R ts as) :
    ∃ bs, List.Forall₂ R us bs ∧ Rearranged S New Apart as bs := by
  cases h with
  | @intro common common' added added' left right related hadded hadded' =>
    obtain ⟨_, hall, hperm⟩ := List.perm_comp_forall₂ left.symm hts
    obtain ⟨ac, aa, rfl, hac, haa⟩ := forall₂_append_left_iff.mp hall
    obtain ⟨bc, hbc, hS⟩ := exists_forall₂_of_related hT related hac
    obtain ⟨ba, hba⟩ : ∃ ba, List.Forall₂ R added' ba := by
      rw [exists_forall₂_iff]
      intro u hu
      obtain ⟨b, hb, -⟩ := hadded'.new u hu
      exact ⟨b, hb⟩
    obtain ⟨bs, hbs, hperm'⟩ := List.perm_comp_forall₂ right (List.rel_append hbc hba)
    exact ⟨bs, hbs, hperm.symm, hperm', hS, hadded.corresponding hR hac haa,
      hadded'.corresponding hR hbc hba⟩

/-! ### Keyed documents -/

/-- The check of documents cannot tell related documents apart, accepts new ones under keys that are
not known, and finds the key that a document shows. -/
structure ChecksAlike (check : δ → Except ε (String × β)) (S : δ → δ → Prop) (New : δ → Prop)
    (key : δ → κ) (M : β → β → Prop) (known : String → Prop) : Prop where
  related : ∀ d d', S d d' → Corresponds (fun e e' => e.1 = e'.1 ∧ M e.2 e'.2) (check d) (check d')
  new : ∀ d, New d → ∃ e, check d = .ok e ∧ ¬ known e.1
  keyed : ∀ d d' e e', check d = .ok e → check d' = .ok e' → (key d = key d' ↔ e.1 = e'.1)

variable {check : δ → Except ε (String × β)} {repeated : String → ε} {S : δ → δ → Prop}
  {New : δ → Prop} {key : δ → κ} {M : β → β → Prop} {known : String → Prop} {ds ds' : List δ}

theorem ChecksAlike.symm (h : ChecksAlike check S New key M known) :
    ChecksAlike check (flip S) New key (flip M) known := by
  refine ⟨fun d d' hS => ?_, h.new, h.keyed⟩
  exact (h.related d' d hS).symm.imp fun _ _ ⟨hkey, hM⟩ => ⟨hkey.symm, hM⟩

/-- Keyed documents are accepted if each is valid and no two of them show one key. -/
theorem ChecksAlike.accepts_iff (h : ChecksAlike check S New key M known) :
    (∃ es, checkKeyed check repeated [] ds = .ok es) ↔
      (∀ d ∈ ds, ∃ e, check d = .ok e) ∧ ds.Pairwise (key · ≠ key ·) :=
  exists_checkKeyed_eq_ok_iff h.keyed

/-- Additions do not decide whether documents are accepted. -/
theorem ChecksAlike.accepts_iff_of_additions (h : ChecksAlike check S New key M known)
    {common added : List δ} (hds : ds.Perm (common ++ added))
    (hadded : Additions New (key · ≠ key ·) common added) :
    (∃ es, checkKeyed check repeated [] ds = .ok es) ↔
      ∃ es, checkKeyed check repeated [] common = .ok es := by
  have hnew : ∀ d ∈ added, ∃ e, check d = .ok e := by
    intro d hd
    obtain ⟨e, he, -⟩ := h.new d (hadded.new d hd)
    exact ⟨e, he⟩
  rw [h.accepts_iff, h.accepts_iff, hds.pairwise_iff fun hne => Ne.symm hne, List.pairwise_append]
  simp only [hds.mem_iff, List.mem_append, or_imp, forall_and]
  constructor
  · rintro ⟨⟨hcommon, -⟩, hapart, -⟩
    exact ⟨hcommon, hapart⟩
  · rintro ⟨hcommon, hapart⟩
    exact ⟨⟨hcommon, hnew⟩, hapart, hadded.apart, hadded.fresh⟩

/-- Under a key that is known, only members of the common part are found. -/
theorem ChecksAlike.lookup_eq_some_iff (h : ChecksAlike check S New key M known)
    {common added : List δ} (hds : ds.Perm (common ++ added))
    (hadded : Additions New (key · ≠ key ·) common added) {es : List (String × β)}
    (hes : checkKeyed check repeated [] ds = .ok es) {k : String} (hk : known k) {v : β} :
    es.lookup k = some v ↔ ∃ d ∈ common, check d = .ok (k, v) := by
  obtain ⟨hforall, hnodup⟩ := checkKeyed_nil_eq_ok_iff.mp hes
  rw [lookup_eq_some_iff_mem hnodup]
  constructor
  · intro hmem
    obtain ⟨d, hd, hcheck⟩ := exists_left_of_mem hforall hmem
    rcases List.mem_append.mp (hds.mem_iff.mp hd) with hcommon | hnew
    · exact ⟨d, hcommon, hcheck⟩
    · obtain ⟨e, he, hunknown⟩ := h.new d (hadded.new d hnew)
      rw [hcheck, Except.ok.injEq] at he
      exact absurd (he ▸ hk) hunknown
  · rintro ⟨d, hd, hcheck⟩
    obtain ⟨e, he, hcheck'⟩ := exists_right_of_mem hforall
      (hds.mem_iff.mpr (List.mem_append_left _ hd))
    rw [hcheck, Except.ok.injEq] at hcheck'
    rwa [hcheck']

theorem ChecksAlike.exists_of_related (h : ChecksAlike check S New key M known) {d d' : δ}
    (hS : S d d') {e : String × β} (he : check d = .ok e) :
    ∃ v, check d' = .ok (e.1, v) ∧ M e.2 v := by
  have hrelated := h.related d d' hS
  rw [he] at hrelated
  generalize check d' = x at hrelated
  cases hrelated with
  | @ok _ e' hM =>
    obtain ⟨k, v⟩ := e'
    obtain ⟨rfl, hM⟩ := hM
    exact ⟨v, rfl, hM⟩

theorem ChecksAlike.accepts_of_forall₂ (h : ChecksAlike check S New key M known)
    (hds : List.Forall₂ S ds ds') (haccepts : ∃ es, checkKeyed check repeated [] ds = .ok es) :
    ∃ es, checkKeyed check repeated [] ds' = .ok es := by
  simp only [checkKeyed_nil_eq_ok_iff] at haccepts ⊢
  obtain ⟨es, hes, hnodup⟩ := haccepts
  obtain ⟨es', hes', hsame⟩ := exists_forall₂_of_related (S := fun e e' => e.1 = e'.1)
    (fun d d' e hS he => by
      obtain ⟨v, hv, -⟩ := h.exists_of_related hS he
      exact ⟨(e.1, v), hv, rfl⟩) hds hes
  have hkeys : es.map Prod.fst = es'.map Prod.fst := by
    rw [← List.forall₂_eq_eq_eq, List.forall₂_map_left_iff, List.forall₂_map_right_iff]
    exact hsame
  exact ⟨es', hes', hkeys ▸ hnodup⟩

/-- Rearranged documents are accepted alike, and agree under all keys that are known. -/
theorem checkKeyed_corresponds (h : ChecksAlike check S New key M known)
    (hds : Rearranged S New (key · ≠ key ·) ds ds') :
    Corresponds (fun es es' => ∀ k, known k → Option.Rel M (es.lookup k) (es'.lookup k))
      (checkKeyed check repeated [] ds) (checkKeyed check repeated [] ds') := by
  obtain ⟨left, right, hcommon, hadded, hadded'⟩ := hds
  have haccepts : (∃ es, checkKeyed check repeated [] ds = .ok es) ↔
      ∃ es, checkKeyed check repeated [] ds' = .ok es := by
    rw [h.accepts_iff_of_additions left hadded, h.accepts_iff_of_additions right hadded']
    exact ⟨h.accepts_of_forall₂ hcommon, h.symm.accepts_of_forall₂ hcommon.flip⟩
  refine .of_matched (fun es hes => ?_) fun es' hes' => haccepts.mpr ⟨es', hes'⟩
  obtain ⟨es', hes'⟩ := haccepts.mp ⟨es, hes⟩
  refine ⟨es', hes', fun k hk => rel_of_matched (fun v hv => ?_) fun w hw => ?_⟩
  · obtain ⟨d, hd, hcheck⟩ := (h.lookup_eq_some_iff left hadded hes hk).mp hv
    obtain ⟨d', hd', hS⟩ := exists_right_of_mem hcommon hd
    obtain ⟨w, hw, hM⟩ := h.exists_of_related hS hcheck
    exact ⟨w, (h.lookup_eq_some_iff right hadded' hes' hk).mpr ⟨d', hd', hw⟩, hM⟩
  · obtain ⟨d', hd', hcheck⟩ := (h.lookup_eq_some_iff right hadded' hes' hk).mp hw
    obtain ⟨d, hd, hS⟩ := exists_left_of_mem hcommon hd'
    obtain ⟨v, hv, -⟩ := h.symm.exists_of_related hS hcheck
    exact ⟨v, (h.lookup_eq_some_iff left hadded hes hk).mpr ⟨d, hd, hv⟩⟩

end SpirvBindings
