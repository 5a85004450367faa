import Mathlib.Data.String.Basic
import SpirvBindings.Proofs.Associations
import SpirvBindings.Proofs.Json.Printing

/-! Values that are printed and read back. The value of a tree has the members of each object in the
order of their keys, each key once, and is not nested deeper than the tree. A value like that whose
numbers are integers of a word of 64 bits is the value of the tree that it is read as, so that it
survives being printed. -/

namespace SpirvBindings.Json

/-- Whether a number is an integer that a signed or an unsigned word of 64 bits can hold. -/
def Number.isWord : Number → Bool
  | .integer n => -2 ^ 63 ≤ n && n < 2 ^ 64
  | .double _ _ => false

namespace Value

/-! ### Members -/

/-- Members in the order of their keys, each key once. -/
def Members.IsOrdered (ms : Members) : Prop := ms.Pairwise fun p q => p.1 < q.1

namespace Members

theorem IsOrdered.nodup {ms : Members} (h : ms.IsOrdered) : (ms.map Prod.fst).Nodup :=
  List.pairwise_map.mpr (h.imp fun hlt => hlt.ne)

theorem get?_cons (k : String) (v : Value) (ms : Members) (key : String) :
    get? ((k, v) :: ms) key = if key = k then some v else ms.get? key := by
  unfold get?
  rw [List.lookup_cons]
  split
  next h => rw [if_pos (beq_iff_eq.mp h)]
  next h => rw [if_neg (beq_eq_false_iff_ne.mp h)]

theorem mem_of_get? {ms : Members} {key : String} {v : Value} (h : ms.get? key = some v) :
    (key, v) ∈ ms :=
  mem_of_lookup h

theorem get?_isSome_iff {ms : Members} {key : String} :
    (ms.get? key).isSome ↔ key ∈ ms.map Prod.fst := by
  rw [Option.isSome_iff_ne_none, get?, ne_eq, lookup_eq_none_iff_not_mem, not_not]

/-- With each key once, a member is what is found under its key. -/
theorem get?_of_mem {ms : Members} (hnodup : (ms.map Prod.fst).Nodup) {key : String} {v : Value}
    (h : (key, v) ∈ ms) : ms.get? key = some v :=
  (lookup_eq_some_iff_mem hnodup).mpr h

theorem get?_modify (key : String) (f : Value → Value) (ms : Members) (other : String) :
    (ms.modify key f).get? other =
      if other = key then (ms.get? other).map f else ms.get? other := by
  induction ms with
  | nil => simp [modify, get?]
  | cons p ms ih =>
    obtain ⟨k, v⟩ := p
    by_cases hk : k = key <;> by_cases hother : other = k <;> by_cases hkey : other = key <;>
      simp_all [modify, get?_cons]

theorem map_fst_modify (key : String) (f : Value → Value) (ms : Members) :
    (ms.modify key f).map Prod.fst = ms.map Prod.fst := by
  induction ms with
  | nil => rfl
  | cons p ms ih =>
    obtain ⟨k, v⟩ := p
    by_cases hk : k = key <;> simp [modify, hk, ih]

theorem modify_modify (key : String) (f g : Value → Value) (ms : Members) :
    (ms.modify key f).modify key g = ms.modify key (g ∘ f) := by
  induction ms with
  | nil => rfl
  | cons p ms ih =>
    obtain ⟨k, v⟩ := p
    by_cases hk : k = key <;> simp [modify, hk, ih]

theorem modify_comm {key key' : String} (hne : key ≠ key') (f g : Value → Value) (ms : Members) :
    (ms.modify key f).modify key' g = (ms.modify key' g).modify key f := by
  induction ms with
  | nil => rfl
  | cons p ms ih =>
    obtain ⟨k, v⟩ := p
    by_cases hk : k = key
    · simp [modify, hk, hne]
    · by_cases hk' : k = key' <;> simp [modify, hk, hk', hne.symm, ih]

theorem modify_eq_self {key : String} {f : Value → Value} {ms : Members}
    (h : ∀ v, ms.get? key = some v → f v = v) : ms.modify key f = ms := by
  induction ms with
  | nil => rfl
  | cons p ms ih =>
    obtain ⟨k, v⟩ := p
    simp only [get?_cons] at h
    unfold modify
    split
    next hk => rw [h v (if_pos hk.symm)]
    next hk =>
      rw [ih]
      rwa [if_neg (Ne.symm hk)] at h

theorem modify_insert {key : String} {ms : Members} (hnew : ms.get? key = none) (v : Value)
    (f : Value → Value) : (ms.insert key v).modify key f = ms.insert key (f v) := by
  induction ms with
  | nil => simp [insert, modify]
  | cons p ms ih =>
    obtain ⟨k, w⟩ := p
    rw [get?_cons] at hnew
    have hkey : key ≠ k := by
      rintro rfl
      simp at hnew
    rw [if_neg hkey] at hnew
    unfold insert
    split
    · simp [modify]
    · simp [modify, hkey.symm, ih hnew]

theorem insert_perm (key : String) (v : Value) (ms : Members) :
    (ms.insert key v).Perm ((key, v) :: ms) := by
  induction ms with
  | nil => exact .refl _
  | cons p ms ih =>
    obtain ⟨k, w⟩ := p
    unfold insert
    split
    · exact .refl _
    · exact (ih.cons _).trans (.swap _ _ _)

theorem get?_insert (key : String) (v : Value) {ms : Members} (hnew : ms.get? key = none)
    (other : String) :
    (ms.insert key v).get? other = if other = key then some v else ms.get? other := by
  induction ms with
  | nil => simp [insert, get?_cons]
  | cons p ms ih =>
    obtain ⟨k, w⟩ := p
    rw [get?_cons] at hnew
    have hkey : key ≠ k := by
      rintro rfl
      simp at hnew
    rw [if_neg hkey] at hnew
    unfold insert
    split
    · rw [get?_cons]
    · rw [get?_cons, ih hnew, get?_cons]
      by_cases hother : other = k
      · rw [if_pos hother, if_neg (fun h => hkey (h.symm.trans hother)), if_pos hother]
      · rw [if_neg hother, if_neg hother]

/-- A new key goes to its place in the order. -/
theorem IsOrdered.insert {ms : Members} (h : ms.IsOrdered) {key : String}
    (hnew : ms.get? key = none) (v : Value) : (ms.insert key v).IsOrdered := by
  induction ms with
  | nil => simp [IsOrdered, Members.insert]
  | cons p ms ih =>
    obtain ⟨k, w⟩ := p
    obtain ⟨hfirst, hrest⟩ := List.pairwise_cons.mp h
    rw [get?_cons] at hnew
    unfold Members.insert
    split
    next hlt =>
      refine List.pairwise_cons.mpr ⟨fun q hq => ?_, h⟩
      rcases List.mem_cons.mp hq with rfl | hq
      · exact hlt
      · exact hlt.trans (hfirst q hq)
    next hnlt =>
      have hkey : key ≠ k := by
        rintro rfl
        simp at hnew
      rw [if_neg hkey] at hnew
      refine List.pairwise_cons.mpr ⟨fun q hq => ?_, ih hrest hnew⟩
      rcases List.mem_cons.mp ((insert_perm key v ms).mem_iff.mp hq) with rfl | hq
      · exact lt_of_le_of_ne (not_lt.mp hnlt) hkey.symm
      · exact hfirst q hq

theorem IsOrdered.modify {ms : Members} (h : ms.IsOrdered) (key : String) (f : Value → Value) :
    (ms.modify key f).IsOrdered := by
  have hkeys : ((ms.modify key f).map Prod.fst).Pairwise (· < ·) := by
    rw [map_fst_modify]
    exact List.pairwise_map.mpr h
  exact List.pairwise_map.mp hkeys

theorem mem_modify {ms : Members} {key : String} {f : Value → Value} {p : String × Value}
    (h : p ∈ ms.modify key f) : p ∈ ms ∨ ∃ v, (key, v) ∈ ms ∧ p = (key, f v) := by
  induction ms with
  | nil => cases h
  | cons q ms ih =>
    obtain ⟨k, v⟩ := q
    unfold modify at h
    split at h
    next hk =>
      subst hk
      rcases List.mem_cons.mp h with rfl | h
      · exact .inr ⟨v, List.mem_cons_self, rfl⟩
      · exact .inl (List.mem_cons_of_mem _ h)
    next =>
      rcases List.mem_cons.mp h with rfl | h
      · exact .inl List.mem_cons_self
      · rcases ih h with hmem | ⟨w, hw, rfl⟩
        · exact .inl (List.mem_cons_of_mem _ hmem)
        · exact .inr ⟨w, List.mem_cons_of_mem _ hw, rfl⟩

theorem mem_put {ms : Members} {key : String} {v : Value} {p : String × Value}
    (h : p ∈ ms.put key v) : p = (key, v) ∨ p ∈ ms := by
  unfold put at h
  split at h
  next =>
    rcases mem_modify h with hmem | ⟨_, -, rfl⟩
    · exact .inr hmem
    · exact .inl rfl
  next => exact List.mem_cons.mp ((insert_perm key v ms).mem_iff.mp h)

theorem get?_put (key : String) (v : Value) (ms : Members) (other : String) :
    (ms.put key v).get? other = if other = key then some v else ms.get? other := by
  unfold put
  split
  next hthere =>
    rw [get?_modify]
    split
    next h =>
      obtain ⟨w, hw⟩ := Option.isSome_iff_exists.mp hthere
      rw [h, hw]
      rfl
    next => rfl
  next hnew => exact get?_insert key v (by simpa using hnew) other

/-- Of two contents that are put under one key the last one stays. -/
theorem put_put (key : String) (v w : Value) (ms : Members) :
    (ms.put key v).put key w = ms.put key w := by
  have hthere : ((ms.put key v).get? key).isSome := by
    rw [get?_put, if_pos rfl]
    rfl
  rw [put, if_pos hthere]
  unfold put
  split
  next => exact modify_modify key _ _ ms
  next hnew => exact modify_insert (by simpa using hnew) v _

theorem IsOrdered.put {ms : Members} (h : ms.IsOrdered) (key : String) (v : Value) :
    (ms.put key v).IsOrdered := by
  unfold Members.put
  split
  next => exact h.modify key _
  next hnew => exact h.insert (by simpa using hnew) v

theorem IsOrdered.putNew {ms : Members} (h : ms.IsOrdered) (key : String) (v : Value) :
    (ms.putNew key v).IsOrdered := by
  unfold Members.putNew
  split
  next => exact h
  next hnew => exact h.insert (by simpa using hnew) v

theorem mem_putNew {ms : Members} {key : String} {v : Value} {p : String × Value}
    (h : p ∈ ms.putNew key v) : p = (key, v) ∨ p ∈ ms := by
  unfold putNew at h
  split at h
  next => exact .inr h
  next => exact List.mem_cons.mp ((insert_perm key v ms).mem_iff.mp h)

theorem get?_putNew (key : String) (v : Value) (ms : Members) (other : String) :
    (ms.putNew key v).get? other =
      if other = key then some ((ms.get? key).getD v) else ms.get? other := by
  unfold putNew
  split
  next hthere =>
    split
    next h =>
      obtain ⟨w, hw⟩ := Option.isSome_iff_exists.mp hthere
      rw [h, hw]
      rfl
    next => rfl
  next hnew =>
    have hnone : ms.get? key = none := by simpa using hnew
    rw [get?_insert key v hnone, hnone]
    rfl

/-- A key below all others comes first. -/
theorem putNew_of_lt {ms : Members} {key : String} (h : ∀ p ∈ ms, key < p.1) (v : Value) :
    ms.putNew key v = (key, v) :: ms := by
  have hnew : ¬ (ms.get? key).isSome := by
    rw [get?_isSome_iff, List.mem_map]
    rintro ⟨p, hp, rfl⟩
    exact lt_irrefl _ (h p hp)
  rw [putNew, if_neg hnew]
  cases ms with
  | nil => rfl
  | cons p ms => exact if_pos (h p List.mem_cons_self)

end Members

/-! ### Values of trees -/

theorem toValues?_cons_eq_some_iff {item : Tree} {rest : Tree.Items} {vs : List Value} :
    (Tree.Items.cons item rest).toValues? = some vs ↔
      ∃ v ws, item.toValue? = some v ∧ rest.toValues? = some ws ∧ v :: ws = vs := by
  simp [Tree.Items.toValues?, Option.bind_eq_some_iff]

theorem toMembers?_cons_eq_some_iff {k? : Option String} {content : Tree} {rest : Tree.Members}
    {ms : Members} : (Tree.Members.cons k? content rest).toMembers? = some ms ↔
      ∃ k v ns, k? = some k ∧ content.toValue? = some v ∧ rest.toMembers? = some ns ∧
        ns.putNew k v = ms := by
  simp [Tree.Members.toMembers?, Option.bind_eq_some_iff]

/-- All objects in a value have their members in the order of their keys, each key once. -/
inductive IsOrdered : Value → Prop
  | null : IsOrdered .null
  | bool (b : Bool) : IsOrdered (.bool b)
  | number (n : Number) : IsOrdered (.number n)
  | string (s : String) : IsOrdered (.string s)
  | array {vs : List Value} (items : ∀ v ∈ vs, IsOrdered v) : IsOrdered (.array vs)
  | object {ms : Members} (order : ms.IsOrdered) (contents : ∀ p ∈ ms, IsOrdered p.2) :
    IsOrdered (.object ms)

mutual

theorem isOrdered_of_toValue? : (t : Tree) → ∀ {v : Value}, t.toValue? = some v → v.IsOrdered
  | .null, _, rfl => .null
  | .bool b, _, rfl => .bool b
  | .number n, _, rfl => .number n
  | .string s, _, rfl => .string s
  | .array items, v, h => by
    obtain ⟨vs, hvs, rfl⟩ := Option.map_eq_some_iff.mp h
    exact .array (isOrdered_of_toValues? items hvs)
  | .object members, v, h => by
    obtain ⟨ms, hms, rfl⟩ := Option.map_eq_some_iff.mp h
    obtain ⟨horder, hcontents⟩ := isOrdered_of_toMembers? members hms
    exact .object horder hcontents

theorem isOrdered_of_toValues? : (items : Tree.Items) → ∀ {vs : List Value},
    items.toValues? = some vs → ∀ v ∈ vs, v.IsOrdered
  | .closed, _, rfl => by simp
  | .cons item rest, vs, h => by
    obtain ⟨v, vs, hv, hvs, rfl⟩ := toValues?_cons_eq_some_iff.mp h
    exact List.forall_mem_cons.mpr ⟨isOrdered_of_toValue? item hv, isOrdered_of_toValues? rest hvs⟩

theorem isOrdered_of_toMembers? : (members : Tree.Members) → ∀ {ms : Members},
    members.toMembers? = some ms → ms.IsOrdered ∧ ∀ p ∈ ms, p.2.IsOrdered
  | .closed, _, rfl => ⟨.nil, by simp⟩
  | .cons key content rest, ms, h => by
    obtain ⟨k, v, ms, -, hv, hms, rfl⟩ := toMembers?_cons_eq_some_iff.mp h
    obtain ⟨horder, hcontents⟩ := isOrdered_of_toMembers? rest hms
    refine ⟨horder.putNew k v, fun p hp => ?_⟩
    rcases Members.mem_putNew hp with rfl | hp
    · exact isOrdered_of_toValue? content hv
    · exact hcontents p hp

end

/-! ### Nulls -/

theorem toValue?_eq_null_iff {t : Tree} : t.toValue? = some .null ↔ t = .null := by
  cases t <;> simp [Tree.toValue?]

theorem tree_eq_null_iff {v : Value} : v.tree = .null ↔ v = .null := by
  cases v with
  | number n =>
    obtain ⟨n?, htree⟩ := Tree.exists_tree_eq_leaf n
    rw [htree]
    cases n? <;> simp [Tree.leaf]
  | _ => simp [tree]

/-! ### Nesting -/

theorem nesting_itemsTree_le_iff {vs : List Value} {n : Nat} :
    (itemsTree vs).nesting ≤ n ↔ ∀ v ∈ vs, v.tree.nesting ≤ n := by
  induction vs with
  | nil => simp [itemsTree, Tree.Items.nesting]
  | cons v vs ih => simp [itemsTree, Tree.Items.nesting, ih]

theorem nesting_membersTree_le_iff {ms : Members} {n : Nat} :
    (membersTree ms).nesting ≤ n ↔ ∀ p ∈ ms, p.2.tree.nesting ≤ n := by
  induction ms with
  | nil => simp [membersTree, Tree.Members.nesting]
  | cons p ms ih => simp [membersTree, Tree.Members.nesting, ih]

theorem nesting_number (n : Number) : (Value.number n).tree.nesting = 0 := by
  obtain ⟨n?, htree⟩ := Tree.exists_tree_eq_leaf n
  rw [htree]
  cases n? <;> rfl

mutual

/-- The value of a tree, printed, is not nested deeper than the tree. -/
theorem nesting_tree_le : (t : Tree) → ∀ {v : Value}, t.toValue? = some v →
    v.tree.nesting ≤ t.nesting
  | .null, _, rfl => le_rfl
  | .bool _, _, rfl => le_rfl
  | .number n, _, rfl => (nesting_number n).le
  | .string _, _, rfl => le_rfl
  | .array items, v, h => by
    obtain ⟨vs, hvs, rfl⟩ := Option.map_eq_some_iff.mp h
    exact Nat.succ_le_succ (nesting_itemsTree_le items hvs)
  | .object members, v, h => by
    obtain ⟨ms, hms, rfl⟩ := Option.map_eq_some_iff.mp h
    exact Nat.succ_le_succ (nesting_membersTree_le members hms)

theorem nesting_itemsTree_le : (items : Tree.Items) → ∀ {vs : List Value},
    items.toValues? = some vs → (itemsTree vs).nesting ≤ items.nesting
  | .closed, _, rfl => le_rfl
  | .cons item rest, vs, h => by
    obtain ⟨v, vs, hv, hvs, rfl⟩ := toValues?_cons_eq_some_iff.mp h
    exact max_le_max (nesting_tree_le item hv) (nesting_itemsTree_le rest hvs)

theorem nesting_membersTree_le : (members : Tree.Members) → ∀ {ms : Members},
    members.toMembers? = some ms → (membersTree ms).nesting ≤ members.nesting
  | .closed, _, rfl => le_rfl
  | .cons key content rest, ms, h => by
    obtain ⟨k, v, ms, -, hv, hms, rfl⟩ := toMembers?_cons_eq_some_iff.mp h
    have hrest := nesting_membersTree_le rest hms
    refine nesting_membersTree_le_iff.mpr fun p hp => ?_
    rcases Members.mem_putNew hp with rfl | hp
    · exact (nesting_tree_le content hv).trans (le_max_left _ _)
    · exact (nesting_membersTree_le_iff.mp hrest p hp).trans (le_max_right _ _)

end

/-! ### Integers -/

mutual

/-- Whether all numbers in a value are integers of a word of 64 bits. -/
def integersOnly : Value → Bool
  | .number n => n.isWord
  | .array items => itemsIntegersOnly items
  | .object members => membersIntegersOnly members
  | _ => true

def itemsIntegersOnly : List Value → Bool
  | [] => true
  | v :: vs => v.integersOnly && itemsIntegersOnly vs

def membersIntegersOnly : List (String × Value) → Bool
  | [] => true
  | (_, v) :: ms => v.integersOnly && membersIntegersOnly ms

end

mutual

/-- A value with integers only is the value of its own tree. -/
theorem toValue?_tree : (v : Value) → v.IsOrdered → v.integersOnly → v.tree.toValue? = some v
  | .null, _, _ => rfl
  | .bool _, _, _ => rfl
  | .number (.integer n), _, h => by
    simp only [integersOnly, Number.isWord, Bool.and_eq_true, decide_eq_true_eq] at h
    rw [Tree.tree_integer h.1 h.2]
    rfl
  | .string _, _, _ => rfl
  | .array vs, .array hitems, h => by
    rw [tree, Tree.toValue?, toValues?_itemsTree vs hitems h]
    rfl
  | .object ms, .object horder hcontents, h => by
    rw [tree, Tree.toValue?, toMembers?_membersTree ms horder hcontents h]
    rfl

theorem toValues?_itemsTree : (vs : List Value) → (∀ v ∈ vs, v.IsOrdered) → itemsIntegersOnly vs →
    (itemsTree vs).toValues? = some vs
  | [], _, _ => rfl
  | v :: vs, horder, h => by
    obtain ⟨hv, hvs⟩ := List.forall_mem_cons.mp horder
    simp only [itemsIntegersOnly, Bool.and_eq_true] at h
    simp [itemsTree, Tree.Items.toValues?, toValue?_tree v hv h.1, toValues?_itemsTree vs hvs h.2]

theorem toMembers?_membersTree : (ms : Members) → ms.IsOrdered → (∀ p ∈ ms, p.2.IsOrdered) →
    membersIntegersOnly ms → (membersTree ms).toMembers? = some ms
  | [], _, _, _ => rfl
  | (k, v) :: ms, horder, hcontents, h => by
    obtain ⟨hfirst, hrest⟩ := List.pairwise_cons.mp horder
    obtain ⟨hv, hms⟩ := List.forall_mem_cons.mp hcontents
    simp only [membersIntegersOnly, Bool.and_eq_true] at h
    simp [membersTree, Tree.Members.toMembers?, toValue?_tree v hv h.1,
      toMembers?_membersTree ms hrest hms h.2, Members.putNew_of_lt hfirst]

end

/-! ### Values that survive being printed -/

theorem itemsIntegersOnly_iff {vs : List Value} :
    itemsIntegersOnly vs ↔ ∀ v ∈ vs, v.integersOnly := by
  induction vs with
  | nil => simp [itemsIntegersOnly]
  | cons v vs ih => simp [itemsIntegersOnly, ih]

theorem membersIntegersOnly_iff {ms : Members} :
    membersIntegersOnly ms ↔ ∀ p ∈ ms, p.2.integersOnly := by
  induction ms with
  | nil => simp [membersIntegersOnly]
  | cons p ms ih => simp [membersIntegersOnly, ih]

/-- A value that is read back as it was printed, where up to `n` arrays and objects may be inside
each other. -/
structure Survives (n : Nat) (v : Value) : Prop where
  ordered : v.IsOrdered
  integers : v.integersOnly
  nested : v.tree.nesting ≤ n

theorem survives_string (n : Nat) (s : String) : Survives n (.string s) :=
  ⟨.string s, rfl, Nat.zero_le n⟩

theorem survives_array_iff {n : Nat} {vs : List Value} :
    Survives n (.array vs) ↔ ∃ k, n = k + 1 ∧ ∀ v ∈ vs, v.Survives k := by
  constructor
  · rintro ⟨hordered, hintegers, hnested⟩
    cases hordered with
    | array hitems =>
      obtain _ | k := n
      · exact absurd hnested (Nat.not_succ_le_zero _)
      · refine ⟨k, rfl, fun v hv => ⟨hitems v hv, itemsIntegersOnly_iff.mp hintegers v hv, ?_⟩⟩
        exact nesting_itemsTree_le_iff.mp (Nat.le_of_succ_le_succ hnested) v hv
  · rintro ⟨k, rfl, h⟩
    refine ⟨.array fun v hv => (h v hv).ordered,
      itemsIntegersOnly_iff.mpr fun v hv => (h v hv).integers, Nat.succ_le_succ ?_⟩
    exact nesting_itemsTree_le_iff.mpr fun v hv => (h v hv).nested

theorem survives_object_iff {n : Nat} {ms : Members} :
    Survives n (.object ms) ↔ ∃ k, n = k + 1 ∧ ms.IsOrdered ∧ ∀ p ∈ ms, p.2.Survives k := by
  constructor
  · rintro ⟨hordered, hintegers, hnested⟩
    cases hordered with
    | object horder hcontents =>
      obtain _ | k := n
      · exact absurd hnested (Nat.not_succ_le_zero _)
      · refine ⟨k, rfl, horder, fun p hp =>
          ⟨hcontents p hp, membersIntegersOnly_iff.mp hintegers p hp, ?_⟩⟩
        exact nesting_membersTree_le_iff.mp (Nat.le_of_succ_le_succ hnested) p hp
  · rintro ⟨k, rfl, horder, h⟩
    refine ⟨.object horder fun p hp => (h p hp).ordered,
      membersIntegersOnly_iff.mpr fun p hp => (h p hp).integers, Nat.succ_le_succ ?_⟩
    exact nesting_membersTree_le_iff.mpr fun p hp => (h p hp).nested

end Value

end SpirvBindings.Json
