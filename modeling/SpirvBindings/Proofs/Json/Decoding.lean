import Mathlib.Data.List.Forall2
import SpirvBindings.Json.Decoder
import SpirvBindings.Proofs.Associations
import SpirvBindings.Proofs.Json.Values
import SpirvBindings.Proofs.Results

/-! Decoding again what was decoded, changed and printed. A decoder keeps a change of values if it
makes of the changed value, printed, what it made of the original text. Single values are kept if
nothing is changed, and any value is kept whose numbers are integers. A list keeps the changes that
its items keep. -/

namespace SpirvBindings.Json

variable {α β : Type}

/-! ### Changes of values -/

namespace Value

/-- A list may change item by item. -/
inductive Lists (R : Value → Value → Prop) : Value → Value → Prop
  | same (v : Value) : Lists R v v
  | items {vs ws : List Value} (h : List.Forall₂ R vs ws) : Lists R (.array vs) (.array ws)

/-- An object may get another member, of a given key, and the contents of the others may change. -/
inductive Extends (key : String) (R : String → Value → Value → Prop) : Value → Value → Prop
  | same (v : Value) : Extends key R v v
  | members {ms ns : Members} (order : ns.IsOrdered)
    (contents : ∀ k, k ≠ key → Option.Rel (R k) (ms.get? k) (ns.get? k)) :
    Extends key R (.object ms) (.object ns)

end Value

open Value (Lists Extends itemsTree membersTree)

/-- What an object has become is an object, too. -/
theorem exists_members_of_extends {key : String} {R : String → Value → Value → Prop}
    (hrefl : ∀ k v, R k v v) {ms : Value.Members} (hms : ms.IsOrdered) {w : Value}
    (h : Extends key R (.object ms) w) : ∃ ns : Value.Members, w = .object ns ∧ ns.IsOrdered ∧
      ∀ k, k ≠ key → Option.Rel (R k) (ms.get? k) (ns.get? k) := by
  cases h with
  | same => exact ⟨ms, rfl, hms, fun k _ => rel_self (hrefl k) _⟩
  | members hns hcontents => exact ⟨_, rfl, hns, hcontents⟩

/-- A decoder makes the same of a tree and of the printed form of its value, changed or not, as long
as what it makes satisfies a condition. -/
def Decoder.Keeps (d : Decoder α) (R : Value → Value → Prop) (P : α → Prop) : Prop :=
  ∀ ⦃t : Tree⦄ ⦃v w : Value⦄ ⦃a : α⦄, t.toValue? = some v → R v w → P a → d t = .ok a →
    d w.tree = .ok a

namespace Decoder

/-! ### Single values -/

theorem text_eq_ok_iff {t : Tree} {s : String} : text t = .ok s ↔ t = .string s := by
  cases t <;> simp [text]

theorem word_eq_ok_iff {t : Tree} {n : Nat} :
    word t = .ok n ↔ t = .number (.integer n) ∧ n < 2 ^ 32 := by
  unfold word
  split
  next k =>
    split
    next h =>
      simp only [Except.ok.injEq, Tree.number.injEq, Number.integer.injEq]
      simp only [Nat.pow_eq] at h
      omega
    next h =>
      simp only [Nat.pow_eq] at h
      simp only [reduceCtorEq, Tree.number.injEq, Number.integer.injEq, false_iff]
      omega
  next hne =>
    simp only [reduceCtorEq, false_iff]
    rintro ⟨rfl, -⟩
    exact hne _ rfl

theorem skip_eq_ok_iff {t : Tree} {u : Unit} : skip t = .ok u ↔ t.isWhole := by
  simp [skip]

theorem value_eq_ok_iff {depth : Nat} {t : Tree} {v : Value} :
    value depth t = .ok v ↔ t.toValue? = some v ∧ depth + t.nesting ≤ nestingLimit := by
  unfold value
  cases t.toValue? with
  | none => simp
  | some w => by_cases h : depth + t.nesting ≤ nestingLimit <;> simp [h]

theorem choice_eq_ok_iff {choose : String → Except Fault α} {t : Tree} {a : α} :
    choice choose t = .ok a ↔ ∃ word, choose word = .ok a ∧
      (t = .string word ∨ t = .object (.cons (some word) .null .closed)) := by
  unfold choice
  split
  next s => simp
  next key content rest =>
    rw [bind_eq_ok_iff]
    split <;> simp_all [pure, Except.pure, throw, throwThe, MonadExceptOf.throw]
  next hstring hobject =>
    simp only [reduceCtorEq, false_iff]
    rintro ⟨word, -, rfl | rfl⟩
    · exact hstring _ rfl
    · exact hobject _ _ _ rfl

theorem keeps_text {P : String → Prop} : text.Keeps Eq P := by
  rintro t v _ s ht rfl - hd
  obtain rfl := text_eq_ok_iff.mp hd
  cases ht
  rfl

theorem keeps_word {P : Nat → Prop} : word.Keeps Eq P := by
  rintro t v _ n ht rfl - hd
  obtain ⟨rfl, hn⟩ := word_eq_ok_iff.mp hd
  cases ht
  rw [Tree.tree_integer (by omega) (by omega)]
  exact hd

theorem keeps_value {depth : Nat} : (value depth).Keeps Eq fun v => v.integersOnly := by
  rintro t v _ v' ht rfl hintegers hd
  rw [value_eq_ok_iff] at hd ⊢
  obtain ⟨hvalue, hnesting⟩ := hd
  obtain rfl := Option.some.inj (ht.symm.trans hvalue)
  have hle := Value.nesting_tree_le t ht
  exact ⟨v.toValue?_tree (Value.isOrdered_of_toValue? t ht) hintegers, by omega⟩

theorem keeps_choice {choose : String → Except Fault α} {P : α → Prop} :
    (choice choose).Keeps Eq P := by
  rintro t v _ a ht rfl - hd
  obtain ⟨word, -, rfl | rfl⟩ := choice_eq_ok_iff.mp hd
  · cases ht
    exact hd
  · cases ht
    exact hd

theorem orNull_of_ne_null {d : Decoder α} {t : Tree} (h : t ≠ .null) :
    d.orNull t = some <$> d t := by
  cases t <;> first | rfl | exact absurd rfl h

theorem Keeps.orNull {d : Decoder α} {P : α → Prop} (h : d.Keeps Eq P) :
    d.orNull.Keeps Eq fun x => ∀ a ∈ x, P a := by
  rintro t v _ x ht rfl hx hd
  by_cases hnull : t = .null
  · subst hnull
    cases ht
    exact hd
  · rw [orNull_of_ne_null hnull, map_eq_ok_iff] at hd
    obtain ⟨a, ha, rfl⟩ := hd
    have htree : v.tree ≠ .null := by
      rw [Ne, Value.tree_eq_null_iff]
      rintro rfl
      exact hnull (Value.toValue?_eq_null_iff.mp ht)
    rw [orNull_of_ne_null htree, h ht rfl (hx a rfl) ha]
    rfl

/-- What is made of the outcome of a decoder. -/
theorem Keeps.map {d : Decoder α} {R : Value → Value → Prop} {P : α → Prop} (h : d.Keeps R P)
    (f : α → β) {Q : β → Prop} (hQ : ∀ a, Q (f a) → P a) :
    Keeps (fun t => f <$> d t) R Q := by
  intro t v w b ht hR hb hd
  obtain ⟨a, ha, rfl⟩ := map_eq_ok_iff.mp hd
  exact map_eq_ok_iff.mpr ⟨a, h ht hR (hQ a hb) ha, rfl⟩

/-! ### Lists -/

theorem items_itemsTree {d : Decoder α} {R : Value → Value → Prop} {P : α → Prop}
    (h : d.Keeps R P) : (is : Tree.Items) → ∀ {vs ws : List Value} {as : List α},
      is.toValues? = some vs → List.Forall₂ R vs ws → (∀ a ∈ as, P a) → items d is = .ok as →
      items d (itemsTree ws) = .ok as
  | .closed, _, _, as, rfl, .nil, _, hd => hd
  | .cons item rest, vs, ws, as, hvs, hR, hP, hd => by
    obtain ⟨v, us, hv, hus, rfl⟩ := Value.toValues?_cons_eq_some_iff.mp hvs
    obtain ⟨w, ws, hRv, hRus, rfl⟩ := List.forall₂_cons_left_iff.mp hR
    simp only [items, bind_eq_ok_iff] at hd
    obtain ⟨a, ha, as, has, hcons⟩ := hd
    cases hcons
    obtain ⟨hPa, hPas⟩ := List.forall_mem_cons.mp hP
    have hitem := h hv hRv hPa ha
    have hrest := items_itemsTree h rest hus hRus hPas has
    exact bind_eq_ok_iff.mpr ⟨a, hitem, bind_eq_ok_iff.mpr ⟨as, hrest, rfl⟩⟩

theorem Keeps.list {d : Decoder α} {R : Value → Value → Prop} {P : α → Prop} (h : d.Keeps R P)
    (hrefl : ∀ v, R v v) : d.list.Keeps (Lists R) fun as => ∀ a ∈ as, P a := by
  intro t v w as ht hR hP hd
  cases t with
  | array is =>
    obtain ⟨vs, hvs, rfl⟩ := Option.map_eq_some_iff.mp ht
    cases hR with
    | same => exact items_itemsTree h is hvs (List.forall₂_same.mpr fun v _ => hrefl v) hP hd
    | items hR => exact items_itemsTree h is hvs hR hP hd
  | _ => cases hd

theorem Keeps.list_same {d : Decoder α} {P : α → Prop} (h : d.Keeps Eq P) :
    d.list.Keeps Eq fun as => ∀ a ∈ as, P a := by
  rintro t v _ as ht rfl hP hd
  exact h.list (fun _ => rfl) ht (.same v) hP hd

/-! ### Documents -/

theorem document_eq_ok_iff {d : Decoder α} {source : String} {a : α} :
    d.document source = .ok a ↔
      d (Tree.read source.toList).1 = .ok a ∧
        (Tree.read source.toList).2.map skipBlanks = some [] := by
  rw [document]
  simp only [bind_eq_ok_iff]
  constructor
  · rintro ⟨a', hd, hrest⟩
    split at hrest
    next heq =>
      cases hrest
      exact ⟨hd, heq⟩
    next => cases hrest
  · rintro ⟨hd, hrest⟩
    exact ⟨a, hd, by rw [hrest]; rfl⟩

theorem document_indentedText (d : Decoder α) (v : Value) :
    d.document v.indentedText = d v.tree := by
  rw [document, Tree.read_indentedText]
  cases h : d v.tree <;> simp [h, skipBlanks, bind, Except.bind, pure, Except.pure]

theorem isOrdered_of_document {depth : Nat} {source : String} {v : Value}
    (h : (value depth).document source = .ok v) : v.IsOrdered :=
  Value.isOrdered_of_toValue? _ (value_eq_ok_iff.mp (document_eq_ok_iff.mp h).1).1

theorem survives_of_document {depth : Nat} {source : String} {v : Value}
    (h : (value depth).document source = .ok v) (hintegers : v.integersOnly) :
    v.Survives (nestingLimit - depth) := by
  obtain ⟨hvalue, hnesting⟩ := value_eq_ok_iff.mp (document_eq_ok_iff.mp h).1
  have hle := Value.nesting_tree_le _ hvalue
  exact ⟨isOrdered_of_document h, hintegers, by omega⟩

theorem document_of_survives {depth : Nat} {v : Value} (hdepth : depth ≤ nestingLimit)
    (h : v.Survives (nestingLimit - depth)) : (value depth).document v.indentedText = .ok v := by
  have hle := h.nested
  rw [document_indentedText, value_eq_ok_iff]
  exact ⟨v.toValue?_tree h.ordered h.integers, by omega⟩

/-- A document that was read, changed and printed holds what it held before. -/
theorem Keeps.document {d : Decoder α} {R : Value → Value → Prop} {P : α → Prop} (h : d.Keeps R P)
    {depth : Nat} {source : String} {v w : Value} {a : α}
    (hv : (value depth).document source = .ok v) (hR : R v w) (ha : P a)
    (hd : d.document source = .ok a) : d.document w.indentedText = .ok a := by
  obtain ⟨hvalue, -⟩ := value_eq_ok_iff.mp (document_eq_ok_iff.mp hv).1
  rw [document_eq_ok_iff, Tree.read_indentedText]
  exact ⟨h hvalue hR ha (document_eq_ok_iff.mp hd).1, rfl⟩

end Decoder

end SpirvBindings.Json
