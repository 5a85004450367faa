import Mathlib.Data.List.Nodup
import Mathlib.Data.Option.Basic

/-! Lists of entries with keys. With each key once, what is found under a key is the content of the
entry that has it, wherever it stands. And two such lists are compared by what is found under a key
in both: nothing, or contents that are related. -/

namespace SpirvBindings

variable {α β γ : Type}

/-! ### Keyed entries -/

section

variable {entries : List (String × β)} {key : String} {value : β}

theorem mem_of_lookup (h : entries.lookup key = some value) : (key, value) ∈ entries := by
  obtain ⟨before, after, rfl, -⟩ := List.lookup_eq_some_iff.mp h
  exact List.mem_append_right _ List.mem_cons_self

theorem lookup_eq_some_iff_mem (h : (entries.map Prod.fst).Nodup) :
    entries.lookup key = some value ↔ (key, value) ∈ entries := by
  refine ⟨mem_of_lookup, fun hmem => ?_⟩
  induction entries with
  | nil => cases hmem
  | cons entry entries ih =>
    obtain ⟨hnew, hrest⟩ := List.nodup_cons.mp h
    rcases List.mem_cons.mp hmem with rfl | hmem
    · exact List.lookup_cons_self
    · have hne : (key == entry.1) = false := by
        rw [beq_eq_false_iff_ne]
        rintro rfl
        exact hnew (List.mem_map.mpr ⟨_, hmem, rfl⟩)
      rw [List.lookup_cons, hne]
      exact ih hrest hmem

theorem lookup_eq_none_iff_not_mem :
    entries.lookup key = none ↔ key ∉ entries.map Prod.fst := by
  rw [List.lookup_eq_none_iff, List.mem_map]
  constructor
  · rintro h ⟨entry, hmem, rfl⟩
    simpa using h entry hmem
  · intro h entry hmem
    rw [bne_iff_ne]
    rintro rfl
    exact h ⟨entry, hmem, rfl⟩

end

/-! ### Keys that members show -/

section

variable {ds : List α}

theorem lookup_map_eq (key : α → String) (content : α → β) (ds : List α) (k : String) :
    (ds.map fun d => (key d, content d)).lookup k = (ds.find? (key · == k)).map content := by
  induction ds with
  | nil => rfl
  | cons d ds ih =>
    rw [List.map_cons, List.lookup_cons, List.find?_cons, ih, BEq.comm]
    cases key d == k <;> rfl

/-- With different keys, each member is the first one with its key. -/
theorem find?_of_pairwise {κ : Type} [BEq κ] [LawfulBEq κ] {key : α → κ}
    (h : ds.Pairwise (key · ≠ key ·)) {d : α} (hd : d ∈ ds) :
    ds.find? (key · == key d) = some d := by
  induction h with
  | nil => cases hd
  | @cons first ds hfirst _ ih =>
    rw [List.find?_cons]
    rcases List.mem_cons.mp hd with rfl | hd
    · rw [beq_self_eq_true]
    · rw [beq_eq_false_iff_ne.mpr (hfirst d hd)]
      exact ih hd

end

/-! ### Related contents -/

section

variable {R : α → β → Prop} {a? : Option α} {b? : Option β}

theorem rel_some_iff {b : β} : Option.Rel R a? (some b) ↔ ∃ a, a? = some a ∧ R a b := by
  constructor
  · rintro ⟨h⟩
    exact ⟨_, rfl, h⟩
  · rintro ⟨a, rfl, h⟩
    exact .some h

theorem isSome_eq_of_rel (h : Option.Rel R a? b?) : a?.isSome = b?.isSome := by
  cases h <;> rfl

theorem eq_of_rel_eq {a? b? : Option α} (h : Option.Rel Eq a? b?) : a? = b? := by
  cases h with
  | some h => rw [h]
  | none => rfl

theorem rel_self {R : α → α → Prop} (h : ∀ a, R a a) (a? : Option α) : Option.Rel R a? a? := by
  cases a? with
  | none => exact .none
  | some a => exact .some (h a)

theorem bind_eq_of_rel (h : Option.Rel R a? b?) {f : α → Option γ} {f' : β → Option γ}
    (hf : ∀ a b, R a b → f a = f' b) : a?.bind f = b?.bind f' := by
  cases h with
  | none => rfl
  | some hR => exact hf _ _ hR

/-- Contents are related if what is there on one side is matched on the other. -/
theorem rel_of_matched (ha : ∀ a, a? = some a → ∃ b, b? = some b ∧ R a b)
    (hb : ∀ b, b? = some b → ∃ a, a? = some a) : Option.Rel R a? b? := by
  cases a? with
  | some a =>
    obtain ⟨b, rfl, hR⟩ := ha a rfl
    exact .some hR
  | none =>
    cases b? with
    | none => exact .none
    | some b =>
      obtain ⟨a, ha⟩ := hb b rfl
      cases ha

end

end SpirvBindings
