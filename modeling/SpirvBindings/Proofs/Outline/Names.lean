import Mathlib
import SpirvBindings.Proofs.Outline.Basic

/-! The names of the slots of an outline. A fresh name is not used yet: among the candidates, which
are all different, there is one more than there are used names. So each slot has the first free
candidate for its raw name behind the slots before it, and no two slots have one name. -/

namespace SpirvBindings.Expansion

/-! ### Fresh names -/

/-- No two candidates for a name are the same. -/
theorem numbered_injective (name : String) : Function.Injective (numbered name) := by
  have hlonger : ∀ k, name ≠ name ++ toString (k + 2) := by
    intro k h
    have hempty : toString (k + 2) = "" := by simpa using congrArg String.toList h
    exact Nat.repr_ne_empty hempty
  intro j k h
  cases j with
  | zero =>
    cases k with
    | zero => rfl
    | succ k => exact absurd h (hlonger k)
  | succ j =>
    cases k with
    | zero => exact absurd h.symm (hlonger j)
    | succ k =>
      have hsuffix := Nat.repr_inj.mp ((String.append_right_inj name).mp h)
      omega

/-- Among one more candidate than there are used names, one is not used. -/
theorem exists_numbered_not_mem (used : List String) (name : String) :
    ∃ k < used.length + 1, numbered name k ∉ used := by
  by_contra! hall
  have hnodup : ((List.range (used.length + 1)).map (numbered name)).Nodup :=
    List.nodup_range.map (numbered_injective name)
  have hsubset : (List.range (used.length + 1)).map (numbered name) ⊆ used := by
    intro candidate hcandidate
    obtain ⟨k, hk, rfl⟩ := List.mem_map.mp hcandidate
    exact hall k (List.mem_range.mp hk)
  have hlength := (hnodup.subperm hsubset).length_le
  simp only [List.length_map, List.length_range] at hlength
  omega

/-- A fresh name is the first candidate that is not used. -/
theorem freshName_least (used : List String) (name : String) :
    ∃ k ≤ used.length, freshName used name = numbered name k ∧ numbered name k ∉ used ∧
      ∀ j < k, numbered name j ∈ used := by
  obtain ⟨k, hk, hfree⟩ := exists_numbered_not_mem used name
  unfold freshName
  rw [List.find?_map]
  cases hfind : (List.range (used.length + 1)).find? ((! used.contains ·) ∘ numbered name) with
  | none =>
    have hused := List.find?_eq_none.mp hfind k (List.mem_range.mpr hk)
    simp [hfree] at hused
  | some least =>
    obtain ⟨hleast, hmem, hbefore⟩ := List.find?_range_eq_some.mp hfind
    refine ⟨least, Nat.lt_succ_iff.mp (List.mem_range.mp hmem), rfl, by simpa using hleast, ?_⟩
    exact fun j hj => by simpa using hbefore j hj

theorem freshName_spec (used : List String) (name : String) :
    freshName used name ∉ used ∧ ∃ k, freshName used name = numbered name k := by
  obtain ⟨k, -, heq, hfree, -⟩ := freshName_least used name
  exact ⟨heq ▸ hfree, k, heq⟩

theorem freshName_not_mem (used : List String) (name : String) : freshName used name ∉ used :=
  (freshName_spec used name).1

/-! ### Names of slots -/

/-- The names of slots, as they are given out: each is fresh for its raw name behind the slots
before it. -/
def NamedInOrder (slots : List Slot) : Prop :=
  ∀ j slot, slots[j]? = some slot →
    slot.name = freshName ((slots.take j).map (·.name)) (slot.source.rawName slot.operand)

theorem NamedInOrder.append {l : Outline} (h : NamedInOrder l.slots) (o : Operand)
    (source : Source) : NamedInOrder (l.slots ++ [l.slotFor o source]) := by
  intro j slot hslot
  by_cases hj : j < l.slots.length
  · rw [List.getElem?_append_left hj] at hslot
    rw [List.take_append_of_le_length (Nat.le_of_lt hj)]
    exact h j slot hslot
  · have hlast : j = l.slots.length ∧ slot = l.slotFor o source := by
      rw [List.getElem?_append_right (Nat.not_lt.mp hj), List.getElem?_singleton] at hslot
      split at hslot
      next hzero => exact ⟨by omega, (Option.some.inj hslot).symm⟩
      next => cases hslot
    obtain ⟨rfl, rfl⟩ := hlast
    rw [List.take_left]
    rfl

theorem Outline.take_namedInOrder {l : Outline} (h : NamedInOrder l.slots) (m : TypeMap)
    (i : Instruction) (o : Operand) : NamedInOrder (l.take m i o).slots := by
  unfold Outline.take
  split
  · exact h
  · split
    · exact h
    · exact h.append _ _

/-- The slots of an outline are named in order, by induction on the operands. -/
theorem outline_namedInOrder (m : TypeMap) (i : Instruction) : NamedInOrder (outline m i).slots := by
  have hfold : ∀ (os : List Operand) (l : Outline), NamedInOrder l.slots →
      NamedInOrder (os.foldl (Outline.take m i) l).slots := by
    intro os
    induction os with
    | nil => exact fun l h => h
    | cons o os ih => exact fun l h => ih _ (Outline.take_namedInOrder h m i o)
  exact hfold _ _ fun j slot hslot => by simp [Outline.empty] at hslot

/-- No two slots that are named in order have one name. -/
theorem NamedInOrder.nodup {slots : List Slot} (h : NamedInOrder slots) :
    (slots.map (·.name)).Nodup := by
  rw [List.nodup_iff_pairwise_ne, List.pairwise_map, List.pairwise_iff_getElem]
  intro j k hj hk hlt heq
  have hfresh := freshName_not_mem ((slots.take k).map (·.name))
    (slots[k].source.rawName slots[k].operand)
  rw [← h k _ (List.getElem?_eq_getElem hk), ← heq] at hfresh
  exact hfresh (List.mem_map_of_mem (List.mem_take_iff_getElem.mpr ⟨j, by omega, rfl⟩))

end SpirvBindings.Expansion
