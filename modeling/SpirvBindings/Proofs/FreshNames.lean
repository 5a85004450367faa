import SpirvBindings.Proofs.Outline.Names

/-! Fresh names as a search. The search starts with the name itself. While its candidate is used, it
goes on with the name and a number behind it, from 2 on. Since no two candidates are the same, the
search ends, after at most one candidate more than there are used names, and it ends with the name
itself or with the least number that makes it unused. It ends so even where names that end in digits
are used up by others. A name that is given out is used from then on, so that all the names that are
given out one after the other are different. -/

namespace SpirvBindings.Expansion

/-! ### The search -/

/-- A search that has a candidate and the next number. It ends with the first candidate that is not
used, after a number of candidates. -/
inductive Finds (used : List String) (name : String) : String → Nat → Nat → String → Prop
  | free {candidate : String} {number : Nat} (h : candidate ∉ used) :
      Finds used name candidate number 1 candidate
  | next {candidate fresh : String} {number tried : Nat} (h : candidate ∈ used)
      (hrest : Finds used name (name ++ toString number) (number + 1) tried fresh) :
      Finds used name candidate number (tried + 1) fresh

variable {used : List String} {name : String}

/-- A search ends at the first free candidate, by induction on the candidates before it. -/
theorem finds_numbered {i d : Nat} (hfree : numbered name (i + d) ∉ used)
    (hused : ∀ j < d, numbered name (i + j) ∈ used) :
    Finds used name (numbered name i) (i + 2) (d + 1) (numbered name (i + d)) := by
  induction d generalizing i with
  | zero => exact .free hfree
  | succ d ih =>
    have hplace : ∀ j, i + 1 + j = i + (j + 1) := by omega
    have hrest : Finds used name (numbered name (i + 1)) (i + 1 + 2) (d + 1)
        (numbered name (i + 1 + d)) := by
      apply ih
      · rwa [hplace]
      · intro j hj
        rw [hplace]
        exact hused (j + 1) (Nat.succ_lt_succ hj)
    rw [hplace d] at hrest
    exact .next (hused 0 (Nat.succ_pos d)) hrest

/-- A search ends at no other candidate, by induction on the search. -/
theorem Finds.exists_numbered {candidate fresh : String} {number tried : Nat}
    (h : Finds used name candidate number tried fresh) {i : Nat}
    (hcandidate : candidate = numbered name i) (hnumber : number = i + 2) :
    ∃ d, tried = d + 1 ∧ fresh = numbered name (i + d) ∧ numbered name (i + d) ∉ used ∧
      ∀ j < d, numbered name (i + j) ∈ used := by
  induction h generalizing i with
  | free hfree =>
    subst hcandidate
    exact ⟨0, rfl, rfl, hfree, by simp⟩
  | next hused _ ih =>
    subst hcandidate hnumber
    obtain ⟨d, rfl, rfl, hfree, hbefore⟩ := ih (i := i + 1) rfl rfl
    have hplace : ∀ j, i + 1 + j = i + (j + 1) := by omega
    rw [hplace] at hfree ⊢
    refine ⟨d + 1, rfl, rfl, hfree, fun j hj => ?_⟩
    cases j with
    | zero => exact hused
    | succ j =>
      rw [← hplace]
      exact hbefore j (Nat.lt_of_succ_lt_succ hj)

/-- A fresh name is what the search for it ends with. The search tries at most one candidate more
than there are used names. It keeps a name that is not used, and else takes the least number. -/
structure FoundExactly (used : List String) (name : String) : Prop where
  ends : ∃ tried ≤ used.length + 1, Finds used name name 2 tried (freshName used name)
  only : ∀ tried fresh, Finds used name name 2 tried fresh →
    tried ≤ used.length + 1 ∧ fresh = freshName used name
  unused : freshName used name ∉ used
  kept : name ∉ used → freshName used name = name
  least : name ∈ used → ∃ k, 2 ≤ k ∧ k ≤ used.length + 1 ∧
    freshName used name = name ++ toString k ∧ ∀ j, 2 ≤ j → j < k → name ++ toString j ∈ used

theorem foundExactly (used : List String) (name : String) : FoundExactly used name := by
  obtain ⟨k, hk, heq, hfree, hbefore⟩ := freshName_least used name
  refine ⟨?_, ?_, heq ▸ hfree, ?_, ?_⟩
  · have hfinds := finds_numbered (i := 0) (by simpa using hfree) (by simpa using hbefore)
    rw [Nat.zero_add k, ← heq] at hfinds
    exact ⟨k + 1, by omega, hfinds⟩
  · intro tried fresh hfinds
    obtain ⟨d, rfl, rfl, hfree', hbefore'⟩ := hfinds.exists_numbered (i := 0) rfl rfl
    simp only [Nat.zero_add] at hfree' hbefore' ⊢
    have hd : d = k := Nat.le_antisymm (Nat.not_lt.mp fun hlt => hfree (hbefore' k hlt))
      (Nat.not_lt.mp fun hlt => hfree' (hbefore d hlt))
    subst hd
    exact ⟨by omega, heq.symm⟩
  · intro hname
    cases k with
    | zero => exact heq
    | succ k => exact absurd (hbefore 0 (Nat.succ_pos k)) hname
  · intro hname
    cases k with
    | zero => exact absurd hname hfree
    | succ k =>
      refine ⟨k + 2, by omega, by omega, heq, fun j hlow hj => ?_⟩
      obtain ⟨l, rfl⟩ := Nat.exists_eq_add_of_le' hlow
      exact hbefore (l + 1) (by omega)

/-! ### One name after the other -/

/-- Fresh names for some names in turn. Each is used for those behind it. -/
def freshNames (used : List String) : List String → List String
  | [] => []
  | name :: names => freshName used name :: freshNames (used ++ [freshName used name]) names

/-- Used names that are different stay so, by induction on the names in turn. -/
theorem nodup_append_freshNames {used : List String} (h : used.Nodup) (names : List String) :
    (used ++ freshNames used names).Nodup := by
  induction names generalizing used with
  | nil => simpa [freshNames] using h
  | cons name names ih =>
    have hfresh : (used ++ [freshName used name]).Nodup :=
      List.nodup_append.mpr ⟨h, List.nodup_singleton _, fun x hx y hy heq =>
        freshName_not_mem used name (List.mem_singleton.mp hy ▸ heq ▸ hx)⟩
    simpa [freshNames] using ih hfresh

/-- Something to add to a draft: an operand, the name it asks for, and its parameter under the name
that it gets. -/
structure Addition where
  operand : Operand
  name : String
  parameter : String → Parameter

def Draft.addAll (d : Draft) (additions : List Addition) : Draft :=
  additions.foldl (fun d a => d.add a.operand a.name a.parameter) d

theorem Draft.used_add (d : Draft) (o : Operand) (name : String) (parameter : String → Parameter) :
    (d.add o name parameter).used = d.used ++ [freshName d.used name] := by
  unfold Draft.add
  dsimp only
  split <;> rfl

theorem Draft.used_addAll (d : Draft) (additions : List Addition) :
    (d.addAll additions).used = d.used ++ freshNames d.used (additions.map (·.name)) := by
  induction additions generalizing d with
  | nil => simp [Draft.addAll, freshNames]
  | cons a additions ih =>
    rw [Draft.addAll, List.foldl_cons, ← Draft.addAll, ih, Draft.used_add]
    simp [freshNames]

/-- Every search for a fresh name ends, and ends exactly as it should. The names in use grow by the
name that is found, and by nothing else. So all names that are given out in turn are different. -/
theorem freshNames_found :
    (∀ used name, FoundExactly used name) ∧
      (∀ (d : Draft) o name parameter,
        (d.add o name parameter).used = d.used ++ [freshName d.used name]) ∧
      ∀ additions, (Draft.empty.addAll additions).used = freshNames [] (additions.map (·.name)) ∧
        (Draft.empty.addAll additions).used.Nodup := by
  refine ⟨foundExactly, Draft.used_add, fun additions => ?_⟩
  have hused := Draft.used_addAll .empty additions
  have hempty : Draft.empty.used = [] := rfl
  rw [hempty, List.nil_append] at hused
  rw [hused]
  exact ⟨rfl, by simpa using nodup_append_freshNames List.nodup_nil (additions.map (·.name))⟩

/-- A name that ends in a digit is in the way of a later one. -/
theorem values_found :
    freshNames [] ["value2", "value", "value", "value"] = ["value2", "value", "value3", "value4"] ∧
      FoundExactly ["value2", "value"] "value" :=
  ⟨by decide +kernel, freshNames_found.1 _ _⟩

end SpirvBindings.Expansion
