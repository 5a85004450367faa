import Mathlib.Data.Set.Card
import SpirvBindings.Proofs.Json.Values

/-! Places in a JSON value. A path leads from a value to a part of it, by the keys of members and
the positions of items. Two values are the same but at some places when each part that is neither at
one of them nor inside of one has the same shape in both, and when each part that holds none of them
either is equal in both. -/

namespace SpirvBindings.Json

/-- A step into a value: to the member with a key or to the item at a position. -/
inductive Step
  | key (k : String)
  | index (i : Nat)
  deriving DecidableEq

abbrev Path := List Step

namespace Value

def item? (i : Nat) : Value → Option Value
  | .array items => items[i]?
  | _ => none

def step? : Step → Value → Option Value
  | .key k => member? k
  | .index i => item? i

/-- The part of a value that a path leads to. -/
def at? : Path → Value → Option Value
  | [], v => some v
  | s :: path, v => (step? s v).bind (at? path)

/-- What a value is without its parts. -/
inductive Shape
  | null
  | bool (b : Bool)
  | number (n : Number)
  | string (s : String)
  | array (length : Nat)
  | object (keys : List String)

def shape : Value → Shape
  | .null => .null
  | .bool b => .bool b
  | .number n => .number n
  | .string s => .string s
  | .array items => .array items.length
  | .object members => .object (members.map Prod.fst)

@[simp] theorem at?_nil (v : Value) : v.at? [] = some v := rfl

theorem at?_cons (s : Step) (path : Path) (v : Value) :
    v.at? (s :: path) = (step? s v).bind (at? path) := rfl

theorem at?_singleton (s : Step) (v : Value) : v.at? [s] = step? s v := Option.bind_fun_some _

/-! ### Values that differ at some places -/

/-- Two values are the same but at the places that satisfy `T`. -/
structure SameBut (T : Path → Prop) (v w : Value) : Prop where
  shape_eq : ∀ path, (∀ t, T t → ¬ t <+: path) → (w.at? path).map shape = (v.at? path).map shape
  at?_eq : ∀ path, (∀ t, T t → ¬ t <+: path ∧ ¬ path <+: t) → w.at? path = v.at? path

namespace SameBut

variable {T : Path → Prop} {u v w : Value}

theorem refl (T : Path → Prop) (v : Value) : SameBut T v v := ⟨fun _ _ => rfl, fun _ _ => rfl⟩

theorem trans (h : SameBut T u v) (h' : SameBut T v w) : SameBut T u w :=
  ⟨fun path hpath => (h'.shape_eq path hpath).trans (h.shape_eq path hpath),
    fun path hpath => (h'.at?_eq path hpath).trans (h.at?_eq path hpath)⟩

theorem mono {T' : Path → Prop} (h : SameBut T v w) (himp : ∀ t, T t → T' t) : SameBut T' v w :=
  ⟨fun path hpath => h.shape_eq path fun t ht => hpath t (himp t ht),
    fun path hpath => h.at?_eq path fun t ht => hpath t (himp t ht)⟩

/-- Nothing is said about values of which the whole is among the places. -/
theorem of_nil (h : T []) (v w : Value) : SameBut T v w :=
  ⟨fun _ hpath => absurd List.nil_prefix (hpath [] h),
    fun _ hpath => absurd List.nil_prefix (hpath [] h).1⟩

/-- Without any place to differ at, values are equal. -/
theorem eq_of_forall_not (h : SameBut T v w) (hnone : ∀ t, ¬ T t) : w = v :=
  Option.some.inj (h.at?_eq [] fun t ht => absurd ht (hnone t))

/-- Values are the same but at some places if they are of one shape and the parts that a step leads
to are the same but at the rests of the places that are behind this step. -/
theorem of_steps (hshape : w.shape = v.shape) (heq : (∀ t, ¬ T t) → w = v)
    (hsteps : ∀ s, step? s w = step? s v ∨ ∃ v' w', step? s v = some v' ∧ step? s w = some w' ∧
      SameBut (fun t => T (s :: t)) v' w') : SameBut T v w := by
  constructor
  · intro path hpath
    cases path with
    | nil => rw [at?_nil, at?_nil, Option.map_some, Option.map_some, hshape]
    | cons s path =>
      rw [at?_cons, at?_cons]
      rcases hsteps s with h | ⟨v', w', hv, hw, h⟩
      · rw [h]
      · rw [hv, hw]
        refine h.shape_eq path fun t ht hprefix => hpath _ ht ?_
        exact List.cons_prefix_cons.mpr ⟨rfl, hprefix⟩
  · intro path hpath
    cases path with
    | nil => rw [heq fun t ht => (hpath t ht).2 List.nil_prefix]
    | cons s path =>
      rw [at?_cons, at?_cons]
      rcases hsteps s with h | ⟨v', w', hv, hw, h⟩
      · rw [h]
      · rw [hv, hw]
        refine h.at?_eq path fun t ht => ⟨fun hprefix => (hpath _ ht).1 ?_, fun hprefix =>
          (hpath _ ht).2 ?_⟩ <;> exact List.cons_prefix_cons.mpr ⟨rfl, hprefix⟩

/-- A change to the content of one member. -/
theorem object_modify {key : String} {f : Value → Value} {ms : Members}
    (h : ∀ v, ms.get? key = some v → SameBut (fun t => T (.key key :: t)) v (f v)) :
    SameBut T (.object ms) (.object (ms.modify key f)) := by
  refine of_steps ?_ (fun hnone => ?_) fun s => ?_
  · simp only [shape, Members.map_fst_modify]
  · rw [Members.modify_eq_self fun v hv => (h v hv).eq_of_forall_not fun t => hnone _]
  · cases s with
    | index i => exact .inl rfl
    | key k =>
      simp only [step?, member?, Members.get?_modify]
      by_cases hk : k = key
      · subst hk
        rw [if_pos rfl]
        cases hv : ms.get? k with
        | none => exact .inl rfl
        | some v => exact .inr ⟨v, f v, rfl, rfl, h v hv⟩
      · exact .inl (if_neg hk)

/-- Changes to the items of a list, each at its position. -/
theorem array {vs ws : List Value} (hlength : ws.length = vs.length)
    (h : ∀ i v w, vs[i]? = some v → ws[i]? = some w → SameBut (fun t => T (.index i :: t)) v w) :
    SameBut T (.array vs) (.array ws) := by
  have hitems : ∀ i, ws[i]? = vs[i]? ∨ ∃ v w, vs[i]? = some v ∧ ws[i]? = some w ∧
      SameBut (fun t => T (.index i :: t)) v w := by
    intro i
    by_cases hi : i < vs.length
    · have hv := List.getElem?_eq_getElem hi
      have hw := List.getElem?_eq_getElem (hlength ▸ hi : i < ws.length)
      exact .inr ⟨_, _, hv, hw, h i _ _ hv hw⟩
    · left
      rw [List.getElem?_eq_none (by omega), List.getElem?_eq_none (by omega)]
  refine of_steps ?_ (fun hnone => ?_) fun s => ?_
  · simp only [shape, hlength]
  · refine congrArg _ (List.ext_getElem? fun i => ?_)
    rcases hitems i with heq | ⟨v, w, hv, hw, hsame⟩
    · exact heq
    · rw [hv, hw, hsame.eq_of_forall_not fun t => hnone _]
  · cases s with
    | key k => exact .inl rfl
    | index i => exact hitems i

theorem array_map {vs : List Value} {f : Value → Value}
    (h : ∀ i v, vs[i]? = some v → SameBut (fun t => T (.index i :: t)) v (f v)) :
    SameBut T (.array vs) (.array (vs.map f)) := by
  refine array (List.length_map _) fun i v w hv hw => ?_
  rw [List.getElem?_map, hv] at hw
  cases hw
  exact h i v hv

end SameBut

/-! ### The number of places -/

/-- The paths into the items of a list, from the paths into each item. -/
def itemPaths (paths : Value → List Path) (items : List Value) : List Path :=
  items.zipIdx.flatMap fun x => (paths x.1).map (.index x.2 :: ·)

theorem mem_itemPaths {paths : Value → List Path} {items : List Value} {path : Path} :
    path ∈ itemPaths paths items ↔
      ∃ i v rest, items[i]? = some v ∧ rest ∈ paths v ∧ path = .index i :: rest := by
  simp only [itemPaths, List.mem_flatMap, List.mem_map, Prod.exists]
  constructor
  · rintro ⟨v, i, hv, rest, hrest, rfl⟩
    exact ⟨i, v, rest, List.mem_zipIdx_iff_getElem?.mp hv, hrest, rfl⟩
  · rintro ⟨i, v, rest, hv, hrest, rfl⟩
    exact ⟨v, i, List.mem_zipIdx_iff_getElem?.mpr hv, rest, hrest, rfl⟩

theorem nodup_map_cons {paths : List Path} (h : paths.Nodup) (s : Step) :
    (paths.map (s :: ·)).Nodup :=
  h.map fun _ _ heq => (List.cons.inj heq).2

theorem nodup_itemPaths {paths : Value → List Path} (h : ∀ v, (paths v).Nodup)
    (items : List Value) : (itemPaths paths items).Nodup := by
  refine List.nodup_flatMap.mpr ⟨fun x _ => nodup_map_cons (h x.1) _, ?_⟩
  have hpositions : (items.zipIdx.map Prod.snd).Nodup := by
    rw [List.zipIdx_map_snd]
    exact List.nodup_range'
  refine (List.pairwise_map.mp hpositions).imp fun hne path hfirst hsecond => ?_
  obtain ⟨rest, -, rfl⟩ := List.mem_map.mp hfirst
  obtain ⟨rest', -, heq⟩ := List.mem_map.mp hsecond
  exact hne (Step.index.inj (List.cons.inj heq).1).symm

theorem length_itemPaths (paths : Value → List Path) (items : List Value) :
    (itemPaths paths items).length = (items.map fun v => (paths v).length).sum := by
  simp only [itemPaths, List.length_flatMap, List.length_map]
  conv_rhs => rw [← List.zipIdx_map_fst 0 items, List.map_map]
  rfl

/-- The paths to the items of a list that satisfy a condition. -/
def pathsWhere (p : Value → Bool) : List Value → List Path :=
  itemPaths fun v => if p v then [[]] else []

theorem mem_pathsWhere {p : Value → Bool} {items : List Value} {path : Path} :
    path ∈ pathsWhere p items ↔ ∃ i v, items[i]? = some v ∧ p v ∧ path = [.index i] := by
  simp only [pathsWhere, mem_itemPaths]
  constructor
  · rintro ⟨i, v, rest, hv, hrest, rfl⟩
    split at hrest
    next hp => exact ⟨i, v, hv, hp, by rw [List.mem_singleton.mp hrest]⟩
    next => cases hrest
  · rintro ⟨i, v, hv, hp, rfl⟩
    exact ⟨i, v, [], hv, by rw [if_pos hp]; exact List.mem_singleton_self _, rfl⟩

theorem nodup_pathsWhere (p : Value → Bool) (items : List Value) : (pathsWhere p items).Nodup :=
  nodup_itemPaths (fun v => by split <;> simp) items

theorem length_pathsWhere (p : Value → Bool) (items : List Value) :
    (pathsWhere p items).length = items.countP p := by
  rw [pathsWhere, length_itemPaths]
  induction items with
  | nil => rfl
  | cons v items ih =>
    rw [List.map_cons, List.sum_cons, ih, List.countP_cons]
    by_cases hp : p v <;> simp [hp, Nat.add_comm]

/-- A list without repetitions counts what is in it. -/
theorem encard_eq_length {α : Type} [DecidableEq α] {p : α → Prop} {xs : List α}
    (hnodup : xs.Nodup) (hmem : ∀ x, x ∈ xs ↔ p x) : Set.encard {x | p x} = xs.length := by
  have hset : {x | p x} = ↑xs.toFinset := by
    ext x
    simp [hmem]
  rw [hset, Set.encard_coe_eq_coe_finsetCard, List.toFinset_card_of_nodup hnodup]

end Value

end SpirvBindings.Json
