import Mathlib.Data.List.TakeWhile
import Mathlib.Logic.Function.Conjugate
import SpirvBindings.Proofs.Json.Decoding

/-! Records that were changed and printed. The members of an object make the changes of its fields,
and these commute, so that the order of the members does not matter. An open record whose fields are
independent of each other therefore keeps the changes that its fields keep, and a new member of
another name; it also keeps being written as an array. -/

namespace SpirvBindings.Json

open Value (Extends itemsTree membersTree)

variable {α β : Type}

/-! ### Members of trees -/

namespace Tree.Members

/-- The members of an object in reading order. -/
def entries : Members → List (Option String × Tree)
  | .closed => []
  | .broken => []
  | .cons key content rest => (key, content) :: entries rest

theorem exists_entry_of_mem : (members : Members) → ∀ {ms : Value.Members} {key : String}
    {v : Value}, members.toMembers? = some ms → (key, v) ∈ ms →
      ∃ content, (some key, content) ∈ members.entries ∧ content.toValue? = some v
  | .closed, _, _, _, rfl, h => by cases h
  | .cons k? content rest, ms, key, v, hms, h => by
    obtain ⟨k, w, ns, rfl, hw, hns, rfl⟩ := Value.toMembers?_cons_eq_some_iff.mp hms
    rcases Value.Members.mem_putNew h with heq | hmem
    · cases heq
      exact ⟨content, List.mem_cons_self, hw⟩
    · obtain ⟨content', hentry, hcontent'⟩ := exists_entry_of_mem rest hns hmem
      exact ⟨content', List.mem_cons_of_mem _ hentry, hcontent'⟩

theorem get?_isSome_of_mem_entries : (members : Members) → ∀ {ms : Value.Members} {key : String}
    {content : Tree}, members.toMembers? = some ms → (some key, content) ∈ members.entries →
      (ms.get? key).isSome
  | .closed, _, _, _, rfl, h => by cases h
  | .cons k? content' rest, ms, key, content, hms, h => by
    obtain ⟨k, w, ns, rfl, hw, hns, rfl⟩ := Value.toMembers?_cons_eq_some_iff.mp hms
    rw [Value.Members.get?_putNew]
    split
    next => rfl
    next hne =>
      rcases List.mem_cons.mp h with heq | hmem
      · cases heq
        exact absurd rfl hne
      · exact get?_isSome_of_mem_entries rest hns hmem

theorem entries_membersTree (ms : Value.Members) :
    (membersTree ms).entries = ms.map fun p => (some p.1, p.2.tree) := by
  induction ms with
  | nil => rfl
  | cons p ms ih => rw [List.map_cons, ← ih]; rfl

end Tree.Members

/-! ### Changes of records -/

/-- The outcome of changes that are made one after the other. -/
def applyAll (changes : List (α → α)) (a : α) : α := changes.foldl (fun a change => change a) a

instance symm_commute : Std.Symm (@Function.Commute α) := ⟨fun _ _ h => h.symm⟩

theorem applyAll_perm {cs ds : List (α → α)} (h : cs.Perm ds)
    (hcommute : cs.Pairwise Function.Commute) (a : α) : applyAll cs a = applyAll ds a := by
  have hall : ∀ c ∈ cs, ∀ d ∈ cs, Function.Commute c d :=
    hcommute.forall_of_forall fun c _ => Function.Commute.refl c
  exact h.foldl_eq' (fun c hc d hd b => (hall d hd c hc).eq b) a

/-- Changes that commute can be made in such an order that a given one comes last. -/
theorem exists_applyAll_eq {cs : List (α → α)} (hcommute : cs.Pairwise Function.Commute)
    {c : α → α} (h : c ∈ cs) (a : α) : ∃ b, applyAll cs a = c b := by
  obtain ⟨before, behind, rfl⟩ := List.append_of_mem h
  have hperm : (before ++ c :: behind).Perm ((before ++ behind) ++ [c]) :=
    List.perm_middle.trans (List.perm_append_singleton c _).symm
  refine ⟨applyAll (before ++ behind) a, ?_⟩
  rw [applyAll_perm hperm hcommute, applyAll, List.foldl_append]
  rfl

/-- Two fields make changes that commute. -/
def Field.Independent (f g : Field α) : Prop :=
  ∀ ⦃t u : Tree⦄ ⦃c d : α → α⦄, f.decode t = .ok c → g.decode u = .ok d → Function.Commute c d

/-- A field keeps a change of its content if the record that it is part of satisfies a condition. -/
def Field.Keeps (f : Field α) (R : Value → Value → Prop) (P : α → Prop) : Prop :=
  f.decode.Keeps R fun change => ∃ a, P (change a)

namespace Field

instance symm_independent : Std.Symm (@Independent α) := ⟨fun _ _ h _ _ _ _ hf hg => (h hg hf).symm⟩

theorem independent_of_sets {γ : Type} {d : Decoder β} {e : Decoder γ} {set : β → α → α}
    {set' : γ → α → α} {name name' : String} {l l' m m' : Bool}
    (h : ∀ x y a, set x (set' y a) = set' y (set x a)) :
    Independent ⟨name, fun t => set <$> d t, l, m⟩ ⟨name', fun t => set' <$> e t, l', m'⟩ := by
  intro t u c c' hc hc'
  obtain ⟨x, -, rfl⟩ := map_eq_ok_iff.mp hc
  obtain ⟨y, -, rfl⟩ := map_eq_ok_iff.mp hc'
  exact h x y

section

variable {d : Decoder β} {R : Value → Value → Prop} {P : α → Prop} {Q : β → Prop}
  {set : β → α → α} {name : String}

theorem keeps_required (h : d.Keeps R Q) (hQ : ∀ x a, P (set x a) → Q x) :
    (required name d set).Keeps R P :=
  h.map set fun x ⟨a, ha⟩ => hQ x a ha

theorem keeps_defaulted (h : d.Keeps R Q) (hQ : ∀ x a, P (set x a) → Q x) :
    (defaulted name d set).Keeps R P :=
  h.map set fun x ⟨a, ha⟩ => hQ x a ha

end

end Field

namespace Record

variable {r : Record α}

theorem mem_fields_of_field? {name : String} {f : Field α} (h : r.field? name = some f) :
    f ∈ r.fields ∧ f.name = name :=
  ⟨List.mem_of_find?_eq_some h, by simpa using List.find?_some h⟩

theorem independent_of_ne (hfields : r.fields.Pairwise Field.Independent) {name other : String}
    {f g : Field α} (hf : r.field? name = some f) (hg : r.field? other = some g)
    (hne : name ≠ other) : f.Independent g := by
  obtain ⟨hmemf, rfl⟩ := mem_fields_of_field? hf
  obtain ⟨hmemg, rfl⟩ := mem_fields_of_field? hg
  exact hfields.forall hmemf hmemg fun heq => hne (congrArg Field.name heq)

/-! ### Records that are written as objects -/

/-- The changes that the members of an object make, with the names of their fields. -/
inductive Assigns (r : Record α) : Tree.Members → List (String × (α → α)) → Prop
  | closed : Assigns r .closed []
  | skipped {key content rest cs} (field : r.field? key = none) (whole : content.isWhole)
    (tail : Assigns r rest cs) : Assigns r (.cons (some key) content rest) cs
  | assigned {key content rest cs f change} (field : r.field? key = some f)
    (decoded : f.decode content = .ok change) (tail : Assigns r rest cs) :
    Assigns r (.cons (some key) content rest) ((key, change) :: cs)

theorem assigns_cons_iff_of_none {key : String} (h : r.field? key = none) {content : Tree}
    {rest : Tree.Members} {cs : List (String × (α → α))} :
    r.Assigns (.cons (some key) content rest) cs ↔ content.isWhole ∧ r.Assigns rest cs := by
  constructor
  · intro hcs
    cases hcs with
    | skipped _ hwhole htail => exact ⟨hwhole, htail⟩
    | assigned hsome => simp [h] at hsome
  · rintro ⟨hwhole, htail⟩
    exact .skipped h hwhole htail

theorem assigns_cons_iff_of_some {key : String} {f : Field α} (h : r.field? key = some f)
    {content : Tree} {rest : Tree.Members} {cs : List (String × (α → α))} :
    r.Assigns (.cons (some key) content rest) cs ↔
      ∃ change tail, f.decode content = .ok change ∧ r.Assigns rest tail ∧
        cs = (key, change) :: tail := by
  constructor
  · intro hcs
    cases hcs with
    | skipped hnone => simp [h] at hnone
    | assigned hsome hchange htail =>
      obtain rfl := Option.some.inj (h.symm.trans hsome)
      exact ⟨_, _, hchange, htail, rfl⟩
  · rintro ⟨change, tail, hchange, htail, rfl⟩
    exact .assigned h hchange htail

theorem missing?_congr {seen others : List String} (h : ∀ name, name ∈ seen ↔ name ∈ others) :
    r.missing? seen = r.missing? others := by
  have hcontains : ∀ name, seen.contains name = others.contains name := by
    intro name
    rw [Bool.eq_iff_iff, List.contains_iff_mem, List.contains_iff_mem, h]
  simp only [missing?, hcontains]

/-- An open record is made by the changes of its members, if no field occurs twice and none is
missing. -/
theorem decodeMembers_eq_ok_iff (hopen : r.isOpen) : (members : Tree.Members) →
    ∀ {seen : List String} {a x : α}, seen.Nodup →
      (r.decodeMembers seen a members = .ok x ↔
        ∃ cs, r.Assigns members cs ∧ ((cs.map Prod.fst).reverse ++ seen).Nodup ∧
          r.missing? ((cs.map Prod.fst).reverse ++ seen) = none ∧
          applyAll (cs.map Prod.snd) a = x)
  | .closed, seen, a, x, hseen => by
    rw [decodeMembers]
    constructor
    · intro h
      split at h
      next => cases h
      next hmissing => exact ⟨[], .closed, by simpa using hseen, hmissing, Except.ok.inj h⟩
    · rintro ⟨_, ⟨⟩, -, hmissing, rfl⟩
      simp only [List.map_nil, List.reverse_nil, List.nil_append] at hmissing
      rw [hmissing]
      rfl
  | .broken, _, _, _, _ => by
    refine iff_of_false (by simp [decodeMembers]) ?_
    rintro ⟨_, ⟨⟩, -⟩
  | .cons none _ _, _, _, _, _ => by
    refine iff_of_false (by simp [decodeMembers]) ?_
    rintro ⟨_, ⟨⟩, -⟩
  | .cons (some key) content rest, seen, a, x, hseen => by
    rw [decodeMembers]
    cases hfield : r.field? key with
    | none =>
      simp only [hopen, if_true, bind_eq_ok_iff, Decoder.skip_eq_ok_iff,
        assigns_cons_iff_of_none hfield, decodeMembers_eq_ok_iff hopen rest hseen]
      constructor
      · rintro ⟨_, hwhole, cs, hcs, h⟩
        exact ⟨cs, ⟨hwhole, hcs⟩, h⟩
      · rintro ⟨cs, ⟨hwhole, hcs⟩, h⟩
        exact ⟨(), hwhole, cs, hcs, h⟩
    | some f =>
      simp only [assigns_cons_iff_of_some hfield]
      -- The keys behind this one have to be new to the keys so far together with it.
      have hkeys : ∀ cs : List (String × (α → α)), ∀ change,
          (((key, change) :: cs).map Prod.fst).reverse ++ seen =
            (cs.map Prod.fst).reverse ++ key :: seen := by
        simp
      by_cases hmem : key ∈ seen
      · simp only [List.contains_iff_mem.mpr hmem, if_true]
        refine iff_of_false (by simp) ?_
        rintro ⟨_, ⟨change, tail, -, -, rfl⟩, hnodup, -⟩
        rw [hkeys] at hnodup
        exact (List.nodup_cons.mp (List.nodup_append.mp hnodup).2.1).1 hmem
      · have hnew : (key :: seen).Nodup := List.nodup_cons.mpr ⟨hmem, hseen⟩
        have hcontains : seen.contains key = false := by simpa using hmem
        simp only [hcontains, Bool.false_eq_true, if_false, bind_eq_ok_iff,
          decodeMembers_eq_ok_iff hopen rest hnew]
        constructor
        · rintro ⟨change, hchange, tail, htail, hnodup, hmissing, rfl⟩
          exact ⟨_, ⟨change, tail, hchange, htail, rfl⟩, by rwa [hkeys], by rwa [hkeys], rfl⟩
        · rintro ⟨_, ⟨change, tail, hchange, htail, rfl⟩, hnodup, hmissing, rfl⟩
          rw [hkeys] at hnodup hmissing
          exact ⟨change, hchange, tail, htail, hnodup, hmissing, rfl⟩

/-! ### Objects that have changed -/

namespace Assigns

variable {members : Tree.Members} {cs : List (String × (α → α))}

/-- A change is made by a member with the name of its field. -/
theorem exists_entry_of_mem (h : r.Assigns members cs) {key : String} {change : α → α}
    (hmem : (key, change) ∈ cs) : ∃ content f, (some key, content) ∈ members.entries ∧
      r.field? key = some f ∧ f.decode content = .ok change := by
  induction h with
  | closed => cases hmem
  | skipped _ _ _ ih =>
    obtain ⟨content, f, hentry, hf⟩ := ih hmem
    exact ⟨content, f, List.mem_cons_of_mem _ hentry, hf⟩
  | assigned hf hdecoded _ ih =>
    rcases List.mem_cons.mp hmem with heq | htail
    · cases heq
      exact ⟨_, _, List.mem_cons_self, hf, hdecoded⟩
    · obtain ⟨content, f, hentry, hf⟩ := ih htail
      exact ⟨content, f, List.mem_cons_of_mem _ hentry, hf⟩

/-- A member with the name of a field makes a change. -/
theorem exists_mem_of_entry (h : r.Assigns members cs) {key : String} {content : Tree}
    {f : Field α} (hentry : (some key, content) ∈ members.entries) (hf : r.field? key = some f) :
    ∃ change, (key, change) ∈ cs ∧ f.decode content = .ok change := by
  induction h with
  | closed => cases hentry
  | skipped hnone _ _ ih =>
    rcases List.mem_cons.mp hentry with heq | htail
    · cases heq
      simp [hnone] at hf
    · exact ih htail
  | assigned hg hdecoded _ ih =>
    rcases List.mem_cons.mp hentry with heq | htail
    · cases heq
      obtain rfl := Option.some.inj (hg.symm.trans hf)
      exact ⟨_, List.mem_cons_self, hdecoded⟩
    · obtain ⟨change, hmem, hchange⟩ := ih htail
      exact ⟨change, List.mem_cons_of_mem _ hmem, hchange⟩

theorem pairwise_commute (h : r.Assigns members cs) (hfields : r.fields.Pairwise Field.Independent)
    (hnodup : (cs.map Prod.fst).Nodup) : (cs.map Prod.snd).Pairwise Function.Commute := by
  refine List.pairwise_map.mpr ((List.pairwise_map.mp hnodup).imp_of_mem ?_)
  rintro ⟨key, c⟩ ⟨other, d⟩ hc hd hne
  obtain ⟨content, f, -, hf, hcontent⟩ := h.exists_entry_of_mem hc
  obtain ⟨content', g, -, hg, hcontent'⟩ := h.exists_entry_of_mem hd
  exact independent_of_ne hfields hf hg hne hcontent hcontent'

theorem keys_sublist (ms : Value.Members) {cs : List (String × (α → α))}
    (h : r.Assigns (membersTree ms) cs) : (cs.map Prod.fst).Sublist (ms.map Prod.fst) := by
  induction ms generalizing cs with
  | nil =>
    cases h
    exact .slnil
  | cons p ms ih =>
    obtain ⟨key, v⟩ := p
    cases h with
    | skipped _ _ htail => exact (ih htail).cons key
    | assigned _ _ htail => exact (ih htail).cons_cons key

end Assigns

/-- The members of a value assign their fields, if all of these can be decoded. -/
theorem exists_assigns {ms : Value.Members}
    (h : ∀ p ∈ ms, ∀ f, r.field? p.1 = some f → ∃ change, f.decode p.2.tree = .ok change) :
    ∃ cs, r.Assigns (membersTree ms) cs := by
  induction ms with
  | nil => exact ⟨[], .closed⟩
  | cons p ms ih =>
    obtain ⟨key, v⟩ := p
    obtain ⟨hfirst, hrest⟩ := List.forall_mem_cons.mp h
    obtain ⟨cs, hcs⟩ := ih hrest
    cases hfield : r.field? key with
    | none => exact ⟨cs, .skipped hfield (Tree.isWhole_tree v) hcs⟩
    | some f =>
      obtain ⟨change, hchange⟩ := hfirst f hfield
      exact ⟨(key, change) :: cs, .assigned hfield hchange hcs⟩

/-- Members that make each of some changes, and no others, make them in another order. -/
theorem exists_assigns_perm {cs : List (String × (α → α))} (hcs : (cs.map Prod.fst).Nodup)
    {ns : Value.Members} (hns : (ns.map Prod.fst).Nodup)
    (hthere : ∀ c ∈ cs, (r.field? c.1).isSome ∧ (ns.get? c.1).isSome)
    (hmade : ∀ name f w, r.field? name = some f → ns.get? name = some w →
      ∃ change, (name, change) ∈ cs ∧ f.decode w.tree = .ok change) :
    ∃ ds, r.Assigns (membersTree ns) ds ∧ cs.Perm ds := by
  obtain ⟨ds, hds⟩ := exists_assigns fun p hp f hf =>
    (hmade p.1 f p.2 hf (Value.Members.get?_of_mem hns hp)).imp fun _ h => h.2
  have hdsnodup : (ds.map Prod.fst).Nodup := (hds.keys_sublist ns).nodup hns
  refine ⟨ds, hds, (List.perm_ext_iff_of_nodup hcs.of_map hdsnodup.of_map).mpr ?_⟩
  rintro ⟨name, change⟩
  constructor
  · intro hmem
    obtain ⟨hf, hw⟩ := hthere _ hmem
    obtain ⟨f, hf⟩ := Option.isSome_iff_exists.mp hf
    obtain ⟨w, hw⟩ := Option.isSome_iff_exists.mp hw
    obtain ⟨change', hmem', hchange'⟩ := hmade name f w hf hw
    have hentry : (some name, w.tree) ∈ (membersTree ns).entries := by
      rw [Tree.Members.entries_membersTree]
      exact List.mem_map.mpr ⟨_, Value.Members.mem_of_get? hw, rfl⟩
    obtain ⟨change'', hmem'', hchange''⟩ := hds.exists_mem_of_entry hentry hf
    obtain rfl := Except.ok.inj (hchange'.symm.trans hchange'')
    exact List.inj_on_of_nodup_map hcs hmem hmem' rfl ▸ hmem''
  · intro hmem
    obtain ⟨content, f, hentry, hf, hchange⟩ := hds.exists_entry_of_mem hmem
    rw [Tree.Members.entries_membersTree, List.mem_map] at hentry
    obtain ⟨⟨name', w⟩, hw, heq⟩ := hentry
    cases heq
    obtain ⟨change', hmem', hchange'⟩ := hmade name' f w hf (Value.Members.get?_of_mem hns hw)
    rwa [Except.ok.inj (hchange.symm.trans hchange')]

/-- An object that was read as a record, extended and printed is read as the same record. -/
theorem decodeMembers_membersTree {key : String} {R : String → Value → Value → Prop} {P : α → Prop}
    (hopen : r.isOpen) (hindependent : r.fields.Pairwise Field.Independent)
    (hkey : r.field? key = none)
    (hkeeps : ∀ f ∈ r.fields, f.Keeps (R f.name) P)
    {members : Tree.Members} {ms ns : Value.Members} (hms : members.toMembers? = some ms)
    (hns : ns.IsOrdered) (hR : ∀ k, k ≠ key → Option.Rel (R k) (ms.get? k) (ns.get? k)) {x : α}
    (hx : P x) (h : r.decodeMembers [] r.blank members = .ok x) :
    r.decodeMembers [] r.blank (membersTree ns) = .ok x := by
  obtain ⟨cs, hcs, hnodup, hmissing, happly⟩ := (decodeMembers_eq_ok_iff hopen _ .nil).mp h
  simp only [List.append_nil, List.nodup_reverse] at hnodup hmissing
  have hcommute := hcs.pairwise_commute hindependent hnodup
  have hrel : ∀ {name f}, r.field? name = some f →
      Option.Rel (R name) (ms.get? name) (ns.get? name) := by
    intro name f hf
    refine hR name ?_
    rintro rfl
    simp [hkey] at hf
  obtain ⟨ds, hds, hperm⟩ : ∃ ds, r.Assigns (membersTree ns) ds ∧ cs.Perm ds := by
    refine exists_assigns_perm hnodup hns.nodup ?_ ?_
    · rintro ⟨name, change⟩ hmem
      obtain ⟨content, f, hentry, hf, -⟩ := hcs.exists_entry_of_mem hmem
      refine ⟨by simp [hf], ?_⟩
      rw [← isSome_eq_of_rel (hrel hf)]
      exact Tree.Members.get?_isSome_of_mem_entries members hms hentry
    · intro name f w hf hw
      obtain ⟨v, hv, hvw⟩ := rel_some_iff.mp (hw ▸ hrel hf)
      obtain ⟨content, hentry, hvalue⟩ :=
        Tree.Members.exists_entry_of_mem members hms (Value.Members.mem_of_get? hv)
      obtain ⟨change, hmem, hchange⟩ := hcs.exists_mem_of_entry hentry hf
      -- The condition on the record passes to this change as if it had come last.
      obtain ⟨b, hb⟩ := exists_applyAll_eq hcommute (List.mem_map_of_mem hmem) r.blank
      obtain ⟨hfield, rfl⟩ := mem_fields_of_field? hf
      have hlast : P (change b) := (happly.symm.trans hb).subst hx
      exact ⟨change, hmem, hkeeps f hfield hvalue hvw ⟨b, hlast⟩ hchange⟩
  have hnames : (cs.map Prod.fst).Perm (ds.map Prod.fst) := hperm.map Prod.fst
  refine (decodeMembers_eq_ok_iff hopen _ .nil).mpr ⟨ds, hds, ?_, ?_, ?_⟩
  · simpa using hnames.nodup_iff.mp hnodup
  · rw [← hmissing]
    refine missing?_congr fun name => ?_
    simp only [List.append_nil, List.mem_reverse, hnames.mem_iff]
  · rw [← happly]
    exact (applyAll_perm (hperm.map Prod.snd) hcommute _).symm

/-! ### Records that are written as arrays -/

/-- The changes that the items of an array make in the fields of a list, one after the other. -/
inductive Fills : List (Field α) → Tree.Items → List (α → α) → Prop
  | closed {fields} (done : ∀ f ∈ fields, f.mayEnd) : Fills fields .closed []
  | filled {f fields item rest change cs} (decoded : f.decode item = .ok change)
    (tail : Fills fields rest cs) : Fills (f :: fields) (.cons item rest) (change :: cs)

theorem endItems_eq_ok_iff {fields : List (Field α)} {a x : α} :
    r.endItems fields a = .ok x ↔ (∀ f ∈ fields, f.mayEnd) ∧ a = x := by
  rw [← List.dropWhile_eq_nil_iff, endItems]
  split
  next hdone => simp [hdone]
  next hlate => exact iff_of_false (by simp) fun h => hlate h.1

theorem decodeItems_eq_ok_iff : (is : Tree.Items) → ∀ {fields : List (Field α)} {a x : α},
    r.decodeItems fields a is = .ok x ↔ ∃ cs, Fills fields is cs ∧ applyAll cs a = x
  | .closed, fields, a, x => by
    rw [decodeItems.eq_def]
    simp only [endItems_eq_ok_iff]
    constructor
    · rintro ⟨hdone, rfl⟩
      exact ⟨[], .closed hdone, rfl⟩
    · rintro ⟨_, ⟨hdone⟩, rfl⟩
      exact ⟨hdone, rfl⟩
  | .broken, fields, a, x => by
    refine iff_of_false (by simp [decodeItems]) ?_
    rintro ⟨_, ⟨⟩, -⟩
  | .cons item rest, [], a, x => by
    refine iff_of_false (by simp [decodeItems]) ?_
    rintro ⟨_, ⟨⟩, -⟩
  | .cons item rest, f :: fields, a, x => by
    simp only [decodeItems, bind_eq_ok_iff, decodeItems_eq_ok_iff rest]
    constructor
    · rintro ⟨change, hchange, cs, hcs, rfl⟩
      exact ⟨change :: cs, .filled hchange hcs, rfl⟩
    · rintro ⟨_, hfills, rfl⟩
      cases hfills with
      | filled hchange hcs => exact ⟨_, hchange, _, hcs, rfl⟩

namespace Fills

variable {fields : List (Field α)} {is : Tree.Items} {cs : List (α → α)}

theorem exists_decode_of_mem (h : Fills fields is cs) {change : α → α} (hmem : change ∈ cs) :
    ∃ f ∈ fields, ∃ item, f.decode item = .ok change := by
  induction h with
  | closed => cases hmem
  | filled hdecoded _ ih =>
    rcases List.mem_cons.mp hmem with rfl | hmem
    · exact ⟨_, List.mem_cons_self, _, hdecoded⟩
    · obtain ⟨f, hf, item, hitem⟩ := ih hmem
      exact ⟨f, List.mem_cons_of_mem _ hf, item, hitem⟩

theorem pairwise_commute (h : Fills fields is cs)
    (hfields : fields.Pairwise Field.Independent) : cs.Pairwise Function.Commute := by
  induction h with
  | closed => exact .nil
  | filled hdecoded htail ih =>
    obtain ⟨hfirst, hrest⟩ := List.pairwise_cons.mp hfields
    refine List.pairwise_cons.mpr ⟨fun change hmem => ?_, ih hrest⟩
    obtain ⟨f, hf, item, hitem⟩ := htail.exists_decode_of_mem hmem
    exact hfirst f hf hdecoded hitem

/-- The printed items make the same changes. -/
theorem itemsTree {P : (α → α) → Prop} (h : Fills fields is cs) {vs : List Value}
    (hvs : is.toValues? = some vs) (hkeeps : ∀ f ∈ fields, f.decode.Keeps Eq P)
    (hP : ∀ change ∈ cs, P change) : Fills fields (itemsTree vs) cs := by
  induction h generalizing vs with
  | closed hdone =>
    cases hvs
    exact .closed hdone
  | filled hdecoded _ ih =>
    obtain ⟨v, us, hv, hus, rfl⟩ := Value.toValues?_cons_eq_some_iff.mp hvs
    obtain ⟨hfirst, hrest⟩ := List.forall_mem_cons.mp hkeeps
    obtain ⟨hPfirst, hPrest⟩ := List.forall_mem_cons.mp hP
    exact .filled (hfirst hv rfl hPfirst hdecoded) (ih hus hrest hPrest)

end Fills

/-! ### Records -/

/-- An open record whose fields are independent keeps what its fields keep, and members of another
name. -/
theorem keeps {key : String} {R : String → Value → Value → Prop} {P : α → Prop} (hopen : r.isOpen)
    (hindependent : r.fields.Pairwise Field.Independent) (hkey : r.field? key = none)
    (hrefl : ∀ name v, R name v v)
    (hkeeps : ∀ f ∈ r.fields, f.Keeps (R f.name) P) :
    r.decode.Keeps (Extends key R) P := by
  intro t v w x ht hR hx hd
  cases t with
  | object members =>
    obtain ⟨ms, hms, rfl⟩ := Option.map_eq_some_iff.mp ht
    obtain ⟨ns, rfl, hns, hcontents⟩ :=
      exists_members_of_extends hrefl (Value.isOrdered_of_toMembers? members hms).1 hR
    exact decodeMembers_membersTree hopen hindependent hkey hkeeps hms hns hcontents hx hd
  | array is =>
    obtain ⟨vs, hvs, rfl⟩ := Option.map_eq_some_iff.mp ht
    -- An array has no members, so that it is as it was.
    cases hR
    obtain ⟨cs, hcs, happly⟩ := (decodeItems_eq_ok_iff is).mp hd
    have hlast : ∀ change ∈ cs, ∃ a, P (change a) := by
      intro change hmem
      obtain ⟨a, ha⟩ := exists_applyAll_eq (hcs.pairwise_commute hindependent) hmem r.blank
      exact ⟨a, (happly.symm.trans ha).subst hx⟩
    have hkeepsEq : ∀ f ∈ r.fields, f.decode.Keeps Eq fun change => ∃ a, P (change a) := by
      rintro f hf t v _ change ht rfl
      exact hkeeps f hf ht (hrefl f.name v)
    exact (decodeItems_eq_ok_iff _).mpr ⟨cs, hcs.itemsTree hvs hkeepsEq hlast, happly⟩
  | _ => cases hd

end Record

end SpirvBindings.Json
