import SpirvBindings.Proofs.Configuration.Rearrangement
import SpirvBindings.Proofs.Json.Records

/-! Trees that differ in the lists of some fields. A decoder carries a relation of trees to one of
values if it fails on both of two related trees, or makes related values of them. Lists carry
rearrangements of their items. A record carries what its fields carry, in either form in which it
can be written, and a text carries what its tree carries. -/

namespace SpirvBindings.Json

variable {α β κ : Type}

/-! ### Revised trees -/

namespace Tree

/-- The items of an array that ends with its closing bracket. -/
def Items.ofList : List Tree → Items
  | [] => .closed
  | t :: ts => .cons t (ofList ts)

/-- An array may have other items. Any tree stays as it is. -/
inductive ListRevised (L : List Tree → List Tree → Prop) : Tree → Tree → Prop
  | same (t : Tree) : ListRevised L t t
  | array {ts us : List Tree} (h : L ts us) :
    ListRevised L (.array (.ofList ts)) (.array (.ofList us))

/-- The contents of the members of an object may differ, each as its key allows. -/
inductive Members.Revised (C : String → Tree → Tree → Prop) : Members → Members → Prop
  | closed : Revised C .closed .closed
  | cons {key? : Option String} {t u : Tree} {ms ns : Members} (h : ∀ key ∈ key?, C key t u)
    (rest : Revised C ms ns) : Revised C (.cons key? t ms) (.cons key? u ns)

/-- The items of an array may differ, each as the field at its position allows. -/
inductive Items.Revised (C : String → Tree → Tree → Prop) : List String → Items → Items → Prop
  | closed {names : List String} : Revised C names .closed .closed
  | cons {name : String} {names : List String} {t u : Tree} {is js : Items} (h : C name t u)
    (rest : Revised C names is js) : Revised C (name :: names) (.cons t is) (.cons u js)

/-- The contents of the fields of a record may differ, each as its name allows. The record is
written as an object, or as an array of its fields in order. -/
inductive RecordRevised (names : List String) (C : String → Tree → Tree → Prop) : Tree → Tree → Prop
  | same (t : Tree) : RecordRevised names C t t
  | object {ms ns : Members} (h : ms.Revised C ns) : RecordRevised names C (.object ms) (.object ns)
  | array {is js : Items} (h : Items.Revised C names is js) :
    RecordRevised names C (.array is) (.array js)

/-- Two texts hold trees that are related, with nothing but blanks behind them, or with something
else behind both. -/
structure TextRevised (R : Tree → Tree → Prop) (source source' : String) : Prop where
  tree : R (read source.toList).1 (read source'.toList).1
  ending : (read source.toList).2.map skipBlanks = some [] ↔
    (read source'.toList).2.map skipBlanks = some []

end Tree

open Json.Tree (ListRevised RecordRevised TextRevised)

namespace Decoder

variable {d : Decoder α} {R : Tree → Tree → Prop} {S : α → α → Prop}

/-- What a decoder makes of related trees corresponds. -/
def Carries (d : Decoder α) (R : Tree → Tree → Prop) (S : α → α → Prop) : Prop :=
  ∀ ⦃t u : Tree⦄, R t u → Corresponds S (d t) (d u)

/-- No two values of two trees show one key. -/
def Apart (d : Decoder α) (key : α → κ) (t u : Tree) : Prop :=
  ∀ a b, d t = .ok a → d u = .ok b → key a ≠ key b

/-- Two lists of trees differ by their order, by changes of items, and by items that are added to
either of them. What is added has a new value, and a key of its own. -/
def Rearranges (d : Decoder α) (R : Tree → Tree → Prop) (New : α → Prop) (key : α → κ)
    (ts us : List Tree) : Prop :=
  Rearranged R (fun t => ∃ a, d t = .ok a ∧ New a) (d.Apart key) ts us

theorem apart_of_decode {key : α → κ} {t u : Tree} {a b : α} (ha : d t = .ok a) (hb : d u = .ok b)
    (h : key a ≠ key b) : d.Apart key t u := by
  intro a' b' ha' hb'
  rwa [← Except.ok.inj (ha.symm.trans ha'), ← Except.ok.inj (hb.symm.trans hb')]

theorem carries_eq (hS : ∀ a, S a a) : d.Carries Eq S := by
  rintro t _ rfl
  exact .same hS _

/-! ### Lists -/

theorem items_ofList_eq_ok_iff {ts : List Tree} {as : List α} :
    items d (.ofList ts) = .ok as ↔ List.Forall₂ (fun t a => d t = .ok a) ts as := by
  induction ts generalizing as with
  | nil => simp [Tree.Items.ofList, items, eq_comm]
  | cons t ts ih =>
    simp only [Tree.Items.ofList, items, bind_eq_ok_iff, ih, List.forall₂_cons_left_iff]
    constructor
    · rintro ⟨a, ha, as, has, hcons⟩
      cases hcons
      exact ⟨a, as, ha, has, rfl⟩
    · rintro ⟨a, as, ha, has, rfl⟩
      exact ⟨a, ha, as, has, rfl⟩

/-- The same items in another order make the same values in another order. -/
theorem exists_items_of_perm {ts us : List Tree} (h : ts.Perm us) {as : List α}
    (has : items d (.ofList ts) = .ok as) :
    ∃ bs, items d (.ofList us) = .ok bs ∧ as.Perm bs := by
  obtain ⟨bs, hbs, hperm⟩ := List.perm_comp_forall₂ h.symm (items_ofList_eq_ok_iff.mp has)
  exact ⟨bs, items_ofList_eq_ok_iff.mpr hbs, hperm.symm⟩

theorem items_corresponds_of_perm {ts us : List Tree} (h : ts.Perm us) :
    Corresponds List.Perm (items d (.ofList ts)) (items d (.ofList us)) := by
  refine .of_matched (fun as has => exists_items_of_perm h has) fun bs hbs => ?_
  obtain ⟨as, has, -⟩ := exists_items_of_perm h.symm hbs
  exact ⟨as, has⟩

/-- A tree has at most one value. -/
theorem eq_of_decode {t : Tree} {a b : α} (ha : d t = .ok a) (hb : d t = .ok b) : a = b :=
  Except.ok.inj (ha.symm.trans hb)

/-- Items that are apart make values with different keys. -/
theorem pairwise_of_apart {key : α → κ} {ts : List Tree} (h : ts.Pairwise (d.Apart key))
    {as : List α} (has : items d (.ofList ts) = .ok as) : as.Pairwise (key · ≠ key ·) := by
  refine (pairwise_iff_of_forall₂ (items_ofList_eq_ok_iff.mp has) fun t u a b ha hb => ?_).mp h
  exact ⟨fun hapart => hapart a b ha hb, apart_of_decode ha hb⟩

/-- Rearranged items make rearranged values. -/
theorem Carries.items_of_rearranges (hd : d.Carries R S) {New : α → Prop} {key : α → κ}
    {ts us : List Tree} (h : d.Rearranges R New key ts us) :
    Corresponds (Rearranged S New (key · ≠ key ·)) (items d (.ofList ts))
      (items d (.ofList us)) := by
  have hforward : ∀ {R : Tree → Tree → Prop} {S : α → α → Prop} {ts us : List Tree},
      d.Carries R S → d.Rearranges R New key ts us → ∀ as, items d (.ofList ts) = .ok as →
        ∃ bs, items d (.ofList us) = .ok bs ∧ Rearranged S New (key · ≠ key ·) as bs := by
    intro R S ts us hd h as has
    have hrelated : ∀ t u a, R t u → d t = .ok a → ∃ b, d u = .ok b ∧ S a b := by
      intro t u a hR ha
      have hboth := hd hR
      obtain ⟨b, hb⟩ := hboth.succeeds_iff.mp ⟨a, ha⟩
      exact ⟨b, hb, hboth.related ha hb⟩
    obtain ⟨bs, hbs, hrearranged⟩ := Rearranged.exists_corresponding
      (R := fun t a => d t = .ok a) (fun _ _ _ => eq_of_decode) hrelated h
      (items_ofList_eq_ok_iff.mp has)
    exact ⟨bs, items_ofList_eq_ok_iff.mpr hbs, hrearranged⟩
  refine .of_matched (hforward hd h) fun bs hbs => ?_
  obtain ⟨as, has, -⟩ := hforward (fun t u hR => (hd hR).symm) h.symm bs hbs
  exact ⟨as, has⟩

theorem carries_list {L : List Tree → List Tree → Prop} {T : List α → List α → Prop}
    (hT : ∀ as, T as as)
    (hL : ∀ ts us, L ts us → Corresponds T (items d (.ofList ts)) (items d (.ofList us))) :
    d.list.Carries (ListRevised L) T := by
  rintro _ _ (t | hts)
  · exact .same hT _
  · exact hL _ _ hts

theorem carries_list_perm : d.list.Carries (ListRevised List.Perm) List.Perm :=
  carries_list (fun _ => .rfl) fun _ _ => items_corresponds_of_perm

/-- A list or `null`. -/
theorem Carries.orNull_list {L : List Tree → List Tree → Prop} {T : List α → List α → Prop}
    (hT : ∀ as, T as as) (h : d.list.Carries (ListRevised L) T) :
    d.list.orNull.Carries (ListRevised L) (Option.Rel T) := by
  rintro t u htu
  cases htu with
  | same t => exact .same (rel_self hT) _
  | array hts => exact (h (.array hts)).map fun _ _ => .some

end Decoder

/-! ### Records -/

/-- A field carries the changes that its name allows: it makes related records of related ones. -/
def Field.Carries (C : String → Tree → Tree → Prop) (S : α → α → Prop) (f : Field α) : Prop :=
  f.decode.Carries (C f.name) fun c c' => ∀ a a', S a a' → S (c a) (c' a')

section

variable {C : String → Tree → Tree → Prop} {S : α → α → Prop}

/-- A field carries what the decoder of its content carries, if setting it keeps records related. -/
theorem Field.carries {d : Decoder β} {T : β → β → Prop} {set : β → α → α} {name : String}
    (hd : d.Carries (C name) T) (hset : ∀ x y a a', T x y → S a a' → S (set x a) (set y a'))
    (mayLack mayEnd : Bool) : Carries C S ⟨name, fun t => set <$> d t, mayLack, mayEnd⟩ :=
  fun _ _ htu => (hd htu).map fun x y hT a a' hS => hset x y a a' hT hS

namespace Record

variable {r : Record α}

/-- What is read of the members so far is related, and what is still to come is carried. -/
theorem decodeMembers_corresponds (hfields : ∀ f ∈ r.fields, f.Carries C S)
    (hother : ∀ key t u, r.field? key = none → C key t u → t = u) {ms ns : Tree.Members}
    (h : ms.Revised C ns) (seen : List String) {a a' : α} (hS : S a a') :
    Corresponds S (r.decodeMembers seen a ms) (r.decodeMembers seen a' ns) := by
  induction h generalizing seen a a' with
  | closed =>
    simp only [decodeMembers]
    cases r.missing? seen with
    | some name => exact .error _ _
    | none => exact .ok hS
  | @cons key? t u ms ns hC _ ih =>
    cases key? with
    | none => exact .error _ _
    | some key =>
      simp only [decodeMembers]
      cases hfield : r.field? key with
      | none =>
        obtain rfl := hother key t u hfield (hC key rfl)
        simp only
        split
        · exact (Corresponds.same (fun _ => trivial) _).bind (S := fun _ _ => True)
            fun _ _ _ => ih seen hS
        · exact .error _ _
      | some f =>
        obtain ⟨hmem, rfl⟩ := mem_fields_of_field? hfield
        simp only
        split
        · exact .error _ _
        · exact (hfields f hmem (hC _ rfl)).bind fun c c' hc => ih _ (hc a a' hS)

theorem decodeItems_corresponds {fields : List (Field α)}
    (hfields : ∀ f ∈ fields, f.Carries C S) {is js : Tree.Items}
    (h : Tree.Items.Revised C (fields.map (·.name)) is js) {a a' : α} (hS : S a a') :
    Corresponds S (r.decodeItems fields a is) (r.decodeItems fields a' js) := by
  generalize hnames : fields.map (·.name) = names at h
  induction h generalizing fields a a' with
  | closed =>
    simp only [decodeItems, endItems]
    split
    · exact .ok hS
    · exact .error _ _
  | cons hC _ ih =>
    cases fields with
    | nil => cases hnames
    | cons f fields =>
      obtain ⟨hf, hrest⟩ := List.forall_mem_cons.mp hfields
      obtain ⟨rfl, htail⟩ := List.cons_eq_cons.mp hnames
      simp only [decodeItems]
      exact (hf hC).bind fun c c' hc => ih hrest (hc a a' hS) htail

/-- A record carries what its fields carry. -/
theorem carries (hS : ∀ a, S a a) (hfields : ∀ f ∈ r.fields, f.Carries C S)
    (hother : ∀ key t u, r.field? key = none → C key t u → t = u) :
    r.decode.Carries (RecordRevised (r.fields.map (·.name)) C) S := by
  rintro _ _ (t | hms | his)
  · exact .same hS _
  · exact decodeMembers_corresponds hfields hother hms [] (hS r.blank)
  · exact decodeItems_corresponds hfields his (hS r.blank)

end Record

end

/-! ### Texts -/

theorem Tree.textRevised_indentedText {R : Tree → Tree → Prop} {v w : Value}
    (h : R v.tree w.tree) : TextRevised R v.indentedText w.indentedText := by
  constructor
  · simpa only [Tree.read_indentedText] using h
  · simp only [Tree.read_indentedText]

theorem Decoder.Carries.document {d : Decoder α} {R : Tree → Tree → Prop} {S : α → α → Prop}
    (hd : d.Carries R S) {source source' : String} (h : TextRevised R source source') :
    Corresponds S (d.document source) (d.document source') := by
  have hboth := hd h.tree
  refine .of_matched (fun a ha => ?_) fun b hb => ?_
  · obtain ⟨hdecode, hrest⟩ := document_eq_ok_iff.mp ha
    obtain ⟨b, hb⟩ := hboth.succeeds_iff.mp ⟨a, hdecode⟩
    exact ⟨b, document_eq_ok_iff.mpr ⟨hb, h.ending.mp hrest⟩, hboth.related hdecode hb⟩
  · obtain ⟨hdecode, hrest⟩ := document_eq_ok_iff.mp hb
    obtain ⟨a, ha⟩ := hboth.succeeds_iff.mpr ⟨b, hdecode⟩
    exact ⟨a, document_eq_ok_iff.mpr ⟨ha, h.ending.mpr hrest⟩⟩

end SpirvBindings.Json
