import SpirvBindings.Proofs.TemplateOrder

/-! Template parameters as names of one text. The result type of a signature and the types and
defaults of its parameters can be put together to one text, with separators between them: the tokens
of the whole are those of the parts. Its generic letters are the template parameters of a signature
that has no others. In general the template parameters are the tokens of this text that stand for
one, in the order in which they first appear there, however far apart. The same lists come out of
taking the tokens one after the other, text by text, and adding each that stands for something unless
its name is there. -/

namespace SpirvBindings

namespace Identifier

/-! ### Texts put together -/

/-- A text of several texts in order, with separators between them. -/
inductive Joined : List String → String → Prop
  | single (text : String) : Joined [text] text
  | cons (text : String) {separator : String} {texts : List String} {rest : String}
      (hne : separator ≠ "") (hseparator : ∀ c ∈ separator.toList, ¬ isChar c)
      (h : Joined texts rest) : Joined (text :: texts) (text ++ separator ++ rest)

/-- Separators in front of a text add empty pieces only. -/
theorem filter_pieces_append {separator : List Char} (h : ∀ c ∈ separator, ¬ isChar c)
    (cs : List Char) :
    (pieces (separator ++ cs)).filter (! ·.isEmpty) = (pieces cs).filter (! ·.isEmpty) := by
  induction separator with
  | nil => rfl
  | cons c separator ih =>
    obtain ⟨hc, hrest⟩ := List.forall_mem_cons.mp h
    rw [List.cons_append, pieces_cons_of_not_isChar hc]
    exact ih hrest

theorem tokens_append_separator {separator : String} (hne : separator ≠ "")
    (h : ∀ c ∈ separator.toList, ¬ isChar c) (before after : String) :
    tokens (before ++ separator ++ after) = tokens before ++ tokens after := by
  cases hs : separator.toList with
  | nil => exact absurd (String.toList_eq_nil_iff.mp hs) hne
  | cons c rest =>
    rw [hs, List.forall_mem_cons] at h
    have htext : (before ++ separator ++ after).toList =
        before.toList ++ c :: (rest ++ after.toList) := by
      simp [hs]
    simp only [tokens]
    rw [htext, pieces_append_cons h.1, List.filter_append, filter_pieces_append h.2,
      List.map_append]

/-- The tokens of texts put together are those of the parts in order. -/
theorem Joined.tokens_eq {texts : List String} {text : String} (h : Joined texts text) :
    tokens text = texts.flatMap tokens := by
  induction h with
  | single text => simp
  | cons text hne hseparator _ ih =>
    rw [tokens_append_separator hne hseparator, ih, List.flatMap_cons]

/-! ### First appearances -/

/-- Those of some tokens for which a condition holds, each once, in order of first appearance. -/
structure FirstAppearances (tokens : List String) (P : String → Prop) (names : List String) :
    Prop where
  nodup : names.Nodup
  mem_iff : ∀ name, name ∈ names ↔ name ∈ tokens ∧ P name
  ordered : names.Pairwise fun x y => tokens.idxOf x < tokens.idxOf y

/-- There is only one such list. -/
theorem FirstAppearances.unique {tokens names names' : List String} {P : String → Prop}
    (h : FirstAppearances tokens P names) (h' : FirstAppearances tokens P names') :
    names = names' := by
  have hperm : names.Perm names' := (List.perm_ext_iff_of_nodup h.nodup h'.nodup).mpr fun name =>
    (h.mem_iff name).trans (h'.mem_iff name).symm
  exact hperm.eq_of_pairwise (fun x y _ _ hxy hyx => absurd hyx (Nat.lt_asymm hxy)) h.ordered
    h'.ordered

theorem genericLetters_firstAppearances (text : String) :
    FirstAppearances (tokens text) (isGenericLetter ·) (genericLetters text) where
  nodup := Signature.nodup_eraseDups _
  mem_iff name := by simp [genericLetters, List.mem_eraseDups, List.mem_filter]
  ordered := by
    have hletter : ∀ x ∈ genericLetters text, isGenericLetter x := fun x hx =>
      (List.mem_filter.mp (List.mem_eraseDups.mp hx)).2
    exact (pairwise_idxOf_eraseDups _).imp_of_mem fun hx hy =>
      idxOf_lt_of_idxOf_filter_lt (hletter _ hx) (hletter _ hy)

/-- Repetitions may go before the other tokens do. -/
theorem genericLetters_eq_filter_eraseDups (text : String) :
    genericLetters text = (tokens text).eraseDups.filter isGenericLetter :=
  (genericLetters_firstAppearances text).unique
    ⟨(Signature.nodup_eraseDups _).filter _, fun name => by simp [List.mem_eraseDups],
      (pairwise_idxOf_eraseDups _).filter _⟩

/-! ### One token after the other -/

/-- Adds what a token stands for, unless its name is there. -/
def addNew {α : Type} (name : α → String) (meaning? : String → Option α) (found : List α)
    (token : String) : List α :=
  if found.any (name · == token) then found else found ++ (meaning? token).toList

variable {α : Type} {name : α → String} {meaning? : String → Option α}

/-- A token that was met before changes nothing, whether it stands for something or not. -/
theorem addNew_filterMap_eraseDups (h : ∀ token a, meaning? token = some a → name a = token)
    (met : List String) (token : String) :
    addNew name meaning? (met.eraseDups.filterMap meaning?) token =
      (met ++ [token]).eraseDups.filterMap meaning? := by
  have hany : (met.eraseDups.filterMap meaning?).any (name · == token) ↔
      token ∈ met ∧ (meaning? token).isSome := by
    simp only [List.any_eq_true, List.mem_filterMap, List.mem_eraseDups, beq_iff_eq]
    constructor
    · rintro ⟨a, ⟨token', hmet, ha⟩, rfl⟩
      rw [h token' a ha]
      exact ⟨hmet, by simp [ha]⟩
    · rintro ⟨hmet, hsome⟩
      obtain ⟨a, ha⟩ := Option.isSome_iff_exists.mp hsome
      exact ⟨a, ⟨token, hmet, ha⟩, h token a ha⟩
  have hkept : token ∈ met → (met ++ [token]).eraseDups = met.eraseDups := by
    intro hmet
    rw [List.eraseDups_append]
    simp [List.removeAll, hmet]
  unfold addNew
  split
  next hthere => rw [hkept (hany.mp hthere).1]
  next hnew =>
    by_cases hmet : token ∈ met
    · have hnone : meaning? token = none := by
        by_contra hsome
        exact hnew (hany.mpr ⟨hmet, Option.isSome_iff_ne_none.mpr hsome⟩)
      rw [hkept hmet, hnone, Option.toList_none, List.append_nil]
    · rw [List.eraseDups_append, List.filterMap_append]
      congr 1
      cases ha : meaning? token <;> simp [List.removeAll, List.eraseDups_cons, hmet, ha]

/-- All tokens, by induction on those that are left. -/
theorem foldl_addNew (h : ∀ token a, meaning? token = some a → name a = token)
    (tokens : List String) :
    tokens.foldl (addNew name meaning?) [] = tokens.eraseDups.filterMap meaning? := by
  have hfold : ∀ rest met : List String,
      rest.foldl (addNew name meaning?) (met.eraseDups.filterMap meaning?) =
      (met ++ rest).eraseDups.filterMap meaning? := by
    intro rest
    induction rest with
    | nil => simp
    | cons token rest ih =>
      intro met
      rw [List.foldl_cons, addNew_filterMap_eraseDups h, ih, List.append_assoc]
      rfl
  simpa using hfold tokens []

end Identifier

namespace Signature

open Identifier

variable {result : String} {ps : List Parameter} {generics : List String}
  {values : List ValueParameter}

/-! ### Template parameters -/

/-- A token that can be a template parameter: the name of a value parameter, a letter, or a type
that is known to be generic. -/
def IsTemplateName (generics : List String) (values : List ValueParameter) (token : String) : Prop :=
  (∃ v ∈ values, v.name = token) ∨ isGenericLetter token ∨ token ∈ generics

/-- A token as a template parameter: the first value parameter with this name, or else a type. -/
def readAs (values : List ValueParameter) (token : String) : TemplateParameter :=
  ((values.find? (·.name == token)).map .value).getD (.typename token)

theorem eq_readAs_of_templateOf? {token : String} {t : TemplateParameter}
    (h : templateOf? generics values token = some t) : t = readAs values token := by
  unfold templateOf? at h
  unfold readAs
  cases hfind : values.find? (·.name == token) with
  | some v =>
    rw [hfind] at h
    exact (Option.some.inj h).symm
  | none =>
    rw [hfind] at h
    exact (Option.some.inj (Option.ite_none_right_eq_some.mp h).2).symm

/-- The template parameters of a signature are among its tokens as first appearances. -/
theorem templates_firstAppearances (result : String) (ps : List Parameter)
    (generics : List String) (values : List ValueParameter) :
    FirstAppearances ((typeTexts result ps).flatMap tokens) (IsTemplateName generics values)
      ((templates result ps generics values).map TemplateParameter.name) where
  nodup := nodup_names_templates
  mem_iff name := by
    rw [IsTemplateName, ← exists_templateOf?_iff, List.mem_map]
    constructor
    · rintro ⟨t, ht, rfl⟩
      obtain ⟨htoken, hof⟩ := mem_templates_iff.mp ht
      exact ⟨htoken, t, hof⟩
    · rintro ⟨htoken, t, hof⟩
      have hname := name_of_templateOf? hof
      subst hname
      exact ⟨t, mem_templates_iff.mpr ⟨htoken, hof⟩, rfl⟩
  ordered := List.pairwise_map.mpr (pairwise_idxOf_templates result ps generics values)

theorem map_readAs_templates :
    ((templates result ps generics values).map TemplateParameter.name).map (readAs values) =
      templates result ps generics values := by
  rw [List.map_map]
  conv_rhs => rw [← List.map_id (templates result ps generics values)]
  refine List.map_congr_left fun t ht => ?_
  exact (eq_readAs_of_templateOf? (mem_templates_iff.mp ht).2).symm

/-- A signature without value parameters and other generic types has the generic letters of its
texts, put together, as its template parameters. -/
theorem templates_letters {text : String} (h : Joined (typeTexts result ps) text) :
    templates result ps [] [] = (genericLetters text).map .typename := by
  have hnames := templates_firstAppearances result ps [] []
  rw [← h.tokens_eq] at hnames
  have hletters : IsTemplateName [] [] = fun token => (isGenericLetter token : Prop) := by
    funext token
    simp [IsTemplateName]
  rw [hletters] at hnames
  rw [← map_readAs_templates, hnames.unique (genericLetters_firstAppearances text)]
  rfl

/-- The template parameters of a signature are read off its texts put together. -/
structure ReadOff (text : String) (generics : List String) (values : List ValueParameter)
    (ts : List TemplateParameter) : Prop where
  names : FirstAppearances (tokens text) (IsTemplateName generics values)
    (ts.map TemplateParameter.name)
  kinds : (ts.map TemplateParameter.name).map (readAs values) = ts

/-- However the texts of a signature are put together, its template parameters are those tokens of
the whole that are value parameters, letters or known to be generic, in order of first appearance,
and each that can be a value parameter is one. Without value parameters and known types they are the
generic letters of the whole. Both lists are what is found token by token. -/
theorem templates_readOff (result : String) (ps : List Parameter) (text : String)
    (h : Joined (typeTexts result ps) text) :
    templates result ps [] [] = (genericLetters text).map .typename ∧
      genericLetters text = (tokens text).foldl (addNew id (Option.guard isGenericLetter)) [] ∧
      ∀ generics values, ReadOff text generics values (templates result ps generics values) ∧
        templates result ps generics values = (typeTexts result ps).foldl (fun found text =>
          (tokens text).foldl (addNew TemplateParameter.name (templateOf? generics values)) found) [] := by
  refine ⟨templates_letters h, ?_, fun generics values => ⟨⟨?_, map_readAs_templates⟩, ?_⟩⟩
  · have hname : ∀ token letter, Option.guard isGenericLetter token = some letter →
        id letter = token := fun token letter h => (Option.guard_eq_some_iff.mp h).1.symm
    rw [foldl_addNew hname, genericLetters_eq_filter_eraseDups, List.filterMap_eq_filter]
  · rw [h.tokens_eq]
    exact templates_firstAppearances result ps generics values
  · rw [← List.foldl_flatMap, foldl_addNew fun _ _ => name_of_templateOf?]
    rfl

/-- A value with the alignment of its address. -/
def alignedValue : List Parameter :=
  [.plain "T" "value", { Expansion.literal "__alignment" with default? := some "alignment" }]

/-- A vector that is read from a value, put together with its parameters. -/
def alignedValueText : String :=
  "vector<Vec, N>" ++ "; " ++ ("T" ++ ", " ++ ("uint32_t" ++ " = " ++ "alignment"))

theorem alignedValue_readOff :
    Joined (typeTexts "vector<Vec, N>" alignedValue) alignedValueText ∧
      templates "vector<Vec, N>" alignedValue ["Vec"] [⟨"uint32_t", "alignment"⟩, ⟨"uint32_t", "N"⟩] =
        [.typename "Vec", .value ⟨"uint32_t", "N"⟩, .typename "T",
          .value ⟨"uint32_t", "alignment"⟩] ∧
      templates "vector<Vec, N>" alignedValue [] [] = [.typename "N", .typename "T"] ∧
      genericLetters alignedValueText = ["N", "T"] ∧
      ReadOff alignedValueText ["Vec"] [⟨"uint32_t", "alignment"⟩, ⟨"uint32_t", "N"⟩]
        (templates "vector<Vec, N>" alignedValue ["Vec"]
          [⟨"uint32_t", "alignment"⟩, ⟨"uint32_t", "N"⟩]) := by
  have hjoined : Joined (typeTexts "vector<Vec, N>" alignedValue) alignedValueText :=
    .cons _ (by decide) (by simp; decide) (.cons _ (by decide) (by simp; decide)
      (.cons _ (by decide) (by simp; decide) (.single _)))
  obtain ⟨-, -, hreadOff⟩ := templates_readOff _ _ _ hjoined
  exact ⟨hjoined, by decide +kernel, by decide +kernel, by decide +kernel, (hreadOff _ _).1⟩

end Signature

end SpirvBindings
