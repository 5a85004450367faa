import Mathlib.Logic.Function.Basic
import SpirvBindings.Proofs.Commands
import SpirvBindings.Proofs.Hints.Documents
import SpirvBindings.Proofs.Json.Records

/-! A grammar document with hints holds the grammar that it held without them. Hints add a member to
operands and to enumerants, under a key that no part of a grammar has for a field, and change only
the two lists on the way to either. All decoders on the way keep such changes, although the document
is printed from a value, where the members of objects stand in another order and those that were
overwritten are gone. The numbers in enumerant values have to be integers: a double need not be
read back as the same double. If all numbers are integers, the printed document takes hints again,
with the outcome that it had before. -/

namespace SpirvBindings

open Json (Decoder Field Record Tree Value)
open Json.Value (Extends Lists)

namespace Hints

/-! ### What hints change -/

/-- An object may get a hint. -/
def GetsHint : Value → Value → Prop := Extends hintKey fun _ => Eq

/-- The items of the list under a key of an object may change. -/
def ChangesUnder (key : String) (R : Value → Value → Prop) : Value → Value → Prop :=
  Extends hintKey (Function.update (fun _ => Eq) key (Lists R))

/-- The operands of the instructions of a document and the enumerants of its operand kinds may get
hints. -/
def GetsHints : Value → Value → Prop :=
  Extends hintKey (Function.update
    (Function.update (fun _ => Eq) "instructions" (Lists (ChangesUnder "operands" GetsHint)))
    "operand_kinds" (Lists (ChangesUnder "enumerants" GetsHint)))

theorem getsHint_hinted {v : Value} (h : v.IsOrdered) (hint : String) :
    GetsHint v (hinted hint v) := by
  cases h with
  | object order =>
    refine .members (order.put _ _) fun k hk => ?_
    rw [Value.Members.get?_put, if_neg hk]
    exact rel_self (fun _ => rfl) _
  | _ => exact .same _

theorem refl_update {key : String} {R : String → Value → Value → Prop} {S : Value → Value → Prop}
    (hrefl : ∀ k v, R k v v) (k : String) (v : Value) :
    Function.update R key (Lists S) k v v := by
  by_cases h : k = key
  · subst h
    rw [Function.update_self]
    exact .same v
  · rw [Function.update_of_ne h]
    exact hrefl k v

/-- The list under a key that was as it is before may change in addition to what has changed. -/
theorem extends_overList {key : String} {R : String → Value → Value → Prop}
    {S : Value → Value → Prop} {v w : Value} {f : List Value → List Value} (hv : v.IsOrdered)
    (hrefl : ∀ k v, R k v v) (h : Extends hintKey R v w) (hR : R key = Eq)
    (hf : ∀ items, (∀ u ∈ items, u.IsOrdered) → List.Forall₂ S items (f items)) :
    Extends hintKey (Function.update R key (Lists S)) v (overList key f w) := by
  cases hv with
  | object order contents =>
    obtain ⟨ns, rfl, hns, hrel⟩ := Json.exists_members_of_extends hrefl order h
    refine .members (hns.modify _ _) fun k hk => ?_
    rw [Value.Members.get?_modify]
    by_cases heq : k = key
    · subst heq
      have hsame := hrel k hk
      rw [hR] at hsame
      rw [if_pos rfl, Function.update_self, ← eq_of_rel_eq hsame]
      cases hget : Value.Members.get? _ k with
      | none => exact .none
      | some u =>
        cases contents _ (Value.Members.mem_of_get? hget) with
        | array items => exact .some (.items (hf _ items))
        | _ => exact .some (.same _)
    · rw [if_neg heq, Function.update_of_ne heq]
      exact hrel k hk
  | _ =>
    cases h
    exact .same _

theorem changesUnder_overList {key : String} {S : Value → Value → Prop} {v : Value}
    {f : List Value → List Value} (hv : v.IsOrdered)
    (hf : ∀ items, (∀ u ∈ items, u.IsOrdered) → List.Forall₂ S items (f items)) :
    ChangesUnder key S v (overList key f v) :=
  extends_overList hv (fun _ _ => rfl) (.same v) rfl hf

theorem forall₂_map {S : Value → Value → Prop} {f : Value → Value} {items : List Value}
    (h : ∀ u ∈ items, S u (f u)) : List.Forall₂ S items (items.map f) :=
  List.forall₂_map_right_iff.mpr (List.forall₂_same.mpr h)

theorem forall₂_modifyFirst {S : Value → Value → Prop} {p : Value → Bool} {f : Value → Value}
    (hrefl : ∀ u, S u u) {items : List Value} (h : ∀ u ∈ items, S u (f u)) :
    List.Forall₂ S items (modifyFirst p f items) := by
  induction items with
  | nil => exact .nil
  | cons u items ih =>
    obtain ⟨hfirst, hrest⟩ := List.forall_mem_cons.mp h
    unfold modifyFirst
    split
    next => exact .cons hfirst (List.forall₂_same.mpr fun w _ => hrefl w)
    next => exact .cons (hrefl u) (ih hrest)

/-- A document with hints has got nothing else. -/
theorem getsHints_of_add {type : String} {v : Value} (hv : v.IsOrdered) {a : Hinted}
    (h : add type v = .ok a) : GetsHints v a.document := by
  rw [document_of_add h]
  refine extends_overList hv (refl_update fun _ _ => rfl) (changesUnder_overList hv ?_)
    (Function.update_of_ne (by decide) _ _) ?_
  · intro instructions hinstructions
    refine forall₂_map fun i hi => changesUnder_overList (hinstructions i hi) ?_
    intro operands hoperands
    refine forall₂_map fun o ho => ?_
    split
    next => exact getsHint_hinted (hoperands o ho) type
    next => exact .same o
  · intro kinds hkinds
    refine forall₂_modifyFirst (fun k => .same k) fun k hk =>
      changesUnder_overList (hkinds k hk) ?_
    intro enumerants henumerants
    exact forall₂_map fun e he => getsHint_hinted (henumerants e he) _

end Hints

/-! ### What is kept -/

open Hints (hintKey GetsHint ChangesUnder GetsHints)

-- In each of these the fields are independent because they set different parts of the record.

theorem Operand.keeps : Operand.record.decode.Keeps GetsHint fun _ => True := by
  refine Record.keeps rfl ?_ rfl (fun _ _ => rfl) ?_
  · simp only [Operand.record, Field.required, Field.defaulted, List.pairwise_cons,
      List.forall_mem_cons]
    and_intros <;> first
      | exact Field.independent_of_sets fun _ _ _ => rfl
      | simp
  · simp only [Operand.record, List.forall_mem_cons]
    refine ⟨?_, ?_, ?_, by simp⟩
    · exact Field.keeps_required Decoder.keeps_text fun _ _ h => h
    · exact Field.keeps_defaulted Decoder.keeps_text.orNull fun _ _ _ _ _ => trivial
    · exact Field.keeps_defaulted Decoder.keeps_choice.orNull fun _ _ _ _ _ => trivial

theorem Instruction.keeps :
    Instruction.record.decode.Keeps (ChangesUnder "operands" GetsHint) fun _ => True := by
  refine Record.keeps rfl ?_ rfl (Hints.refl_update fun _ _ => rfl) ?_
  · simp only [Instruction.record, Field.required, Field.defaulted, List.pairwise_cons,
      List.forall_mem_cons]
    and_intros <;> first
      | exact Field.independent_of_sets fun _ _ _ => rfl
      | simp
  · simp only [Instruction.record, List.forall_mem_cons]
    refine ⟨?_, ?_, ?_, ?_, ?_, ?_, ?_, by simp⟩
    · exact Field.keeps_required Decoder.keeps_text fun _ _ h => h
    · exact Field.keeps_defaulted Decoder.keeps_text fun _ _ h => h
    · exact Field.keeps_required Decoder.keeps_word fun _ _ h => h
    · exact Field.keeps_defaulted (Operand.keeps.list fun v => .same v) fun _ _ _ _ _ => trivial
    · exact Field.keeps_defaulted Decoder.keeps_text.list_same fun _ _ _ _ _ => trivial
    · exact Field.keeps_defaulted Decoder.keeps_text.list_same fun _ _ _ _ _ => trivial
    · exact Field.keeps_defaulted Decoder.keeps_text.orNull fun _ _ _ _ _ => trivial

/-- The numbers in the value of an enumerant are integers of a word of 64 bits. -/
def Enumerant.HasIntegers (e : Enumerant) : Prop := e.value.integersOnly

def OperandKind.HasIntegers (k : OperandKind) : Prop := ∀ e ∈ k.enumerants, e.HasIntegers

def Grammar.HasIntegers (g : Grammar) : Prop := ∀ k ∈ g.operandKinds, k.HasIntegers

theorem Enumerant.keeps : Enumerant.record.decode.Keeps GetsHint HasIntegers := by
  refine Record.keeps rfl ?_ rfl (fun _ _ => rfl) ?_
  · simp only [Enumerant.record, Field.required, Field.defaulted, List.pairwise_cons,
      List.forall_mem_cons]
    and_intros <;> first
      | exact Field.independent_of_sets fun _ _ _ => rfl
      | simp
  · simp only [Enumerant.record, List.forall_mem_cons]
    refine ⟨?_, ?_, ?_, by simp⟩
    · exact Field.keeps_required Decoder.keeps_text fun _ _ _ => trivial
    · exact Field.keeps_required Decoder.keeps_value fun _ _ h => h
    · exact Field.keeps_defaulted Decoder.keeps_text.list_same fun _ _ _ _ _ => trivial

theorem OperandKind.keeps :
    OperandKind.record.decode.Keeps (ChangesUnder "enumerants" GetsHint) HasIntegers := by
  refine Record.keeps rfl ?_ rfl (Hints.refl_update fun _ _ => rfl) ?_
  · simp only [OperandKind.record, Field.required, Field.defaulted, List.pairwise_cons,
      List.forall_mem_cons]
    and_intros <;> first
      | exact Field.independent_of_sets fun _ _ _ => rfl
      | simp
  · simp only [OperandKind.record, List.forall_mem_cons]
    refine ⟨?_, ?_, ?_, by simp⟩
    · exact Field.keeps_defaulted Decoder.keeps_text fun _ _ _ => trivial
    · exact Field.keeps_required Decoder.keeps_text fun _ _ _ => trivial
    · exact Field.keeps_defaulted (Enumerant.keeps.list fun v => .same v) fun _ _ h => h

/-- A grammar is read again from a document that has got hints. -/
theorem Grammar.keeps : Grammar.record.decode.Keeps GetsHints HasIntegers := by
  refine Record.keeps rfl ?_ rfl (Hints.refl_update (Hints.refl_update fun _ _ => rfl)) ?_
  · simp only [Grammar.record, Field.required, Field.defaulted, List.pairwise_cons,
      List.forall_mem_cons]
    and_intros <;> first
      | exact Field.independent_of_sets fun _ _ _ => rfl
      | simp
  · simp only [Grammar.record, List.forall_mem_cons]
    refine ⟨?_, ?_, ?_, ?_, ?_, by simp⟩
    · exact Field.keeps_defaulted Decoder.keeps_word.orNull fun _ _ _ _ _ => trivial
    · exact Field.keeps_defaulted Decoder.keeps_word.orNull fun _ _ _ _ _ => trivial
    · exact Field.keeps_defaulted Decoder.keeps_word.orNull fun _ _ _ _ _ => trivial
    · exact Field.keeps_required (Instruction.keeps.list fun v => .same v) fun _ _ _ _ _ => trivial
    · exact Field.keeps_defaulted (OperandKind.keeps.list fun v => .same v) fun _ _ h => h

/-! ### Documents with hints -/

/-- A text with hints holds the grammar that it held without them. -/
theorem Grammar.ofText_annotated {source type : String} {g : Grammar} {document : Value}
    {h : Hints.Hinted} (hgrammar : Grammar.ofText source = .ok g)
    (hdocument : (Decoder.value 0).document source = .ok document)
    (hadd : Hints.add type document = .ok h) (hintegers : g.HasIntegers) :
    Grammar.ofText h.document.indentedText = .ok g := by
  have hordered := Decoder.isOrdered_of_document hdocument
  exact Grammar.keeps.document hdocument (Hints.getsHints_of_add hordered hadd) hintegers hgrammar

/-! ### The generator -/

/-- The header that is made from the text of a grammar and the other sources. -/
def Header.ofText (source : String) (policy : Policy) (typeMap : TypeMap) (builtins : BuiltinTable)
    (comments : Bool) : Except Failure Header := do
  let grammar ← Grammar.documentKind.parse source
  (Sources.generate { grammar, policy, typeMap, builtins } comments).mapError
    (⟨[], .expansion ·⟩)

theorem Grammar.documentKind_ofText_eq_ok_iff {source : String} {g : Grammar} :
    Grammar.documentKind.ofText source = .ok g ↔ Grammar.ofText source = .ok g :=
  mapError_eq_ok_iff

theorem Json.Value.documentKind_ofText_eq_ok_iff {source : String} {v : Value} :
    Value.documentKind.ofText source = .ok v ↔ (Decoder.value 0).document source = .ok v :=
  mapError_eq_ok_iff

theorem DocumentKind.parse_eq_ok_iff {α : Type} {k : DocumentKind α} {source : String} {a : α} :
    k.parse source = .ok a ↔ k.ofText source = .ok a :=
  mapError_eq_ok_iff

/-- Hints are invisible to the generator. Where a text holds a grammar and is a document that takes
hints, the text with hints holds the same grammar, and makes the same headers. -/
theorem parse_annotated {source type : String} {g : Grammar} {document : Value}
    {r : Command.Annotate.Result} (hgrammar : Grammar.documentKind.parse source = .ok g)
    (hdocument : Value.documentKind.parse source = .ok document)
    (hannotated : Command.Annotate.annotated type document = .ok r) (hintegers : g.HasIntegers) :
    Grammar.documentKind.parse r.text = .ok g ∧
      ∀ policy typeMap builtins comments,
        Header.ofText r.text policy typeMap builtins comments =
          Header.ofText source policy typeMap builtins comments := by
  have hparse : Grammar.documentKind.parse r.text = .ok g := by
    rw [DocumentKind.parse_eq_ok_iff, Grammar.documentKind_ofText_eq_ok_iff] at hgrammar ⊢
    rw [DocumentKind.parse_eq_ok_iff, Value.documentKind_ofText_eq_ok_iff] at hdocument
    obtain ⟨h, hadd, rfl⟩ := Command.Annotate.annotated_eq_ok_iff.mp hannotated
    exact Grammar.ofText_annotated hgrammar hdocument hadd hintegers
  refine ⟨hparse, fun policy typeMap builtins comments => ?_⟩
  rw [Header.ofText, Header.ofText, hparse, hgrammar]

/-- The text with hints is a document that takes hints again, and then has the outcome of the
document that it was made from. -/
theorem Command.Annotate.annotated_again {source type : String} {document : Value} {r : Result}
    (hdocument : Value.documentKind.parse source = .ok document)
    (hannotated : annotated type document = .ok r) (hintegers : document.integersOnly) :
    ∃ again, Value.documentKind.parse r.text = .ok again ∧
      ∀ type', annotated type' again = annotated type' document := by
  obtain ⟨h, hadd, rfl⟩ := annotated_eq_ok_iff.mp hannotated
  refine ⟨h.document, ?_, fun type' => ?_⟩
  · rw [DocumentKind.parse_eq_ok_iff, Value.documentKind_ofText_eq_ok_iff] at hdocument ⊢
    have hsurvives := Decoder.survives_of_document hdocument hintegers
    exact Decoder.document_of_survives (Nat.zero_le _) (Hints.survives_of_add hsurvives hadd)
  · rw [annotated, annotated, Hints.add_of_add hadd]

theorem exists_ok_of_any {ε α : Type} {x : Except ε α} {p : α → Bool} (h : x.toOption.any p) :
    ∃ a, x = .ok a ∧ p a := by
  cases x with
  | error e => cases h
  | ok a => exact ⟨a, rfl, h⟩

/-- The text of a grammar with one builtin variable. -/
def layerGrammar : String :=
  "\x7b\"instructions\":[],\"operand_kinds\":[\x7b\"kind\":\"BuiltIn\"," ++
    "\"enumerants\":[\x7b\"enumerant\":\"Layer\",\"value\":9\x7d]\x7d]\x7d"

theorem parse_annotated_layer : ∃ g document r,
    Grammar.documentKind.parse layerGrammar = .ok g ∧
      Value.documentKind.parse layerGrammar = .ok document ∧
      Command.Annotate.annotated "uint" document = .ok r ∧ r.written = 1 ∧ g.HasIntegers ∧
      Grammar.documentKind.parse r.text = .ok g := by
  have hgrammar : (Grammar.documentKind.parse layerGrammar).toOption.any fun g =>
      g.operandKinds.all fun k => k.enumerants.all fun e => e.value.integersOnly := by
    decide +kernel
  have hdocument : (Value.documentKind.parse layerGrammar).toOption.any fun v =>
      (Command.Annotate.annotated "uint" v).toOption.any fun r => r.written == 1 := by
    decide +kernel
  obtain ⟨g, hg, hall⟩ := exists_ok_of_any hgrammar
  obtain ⟨document, hdocument, hannotated⟩ := exists_ok_of_any hdocument
  obtain ⟨r, hr, hwritten⟩ := exists_ok_of_any hannotated
  have hintegers : g.HasIntegers := by
    simpa [Grammar.HasIntegers, OperandKind.HasIntegers, Enumerant.HasIntegers] using hall
  exact ⟨g, document, r, hg, hdocument, hr, by simpa using hwritten, hintegers,
    (parse_annotated hg hdocument hr hintegers).1⟩

/-! ### Files with hints -/

theorem DocumentKind.inTree_eq_ok_iff {α : Type} {k : DocumentKind α} {t : FileTree}
    {path : String} {a : α} :
    k.inTree t path = .ok a ↔
      ∃ source, t.readText path = .ok source ∧ k.ofText source = .ok a := by
  unfold DocumentKind.inTree DocumentKind.ofRead
  cases t.readText path with
  | error fault => simp
  | ok source => simp [mapError_eq_ok_iff]

/-- A run of the command that adds hints leaves a file that the generator loads the same grammar
from, also where the file is the one that was read. -/
theorem inTree_output_of_run {t : FileTree} {args : List String} {a : Command.Annotate.Arguments}
    (hargs : Command.Annotate.Arguments.ofList args = .ok a)
    (hrun : ((Command.Annotate.run FileTree.system args).run t).1.exitStatus = 0) {g : Grammar}
    (hgrammar : Grammar.documentKind.inTree t a.input = .ok g) (hintegers : g.HasIntegers) :
    Grammar.documentKind.inTree ((Command.Annotate.run FileTree.system args).run t).2 a.output =
      .ok g := by
  obtain ⟨b, text, hb, ⟨document, h, hdocument, hadd, rfl⟩, hsaved⟩ :=
    (Command.Annotate.run_allOrNothing t args).saved hrun (by simp [hargs])
  obtain rfl : a = b := Except.ok.inj (hargs.symm.trans hb)
  obtain ⟨source, hsource, hgrammar⟩ := DocumentKind.inTree_eq_ok_iff.mp hgrammar
  obtain ⟨source', hsource', hdocument⟩ := DocumentKind.inTree_eq_ok_iff.mp hdocument
  obtain rfl : source = source' := Except.ok.inj (hsource.symm.trans hsource')
  rw [Grammar.documentKind_ofText_eq_ok_iff] at hgrammar
  rw [Value.documentKind_ofText_eq_ok_iff] at hdocument
  exact DocumentKind.inTree_eq_ok_iff.mpr ⟨_, hsaved.read, Grammar.documentKind_ofText_eq_ok_iff.mpr
    (Grammar.ofText_annotated hgrammar hdocument hadd hintegers)⟩

end SpirvBindings
