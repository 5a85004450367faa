import SpirvBindings.Command.Annotate
import SpirvBindings.Command.Generate
import SpirvBindings.Proofs.Writing

/-! What a command leaves of the files. A command that ends with status 0 has saved exactly the text
it was to make, and has touched no other file. A command that ends with another status has touched
no file at all, whatever went wrong. When inputs cannot be loaded, the first of them is reported. A
command that is asked for help does nothing else, and ends with status 0 without an output. -/

namespace SpirvBindings

/-! ### Inputs in a tree -/

/-- The failure of a computation, if it fails. -/
def failureOf? {α : Type} : Except Failure α → Option Failure
  | .ok _ => none
  | .error failure => some failure

namespace DocumentKind

variable {α : Type}

/-- The content of the file at a path of a tree. -/
def inTree (k : DocumentKind α) (t : FileTree) (path : String) : Except Failure α :=
  k.ofRead path (t.readText path)

/-- The content of the file at a path of a tree, or a standard content if there is no path. -/
def inTreeOr (k : DocumentKind α) (t : FileTree) (standard : α) : Option String → Except Failure α
  | some path => k.inTree t path
  | none => .ok standard

/-- Loading a file leaves the tree as it is. -/
theorem load_system (k : DocumentKind α) (t : FileTree) (path : String) :
    (k.load FileTree.system path).run t = (k.inTree t path, t) := rfl

theorem loadOr_system (k : DocumentKind α) (t : FileTree) (standard : α) (path? : Option String) :
    (k.loadOr FileTree.system standard path?).run t = (k.inTreeOr t standard path?, t) := by
  cases path? <;> rfl

end DocumentKind

namespace Command

/-- What a first step gives, and the tree that it leaves, are what the next step works with. -/
theorem run_bind_of_run {α β : Type} {x : StateM FileTree α} {a : α} {t t' : FileTree}
    (h : x.run t = (a, t')) (next : α → StateM FileTree β) :
    (x >>= next).run t = (next a).run t' := by
  rw [StateT.run_bind, h]
  rfl

/-! ### Endings -/

/-- All or nothing: how a command ends, given its arguments, the failures of its inputs in the order
in which they are loaded, and which text it is to save. -/
structure AllOrNothing {A : Type} (arguments : Except Refusal A) (output : A → String)
    (inputFailures : A → List Failure) (IsProduct : A → String → Prop) (t : FileTree)
    (ending : Run × FileTree) : Prop where
  helped : arguments = .error .helpAsked → ending.1.exitStatus = 0 ∧ ending.2 = t
  saved : ending.1.exitStatus = 0 → arguments ≠ .error .helpAsked →
    ∃ a text, arguments = .ok a ∧ IsProduct a text ∧ t.SavedAs ending.2 (output a) text
  untouched : ending.1.exitStatus ≠ 0 → ending.2 = t
  firstFailure : ∀ a f, arguments = .ok a → (inputFailures a).head? = some f →
    ending.1.exitStatus ≠ 0 ∧ ending.1.failure? = some f
  succeeds : ∀ a text t', arguments = .ok a → IsProduct a text →
    t.writeText (output a) text = .ok t' → ending.1.exitStatus = 0

section

variable {A : Type} {output : A → String} {inputFailures : A → List Failure}
  {IsProduct : A → String → Prop} {t : FileTree}

/-- A refused command line. -/
theorem AllOrNothing.ofRefusal (help : String) (refusal : Refusal) :
    AllOrNothing (.error refusal) output inputFailures IsProduct t (.ofRefusal help refusal, t) := by
  cases refusal with
  | misused =>
    refine ⟨?_, ?_, fun _ => rfl, ?_, ?_⟩ <;> simp [Run.ofRefusal, Run.exitStatus]
  | helpAsked =>
    refine ⟨?_, ?_, fun _ => rfl, ?_, ?_⟩ <;> simp [Run.ofRefusal, Run.exitStatus]

/-- A command that failed before it wrote anything. It has no product, and if an input could not be
loaded, it failed for the first of these. -/
theorem AllOrNothing.ofFailure {a : A} {log : List LogLine} {failure : Failure}
    (hproduct : ∀ text, ¬ IsProduct a text)
    (hfirst : ∀ f, (inputFailures a).head? = some f → f = failure) :
    AllOrNothing (.ok a) output inputFailures IsProduct t (⟨log, .failed failure⟩, t) := by
  refine ⟨by simp, by simp [Run.exitStatus], fun _ => rfl, ?_, ?_⟩
  · rintro _ f ⟨⟩ hf
    exact ⟨by simp [Run.exitStatus], by rw [hfirst f hf]; rfl⟩
  · rintro _ text t'' ⟨⟩ hmade
    exact absurd hmade (hproduct text)

/-- A command that could not open its output. -/
theorem AllOrNothing.ofUnwritable {a : A} {log : List LogLine} {failure : Failure}
    {fault : FileFault} {text : String} (hinputs : inputFailures a = [])
    (hproduct : ∀ text', IsProduct a text' → text' = text)
    (hwrite : t.writeText (output a) text = .error fault) :
    AllOrNothing (.ok a) output inputFailures IsProduct t (⟨log, .failed failure⟩, t) := by
  refine ⟨by simp, by simp [Run.exitStatus], fun _ => rfl, ?_, ?_⟩
  · rintro _ f ⟨⟩ hf
    simp [hinputs] at hf
  · rintro _ text' t'' ⟨⟩ hmade hwritten
    rw [hproduct text' hmade, hwrite] at hwritten
    cases hwritten

/-- A command that saved what it made. -/
theorem AllOrNothing.ofSaved {a : A} {log : List LogLine} {path text : String} {t' : FileTree}
    (hinputs : inputFailures a = []) (hproduct : IsProduct a text)
    (hwrite : t.writeText (output a) text = .ok t') :
    AllOrNothing (.ok a) output inputFailures IsProduct t (⟨log, .saved path⟩, t') := by
  refine ⟨by simp, fun _ _ => ⟨a, text, rfl, hproduct, FileTree.savedAs_of_writeText hwrite⟩,
    by simp [Run.exitStatus], ?_, fun _ _ _ _ _ _ => rfl⟩
  rintro _ f ⟨⟩ hf
  simp [hinputs] at hf

theorem writeOutput_system (t : FileTree) (path text : String) :
    (writeOutput FileTree.system path text).run t =
      match t.writeText path text with
      | .ok t' => (.ok (), t')
      | .error fault => (.error ⟨["failed to write " ++ path], .file fault⟩, t) := by
  have hwrite : (FileTree.system.writeText path text).run t =
      match t.writeText path text with
      | .ok t' => (.ok (), t')
      | .error fault => (.error fault, t) := by
    simp only [FileTree.system, StateT.run_bind, StateT.run_get, pure_bind]
    cases t.writeText path text <;> rfl
  rw [writeOutput, StateT.run_map, hwrite]
  cases t.writeText path text <;> rfl

end

/-! ### The command that writes a header -/

namespace Generate

/-- The sources that a tree has for the arguments of the command. -/
structure Loads (t : FileTree) (a : Arguments) (s : Sources) : Prop where
  grammar : Grammar.documentKind.inTree t a.grammar = .ok s.grammar
  policy : Policy.documentKind.inTreeOr t .standard a.policy? = .ok s.policy
  typeMap : TypeMap.documentKind.inTreeOr t .standard a.typeMap? = .ok s.typeMap
  builtins : BuiltinTable.documentKind.inTreeOr t .standard a.builtins? = .ok s.builtins

theorem Loads.unique {t : FileTree} {a : Arguments} {s s' : Sources} (h : Loads t a s)
    (h' : Loads t a s') : s = s' := by
  obtain ⟨grammar, policy, typeMap, builtins⟩ := s
  obtain ⟨grammar', policy', typeMap', builtins'⟩ := s'
  have hgrammar := h.grammar.symm.trans h'.grammar
  have hpolicy := h.policy.symm.trans h'.policy
  have htypeMap := h.typeMap.symm.trans h'.typeMap
  have hbuiltins := h.builtins.symm.trans h'.builtins
  simp_all

/-- The failures of the inputs, in the order grammar, policy, type map, table. -/
def inputFailures (t : FileTree) (a : Arguments) : List Failure :=
  [failureOf? (Grammar.documentKind.inTree t a.grammar),
    failureOf? (Policy.documentKind.inTreeOr t .standard a.policy?),
    failureOf? (TypeMap.documentKind.inTreeOr t .standard a.typeMap?),
    failureOf? (BuiltinTable.documentKind.inTreeOr t .standard a.builtins?)].filterMap id

/-- The text of the header that the sources in a tree make. -/
def IsProduct (t : FileTree) (a : Arguments) (text : String) : Prop :=
  ∃ s header, Loads t a s ∧ s.generate a.comments = .ok header ∧ text = header.text

section

variable {α β : Type} {t : FileTree} {load : StateM FileTree (Except Failure α)}

/-- Content that was loaded goes on to the next step. -/
theorem run_bind_of_ok {x : α} (h : load.run t = (.ok x, t))
    (next : α → ExceptT Failure (StateM FileTree) β) :
    (ExceptT.mk load >>= next).run.run t = (next x).run.run t := by
  rw [ExceptT.run_bind]
  exact run_bind_of_run h _

/-- A failure ends the loading. -/
theorem run_bind_of_error {f : Failure} (h : load.run t = (.error f, t))
    (next : α → ExceptT Failure (StateM FileTree) β) :
    (ExceptT.mk load >>= next).run.run t = (.error f, t) := by
  rw [ExceptT.run_bind]
  exact run_bind_of_run h _

end

/-- Loading either gives the sources, or ends with the first failure of an input. -/
theorem loadSources_system (t : FileTree) (a : Arguments) :
    (∃ s, (loadSources FileTree.system a).run t = (.ok s, t) ∧ Loads t a s ∧
        inputFailures t a = []) ∨
      ∃ f, (loadSources FileTree.system a).run t = (.error f, t) ∧
        (inputFailures t a).head? = some f := by
  unfold loadSources
  cases hgrammar : Grammar.documentKind.inTree t a.grammar with
  | error f =>
    refine .inr ⟨f, run_bind_of_error ?_ _, by simp [inputFailures, hgrammar, failureOf?]⟩
    rw [DocumentKind.load_system, hgrammar]
  | ok grammar =>
  rw [run_bind_of_ok (by rw [DocumentKind.load_system, hgrammar])]
  cases hpolicy : Policy.documentKind.inTreeOr t .standard a.policy? with
  | error f =>
    refine .inr ⟨f, run_bind_of_error ?_ _, by
      simp [inputFailures, hgrammar, hpolicy, failureOf?]⟩
    rw [DocumentKind.loadOr_system, hpolicy]
  | ok policy =>
  rw [run_bind_of_ok (by rw [DocumentKind.loadOr_system, hpolicy])]
  cases htypeMap : TypeMap.documentKind.inTreeOr t .standard a.typeMap? with
  | error f =>
    refine .inr ⟨f, run_bind_of_error ?_ _, by
      simp [inputFailures, hgrammar, hpolicy, htypeMap, failureOf?]⟩
    rw [DocumentKind.loadOr_system, htypeMap]
  | ok typeMap =>
  rw [run_bind_of_ok (by rw [DocumentKind.loadOr_system, htypeMap])]
  cases hbuiltins : BuiltinTable.documentKind.inTreeOr t .standard a.builtins? with
  | error f =>
    refine .inr ⟨f, run_bind_of_error ?_ _, by
      simp [inputFailures, hgrammar, hpolicy, htypeMap, hbuiltins, failureOf?]⟩
    rw [DocumentKind.loadOr_system, hbuiltins]
  | ok builtins =>
  rw [run_bind_of_ok (by rw [DocumentKind.loadOr_system, hbuiltins])]
  refine .inl ⟨⟨grammar, policy, typeMap, builtins⟩, rfl, ⟨hgrammar, hpolicy, htypeMap,
    hbuiltins⟩, ?_⟩
  simp [inputFailures, hgrammar, hpolicy, htypeMap, hbuiltins, failureOf?]

theorem not_isProduct_of_failure {t : FileTree} {a : Arguments} {f : Failure}
    (h : (inputFailures t a).head? = some f) (text : String) : ¬ IsProduct t a text := by
  rintro ⟨s, -, ⟨hgrammar, hpolicy, htypeMap, hbuiltins⟩, -, -⟩
  simp [inputFailures, hgrammar, hpolicy, htypeMap, hbuiltins, failureOf?] at h

/-- Writing the header of sources that have been loaded. -/
theorem write_allOrNothing {t : FileTree} {a : Arguments} {s : Sources} (h : Loads t a s)
    (hinputs : inputFailures t a = []) :
    AllOrNothing (.ok a) (·.output) (inputFailures t) (IsProduct t) t
      ((write FileTree.system a s).run t) := by
  have hproduct : ∀ text, IsProduct t a text ↔
      ∃ header, s.generate a.comments = .ok header ∧ text = header.text := by
    intro text
    constructor
    · rintro ⟨s', header, h', hheader, rfl⟩
      obtain rfl := h'.unique h
      exact ⟨header, hheader, rfl⟩
    · rintro ⟨header, hheader, rfl⟩
      exact ⟨s, header, h, hheader, rfl⟩
  unfold write
  cases hgenerate : s.generate a.comments with
  | error failure =>
    refine AllOrNothing.ofFailure (fun text => ?_) (by simp [hinputs])
    rw [hproduct, hgenerate]
    rintro ⟨_, ⟨⟩, -⟩
  | ok header =>
    have honly : ∀ text, IsProduct t a text ↔ text = header.text := by
      simp [hproduct, hgenerate]
    simp only [run_bind_of_run (writeOutput_system t a.output header.text)]
    cases hwrite : t.writeText a.output header.text with
    | error fault => exact AllOrNothing.ofUnwritable hinputs (fun _ => (honly _).mp) hwrite
    | ok t' => exact AllOrNothing.ofSaved hinputs ((honly _).mpr rfl) hwrite

theorem run_allOrNothing (t : FileTree) (installation : String) (args : List String) :
    AllOrNothing (Arguments.ofList installation args) (·.output) (inputFailures t) (IsProduct t) t
      ((run FileTree.system installation args).run t) := by
  unfold run
  cases Arguments.ofList installation args with
  | error refusal => exact AllOrNothing.ofRefusal _ refusal
  | ok a =>
    rcases loadSources_system t a with ⟨s, hload, hloads, hinputs⟩ | ⟨f, hload, hfirst⟩
    · simp only [run_bind_of_run hload]
      exact write_allOrNothing hloads hinputs
    · simp only [run_bind_of_run hload]
      refine AllOrNothing.ofFailure (not_isProduct_of_failure hfirst) fun f' hf' => ?_
      rw [hfirst] at hf'
      exact (Option.some.inj hf').symm

end Generate

/-! ### The command that adds type hints -/

namespace Annotate

/-- The failure of the input, if it cannot be loaded. -/
def inputFailures (t : FileTree) (a : Arguments) : List Failure :=
  (failureOf? (Json.Value.documentKind.inTree t a.input)).toList

/-- The text of the document in a tree, with hints. -/
def IsProduct (t : FileTree) (a : Arguments) (text : String) : Prop :=
  ∃ document h, Json.Value.documentKind.inTree t a.input = .ok document ∧
    Hints.add a.type document = .ok h ∧ text = h.document.indentedText

theorem annotated_eq_ok_iff {type : String} {document : Json.Value} {result : Result} :
    annotated type document = .ok result ↔
      ∃ h, Hints.add type document = .ok h ∧ result = ⟨h.document.indentedText, h.written⟩ := by
  unfold annotated
  cases Hints.add type document <;> simp [eq_comm]

theorem run_allOrNothing (t : FileTree) (args : List String) :
    AllOrNothing (Arguments.ofList args) (·.output) (inputFailures t) (IsProduct t) t
      ((run FileTree.system args).run t) := by
  unfold run
  cases Arguments.ofList args with
  | error refusal => exact AllOrNothing.ofRefusal _ refusal
  | ok a =>
    simp only [run_bind_of_run (DocumentKind.load_system _ t a.input)]
    cases hinput : Json.Value.documentKind.inTree t a.input with
    | error f =>
      refine AllOrNothing.ofFailure (fun text => ?_) ?_
      · simp [IsProduct, hinput]
      · simp [inputFailures, hinput, failureOf?]
    | ok document =>
      have hinputs : inputFailures t a = [] := by simp [inputFailures, hinput, failureOf?]
      have hproduct : ∀ text, IsProduct t a text ↔
          ∃ result, annotated a.type document = .ok result ∧ text = result.text := by
        intro text
        simp only [IsProduct, hinput, annotated_eq_ok_iff, Except.ok.injEq]
        constructor
        · rintro ⟨_, h, rfl, hadd, rfl⟩
          exact ⟨_, ⟨h, hadd, rfl⟩, rfl⟩
        · rintro ⟨_, ⟨h, hadd, rfl⟩, rfl⟩
          exact ⟨document, h, rfl, hadd, rfl⟩
      cases hannotated : annotated a.type document with
      | error failure =>
        simp only [hannotated]
        refine AllOrNothing.ofFailure (fun text => ?_) (by simp [hinputs])
        rw [hproduct, hannotated]
        rintro ⟨_, ⟨⟩, -⟩
      | ok result =>
        have honly : ∀ text, IsProduct t a text ↔ text = result.text := by
          simp [hproduct, hannotated]
        simp only [hannotated, run_bind_of_run (writeOutput_system t a.output result.text)]
        cases hwrite : t.writeText a.output result.text with
        | error fault => exact AllOrNothing.ofUnwritable hinputs (fun _ => (honly _).mp) hwrite
        | ok t' => exact AllOrNothing.ofSaved hinputs ((honly _).mpr rfl) hwrite

end Annotate

/-! ### Both commands -/

/-- On any tree and any command line, each of the two commands saves all of its product or leaves the
tree as it is. -/
theorem commands_allOrNothing (t : FileTree) (args : List String) :
    (∀ installation, AllOrNothing (Generate.Arguments.ofList installation args) (·.output)
      (Generate.inputFailures t) (Generate.IsProduct t) t
      ((Generate.run FileTree.system installation args).run t)) ∧
      AllOrNothing (Annotate.Arguments.ofList args) (·.output) (Annotate.inputFailures t)
        (Annotate.IsProduct t) t ((Annotate.run FileTree.system args).run t) :=
  ⟨fun installation => Generate.run_allOrNothing t installation args,
    Annotate.run_allOrNothing t args⟩

/-- A working directory with a grammar that has no instructions. -/
def blankTree : FileTree :=
  (FileTree.empty ["work"]).setNode ["work", "in.json"] (.file "\x7b\"instructions\":[]\x7d".toUTF8)

/-- A command that is asked for help ends with status 0 and saves nothing, though it is given its
input and its output. -/
theorem annotate_help_unsaved :
    ∃ r, (Annotate.run FileTree.system ["in.json", "out.json", "--help"]).run blankTree =
        (r, blankTree) ∧
      r.exitStatus = 0 ∧ blankTree.readText "out.json" = .error .notFound ∧
        ∀ text, ¬ blankTree.SavedAs blankTree "out.json" text := by
  have hmissing : blankTree.readText "out.json" = .error .notFound := by rfl
  refine ⟨_, rfl, rfl, hmissing, fun text hsaved => ?_⟩
  have hread := hsaved.read
  rw [hmissing] at hread
  cases hread

end Command

end SpirvBindings
