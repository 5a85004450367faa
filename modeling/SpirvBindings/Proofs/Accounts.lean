import Mathlib.Data.List.Basic
import SpirvBindings.Header.Generation

/-! The account that a header gives of its sources. Its text is the opening, the sections that the
policy asks for, one block for each emitted instruction in the order of the grammar, and the
closing. Its report lists the emitted, the filtered and the skipped instructions, each in that
order and none in two lists. Instructions without a block leave no trace in the text, and comments
only add a line in front of each block. -/

namespace SpirvBindings

def Outcome.reason? : Outcome → Option SkipReason
  | .skipped reason => some reason
  | _ => none

namespace Sources

variable {s : Sources} {comments : Bool}

/-! ### Outcomes -/

/-- What becomes of an instruction, if it can be expanded. -/
def outcomeOf (s : Sources) (i : Instruction) : Outcome :=
  match i.outcome s.policy s.typeMap with
  | .ok o => o
  | .error _ => .unlisted

def declarationsOf (s : Sources) (i : Instruction) : List Declaration :=
  (s.outcomeOf i).declarations

/-- The instructions that contribute a block, in the order of the grammar. -/
def emitted (s : Sources) : List Instruction :=
  s.grammar.instructions.filter fun i => ! (s.declarationsOf i).isEmpty

def filtered (s : Sources) : List Instruction :=
  s.grammar.instructions.filter fun i => s.outcomeOf i == .filtered

def skipped (s : Sources) : List Instruction :=
  s.grammar.instructions.filter fun i => (s.outcomeOf i).reason?.isSome

/-- The block of an instruction: its comment line, if comments are on, and its declarations. -/
def blockOf (s : Sources) (comments : Bool) (i : Instruction) : String :=
  (if comments then i.comment else "") ++
    String.join ((s.declarationsOf i).map Declaration.render)

/-- The text of a section, if the policy asks for it. -/
def ifEmitted (s : Sources) (kind : SectionKind) (text : String) : String :=
  if s.policy.emits kind then text else ""

/-- The sources with some instructions of the grammar only. -/
def restrict (s : Sources) (keep : Instruction → Bool) : Sources :=
  { s with grammar := { s.grammar with instructions := s.grammar.instructions.filter keep } }

/-- A header accounts for its sources. -/
structure Accounts (s : Sources) (comments : Bool) (header : Header) : Prop where
  text : header.text = Header.opening ++
    s.ifEmitted .builtIn (Section.builtins (s.grammar.enumerants "BuiltIn") s.builtins) ++
    s.ifEmitted .executionMode
      (Section.executionModes (s.grammar.enumerants "ExecutionMode") s.policy.isExcluded) ++
    s.ifEmitted .groupOperation
      (Section.groupOperations (s.grammar.enumerants "GroupOperation")) ++
    marker ++ String.join (s.emitted.map (s.blockOf comments)) ++ Header.closing
  emitted : header.report.emitted = s.emitted.map (·.opname)
  declarations : header.report.declarations = (s.emitted.flatMap s.declarationsOf).length
  filtered : header.report.filtered = s.filtered.map (·.opname)
  skipped : header.report.skipped.map (fun (opname, reason) => (opname, some reason)) =
    s.skipped.map fun i => (i.opname, (s.outcomeOf i).reason?)

/-! ### Progress -/

theorem outcomes_eq_of_outcome {is : List Instruction}
    (h : ∀ i ∈ is, ∃ o, i.outcome s.policy s.typeMap = .ok o) :
    (s.outcomes is).failure? = none ∧
      (s.outcomes is).entries = is.map fun i => (i, s.outcomeOf i) := by
  induction is with
  | nil => exact ⟨rfl, rfl⟩
  | cons i is ih =>
    obtain ⟨⟨o, ho⟩, his⟩ := List.forall_mem_cons.mp h
    obtain ⟨hfailure, hentries⟩ := ih his
    have houtcome : s.outcomeOf i = o := by simp only [outcomeOf, ho]
    simp only [outcomes, ho]
    exact ⟨hfailure, by rw [hentries, List.map_cons, houtcome]⟩

theorem outcome_of_failure?_eq_none {is : List Instruction}
    (h : (s.outcomes is).failure? = none) :
    ∀ i ∈ is, ∃ o, i.outcome s.policy s.typeMap = .ok o := by
  induction is with
  | nil => simp
  | cons i is ih =>
    cases ho : i.outcome s.policy s.typeMap with
    | error e => simp [outcomes, ho] at h
    | ok o =>
      simp only [outcomes, ho] at h
      exact List.forall_mem_cons.mpr ⟨⟨o, ho⟩, ih h⟩

/-- The header of sources whose instructions can all be expanded. -/
def headerOf (s : Sources) (comments : Bool) : Header :=
  let entries := s.grammar.instructions.map fun i => (i, s.outcomeOf i)
  ⟨s.textOf comments entries, .ofEntries entries⟩

theorem generate_eq_ok_iff {header : Header} :
    s.generate comments = .ok header ↔
      (∀ i ∈ s.grammar.instructions, ∃ o, i.outcome s.policy s.typeMap = .ok o) ∧
        header = s.headerOf comments := by
  constructor
  · intro h
    cases hnone : (s.outcomes s.grammar.instructions).failure? with
    | some e => simp [generate, progress, hnone] at h
    | none =>
      have hok := outcome_of_failure?_eq_none hnone
      obtain ⟨-, hentries⟩ := outcomes_eq_of_outcome hok
      simp only [generate, progress, hnone, hentries, Except.ok.injEq] at h
      exact ⟨hok, h.symm⟩
  · rintro ⟨hok, rfl⟩
    obtain ⟨hnone, hentries⟩ := outcomes_eq_of_outcome hok
    simp only [generate, progress, hnone, hentries, headerOf]

/-! ### The account of a header -/

/-- Only the instructions with declarations have a block. -/
theorem join_blocks (s : Sources) (comments : Bool) (is : List Instruction) :
    String.join (is.map fun i => (s.outcomeOf i).block comments i) =
      String.join
        ((is.filter fun i => ! (s.declarationsOf i).isEmpty).map (s.blockOf comments)) := by
  induction is with
  | nil => rfl
  | cons i is ih =>
    rw [List.map_cons, String.join_cons, ih]
    unfold Outcome.block blockOf declarationsOf
    cases hds : (s.outcomeOf i).declarations with
    | nil => simp [hds]
    | cons d ds => simp [hds, String.join_cons]

theorem flatMap_declarationsOf (s : Sources) (is : List Instruction) :
    is.flatMap s.declarationsOf =
      (is.filter fun i => ! (s.declarationsOf i).isEmpty).flatMap s.declarationsOf := by
  induction is with
  | nil => rfl
  | cons i is ih =>
    rw [List.flatMap_cons, ih]
    cases hds : s.declarationsOf i with
    | nil => simp [hds]
    | cons d ds => simp [hds]

theorem join_sections (s : Sources) (kinds : List SectionKind) :
    String.join ((kinds.filter s.policy.emits).map s.sectionText) =
      String.join (kinds.map fun kind => s.ifEmitted kind (s.sectionText kind)) := by
  induction kinds with
  | nil => rfl
  | cons kind kinds ih =>
    rw [List.map_cons, String.join_cons, ← ih]
    unfold ifEmitted
    cases hemits : s.policy.emits kind with
    | false => simp [hemits]
    | true => simp [hemits, String.join_cons]

theorem sections_eq (s : Sources) :
    s.sections =
      s.ifEmitted .builtIn (Section.builtins (s.grammar.enumerants "BuiltIn") s.builtins) ++
      s.ifEmitted .executionMode
        (Section.executionModes (s.grammar.enumerants "ExecutionMode") s.policy.isExcluded) ++
      s.ifEmitted .groupOperation
        (Section.groupOperations (s.grammar.enumerants "GroupOperation")) := by
  rw [sections, join_sections]
  simp [SectionKind.all, SectionKind.operandKind, sectionText, String.join_cons,
    String.append_assoc]

theorem skipped_ofEntries (s : Sources) (is : List Instruction) :
    (Report.ofEntries (is.map fun i => (i, s.outcomeOf i))).skipped.map
        (fun (opname, reason) => (opname, some reason)) =
      (is.filter fun i => (s.outcomeOf i).reason?.isSome).map fun i =>
        (i.opname, (s.outcomeOf i).reason?) := by
  have hreason : ∀ entries, (Report.ofEntries entries).skipped =
      entries.filterMap fun e => e.2.reason?.map (e.1.opname, ·) := by
    intro entries
    apply List.filterMap_congr
    rintro ⟨i, o⟩ -
    cases o <;> rfl
  rw [hreason, List.filterMap_map]
  induction is with
  | nil => rfl
  | cons i is ih =>
    simp only [Function.comp_def] at ih ⊢
    cases ho : (s.outcomeOf i).reason? with
    | none => simp [ho, ih]
    | some reason => simp [ho, ih]

theorem headerOf_accounts (s : Sources) (comments : Bool) :
    s.Accounts comments (s.headerOf comments) := by
  refine ⟨?_, ?_, ?_, ?_, skipped_ofEntries s _⟩
  · simp only [headerOf, textOf, List.map_map, Function.comp_def, join_blocks, sections_eq,
      emitted, String.append_assoc]
  · simp only [headerOf, Report.ofEntries, List.filter_map, List.map_map, Function.comp_def,
      emitted, declarationsOf]
  · have hall := flatMap_declarationsOf s s.grammar.instructions
    simp only [headerOf, Report.ofEntries, List.flatMap_map]
    exact congrArg List.length hall
  · simp only [headerOf, Report.ofEntries, List.filter_map, List.map_map, Function.comp_def,
      filtered]

/-! ### Instructions without a block -/

theorem emitted_restrict {keep : Instruction → Bool} (h : ∀ i ∈ s.emitted, keep i) :
    (s.restrict keep).emitted = s.emitted := by
  change List.filter _ (List.filter keep s.grammar.instructions) = List.filter _ _
  rw [List.filter_filter]
  apply List.filter_congr
  intro i hi
  change (! (s.declarationsOf i).isEmpty && keep i) = ! (s.declarationsOf i).isEmpty
  cases hds : ! (s.declarationsOf i).isEmpty with
  | false => rfl
  | true => exact h i (List.mem_filter.mpr ⟨hi, hds⟩)

/-- Leaving out instructions without a block does not change the text. -/
theorem generate_restrict {keep : Instruction → Bool} {header : Header}
    (hkeep : ∀ i ∈ s.emitted, keep i) (h : s.generate comments = .ok header) :
    ∃ rest, (s.restrict keep).generate comments = .ok rest ∧ rest.text = header.text := by
  obtain ⟨hok, rfl⟩ := generate_eq_ok_iff.mp h
  refine ⟨(s.restrict keep).headerOf comments, generate_eq_ok_iff.mpr ⟨?_, rfl⟩, ?_⟩
  · intro i hi
    exact hok i (List.mem_of_mem_filter hi)
  · rw [((s.restrict keep).headerOf_accounts comments).text, (s.headerOf_accounts comments).text,
      emitted_restrict hkeep]
    rfl

/-! ### Lists apart -/

theorem mem_emitted_iff {i : Instruction} :
    i ∈ s.emitted ↔ i ∈ s.grammar.instructions ∧ ∃ d ds, s.outcomeOf i = .declared (d :: ds) := by
  rw [emitted, List.mem_filter, and_congr_right_iff]
  intro _
  unfold declarationsOf
  cases s.outcomeOf i with
  | declared ds => cases ds <;> simp [Outcome.declarations]
  | _ => simp [Outcome.declarations]

theorem mem_filtered_iff {i : Instruction} :
    i ∈ s.filtered ↔ i ∈ s.grammar.instructions ∧ s.outcomeOf i = .filtered := by
  rw [filtered, List.mem_filter, beq_iff_eq]

theorem mem_skipped_iff {i : Instruction} :
    i ∈ s.skipped ↔ i ∈ s.grammar.instructions ∧ ∃ reason, s.outcomeOf i = .skipped reason := by
  rw [skipped, List.mem_filter, and_congr_right_iff]
  intro _
  cases s.outcomeOf i <;> simp [Outcome.reason?]

/-- No instruction is in two of the lists. -/
theorem lists_disjoint (s : Sources) :
    s.emitted.Disjoint s.filtered ∧ s.emitted.Disjoint s.skipped ∧
      s.filtered.Disjoint s.skipped := by
  refine ⟨?_, ?_, ?_⟩ <;> intro i hi hi'
  · obtain ⟨-, _, _, hdeclared⟩ := mem_emitted_iff.mp hi
    rw [(mem_filtered_iff.mp hi').2] at hdeclared
    cases hdeclared
  · obtain ⟨-, _, _, hdeclared⟩ := mem_emitted_iff.mp hi
    obtain ⟨-, _, hskipped⟩ := mem_skipped_iff.mp hi'
    rw [hskipped] at hdeclared
    cases hdeclared
  · obtain ⟨-, _, hskipped⟩ := mem_skipped_iff.mp hi'
    rw [(mem_filtered_iff.mp hi).2] at hskipped
    cases hskipped

/-- An instruction that the policy excludes or has no strategy for is in none of the lists. -/
theorem not_mem_lists {i : Instruction}
    (h : s.policy.isExcluded i.opname ∨ s.policy.strategy? i = none) :
    i ∉ s.emitted ∧ i ∉ s.filtered ∧ i ∉ s.skipped := by
  have hstrategy : s.policy.strategy? i = none := by
    rcases h with hexcluded | hnone
    · rw [Policy.strategy?, if_pos hexcluded]
    · exact hnone
  have houtcome : s.outcomeOf i = .unlisted := by
    simp only [outcomeOf, Instruction.outcome, hstrategy]
  simp [mem_emitted_iff, mem_filtered_iff, mem_skipped_iff, houtcome]

/-! ### Comments -/

/-- Comments put a line in front of each block and change nothing else. -/
theorem generate_comments {header : Header} (h : s.generate comments = .ok header) :
    ∃ plain commented front back,
      s.generate false = .ok plain ∧ s.generate true = .ok commented ∧
        commented.report = plain.report ∧
          plain.text = front ++ String.join (s.emitted.map (s.blockOf false)) ++ back ∧
            commented.text =
              front ++ String.join (s.emitted.map fun i => i.comment ++ s.blockOf false i) ++
                back := by
  obtain ⟨hok, -⟩ := generate_eq_ok_iff.mp h
  have hblock : s.blockOf true = fun i => i.comment ++ s.blockOf false i := by
    funext i
    simp [blockOf]
  have hcommented := (s.headerOf_accounts true).text
  rw [hblock] at hcommented
  exact ⟨s.headerOf false, s.headerOf true, _, _, generate_eq_ok_iff.mpr ⟨hok, rfl⟩,
    generate_eq_ok_iff.mpr ⟨hok, rfl⟩, rfl, (s.headerOf_accounts false).text, hcommented⟩

/-! ### Generated headers -/

/-- A generated header accounts for its sources. The lists of its report are in the order of the
grammar and apart from each other. Leaving out instructions without a block does not change its
text, and comments change nothing but the comment lines. -/
theorem generate_accounts {header : Header} (h : s.generate comments = .ok header) :
    s.Accounts comments header ∧
      (s.emitted.Sublist s.grammar.instructions ∧ s.filtered.Sublist s.grammar.instructions ∧
        s.skipped.Sublist s.grammar.instructions) ∧
      (s.emitted.Disjoint s.filtered ∧ s.emitted.Disjoint s.skipped ∧
        s.filtered.Disjoint s.skipped) ∧
      (∀ i, s.policy.isExcluded i.opname ∨ s.policy.strategy? i = none →
        i ∉ s.emitted ∧ i ∉ s.filtered ∧ i ∉ s.skipped) ∧
      (∀ keep : Instruction → Bool, (∀ i ∈ s.emitted, keep i) →
        ∃ rest, (s.restrict keep).generate comments = .ok rest ∧ rest.text = header.text) ∧
      ∃ plain commented front back,
        s.generate false = .ok plain ∧ s.generate true = .ok commented ∧
          commented.report = plain.report ∧
            plain.text = front ++ String.join (s.emitted.map (s.blockOf false)) ++ back ∧
              commented.text =
                front ++ String.join (s.emitted.map fun i => i.comment ++ s.blockOf false i) ++
                  back := by
  refine ⟨?_, ⟨List.filter_sublist, List.filter_sublist, List.filter_sublist⟩,
    s.lists_disjoint, fun i => not_mem_lists, ?_, generate_comments h⟩
  · obtain ⟨-, rfl⟩ := generate_eq_ok_iff.mp h
    exact s.headerOf_accounts comments
  · intro keep hkeep
    exact generate_restrict hkeep h

/-- Barriers and an atomic instruction: one that can be declared, one with an operand that has no
rule, one that is excluded by its ending and one for kernels. -/
def barriers : Sources where
  grammar := {
    majorVersion? := some 1
    minorVersion? := some 6
    revision? := some 4
    instructions := [
      ⟨"OpMemoryBarrier", "Barrier", 225,
        [⟨"IdScope", some "Memory", none⟩, ⟨"IdMemorySemantics", some "Semantics", none⟩],
        [], [], none⟩,
      ⟨"OpMemoryNamedBarrier", "Barrier", 329, [⟨"IdRef", some "Named Barrier", none⟩],
        ["NamedBarrier"], [], none⟩,
      ⟨"OpControlBarrierArriveINTEL", "Barrier", 6142, [], [], [], none⟩,
      ⟨"OpAtomicFlagClear", "Atomic", 319, [⟨"IdRef", some "Pointer", none⟩], ["Kernel"], [],
        none⟩]
    operandKinds := [] }
  policy := .standard
  typeMap := .standard
  builtins := .standard

theorem barriers_accounts :
    ∃ header, barriers.generate true = .ok header ∧ barriers.Accounts true header ∧
      header.report.emitted = ["OpMemoryBarrier"] ∧
        header.report.skipped =
          [("OpMemoryNamedBarrier", .unsupportedOperand "IdRef" "NamedBarrier")] ∧
          header.report.filtered = ["OpAtomicFlagClear"] ∧
            barriers.emitted.map (barriers.blockOf true) =
              ["// OpMemoryBarrier (opcode 225)\n" ++
                "[[vk::ext_instruction(spv::OpMemoryBarrier)]]\n" ++
                "void memoryBarrier(uint32_t memoryScope, uint32_t semantics);\n\n"] := by
  have hok : ∀ i ∈ barriers.grammar.instructions,
      ∃ o, i.outcome barriers.policy barriers.typeMap = .ok o := by
    simp only [barriers, List.forall_mem_cons]
    exact ⟨⟨_, rfl⟩, ⟨_, rfl⟩, ⟨_, rfl⟩, ⟨_, rfl⟩, by simp⟩
  have hgenerate : barriers.generate true = .ok (barriers.headerOf true) :=
    generate_eq_ok_iff.mpr ⟨hok, rfl⟩
  exact ⟨barriers.headerOf true, hgenerate, (generate_accounts hgenerate).1, rfl, rfl, rfl,
    by decide +kernel⟩

end Sources

end SpirvBindings
