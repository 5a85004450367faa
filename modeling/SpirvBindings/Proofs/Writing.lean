import Mathlib.Data.List.Basic
import SpirvBindings.Files.Tree
import SpirvBindings.Proofs.Results

/-! What writing a file does to a tree. A path that can be written to stands for one location. The
new text is what the path leads to afterwards, for the walk there passes through directories only,
and these are still there. At all other locations nothing has changed. -/

namespace SpirvBindings.FileTree

variable {t t' : FileTree} {path text : String}

/-! ### Nodes -/

theorem node?_setNode_self {loc : Location} (h : loc ≠ []) (n : FileNode) :
    (t.setNode loc n).node? loc = some n := by
  cases loc with
  | nil => exact absurd rfl h
  | cons name names => simp [node?, setNode]

theorem node?_setNode_of_ne {loc other : Location} (h : other ≠ loc) (n : FileNode) :
    (t.setNode loc n).node? other = t.node? other := by
  cases other with
  | nil => rfl
  | cons name names =>
    have hne : (name :: names == loc) = false := beq_eq_false_iff_ne.mpr h
    simp [node?, setNode, List.lookup_cons, hne]

/-- Where no directory is, a new node leaves all directories in their places. -/
theorem directory_setNode {loc other : Location} (hloc : t.node? loc ≠ some .directory)
    (hother : t.node? other = some .directory) (n : FileNode) :
    (t.setNode loc n).node? other = some .directory := by
  rw [node?_setNode_of_ne _ n, hother]
  rintro rfl
  exact hloc hother

theorem checkDirectory_eq_ok_iff {loc : Location} :
    t.checkDirectory loc = .ok () ↔ t.node? loc = some .directory := by
  unfold checkDirectory
  split <;> simp_all

/-! ### Walks -/

theorem walk_cons_eq_ok_iff {loc stop : Location} {name : String} {names : List String} :
    t.walk loc (name :: names) = .ok stop ↔
      t.node? loc = some .directory ∧ checkName name = .ok () ∧
        t.walk (stepName loc name) names = .ok stop := by
  rw [walk, bind_eq_ok_iff]
  simp only [bind_eq_ok_iff, ← checkDirectory_eq_ok_iff]
  constructor
  · rintro ⟨_, hloc, _, hname, hwalk⟩
    exact ⟨hloc, hname, hwalk⟩
  · rintro ⟨hloc, hname, hwalk⟩
    exact ⟨(), hloc, (), hname, hwalk⟩

theorem walk_append {loc middle stop : Location} {names more : List String}
    (h : t.walk loc names = .ok middle) (hmore : t.walk middle more = .ok stop) :
    t.walk loc (names ++ more) = .ok stop := by
  induction names generalizing loc with
  | nil =>
    cases h
    exact hmore
  | cons name names ih =>
    obtain ⟨hloc, hname, hwalk⟩ := walk_cons_eq_ok_iff.mp h
    exact walk_cons_eq_ok_iff.mpr ⟨hloc, hname, ih hwalk⟩

/-- A walk goes the same way where all directories are still there. -/
theorem walk_of_directories {loc stop : Location} {names : List String}
    (hdirectories : ∀ other, t.node? other = some .directory → t'.node? other = some .directory)
    (h : t.walk loc names = .ok stop) : t'.walk loc names = .ok stop := by
  induction names generalizing loc with
  | nil => exact h
  | cons name names ih =>
    obtain ⟨hloc, hname, hwalk⟩ := walk_cons_eq_ok_iff.mp h
    exact walk_cons_eq_ok_iff.mpr ⟨hdirectories loc hloc, hname, ih hwalk⟩

/-! ### Targets -/

/-- The location that a path can be written to: it is reached by the last name of the path from the
directory that the other names lead to. -/
structure Targets (t : FileTree) (path : String) (directory : Location) (last : String) :
    Prop where
  sound : checkPath path = .ok ()
  length : checkLength path = .ok ()
  names : ∃ names, pathNames path = names ++ [last] ∧ t.walk (t.start path) names = .ok directory
  isDirectory : t.node? directory = some .directory
  named : checkName last = .ok ()
  plain : ∀ loc, stepName loc last = loc ++ [last]

/-- A path that does not end in a directory has no slashes to trim. -/
theorem trimmedNames_of_plain (h : endsInDirectory path = false) :
    trimmedNames path = pathNames path := by
  rw [trimmedNames, List.reverse_eq_iff]
  cases hnames : (pathNames path).reverse with
  | nil => rfl
  | cons last names =>
    have hlast : (pathNames path).getLast? = some last := by
      rw [← List.head?_reverse, hnames, List.head?_cons]
    have hplain : (last == "") = false := by
      simp only [endsInDirectory, hlast, Bool.or_eq_false_iff] at h
      exact h.1.1
    rw [List.dropWhile_cons, hplain]
    rfl

theorem target_eq_ok {loc : Location} (h : t.target path = .ok loc) :
    ∃ directory last, t.Targets path directory last ∧ loc = directory ++ [last] := by
  unfold target at h
  obtain ⟨_, hsound, h⟩ := bind_eq_ok_iff.mp h
  obtain ⟨_, hlength, h⟩ := bind_eq_ok_iff.mp h
  cases hlast : (trimmedNames path).getLast? with
  | none =>
    rw [hlast] at h
    cases h
  | some last =>
    simp only [hlast] at h
    obtain ⟨directory, hwalk, h⟩ := bind_eq_ok_iff.mp h
    obtain ⟨_, hdirectory, h⟩ := bind_eq_ok_iff.mp h
    cases hends : endsInDirectory path with
    | true =>
      rw [hends] at h
      cases h
    | false =>
      rw [hends] at h
      obtain ⟨_, hnamed, h⟩ := bind_eq_ok_iff.mp h
      rw [trimmedNames_of_plain hends] at hlast hwalk
      have hnames : pathNames path = (pathNames path).dropLast ++ [last] :=
        (List.dropLast_append_getLast? last hlast).symm
      have hplain : ∀ loc, stepName loc last = loc ++ [last] := by
        simp only [endsInDirectory, hlast, Bool.or_eq_false_iff, beq_eq_false_iff_ne] at hends
        simp [stepName, hends]
      refine ⟨directory, last, ⟨hsound, hlength, ⟨_, hnames, hwalk⟩, ?_, hnamed, hplain⟩, ?_⟩
      · exact checkDirectory_eq_ok_iff.mp hdirectory
      · cases h
        rfl

/-! ### Writing -/

/-- A tree that differs from another one at most in the file that a path stands for. The path leads
to this file, and the file holds a text. -/
structure SavedAs (t t' : FileTree) (path text : String) : Prop where
  file : ∃ loc, t.target path = .ok loc ∧ t'.node? loc = some (.file text.toUTF8) ∧
    ∀ other, other ≠ loc → t'.node? other = t.node? other
  workingDirectory : t'.workingDirectory = t.workingDirectory
  read : t'.readText path = .ok text

theorem fromUTF8?_toUTF8 (text : String) : String.fromUTF8? text.toUTF8 = some text := by
  unfold String.fromUTF8?
  exact dif_pos text.isValidUTF8

theorem readText_of_readBytes (h : t.readBytes path = .ok text.toUTF8) :
    t.readText path = .ok text := by
  simp only [readText, h, fromUTF8?_toUTF8, bind, Except.bind]
  rfl

/-- A path leads to the file at its target. -/
theorem readBytes_of_targets {directory : Location} {last : String} {bytes : ByteArray}
    (h : t.Targets path directory last)
    (hfile : t.node? (directory ++ [last]) = some (.file bytes)) :
    t.readBytes path = .ok bytes := by
  obtain ⟨names, hnames, hwalk⟩ := h.names
  have hlast : t.walk directory [last] = .ok (directory ++ [last]) := by
    rw [walk_cons_eq_ok_iff, h.plain]
    exact ⟨h.isDirectory, h.named, rfl⟩
  have hall : t.walk (t.start path) (pathNames path) = .ok (directory ++ [last]) := by
    rw [hnames]
    exact walk_append hwalk hlast
  simp only [readBytes, h.sound, h.length, hall, hfile, bind, Except.bind]
  rfl

/-- Writing succeeds if the path has a target that is no directory. -/
theorem writeText_eq_ok_iff : t.writeText path text = .ok t' ↔
    ∃ loc, t.target path = .ok loc ∧ t.node? loc ≠ some .directory ∧
      t' = t.setNode loc (.file text.toUTF8) := by
  unfold writeText
  rw [bind_eq_ok_iff]
  refine exists_congr fun loc => and_congr_right fun _ => ?_
  split
  next hnode => simp [hnode, throw, throwThe, MonadExceptOf.throw]
  next hnode =>
    have hne : t.node? loc ≠ some .directory := hnode
    simp [hne, pure, Except.pure, eq_comm]

/-- A target stays one when a file is put there. -/
theorem Targets.setNode {directory : Location} {last : String} (h : t.Targets path directory last)
    (hfree : t.node? (directory ++ [last]) ≠ some .directory) (n : FileNode) :
    (t.setNode (directory ++ [last]) n).Targets path directory last := by
  obtain ⟨names, hnames, hwalk⟩ := h.names
  have hdirectories : ∀ other, t.node? other = some .directory →
      (t.setNode (directory ++ [last]) n).node? other = some .directory :=
    fun other hother => directory_setNode hfree hother n
  exact ⟨h.sound, h.length, ⟨names, hnames, walk_of_directories hdirectories hwalk⟩,
    hdirectories _ h.isDirectory, h.named, h.plain⟩

/-- A successful write saves the text and touches nothing else. -/
theorem savedAs_of_writeText (h : t.writeText path text = .ok t') : t.SavedAs t' path text := by
  obtain ⟨loc, htarget, hfree, rfl⟩ := writeText_eq_ok_iff.mp h
  obtain ⟨directory, last, htargets, rfl⟩ := target_eq_ok htarget
  have hfile : (t.setNode (directory ++ [last]) (.file text.toUTF8)).node? (directory ++ [last]) =
      some (.file text.toUTF8) := node?_setNode_self (by simp) _
  refine ⟨⟨_, htarget, hfile, fun other hother => node?_setNode_of_ne hother _⟩, rfl, ?_⟩
  exact readText_of_readBytes (readBytes_of_targets (htargets.setNode hfree _) hfile)

end SpirvBindings.FileTree
