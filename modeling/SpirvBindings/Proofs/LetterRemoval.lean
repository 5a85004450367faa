import SpirvBindings.Proofs.Templates
import SpirvBindings.Proofs.TypeLetters

/-! What is left of a name without its type letter. Only the leftmost letter is removed, so another
one further behind stays. And the removal brings the byte in front of the letter together with the
word that the letter opened: if this byte is the letter of a class, it opens the word from then on.
There is no third way. So the names of an expansion have no type letter left if and only if a single
letter opens a word in the name of the opcode and no letter of a class is in front of it. -/

namespace SpirvBindings

namespace TypeLetter

/-- At most one letter opens a word, and no letter of a class is in front of it. -/
structure OpensAlone (bs : List UInt8) : Prop where
  single : ∀ i j cls cls', OpensAt bs i cls → OpensAt bs j cls' → i = j
  bare : ∀ i cls, OpensAt bs (i + 1) cls → ∀ cls' : TypeClass, bs[i]? ≠ some cls'.letter.toUInt8

/-! ### Bytes without a letter -/

/-- Behind a byte that is removed, words open where they did. -/
theorem opensAt_remove_behind_iff {front rest : List UInt8} {letter : UInt8} {i : Nat}
    {cls : TypeClass} : OpensAt (front ++ rest) (front.length + i) cls ↔
      OpensAt (front ++ letter :: rest) (front.length + (i + 1)) cls := by
  have hsplit : front ++ letter :: rest = (front ++ [letter]) ++ rest := by simp
  have hplace : front.length + (i + 1) = (front ++ [letter]).length + i := by
    simp only [List.length_append, List.length_singleton]
    omega
  rw [hsplit, hplace, opensAt_append, opensAt_append]

/-- In front of a byte that is removed, a word opens anew at the last place, if there is the letter
of a class. -/
theorem opensAt_remove_before_iff {front rest : List UInt8} {letter b c : UInt8} {i : Nat}
    {cls : TypeClass} (hb : IsUpper b) (hc : IsLower c) (hi : i < front.length)
    (hno : ¬ OpensAt (front ++ letter :: b :: c :: rest) i cls) :
    OpensAt (front ++ b :: c :: rest) i cls ↔
      i + 1 = front.length ∧ (front ++ letter :: b :: c :: rest)[i]? = some cls.letter.toUInt8 := by
  have hkept : ∀ j < front.length,
      (front ++ b :: c :: rest)[j]? = (front ++ letter :: b :: c :: rest)[j]? := fun j hj => by
    rw [List.getElem?_append_left hj, List.getElem?_append_left hj]
  have hbehind : ∀ j,
      (front ++ b :: c :: rest)[front.length + j]? = (b :: c :: rest)[j]? := fun j => by
    rw [List.getElem?_append_right (Nat.le_add_right ..), Nat.add_sub_cancel_left]
  constructor
  · rintro ⟨hletter, hupper, hlower⟩
    refine ⟨?_, (hkept i hi).symm.trans hletter⟩
    by_contra hlast
    rcases Nat.lt_or_ge (i + 2) front.length with hlt | hge
    · -- all three bytes are in front, where nothing has changed
      rw [hkept _ (by omega)] at hletter hupper hlower
      exact hno ⟨hletter, hupper, hlower⟩
    · -- the third byte is the upper-case letter that the removed one was in front of
      have hplace : i + 2 = front.length + 0 := by omega
      rw [hplace, hbehind] at hlower
      obtain ⟨_, hthird, hlower⟩ := hlower
      cases hthird
      exact hb.not_isLower hlower
  · rintro ⟨hlast, hletter⟩
    have hplace : i + 1 = front.length + 0 := hlast
    have hplace' : i + 2 = front.length + 1 := by omega
    refine ⟨(hkept i hi).trans hletter, ⟨b, ?_, hb⟩, c, ?_, hc⟩
    · rw [hplace, hbehind]
      rfl
    · rw [hplace', hbehind]
      rfl

/-- Without its leftmost letter nothing opens a word if and only if this letter opened one alone. -/
theorem forall_not_opensAt_remove_iff {front rest : List UInt8} {cls : TypeClass}
    (hopens : OpensAt (front ++ cls.letter.toUInt8 :: rest) front.length cls)
    (hbefore : ∀ j < front.length, ∀ cls', ¬ OpensAt (front ++ cls.letter.toUInt8 :: rest) j cls') :
    (∀ i cls', ¬ OpensAt (front ++ rest) i cls') ↔
      OpensAlone (front ++ cls.letter.toUInt8 :: rest) := by
  have hword := opensAt_append (i := 0).mp hopens
  obtain ⟨b, hb, hupper⟩ := hword.upper
  obtain ⟨c, hc, hlower⟩ := hword.lower
  obtain ⟨tail, rfl⟩ : ∃ tail, rest = b :: c :: tail := by
    match rest, hb, hc with
    | _ :: _ :: tail, hb, hc =>
      cases hb
      cases hc
      exact ⟨tail, rfl⟩
  constructor
  · intro hnone
    have hplace : ∀ j cls', OpensAt (front ++ cls.letter.toUInt8 :: b :: c :: tail) j cls' →
        j = front.length := by
      intro j cls' hj
      rcases Nat.lt_trichotomy j front.length with hlt | heq | hgt
      · exact absurd hj (hbefore j hlt cls')
      · exact heq
      · obtain ⟨k, rfl⟩ := Nat.exists_eq_add_of_lt hgt
        rw [Nat.add_assoc] at hj
        exact absurd (opensAt_remove_behind_iff.mpr hj) (hnone _ _)
    refine ⟨fun i j cls₁ cls₂ hi hj => (hplace i cls₁ hi).trans (hplace j cls₂ hj).symm, ?_⟩
    intro i cls₁ hi cls₂ hletter
    have hlast := hplace _ _ hi
    have hlt : i < front.length := by omega
    exact hnone i cls₂
      ((opensAt_remove_before_iff hupper hlower hlt (hbefore i hlt cls₂)).mpr ⟨hlast, hletter⟩)
  · rintro ⟨hsingle, hbare⟩ i cls' hi
    rcases Nat.lt_or_ge i front.length with hlt | hge
    · obtain ⟨hlast, hletter⟩ :=
        (opensAt_remove_before_iff hupper hlower hlt (hbefore i hlt cls')).mp hi
      rw [← hlast] at hopens
      exact hbare i cls hopens cls' hletter
    · obtain ⟨k, rfl⟩ := Nat.exists_eq_add_of_le hge
      have heq := hsingle _ _ _ _ hopens (opensAt_remove_behind_iff.mp hi)
      omega

/-! ### Names without their letter -/

theorem bytes_append (a b : String) : bytes (a ++ b) = bytes a ++ bytes b := by
  simp only [bytes_eq, String.toList_append, List.flatMap_append]

theorem bytes_letter (cls : TypeClass) :
    bytes (String.singleton cls.letter) = [cls.letter.toUInt8] := by
  cases cls <;> decide

theorem length_bytes (text : String) : (bytes text).length = text.utf8ByteSize := by
  rfl

/-- A name without its type letter. -/
def strip (name : String) : String :=
  match find? name with
  | some letter => letter.removeFrom name
  | none => name

/-- The name without its letter is what is in front of the letter and what is behind it. -/
theorem exists_strip_parts {name : String} {l : TypeLetter} (h : find? name = some l) :
    ∃ before after : String,
      bytes name = bytes before ++ l.typeClass.letter.toUInt8 :: bytes after ∧
        (bytes before).length = l.position ∧ strip name = before ++ after := by
  obtain ⟨hopens, -⟩ := ((scan_leftmost 0 (bytes name)).eq_some_iff l).mp h
  obtain ⟨-, -, before, after, hname, hposition, hremoved⟩ := removedExactly hopens
  refine ⟨before, after, ?_, ?_, ?_⟩
  · rw [hname, bytes_append, bytes_append, bytes_letter]
    rfl
  · rw [length_bytes, hposition]
  · simp only [strip, h, hremoved]

/-- Nothing is left to remove if and only if the letter of the name, if it has one, is alone. -/
theorem find?_strip_eq_none_iff (name : String) :
    find? (strip name) = none ↔ OpensAlone (bytes name) := by
  have hnone : ∀ text, find? text = none ↔ ∀ i cls, ¬ OpensAt (bytes text) i cls :=
    fun text => (scan_leftmost 0 (bytes text)).eq_none_iff
  cases hl : find? name with
  | none =>
    have hno := (hnone name).mp hl
    simp only [strip, hl, true_iff]
    exact ⟨fun i j cls cls' hi => absurd hi (hno i cls), fun i cls hi => absurd hi (hno _ cls)⟩
  | some l =>
    obtain ⟨hopens, hbefore⟩ := ((scan_leftmost 0 (bytes name)).eq_some_iff l).mp hl
    obtain ⟨before, after, hbytes, hposition, hstrip⟩ := exists_strip_parts hl
    rw [hbytes, ← hposition] at hopens hbefore
    rw [hnone, hstrip, bytes_append, hbytes]
    exact forall_not_opensAt_remove_iff hopens hbefore

/-- A name keeps its text without its type letter only if it has none. -/
theorem strip_eq_self_iff (name : String) : strip name = name ↔ find? name = none := by
  cases hl : find? name with
  | none => simp [strip, hl]
  | some l =>
    obtain ⟨before, after, hbytes, -, hstrip⟩ := exists_strip_parts hl
    simp only [reduceCtorEq, iff_false]
    intro heq
    have hlength := congrArg List.length hbytes
    rw [← heq, hstrip, bytes_append] at hlength
    simp at hlength

end TypeLetter

namespace Expansion

open TypeLetter

/-! ### Names of an expansion -/

variable {m : TypeMap} {i : Instruction} {r : Request} {ds : List Declaration}

/-- The name of a declaration, before the capability that tells it from others, has no type
letter. -/
def LetterFree (i : Instruction) (d : Declaration) : Prop :=
  ∃ stem, d.name = overloadName stem (1 < (guards i).length) (d.guard? i) ∧ find? stem = none

theorem name_of_mem_declarations {c : Choice} {d : Declaration} (hc : c ∈ choices m i r)
    (hd : d ∈ c.declarations m i r) :
    d.name = overloadName (strip (Naming.functionName i.opname)) (1 < (guards i).length)
      (d.guard? i) := by
  rw [guard?_of_mem_declarations hc hd]
  obtain ⟨ps, -, rfl⟩ := List.mem_map.mp hd
  rfl

theorem overloadName_injective (several : Bool) (guard? : Option String) :
    Function.Injective fun stem => overloadName stem several guard? := by
  intro stem stem' h
  cases guard? with
  | none => exact h
  | some capability =>
    cases several with
    | false => exact h
    | true =>
      simp only [overloadName, ↓reduceIte, String.append_assoc] at h
      exact (String.append_left_inj _).mp h

/-- The names of an expansion are those of the opcode without the type letter. They have none left,
and a second removal changes nothing, if and only if the letter opens the only word that a letter
opens and no letter of a class is in front of it. -/
theorem expand_letterFree_iff (h : i.expand r m = .ok (.declarations ds)) :
    (∀ d ∈ ds, d.name = overloadName (strip (Naming.functionName i.opname))
        (1 < (guards i).length) (d.guard? i)) ∧
      ((∀ d ∈ ds, LetterFree i d) ↔
        ds = [] ∨ OpensAlone (bytes (Naming.functionName i.opname))) ∧
      (strip (strip (Naming.functionName i.opname)) = strip (Naming.functionName i.opname) ↔
        OpensAlone (bytes (Naming.functionName i.opname))) := by
  have hnames : ∀ d ∈ ds, d.name = overloadName (strip (Naming.functionName i.opname))
      (1 < (guards i).length) (d.guard? i) := by
    obtain ⟨-, -, -, rfl⟩ := expand_eq_declarations_iff.mp h
    intro d hd
    obtain ⟨c, hc, hd⟩ := List.mem_flatMap.mp hd
    exact name_of_mem_declarations hc hd
  have hfree : ∀ d ∈ ds, LetterFree i d ↔ OpensAlone (bytes (Naming.functionName i.opname)) := by
    intro d hd
    rw [← find?_strip_eq_none_iff]
    constructor
    · rintro ⟨stem, hname, hnone⟩
      obtain rfl := overloadName_injective _ _ (hname.symm.trans (hnames d hd))
      exact hnone
    · exact fun hnone => ⟨_, hnames d hd, hnone⟩
  refine ⟨hnames, ?_, (strip_eq_self_iff _).trans (find?_strip_eq_none_iff _)⟩
  cases ds with
  | nil => simp
  | cons d ds =>
    simp only [reduceCtorEq, false_or]
    exact ⟨fun hall => (hfree d List.mem_cons_self).mp (hall d List.mem_cons_self),
      fun halone d' hd' => (hfree d' hd').mpr halone⟩

/-- A conversion of a float under some name. -/
def floatConversion (opname : String) : Instruction where
  opname := opname
  className := "Conversion"
  opcode := 110
  operands := [⟨"IdResultType", none, none⟩, ⟨"IdResult", none, none⟩,
    ⟨"IdRef", some "Operand", none⟩]
  capabilities := []
  extensions := []
  version? := none

/-- What is asked of a conversion from float to integer. -/
def toInteger : Request := ⟨.reference, some "int32_t", some "float32_t", none, []⟩

/-- The letter of the second class stays in the name. -/
theorem convertFToSInt_keeps_letter :
    ∃ d, (floatConversion "OpConvertFToSInt").expand toInteger .standard =
        .ok (.declarations [d]) ∧
      d.name = "convertToSInt" ∧ find? "convertToSInt" = some ⟨.signed, 9⟩ ∧
        ¬ LetterFree (floatConversion "OpConvertFToSInt") d := by
  refine ⟨_, rfl, rfl, by decide, ?_⟩
  rintro ⟨stem, hname, hnone⟩
  obtain rfl : "convertToSInt" = stem := hname
  revert hnone
  decide

/-- A letter at the end of the name opens no word. -/
theorem convertFToS_letterFree :
    ∃ d, (floatConversion "OpConvertFToS").expand toInteger .standard = .ok (.declarations [d]) ∧
      d.name = "convertToS" ∧ LetterFree (floatConversion "OpConvertFToS") d ∧
        OpensAlone (bytes "convertFToS") := by
  obtain ⟨d, hds, hname, hfree⟩ :
      ∃ d, (floatConversion "OpConvertFToS").expand toInteger .standard =
          .ok (.declarations [d]) ∧
        d.name = "convertToS" ∧ LetterFree (floatConversion "OpConvertFToS") d :=
    ⟨_, rfl, rfl, "convertToS", rfl, by decide⟩
  obtain ⟨-, hiff, -⟩ := expand_letterFree_iff hds
  refine ⟨d, hds, hname, hfree, ?_⟩
  exact (hiff.mp (by simpa using hfree)).resolve_left (List.cons_ne_nil d [])

end Expansion

end SpirvBindings
