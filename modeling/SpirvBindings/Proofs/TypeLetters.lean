import Mathlib.Data.String.Basic
import SpirvBindings.Mnemonic

/-! Where the type letter of a name is. The scan goes over the bytes of a text in UTF-8 and passes
over some triples as a whole. In every text it finds the leftmost letter of a type class that an
upper-case and a lower-case letter follow, and it finds none only if there is none: two triples like
that have no byte in common. No byte of a character outside of ASCII is a letter, so that the byte
found is a character of the text. Without this character the text is what remains of the name. -/

namespace SpirvBindings

def TypeClass.letter : TypeClass → Char
  | .integer => 'I'
  | .signed => 'S'
  | .unsigned => 'U'
  | .float => 'F'

namespace TypeLetter

open String (utf8EncodeChar)

/-- The bytes of a text in UTF-8. -/
def bytes (text : String) : List UInt8 := text.toUTF8.data.toList

def IsUpper (b : UInt8) : Prop := 'A'.toNat ≤ b.toNat ∧ b.toNat ≤ 'Z'.toNat

def IsLower (b : UInt8) : Prop := 'a'.toNat ≤ b.toNat ∧ b.toNat ≤ 'z'.toNat

/-- The letter of a class is the byte at `i`, an upper-case letter is behind it and a lower-case
letter behind that. -/
structure OpensAt (bs : List UInt8) (i : Nat) (cls : TypeClass) : Prop where
  letter : bs[i]? = some cls.letter.toUInt8
  upper : ∃ b, bs[i + 1]? = some b ∧ IsUpper b
  lower : ∃ b, bs[i + 2]? = some b ∧ IsLower b

/-! ### Letters -/

theorem toNat_ofUInt8 (b : UInt8) : (Char.ofUInt8 b).toNat = b.toNat := UInt8.toNat_toUInt32 b

theorem isUpper_iff {b : UInt8} : (Char.ofUInt8 b).isUpper = true ↔ IsUpper b := by
  rw [IsUpper, ← toNat_ofUInt8]
  exact decide_eq_true_iff

theorem isLower_iff {b : UInt8} : (Char.ofUInt8 b).isLower = true ↔ IsLower b := by
  rw [IsLower, ← toNat_ofUInt8]
  exact (Bool.and_eq_true_iff ..).trans (and_congr decide_eq_true_iff decide_eq_true_iff)

theorem opensWord_iff {a b c : UInt8} :
    opensWord a b c = true ↔ IsUpper a ∧ IsUpper b ∧ IsLower c := by
  simp only [opensWord, Bool.and_eq_true, isUpper_iff, isLower_iff, and_assoc]

theorem IsUpper.not_isLower {b : UInt8} (h : IsUpper b) : ¬ IsLower b := by
  intro h'
  have hle : 'a'.toNat ≤ 'Z'.toNat := h'.1.trans h.2
  exact absurd hle (by decide)

theorem isUpper_letter (cls : TypeClass) : IsUpper cls.letter.toUInt8 := by
  cases cls <;> exact ⟨by decide, by decide⟩

theorem ofLetter?_eq_some_iff {b : UInt8} {cls : TypeClass} :
    TypeClass.ofLetter? (Char.ofUInt8 b) = some cls ↔ b = cls.letter.toUInt8 := by
  constructor
  · intro h
    have hletter : Char.ofUInt8 b = cls.letter := by
      unfold TypeClass.ofLetter? at h
      split at h <;> cases h <;> assumption
    rw [← hletter]
    exact (UInt8.toUInt8_toUInt32 b).symm
  · rintro rfl
    cases cls <;> rfl

/-! ### The scan -/

theorem OpensAt.lt_length {bs : List UInt8} {i : Nat} {cls : TypeClass} (h : OpensAt bs i cls) :
    i + 2 < bs.length := by
  obtain ⟨b, hb, -⟩ := h.lower
  exact (List.getElem?_eq_some_iff.mp hb).1

theorem opensAt_append {front rest : List UInt8} {i : Nat} {cls : TypeClass} :
    OpensAt (front ++ rest) (front.length + i) cls ↔ OpensAt rest i cls := by
  have hget : ∀ j, (front ++ rest)[front.length + j]? = rest[j]? := fun j => by
    rw [List.getElem?_append_right (Nat.le_add_right ..), Nat.add_sub_cancel_left]
  constructor
  · rintro ⟨hletter, hupper, hlower⟩
    rw [Nat.add_assoc, hget] at hupper hlower
    exact ⟨(hget i).symm.trans hletter, hupper, hlower⟩
  · rintro ⟨hletter, hupper, hlower⟩
    rw [← hget, ← Nat.add_assoc] at hupper hlower
    exact ⟨(hget i).trans hletter, hupper, hlower⟩

/-- What is found in bytes that follow `pos` others is the leftmost letter, if there is one. -/
def Leftmost (pos : Nat) (bs : List UInt8) : Option TypeLetter → Prop
  | none => ∀ i cls, ¬ OpensAt bs i cls
  | some l => ∃ i, l.position = pos + i ∧ OpensAt bs i l.typeClass ∧
    ∀ j < i, ∀ cls, ¬ OpensAt bs j cls

/-- Bytes that open nothing can be passed over. -/
theorem Leftmost.append {pos : Nat} {front rest : List UInt8} {l? : Option TypeLetter}
    (h : Leftmost (pos + front.length) rest l?)
    (hfront : ∀ j < front.length, ∀ cls, ¬ OpensAt (front ++ rest) j cls) :
    Leftmost pos (front ++ rest) l? := by
  have hnone : ∀ n, (∀ j < n, ∀ cls, ¬ OpensAt rest j cls) →
      ∀ j < front.length + n, ∀ cls, ¬ OpensAt (front ++ rest) j cls := by
    intro n hrest j hj cls hopens
    rcases Nat.lt_or_ge j front.length with hlt | hge
    · exact hfront j hlt cls hopens
    · obtain ⟨k, rfl⟩ := Nat.exists_eq_add_of_le hge
      exact hrest k (by omega) cls (opensAt_append.mp hopens)
  cases l? with
  | none => exact fun i cls => hnone (i + 1) (fun j _ => h j) i (by omega) cls
  | some l =>
    obtain ⟨i, hposition, hopens, hbefore⟩ := h
    exact ⟨front.length + i, by omega, opensAt_append.mpr hopens, hnone i hbefore⟩

/-- A letter that names no class does not hide one: neither of the two bytes behind it is a letter
with an upper-case and a lower-case letter behind it. -/
theorem scan_leftmost (pos : Nat) (bs : List UInt8) : Leftmost pos bs (scan pos bs) := by
  fun_induction scan pos bs with
  | case1 pos a b c rest hopens cls hcls =>
    obtain ⟨-, hb, hc⟩ := opensWord_iff.mp hopens
    rw [ofLetter?_eq_some_iff] at hcls
    exact ⟨0, rfl, ⟨congrArg some hcls, ⟨b, rfl, hb⟩, ⟨c, rfl, hc⟩⟩, by simp⟩
  | case2 pos a b c rest hopens hcls ih =>
    obtain ⟨-, hb, hc⟩ := opensWord_iff.mp hopens
    change Leftmost pos ([a, b, c] ++ rest) _
    refine .append ih fun j hj cls hopens' => ?_
    obtain ⟨hletter, ⟨b', hb', hupper⟩, -⟩ := hopens'
    -- `a` names no class, behind `b` is no upper-case letter, and `c` is a lower-case one
    match j, hj with
    | 0, _ =>
      have ha : a = cls.letter.toUInt8 := Option.some.inj hletter
      rw [ofLetter?_eq_some_iff.mpr ha] at hcls
      cases hcls
    | 1, _ =>
      cases hb'
      exact hupper.not_isLower hc
    | 2, _ =>
      cases hletter
      exact (isUpper_letter cls).not_isLower hc
  | case3 pos a b c rest hopens ih =>
    change Leftmost pos ([a] ++ b :: c :: rest) _
    refine .append ih fun j hj cls hopens' => hopens (opensWord_iff.mpr ?_)
    obtain rfl : j = 0 := Nat.lt_one_iff.mp hj
    obtain ⟨hletter, ⟨b', hb', hupper⟩, c', hc', hlower⟩ := hopens'
    cases hletter
    cases hb'
    cases hc'
    exact ⟨isUpper_letter cls, hupper, hlower⟩
  | case4 bs pos hshort =>
    intro i cls hopens
    match bs, hshort, hopens.lt_length with
    | a :: b :: c :: rest, hshort, _ => exact hshort a b c rest rfl
    | [_, _], _, hlength => simp at hlength
    | [_], _, hlength => simp at hlength
    | [], _, hlength => simp at hlength

theorem OpensAt.unique {bs : List UInt8} {i : Nat} {cls cls' : TypeClass} (h : OpensAt bs i cls)
    (h' : OpensAt bs i cls') : cls = cls' := by
  have hletter : cls.letter.toUInt8 = cls'.letter.toUInt8 :=
    Option.some.inj (h.letter.symm.trans h'.letter)
  revert hletter
  cases cls <;> cases cls' <;> decide

theorem Leftmost.eq_some_iff {bs : List UInt8} {l? : Option TypeLetter} (h : Leftmost 0 bs l?)
    (l : TypeLetter) : l? = some l ↔
      OpensAt bs l.position l.typeClass ∧ ∀ j < l.position, ∀ cls, ¬ OpensAt bs j cls := by
  cases l? with
  | none => exact ⟨nofun, fun hl => absurd hl.1 (h _ _)⟩
  | some m =>
    obtain ⟨i, hposition, hopens, hbefore⟩ := h
    rw [Nat.zero_add] at hposition
    subst hposition
    refine ⟨?_, fun ⟨hopens', hbefore'⟩ => ?_⟩
    · rintro ⟨⟩
      exact ⟨hopens, hbefore⟩
    · have hposition : m.position = l.position :=
        Nat.le_antisymm (Nat.not_lt.mp fun hlt => hbefore _ hlt _ hopens')
          (Nat.not_lt.mp fun hlt => hbefore' _ hlt _ hopens)
      cases l
      cases m
      cases hposition
      cases hopens.unique hopens'
      rfl

theorem Leftmost.eq_none_iff {bs : List UInt8} {pos : Nat} {l? : Option TypeLetter}
    (h : Leftmost pos bs l?) : l? = none ↔ ∀ i cls, ¬ OpensAt bs i cls := by
  cases l? with
  | none => exact ⟨fun _ => h, fun _ => rfl⟩
  | some m =>
    obtain ⟨i, -, hopens, -⟩ := h
    exact ⟨nofun, fun hnone => absurd hopens (hnone i _)⟩

/-! ### Characters -/

theorem toNat_toUInt8 {c : Char} (h : c.toNat < 128) : c.toUInt8.toNat = c.toNat :=
  (UInt32.toNat_toUInt8 c.val).trans (Nat.mod_eq_of_lt (h.trans (by decide)))

/-- A character is one byte of its own value, or all of its bytes are outside of ASCII. -/
theorem utf8EncodeChar_cases (c : Char) : c.toNat < 128 ∧ utf8EncodeChar c = [c.toUInt8] ∨
    ∀ b ∈ utf8EncodeChar c, 128 ≤ b.toNat := by
  rcases Nat.lt_or_ge c.toNat 128 with hlt | hge
  · have hsize : c.utf8Size = 1 := Char.utf8Size_eq_one_iff.mpr (Nat.le_of_lt_succ hlt)
    exact .inl ⟨hlt, String.utf8EncodeChar_eq_singleton hsize⟩
  · right
    have hnot : ¬ c.val.toNat ≤ 127 := Nat.not_le.mpr hge
    simp only [utf8EncodeChar, if_neg hnot]
    split_ifs <;>
      simp only [List.mem_cons, List.not_mem_nil, or_false, forall_eq_or_imp, forall_eq,
        UInt8.toNat_ofNat'] <;>
      omega

/-- A byte of ASCII in a text is a character. -/
theorem exists_char_of_byte {cs : List Char} {i : Nat} {b : UInt8}
    (h : (cs.flatMap utf8EncodeChar)[i]? = some b) (hb : b.toNat < 128) :
    ∃ before c after, cs = before ++ c :: after ∧ String.utf8Len before = i ∧
      c.toNat < 128 ∧ c.toUInt8 = b := by
  induction cs generalizing i with
  | nil => simp at h
  | cons c cs ih =>
    rw [List.flatMap_cons] at h
    rcases Nat.lt_or_ge i (utf8EncodeChar c).length with hlt | hge
    · rw [List.getElem?_append_left hlt] at h
      rcases utf8EncodeChar_cases c with ⟨hc, hbytes⟩ | hbytes
      · rw [hbytes] at h hlt
        obtain rfl : i = 0 := Nat.lt_one_iff.mp hlt
        exact ⟨[], c, cs, rfl, rfl, hc, Option.some.inj h⟩
      · exact absurd hb (Nat.not_lt.mpr (hbytes b (List.mem_of_getElem? h)))
    · rw [List.getElem?_append_right hge] at h
      obtain ⟨before, d, after, rfl, hlen, hd⟩ := ih h
      refine ⟨c :: before, d, after, rfl, ?_, hd⟩
      rw [String.utf8Len_cons, hlen, ← String.length_utf8EncodeChar, Nat.sub_add_cancel hge]

theorem bytes_eq (text : String) : bytes text = text.toList.flatMap utf8EncodeChar := by
  rw [bytes, String.toUTF8_eq_toByteArray, ← String.utf8Encode_toList, List.utf8Encode,
    List.data_toByteArray]

theorem toNat_letter_lt (cls : TypeClass) : cls.letter.toNat < 128 := by
  cases cls <;> decide

/-- The letter that is found is a character of the name. -/
theorem exists_parts {name : String} {i : Nat} {cls : TypeClass} (h : OpensAt (bytes name) i cls) :
    ∃ before after : String, name = before ++ (String.singleton cls.letter ++ after) ∧
      before.utf8ByteSize = i := by
  have hbyte := h.letter
  rw [bytes_eq] at hbyte
  have hletter := toNat_letter_lt cls
  rw [← toNat_toUInt8 hletter] at hletter
  obtain ⟨before, c, after, hname, hlen, hc, heq⟩ := exists_char_of_byte hbyte hletter
  obtain rfl : c = cls.letter := by
    have hval : c.toNat = cls.letter.toNat := by
      rw [← toNat_toUInt8 hc, heq, toNat_toUInt8 (toNat_letter_lt cls)]
    exact Char.ext (UInt32.toNat_inj.mp hval)
  refine ⟨String.ofList before, String.ofList after, ?_, ?_⟩
  · rw [← String.ofList_toList (s := name), hname, String.ofList_append, String.ofList_cons]
  · rw [String.utf8ByteSize_ofList, hlen]

/-! ### Names -/

theorem utf8Size_letter (cls : TypeClass) : cls.letter.utf8Size = 1 := by
  cases cls <;> decide

theorem removeFrom_parts (before after : String) (cls : TypeClass) :
    removeFrom ⟨cls, before.utf8ByteSize⟩ (before ++ (String.singleton cls.letter ++ after)) =
      before ++ after := by
  have hend : (before ++ (String.singleton cls.letter ++ after)).rawEndPos =
      ⟨before.utf8ByteSize + 1 + after.utf8ByteSize⟩ := by
    ext
    simp [utf8Size_letter, Nat.add_assoc]
  have hbefore := String.extract_of_valid [] before.toList (cls.letter :: after.toList)
  have hafter := String.extract_of_valid (before.toList ++ [cls.letter]) after.toList []
  rw [removeFrom, hend]
  congr 1
  · simpa using hbefore
  · simpa [utf8Size_letter] using hafter

/-- Of a name the parts around this letter stay, and both slices end or start between characters. -/
structure RemovedExactly (l : TypeLetter) (name : String) : Prop where
  valid : String.Pos.Raw.IsValid name ⟨l.position⟩
  valid_succ : String.Pos.Raw.IsValid name ⟨l.position + 1⟩
  parts : ∃ before after : String, name = before ++ (String.singleton l.typeClass.letter ++ after) ∧
    before.utf8ByteSize = l.position ∧ removeFrom l name = before ++ after

theorem removedExactly {l : TypeLetter} {name : String}
    (h : OpensAt (bytes name) l.position l.typeClass) : RemovedExactly l name := by
  obtain ⟨cls, i⟩ := l
  obtain ⟨before, after, rfl, rfl⟩ := exists_parts h
  refine ⟨?_, ?_, before, after, rfl, rfl, removeFrom_parts before after cls⟩
  · exact String.Pos.Raw.isValid_iff_exists_append.mpr ⟨before, _, rfl, rfl⟩
  · refine String.Pos.Raw.isValid_iff_exists_append.mpr
      ⟨before ++ String.singleton cls.letter, after, (String.append_assoc ..).symm, ?_⟩
    ext
    simp [utf8Size_letter]

/-- A search finds the leftmost letter of a type class in front of a word, finds none only if there
is none, and the letter can be removed. -/
structure FindsExactly (name : String) : Prop where
  found_iff : ∀ l, find? name = some l ↔ OpensAt (bytes name) l.position l.typeClass ∧
    ∀ j < l.position, ∀ cls, ¬ OpensAt (bytes name) j cls
  none_iff : find? name = none ↔ ∀ i cls, ¬ OpensAt (bytes name) i cls
  removed : ∀ l, find? name = some l → RemovedExactly l name

/-- In every text the type letter is the leftmost one, and it is removed as a whole character. -/
theorem finds_exactly (name : String) : FindsExactly name where
  found_iff := (scan_leftmost 0 (bytes name)).eq_some_iff
  none_iff := (scan_leftmost 0 (bytes name)).eq_none_iff
  removed l h := removedExactly ((scan_leftmost 0 (bytes name)).eq_some_iff l |>.mp h).1

/-- A character of two bytes is in front, and the first triple names no class. -/
theorem accented_finds_exactly :
    find? "éABcUMax" = some ⟨.unsigned, 5⟩ ∧ removeFrom ⟨.unsigned, 5⟩ "éABcUMax" = "éABcMax" ∧
      FindsExactly "éABcUMax" :=
  ⟨by decide, by decide, finds_exactly _⟩

end TypeLetter

end SpirvBindings
