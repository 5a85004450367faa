/-!
Identifier tokens of a type expression. A token is a maximal run of identifier characters, which
are the ASCII letters and digits and the underscore; all other characters only separate tokens. A
token that is a single upper-case letter is a generic letter: it stands for a type that the
signature leaves open. -/

namespace SpirvBindings.Identifier

/-- Whether a character may occur in an identifier: an ASCII letter or digit, or `_`. -/
def isChar (c : Char) : Bool := c.isAlphanum || c == '_'

/-! ### Tokens -/

/-- The pieces of a text between its separators, empty pieces included. There is always at least
one piece. -/
def pieces : List Char → List (List Char)
  | [] => [[]]
  | c :: rest => if isChar c then (pieces rest).modifyHead (c :: ·) else [] :: pieces rest

/-- The identifier tokens of a text, in order of appearance. -/
def tokens (text : String) : List String :=
  ((pieces text.toList).filter (! ·.isEmpty)).map String.ofList

theorem pieces_ne_nil (cs : List Char) : pieces cs ≠ [] := by
  cases cs with
  | nil => simp [pieces]
  | cons c cs =>
    simp only [pieces]
    split
    · cases h : pieces cs with
      | nil => exact absurd h (pieces_ne_nil cs)
      | cons p ps => simp
    · simp

theorem pieces_cons_of_isChar {c : Char} (h : isChar c) (cs : List Char) :
    pieces (c :: cs) = (pieces cs).modifyHead (c :: ·) := by
  simp [pieces, h]

theorem pieces_cons_of_not_isChar {c : Char} (h : ¬ isChar c) (cs : List Char) :
    pieces (c :: cs) = [] :: pieces cs := by
  simp [pieces, h]

/-- A separator splits the pieces. -/
theorem pieces_append_cons {c : Char} (h : ¬ isChar c) (cs ds : List Char) :
    pieces (cs ++ c :: ds) = pieces cs ++ pieces ds := by
  induction cs with
  | nil => simp [pieces, h]
  | cons first cs ih =>
    by_cases hfirst : isChar first
    · rw [List.cons_append, pieces_cons_of_isChar hfirst, pieces_cons_of_isChar hfirst, ih]
      cases hcs : pieces cs with
      | nil => exact absurd hcs (pieces_ne_nil cs)
      | cons piece rest => simp
    · rw [List.cons_append, pieces_cons_of_not_isChar hfirst, pieces_cons_of_not_isChar hfirst, ih,
        List.cons_append]

/-! ### Generic letters -/

/-- A generic letter is one upper-case ASCII letter. -/
def isGenericLetter (token : String) : Bool :=
  match token.toList with
  | [c] => c.isUpper
  | _ => false

theorem isGenericLetter_iff {text : String} :
    isGenericLetter text ↔ ∃ c, text.toList = [c] ∧ c.isUpper := by
  unfold isGenericLetter
  split
  next c hc => simp [hc]
  next hno =>
    simp only [Bool.false_eq_true, false_iff]
    rintro ⟨c, hc, -⟩
    exact hno c hc

/-- The generic letters among the tokens of a text, each once, in order of first appearance. -/
def genericLetters (text : String) : List String :=
  ((tokens text).filter isGenericLetter).eraseDups

end SpirvBindings.Identifier
