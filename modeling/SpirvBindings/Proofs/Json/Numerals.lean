import Mathlib.Data.List.Basic
import Mathlib.Tactic.IntervalCases
import Mathlib.Tactic.Positivity
import SpirvBindings.Json.Number

/-! Number texts that are read as they were written. A well-formed number text in front of a place
where it cannot go on is read as a whole, and nothing behind it is. All numbers are written as
well-formed texts, the doubles because the shortest decimal of a magnitude other than zero is not
zero. An integer of a word of 64 bits is read back as the same integer. -/

namespace SpirvBindings.Json

namespace NumberText

/-! ### Parts of a number text -/

def IsDigits (ds : List Char) : Prop := ds ≠ [] ∧ ∀ d ∈ ds, d.isDigit

/-- A number text does not go on where a text like this follows. -/
def Stops (rest : List Char) : Prop :=
  ∀ c ∈ rest.head?, ¬ c.isDigit ∧ c ≠ '.' ∧ c ≠ 'e' ∧ c ≠ 'E'

def fractionText : Option (List Char) → List Char
  | none => []
  | some ds => '.' :: ds

def exponentText : Option (Bool × List Char) → List Char
  | none => []
  | some (negative, ds) => 'e' :: (if negative then '-' else '+') :: ds

/-- The characters of a number text. -/
def text (t : NumberText) : List Char :=
  (if t.negative then ['-'] else []) ++
    (t.whole ++ (fractionText t.fraction ++ exponentText t.exponent))

structure WellFormed (t : NumberText) : Prop where
  whole : IsDigits t.whole
  noLeadingZero : t.whole.head? = some '0' → t.whole = ['0']
  fraction : ∀ ds ∈ t.fraction, IsDigits ds
  exponent : ∀ e ∈ t.exponent, IsDigits e.2

/-! ### Reading -/

theorem readDigits?_append {ds rest : List Char} (h : IsDigits ds)
    (hrest : ∀ c ∈ rest.head?, ¬ c.isDigit) : readDigits? (ds ++ rest) = some (ds, rest) := by
  obtain ⟨hne, hdigits⟩ := h
  have htake : rest.takeWhile Char.isDigit = [] := by
    cases rest with
    | nil => rfl
    | cons c cs => simp [hrest c rfl]
  have hdrop : rest.dropWhile Char.isDigit = rest := by
    cases rest with
    | nil => rfl
    | cons c cs => simp [hrest c rfl]
  rw [readDigits?, List.takeWhile_append_of_pos hdigits, List.dropWhile_append_of_pos hdigits,
    htake, hdrop, List.append_nil]
  cases ds with
  | nil => exact absurd rfl hne
  | cons d ds => rfl

theorem readWhole?_append {ds rest : List Char} (h : IsDigits ds)
    (hzero : ds.head? = some '0' → ds = ['0']) (hrest : ∀ c ∈ rest.head?, ¬ c.isDigit) :
    readWhole? (ds ++ rest) = some (ds, rest) := by
  rw [readWhole?, readDigits?_append h hrest]
  split
  next hds =>
    cases hds
    cases hzero rfl
  next => rfl

theorem readFraction?_append {fraction : Option (List Char)} {rest : List Char}
    (h : ∀ ds ∈ fraction, IsDigits ds)
    (hrest : ∀ c ∈ rest.head?, ¬ c.isDigit ∧ c ≠ '.') :
    readFraction? (fractionText fraction ++ rest) = some (fraction, rest) := by
  cases fraction with
  | some ds =>
    have hdigits := readDigits?_append (h ds rfl) fun c hc => (hrest c hc).1
    simp [fractionText, readFraction?, hdigits]
  | none =>
    cases rest with
    | nil => rfl
    | cons c cs =>
      have hpoint := (hrest c rfl).2
      simp only [fractionText, List.nil_append, readFraction?]
      split
      next heq => exact absurd (List.cons.inj heq).1 hpoint
      next => rfl

theorem readSign_cons (negative : Bool) (cs : List Char) :
    readSign ((if negative then '-' else '+') :: cs) = (negative, cs) := by
  cases negative <;> rfl

theorem readExponent?_append {exponent : Option (Bool × List Char)} {rest : List Char}
    (h : ∀ e ∈ exponent, IsDigits e.2) (hrest : Stops rest) :
    readExponent? (exponentText exponent ++ rest) = some (exponent, rest) := by
  cases exponent with
  | some e =>
    obtain ⟨negative, ds⟩ := e
    have hdigits := readDigits?_append (h _ rfl) fun c hc => (hrest c hc).1
    simp only at hdigits
    simp [exponentText, readExponent?, readSign_cons, hdigits]
  | none =>
    cases rest with
    | nil => rfl
    | cons c cs =>
      obtain ⟨-, -, he, hE⟩ := hrest c rfl
      simp [exponentText, readExponent?, he, hE]

theorem not_minus_of_isDigit {c : Char} (h : c.isDigit) : c ≠ '-' := by
  rintro rfl
  exact absurd h (by decide)

/-- A well-formed number text is read as a whole where it cannot go on. -/
theorem read?_text {t : NumberText} {rest : List Char} (h : t.WellFormed) (hrest : Stops rest) :
    read? (t.text ++ rest) = some (t, rest) := by
  obtain ⟨negative, whole, fraction, exponent⟩ := t
  obtain ⟨hwhole, hzero, hfraction, hexponent⟩ := h
  have hbehindFraction : ∀ c ∈ (exponentText exponent ++ rest).head?, ¬ c.isDigit ∧ c ≠ '.' := by
    cases exponent with
    | some e => simp [exponentText]
    | none => exact fun c hc => ⟨(hrest c hc).1, (hrest c hc).2.1⟩
  have hbehindWhole :
      ∀ c ∈ (fractionText fraction ++ (exponentText exponent ++ rest)).head?, ¬ c.isDigit := by
    cases fraction with
    | some ds => simp [fractionText]
    | none => exact fun c hc => (hbehindFraction c hc).1
  have hreadWhole := readWhole?_append hwhole hzero hbehindWhole
  have hreadFraction := readFraction?_append hfraction hbehindFraction
  have hreadExponent := readExponent?_append hexponent hrest
  simp only at hreadWhole hreadFraction hreadExponent
  cases negative with
  | true => simp [text, read?, hreadWhole, hreadFraction, hreadExponent]
  | false =>
    cases whole with
    | nil => exact absurd rfl hwhole.1
    | cons c cs =>
      have hminus := not_minus_of_isDigit (hwhole.2 c List.mem_cons_self)
      simp only [text, List.append_assoc, List.cons_append] at hreadWhole ⊢
      simp only [Bool.false_eq_true, ↓reduceIte, List.nil_append, read?]
      split
      next heq => exact absurd (List.cons.inj heq).1 hminus
      next => simp [hreadWhole, hreadFraction, hreadExponent]

/-- A well-formed number text starts with a minus or with a digit. -/
theorem head_text {t : NumberText} (h : t.WellFormed) :
    ∃ c cs, t.text = c :: cs ∧ (c = '-' ∨ c.isDigit) := by
  obtain ⟨negative, whole, fraction, exponent⟩ := t
  cases negative with
  | true => exact ⟨'-', _, rfl, .inl rfl⟩
  | false =>
    cases whole with
    | nil => exact absurd rfl h.whole.1
    | cons c cs => exact ⟨c, _, rfl, .inr (h.whole.2 c List.mem_cons_self)⟩

/-! ### Decimal digits -/

theorem isDigits_toDigits (n : Nat) : IsDigits (Nat.toDigits 10 n) :=
  ⟨Nat.toDigits_ne_nil, fun _ hd => Nat.isDigit_of_mem_toDigits (by decide) (by decide) hd⟩

theorem natOfDigits_toDigits (n : Nat) : natOfDigits (Nat.toDigits 10 n) = n :=
  Nat.ofDigitChars_ten_toDigits

/-- Only zero is written with a zero in front. -/
theorem eq_zero_of_head_toDigits {n : Nat} (h : (Nat.toDigits 10 n).head? = some '0') : n = 0 := by
  induction n using Nat.strongRecOn with
  | ind n ih =>
    by_cases hn : n < 10
    · rw [Nat.toDigits_of_lt_base hn] at h
      interval_cases n <;> first | rfl | exact absurd h (by decide)
    · rw [Nat.toDigits_of_base_le (by decide) (by omega),
        List.head?_append_of_ne_nil _ Nat.toDigits_ne_nil] at h
      have hzero := ih (n / 10) (by omega) h
      omega

/-! ### Integers -/

def ofInteger (n : Int) : NumberText := ⟨decide (n < 0), Nat.toDigits 10 n.natAbs, none, none⟩

theorem wellFormed_ofInteger (n : Int) : (ofInteger n).WellFormed := by
  refine ⟨isDigits_toDigits _, fun hzero => ?_, by simp [ofInteger], by simp [ofInteger]⟩
  have hn := eq_zero_of_head_toDigits hzero
  rw [ofInteger, hn]
  rfl

theorem text_ofInteger (n : Int) : (ofInteger n).text = (Number.integer n).render := by
  by_cases hn : n < 0 <;>
    simp [text, ofInteger, Number.render, fractionText, exponentText, hn]

/-- An integer of a word of 64 bits, signed or not, is read back. -/
theorem value?_ofInteger {n : Int} (hlow : -2 ^ 63 ≤ n) (hhigh : n < 2 ^ 64) :
    (ofInteger n).value? = some (.integer n) := by
  simp only [value?, ofInteger, natOfDigits_toDigits, Nat.pow_eq, decide_eq_true_eq]
  by_cases hn : n < 0
  · rw [if_pos hn, if_pos (by omega), Int.ofNat_natAbs_of_nonpos (by omega), neg_neg]
  · rw [if_neg hn, if_pos (by omega), Int.natAbs_of_nonneg (by omega)]

end NumberText

/-! ### Doubles -/

open Decimal (Binary64)

section Shortest

open Decimal.Binary64

variable {x : Binary64}

theorem quarters_pos (x : Binary64) (k : Int) {n : Nat} (h : 0 < n) : 0 < x.quarters k n := by
  simp only [quarters, Nat.pow_eq]
  positivity

/-- No magnitude but zero is read from the digit zero. -/
theorem not_readsBack_zero (h : ¬ x.isZero) (k : Int) : ¬ x.readsBack k 0 := by
  have hsignificand : x.significand ≠ 0 := by simpa [isZero] using h
  have hlow : 0 < x.lowQuarters := by
    unfold lowQuarters
    split <;> omega
  have hpos := quarters_pos x k hlow
  have hgrid : x.onGrid k 0 = 0 := Nat.zero_mul _
  simp only [readsBack, hgrid]
  split
  · simp [hpos.ne']
  · simp

theorem digits_exact_ne_zero (h : ¬ x.isZero) : x.exact.digits ≠ 0 := by
  have hsignificand : x.significand ≠ 0 := by simpa [isZero] using h
  unfold exact
  split <;> simp [numerator, hsignificand]

/-- The shortest decimal of a magnitude other than zero is not zero. -/
theorem digits_shortest_ne_zero (h : ¬ x.isZero) : x.shortest.digits ≠ 0 := by
  rw [shortest, if_neg h]
  cases hhit : (List.range 19).findSome? fun (i : Nat) => x.hit? (x.decimalTop - i) with
  | none => exact digits_exact_ne_zero h
  | some d =>
    obtain ⟨i, -, hi⟩ := List.exists_of_findSome?_eq_some hhit
    obtain ⟨digits, hdigits, rfl⟩ := Option.map_eq_some_iff.mp hi
    rintro rfl
    exact not_readsBack_zero h _ (List.find?_some hdigits)

end Shortest

namespace NumberText

/-- The text of a number without a sign. -/
def IsMagnitude (cs : List Char) : Prop :=
  ∃ t : NumberText, t.WellFormed ∧ t.negative = false ∧ t.text = cs

theorem isDigit_of_mem_zeros {n : Nat} {d : Char} (h : d ∈ List.replicate n '0') : d.isDigit := by
  rw [List.eq_of_mem_replicate h]
  rfl

theorem isDigits_append_zeros {ds : List Char} (h : IsDigits ds) (n : Nat) :
    IsDigits (ds ++ List.replicate n '0') :=
  ⟨by simp [h.1], fun d hd => (List.mem_append.mp hd).elim (h.2 d) isDigit_of_mem_zeros⟩

theorem isDigits_zeros_append {ds : List Char} (h : IsDigits ds) (n : Nat) :
    IsDigits (List.replicate n '0' ++ ds) :=
  ⟨by simp [h.1], fun d hd => (List.mem_append.mp hd).elim isDigit_of_mem_zeros (h.2 d)⟩

theorem isDigits_zero : IsDigits ['0'] := ⟨by simp, by simp⟩

/-- Digits without a leading zero, or a zero alone, and digits behind the point. -/
theorem isMagnitude_point {whole fraction : List Char} (hwhole : IsDigits whole)
    (hzero : whole.head? = some '0' → whole = ['0']) (hfraction : IsDigits fraction) :
    IsMagnitude (whole ++ '.' :: fraction) := by
  refine ⟨⟨false, whole, some fraction, none⟩, ⟨hwhole, hzero, ?_, by simp⟩, rfl, ?_⟩
  · rintro _ ⟨⟩
    exact hfraction
  · simp [text, fractionText, exponentText]

/-- Digits in positional notation. -/
theorem isMagnitude_positional {ds : List Char} (h : IsDigits ds) (hhead : ds.head? ≠ some '0')
    (leading : Int) : IsMagnitude (Number.positional ds leading) := by
  unfold Number.positional
  split
  next => exact isMagnitude_point isDigits_zero (fun _ => rfl) (isDigits_zeros_append h _)
  next =>
    have hpadded := isDigits_append_zeros h (leading.toNat + 1 - ds.length)
    refine isMagnitude_point ⟨?_, ?_⟩ (fun hzero => ?_) ?_
    · simp [h.1]
    · exact fun d hd => hpadded.2 d (List.mem_of_mem_take hd)
    · rw [List.head?_take, if_neg (by omega), List.head?_append_of_ne_nil _ h.1] at hzero
      exact absurd hzero hhead
    · split
      next => exact isDigits_zero
      next hne => exact ⟨hne, fun d hd => hpadded.2 d (List.mem_of_mem_drop hd)⟩

/-- Digits in exponent notation. -/
theorem isMagnitude_scientific {ds : List Char} (h : IsDigits ds) (hhead : ds.head? ≠ some '0')
    (leading : Int) : IsMagnitude (Number.scientific ds leading) := by
  have hexponent := isDigits_toDigits leading.natAbs
  obtain ⟨d, ds, rfl⟩ := List.exists_cons_of_ne_nil h.1
  have hd : d.isDigit := h.2 d List.mem_cons_self
  have hwhole : IsDigits [d] := ⟨by simp, by simp [hd]⟩
  have hzero : [d].head? = some '0' → [d] = ['0'] := fun hzero => absurd hzero hhead
  cases ds with
  | nil =>
    refine ⟨⟨false, [d], none, some (decide (leading < 0), Nat.toDigits 10 leading.natAbs)⟩,
      ⟨hwhole, hzero, by simp, ?_⟩, rfl, ?_⟩
    · rintro _ ⟨⟩
      exact hexponent
    · simp [text, fractionText, exponentText, Number.scientific]
  | cons next rest =>
    have hfraction : IsDigits (next :: rest) :=
      ⟨by simp, fun c hc => h.2 c (List.mem_cons_of_mem d hc)⟩
    refine ⟨⟨false, [d], some (next :: rest), some (decide (leading < 0),
      Nat.toDigits 10 leading.natAbs)⟩, ⟨hwhole, hzero, ?_, ?_⟩, rfl, ?_⟩
    · rintro _ ⟨⟩
      exact hfraction
    · rintro _ ⟨⟩
      exact hexponent
    · simp [text, fractionText, exponentText, Number.scientific]

theorem isMagnitude_renderMagnitude (x : Binary64) : IsMagnitude (Number.renderMagnitude x) := by
  unfold Number.renderMagnitude
  split
  next => exact isMagnitude_point isDigits_zero (fun _ => rfl) isDigits_zero
  next hzero =>
    have hdigits := isDigits_toDigits x.shortest.digits
    have hhead : (Nat.toDigits 10 x.shortest.digits).head? ≠ some '0' :=
      fun h => digits_shortest_ne_zero hzero (eq_zero_of_head_toDigits h)
    dsimp only
    split
    · exact isMagnitude_positional hdigits hhead _
    · exact isMagnitude_scientific hdigits hhead _

/-- All numbers are written as well-formed number texts. -/
theorem exists_text_eq_render (n : Number) : ∃ t : NumberText, t.WellFormed ∧ t.text = n.render := by
  cases n with
  | integer n => exact ⟨ofInteger n, wellFormed_ofInteger n, text_ofInteger n⟩
  | double negative x =>
    obtain ⟨t, ht, hsign, htext⟩ := isMagnitude_renderMagnitude x
    refine ⟨{ t with negative }, ⟨ht.whole, ht.noLeadingZero, ht.fraction, ht.exponent⟩, ?_⟩
    rw [Number.render, ← htext]
    cases negative <;> simp [text, hsign]

end NumberText

end SpirvBindings.Json
