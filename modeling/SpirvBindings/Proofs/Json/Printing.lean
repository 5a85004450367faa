import Mathlib.Tactic.FinCases
import Mathlib.Tactic.SplitIfs
import SpirvBindings.Json.Tree
import SpirvBindings.Proofs.Json.Numerals

/-! What the indented form of a value reads as. It is read to its end, and nothing behind it is. The
tree has the items and the members of the value in their order. A string reads as itself and so does
an integer of a word of 64 bits; a double reads as a leaf, but not always as the same double. -/

namespace SpirvBindings.Json

/-! ### String literals -/

namespace StringLiteral

/-- The piece that an escaped character is read as. Control characters without an escape of their
own are read as units. -/
def pieceOf (c : Char) : Piece :=
  if c = '\x08' ∨ c = '\t' ∨ c = '\n' ∨ c = '\x0c' ∨ c = '\r' then .char c
  else if isControl c then .unit c.toNat
  else .char c

theorem hexNumber?_control {n : Nat} (h : n < 0x20) :
    hexNumber? ['0', '0', hexDigit (n / 16), hexDigit (n % 16)] = some n := by
  revert n
  decide

theorem readPieces?_escape (c : Char) (cs : List Char) :
    readPieces? (escape c ++ cs) =
      (readPieces? cs).map fun (ps, rest) => (pieceOf c :: ps, rest) := by
  unfold escape
  split_ifs with hquote hbackslash hb ht hn hf hr hcontrol
  -- The characters with an escape of their own come first.
  any_goals
    subst c
    cases h : readPieces? cs <;> simp [readPieces?, escaped?, pieceOf, isControl, h]
  · have hsmall : c.toNat < 0x20 := by simpa [isControl] using hcontrol
    have hpiece : pieceOf c = .unit c.toNat := by simp [pieceOf, hb, ht, hn, hf, hr, hcontrol]
    cases h : readPieces? cs <;>
      simp [readPieces?, hexNumber?_control hsmall, hpiece, h]
  · have hpiece : pieceOf c = .char c := by simp [pieceOf, hcontrol]
    rw [List.singleton_append, readPieces?.eq_def]
    cases h : readPieces? cs <;> simp_all

theorem assemble?_unit {u : Nat} (h : u < 0xD800) (ps : List Piece) :
    assemble? (.unit u :: ps) = (assemble? ps).map (Char.ofNat u :: ·) := by
  have hlow : isLowSurrogate u = false := by simp [isLowSurrogate]; omega
  have hhigh : isHighSurrogate u = false := by simp [isHighSurrogate]; omega
  cases ps with
  | nil => simp [assemble?, hlow, hhigh]
  | cons p ps => cases p <;> simp [assemble?, hlow, hhigh]

theorem assemble?_pieceOf (c : Char) (ps : List Piece) :
    assemble? (pieceOf c :: ps) = (assemble? ps).map (c :: ·) := by
  unfold pieceOf
  split
  next => rfl
  next =>
    split
    next hcontrol =>
      have hsmall : c.toNat < 0xD800 := by
        have h : c.toNat < 0x20 := by simpa [isControl] using hcontrol
        omega
      rw [assemble?_unit hsmall, Char.ofNat_toNat]
    next => rfl

/-- A literal is read back up to its closing quote. -/
theorem read?_escaped (text : String) (rest : List Char) :
    read? (text.toList.flatMap escape ++ '"' :: rest) = some (some text, rest) := by
  have hpieces : ∀ cs : List Char,
      readPieces? (cs.flatMap escape ++ '"' :: rest) = some (cs.map pieceOf, rest) := by
    intro cs
    induction cs with
    | nil => rfl
    | cons c cs ih =>
      rw [List.flatMap_cons, List.append_assoc, readPieces?_escape, ih]
      rfl
  have hassemble : ∀ cs : List Char, assemble? (cs.map pieceOf) = some cs := by
    intro cs
    induction cs with
    | nil => rfl
    | cons c cs ih =>
      rw [List.map_cons, assemble?_pieceOf, ih]
      rfl
  simp [read?, hpieces, hassemble]

theorem render_append (text : String) (rest : List Char) :
    render text ++ rest = '"' :: (text.toList.flatMap escape ++ '"' :: rest) := by
  simp [render]

end StringLiteral

/-! ### The tree of a value -/

namespace Value

mutual

/-- The tree that the text of a value is read as. -/
def tree : Value → Tree
  | .null => .null
  | .bool b => .bool b
  | .number n => (Tree.readScalar n.render).1
  | .string s => .string s
  | .array items => .array (itemsTree items)
  | .object members => .object (membersTree members)

def itemsTree : List Value → Tree.Items
  | [] => .closed
  | v :: vs => .cons v.tree (itemsTree vs)

def membersTree : List (String × Value) → Tree.Members
  | [] => .closed
  | (k, v) :: ms => .cons (some k) v.tree (membersTree ms)

end

end Value

namespace Tree

open NumberText (Stops)

/-! ### Scalars -/

theorem skipBlanks_cons {c : Char} (h : isBlank c = false) (cs : List Char) :
    skipBlanks (c :: cs) = c :: cs := by
  simp [skipBlanks, h]

theorem skipBlanks_newline (depth : Nat) (cs : List Char) :
    skipBlanks (Value.newline depth ++ cs) = skipBlanks cs := by
  refine List.dropWhile_append_of_pos fun c hc => ?_
  rcases List.mem_cons.mp hc with rfl | hc
  · rfl
  · rw [List.eq_of_mem_replicate hc]
    rfl

/-- A text that starts like a number is read as one. -/
theorem readScalar_of_number {t : NumberText} {rest : List Char} (h : t.WellFormed)
    (hrest : Stops rest) :
    readScalar (t.text ++ rest) =
      match t.value? with
      | none => (.valueless, some rest)
      | some n => (.number n, some rest) := by
  have hread := NumberText.read?_text h hrest
  obtain ⟨c, cs, htext, hc⟩ := NumberText.head_text h
  have hword : ∀ d ∈ ['n', 't', 'f', '"'], c ≠ d := by
    rintro d hd rfl
    fin_cases hd <;> exact absurd hc (by decide)
  rw [htext, List.cons_append] at hread ⊢
  unfold readScalar
  split
  next heq => exact absurd (List.cons.inj heq).1 (hword 'n' (by simp))
  next heq => exact absurd (List.cons.inj heq).1 (hword 't' (by simp))
  next heq => exact absurd (List.cons.inj heq).1 (hword 'f' (by simp))
  next heq => exact absurd (List.cons.inj heq).1 (hword '"' (by simp))
  next => cases hvalue : t.value? <;> simp only [hread, hvalue]

/-- The leaf of a number text. -/
def leaf : Option Number → Tree
  | none => .valueless
  | some n => .number n

/-- A number is read as the leaf of its text, whatever follows it. -/
theorem readScalar_render {t : NumberText} {n : Number} (ht : t.WellFormed)
    (htext : t.text = n.render) : (Value.number n).tree = leaf t.value? ∧
      ∀ {rest}, Stops rest → readScalar (n.render ++ rest) = (leaf t.value?, some rest) := by
  have hall : ∀ {rest}, Stops rest →
      readScalar (n.render ++ rest) = (leaf t.value?, some rest) := by
    intro rest hrest
    rw [← htext, readScalar_of_number ht hrest]
    cases t.value? <;> rfl
  refine ⟨?_, hall⟩
  have halone := hall (by simp [Stops] : Stops [])
  rw [List.append_nil] at halone
  rw [Value.tree, halone]

/-- The tree of a number is a leaf. -/
theorem exists_tree_eq_leaf (n : Number) : ∃ n?, (Value.number n).tree = leaf n? := by
  obtain ⟨t, ht, htext⟩ := NumberText.exists_text_eq_render n
  exact ⟨_, (readScalar_render ht htext).1⟩

theorem tree_integer {n : Int} (hlow : -2 ^ 63 ≤ n) (hhigh : n < 2 ^ 64) :
    (Value.number (.integer n)).tree = .number (.integer n) := by
  rw [(readScalar_render (NumberText.wellFormed_ofInteger n) (NumberText.text_ofInteger n)).1,
    NumberText.value?_ofInteger hlow hhigh]
  rfl

theorem ne_of_number {c d : Char} (hc : c = '-' ∨ c.isDigit) (hdigit : d.isDigit = false)
    (hminus : d ≠ '-') : c ≠ d := by
  rintro rfl
  rcases hc with hc | hc
  · exact hminus hc
  · exact Bool.false_ne_true (hdigit.symm.trans hc)

theorem head_render (n : Number) : ∃ c cs, n.render = c :: cs ∧ (c = '-' ∨ c.isDigit) := by
  obtain ⟨t, ht, htext⟩ := NumberText.exists_text_eq_render n
  rw [← htext]
  exact NumberText.head_text ht

/-- A value starts with a character that is not blank and does not close a list. -/
theorem head_indented (v : Value) (depth : Nat) :
    ∃ c cs, v.indented depth = c :: cs ∧ isBlank c = false ∧ c ≠ ']' := by
  cases v with
  | null => exact ⟨_, _, rfl, by decide⟩
  | bool b => cases b <;> exact ⟨_, _, rfl, by decide⟩
  | number n =>
    obtain ⟨c, cs, hcs, hc⟩ := head_render n
    exact ⟨c, cs, by rw [Value.indented, hcs], by simp [isBlank, ne_of_number hc],
      ne_of_number hc rfl (by decide)⟩
  | string s => exact ⟨_, _, rfl, by decide⟩
  | array items => cases items <;> exact ⟨_, _, rfl, by decide⟩
  | object members => cases members <;> exact ⟨_, _, rfl, by decide⟩

/-! ### Containers -/

theorem readValue_newline (fuel depth : Nat) (cs : List Char) :
    readValue fuel (Value.newline depth ++ cs) = readValue fuel cs := by
  cases fuel with
  | zero => rfl
  | succ fuel => simp only [readValue, skipBlanks_newline]

theorem readItem_newline (fuel depth : Nat) (cs : List Char) :
    readItem fuel (Value.newline depth ++ cs) = readItem fuel cs := by
  cases fuel with
  | zero => rfl
  | succ fuel => simp only [readItem, readValue_newline]

theorem readMember_newline (fuel depth : Nat) (cs : List Char) :
    readMember fuel (Value.newline depth ++ cs) = readMember fuel cs := by
  cases fuel with
  | zero => rfl
  | succ fuel => simp only [readMember, readKey?, skipBlanks_newline]

theorem readValue_blank (fuel : Nat) {c : Char} (h : isBlank c) (cs : List Char) :
    readValue fuel (c :: cs) = readValue fuel cs := by
  have hskip : skipBlanks (c :: cs) = skipBlanks cs := List.dropWhile_cons_of_pos h
  cases fuel with
  | zero => rfl
  | succ fuel => simp only [readValue, hskip]

theorem readKey?_render (key : String) (rest : List Char) :
    readKey? (StringLiteral.render key ++ ':' :: rest) = some (some key, some rest) := by
  have hcolon : isBlank ':' = false := by decide
  have hquote : isBlank '"' = false := by decide
  simp [readKey?, StringLiteral.render_append, StringLiteral.read?_escaped, skipBlanks_cons, hcolon,
    hquote]

theorem stops_newline (depth : Nat) (rest : List Char) : Stops (Value.newline depth ++ rest) := by
  simp [Stops, Value.newline]

theorem stops_comma (rest : List Char) : Stops (',' :: rest) := by simp [Stops]

/-- A text is read as a tree wherever it stands in front of a text that stops it. -/
def ReadsAs (text : List Char) (tree : Tree) : Prop :=
  ∀ fuel rest, text.length ≤ fuel → Stops rest →
    readValue fuel (text ++ rest) = (tree, some rest)

theorem readItem_last {text : List Char} {item : Tree} (h : ReadsAs text item) {fuel : Nat}
    (hfuel : text.length < fuel) (depth : Nat) (rest : List Char) :
    readItem fuel (text ++ (Value.newline depth ++ ']' :: rest)) =
      (.cons item .closed, some rest) := by
  obtain ⟨fuel, rfl⟩ := Nat.exists_eq_succ_of_ne_zero (by omega : fuel ≠ 0)
  have hbracket : isBlank ']' = false := by decide
  simp only [readItem, h fuel _ (by omega) (stops_newline depth _), skipBlanks_newline,
    skipBlanks_cons hbracket]

theorem readItem_comma {text : List Char} {item : Tree} (h : ReadsAs text item) {fuel : Nat}
    (hfuel : text.length ≤ fuel) (rest : List Char) :
    readItem (fuel + 1) (text ++ ',' :: rest) =
      (.cons item (readItem fuel rest).1, (readItem fuel rest).2) := by
  have hcomma : isBlank ',' = false := by decide
  simp only [readItem, h fuel _ hfuel (stops_comma _), skipBlanks_cons hcomma]

theorem readMember_last {text : List Char} {value : Tree} (h : ReadsAs text value) (key : String)
    {fuel : Nat} (hfuel : text.length < fuel) (depth : Nat) (rest : List Char) :
    readMember fuel (StringLiteral.render key ++
        ':' :: ' ' :: (text ++ (Value.newline depth ++ '\x7d' :: rest))) =
      (.cons (some key) value .closed, some rest) := by
  obtain ⟨fuel, rfl⟩ := Nat.exists_eq_succ_of_ne_zero (by omega : fuel ≠ 0)
  have hbrace : isBlank '\x7d' = false := by decide
  have hblank : isBlank ' ' = true := by decide
  simp only [readMember, readKey?_render, readValue_blank fuel hblank,
    h fuel _ (by omega) (stops_newline depth _), skipBlanks_newline, skipBlanks_cons hbrace]

theorem readMember_comma {text : List Char} {value : Tree} (h : ReadsAs text value) (key : String)
    {fuel : Nat} (hfuel : text.length ≤ fuel) (rest : List Char) :
    readMember (fuel + 1) (StringLiteral.render key ++ ':' :: ' ' :: (text ++ ',' :: rest)) =
      (.cons (some key) value (readMember fuel rest).1, (readMember fuel rest).2) := by
  have hcomma : isBlank ',' = false := by decide
  have hblank : isBlank ' ' = true := by decide
  simp only [readMember, readKey?_render, readValue_blank fuel hblank,
    h fuel _ hfuel (stops_comma _), skipBlanks_cons hcomma]

/-- A list whose first item stands on the next line. -/
theorem readValue_bracket {c : Char} (hblank : isBlank c = false) (hclose : c ≠ ']')
    (fuel depth : Nat) (cs : List Char) :
    readValue (fuel + 1) ('[' :: (Value.newline depth ++ c :: cs)) =
      (.array (readItem fuel (c :: cs)).1, (readItem fuel (c :: cs)).2) := by
  have hbracket : isBlank '[' = false := by decide
  simp only [readValue, skipBlanks_cons hbracket, skipBlanks_newline, skipBlanks_cons hblank]
  split
  next heq => exact absurd (List.cons.inj heq).1 hclose
  next => rfl

/-- An object whose first member stands on the next line. -/
theorem readValue_brace (fuel depth : Nat) (cs : List Char) :
    readValue (fuel + 1) ('\x7b' :: (Value.newline depth ++ '"' :: cs)) =
      (.object (readMember fuel ('"' :: cs)).1, (readMember fuel ('"' :: cs)).2) := by
  have hbrace : isBlank '\x7b' = false := by decide
  have hquote : isBlank '"' = false := by decide
  simp only [readValue, skipBlanks_cons hbrace, skipBlanks_newline, skipBlanks_cons hquote]
  rfl

/-! ### Values -/

open Value

theorem readsAs_scalar {text : List Char} {tree : Tree} (hne : text ≠ [])
    (h : ∀ fuel rest, Stops rest → readValue (fuel + 1) (text ++ rest) = (tree, some rest)) :
    ReadsAs text tree := by
  intro fuel rest hfuel hrest
  have hpos := List.length_pos_iff.mpr hne
  obtain ⟨fuel, rfl⟩ := Nat.exists_eq_succ_of_ne_zero (by omega : fuel ≠ 0)
  exact h fuel rest hrest

theorem readsAs_number (n : Number) : ReadsAs n.render (Value.number n).tree := by
  obtain ⟨c, cs, hcs, hc⟩ := head_render n
  refine readsAs_scalar (by simp [hcs]) fun fuel rest hrest => ?_
  obtain ⟨t, ht, htext⟩ := NumberText.exists_text_eq_render n
  obtain ⟨htree, hread⟩ := readScalar_render ht htext
  have hread := hread hrest
  have hblank : isBlank c = false := by simp [isBlank, ne_of_number hc]
  rw [← htree, hcs, List.cons_append] at hread
  rw [hcs, List.cons_append]
  simp only [readValue, skipBlanks_cons hblank]
  split
  next heq => exact absurd (List.cons.inj heq).1 (ne_of_number hc rfl (by decide))
  next heq => exact absurd (List.cons.inj heq).1 (ne_of_number hc rfl (by decide))
  next => exact hread

theorem readsAs_string (s : String) : ReadsAs (StringLiteral.render s) (.string s) := by
  refine readsAs_scalar (by simp [StringLiteral.render]) fun fuel rest _ => ?_
  have hquote : isBlank '"' = false := by decide
  simp [readValue, readScalar, StringLiteral.render_append, StringLiteral.read?_escaped,
    skipBlanks_cons hquote]

mutual

/-- The indented form of a value is read as its tree. -/
theorem readsAs_indented (depth : Nat) : (v : Value) → ReadsAs (v.indented depth) v.tree
  | .null => readsAs_scalar (by simp [indented]) fun _ _ _ => rfl
  | .bool true => readsAs_scalar (by simp [indented]) fun _ _ _ => rfl
  | .bool false => readsAs_scalar (by simp [indented]) fun _ _ _ => rfl
  | .number n => readsAs_number n
  | .string s => readsAs_string s
  | .array [] => readsAs_scalar (by simp [indented]) fun _ _ _ => rfl
  | .array (v :: vs) => by
    intro fuel rest hfuel _
    simp only [indented, List.length_cons, List.length_append] at hfuel
    obtain ⟨fuel, rfl⟩ := Nat.exists_eq_succ_of_ne_zero (by omega : fuel ≠ 0)
    have hitems := readItem_items depth vs (readsAs_indented (depth + 1) v) fuel rest (by omega)
    obtain ⟨c, cs, hcs, hblank, hclose⟩ := head_indented v (depth + 1)
    have htext : (Value.array (v :: vs)).indented depth ++ rest =
        '[' :: (newline (depth + 1) ++ c :: (cs ++ (indentedItems depth vs ++ rest))) := by
      simp [indented, hcs]
    rw [hcs, List.cons_append] at hitems
    rw [htext, readValue_bracket hblank hclose, hitems]
    rfl
  | .object [] => readsAs_scalar (by simp [indented]) fun _ _ _ => rfl
  | .object ((k, v) :: ms) => by
    intro fuel rest hfuel _
    simp only [indented, List.length_cons, List.length_append] at hfuel
    obtain ⟨fuel, rfl⟩ := Nat.exists_eq_succ_of_ne_zero (by omega : fuel ≠ 0)
    have hmembers := readMember_members depth ms k (readsAs_indented (depth + 1) v) fuel rest
      (by omega)
    have htext : (Value.object ((k, v) :: ms)).indented depth ++ rest =
        '\x7b' :: (newline (depth + 1) ++ (StringLiteral.render k ++
          ':' :: ' ' :: (v.indented (depth + 1) ++ (indentedMembers depth ms ++ rest)))) := by
      simp [indented]
    rw [StringLiteral.render_append] at hmembers htext
    rw [htext, readValue_brace, hmembers]
    rfl

/-- An item and the items behind it. -/
theorem readItem_items (depth : Nat) : (vs : List Value) → ∀ {text : List Char} {item : Tree},
    ReadsAs text item → ∀ fuel rest, text.length + (indentedItems depth vs).length ≤ fuel →
      readItem fuel (text ++ (indentedItems depth vs ++ rest)) =
        (.cons item (itemsTree vs), some rest)
  | [], text, item, h, fuel, rest, hfuel => by
    simp only [indentedItems, List.length_append, List.length_singleton] at hfuel
    have hlast := readItem_last h (by omega : text.length < fuel) depth rest
    simpa [indentedItems, itemsTree] using hlast
  | v :: vs, text, item, h, fuel, rest, hfuel => by
    simp only [indentedItems, List.length_cons, List.length_append] at hfuel
    obtain ⟨fuel, rfl⟩ := Nat.exists_eq_succ_of_ne_zero (by omega : fuel ≠ 0)
    have hitems := readItem_items depth vs (readsAs_indented (depth + 1) v) fuel rest (by omega)
    have htext : text ++ (indentedItems depth (v :: vs) ++ rest) = text ++ ',' ::
        (newline (depth + 1) ++ (v.indented (depth + 1) ++ (indentedItems depth vs ++ rest))) := by
      simp [indentedItems]
    rw [htext, readItem_comma h (by omega), readItem_newline, hitems]
    rfl

/-- A member and the members behind it. -/
theorem readMember_members (depth : Nat) : (ms : List (String × Value)) → ∀ (key : String)
    {text : List Char} {value : Tree}, ReadsAs text value → ∀ fuel rest,
      text.length + (indentedMembers depth ms).length ≤ fuel →
      readMember fuel (StringLiteral.render key ++
          ':' :: ' ' :: (text ++ (indentedMembers depth ms ++ rest))) =
        (.cons (some key) value (membersTree ms), some rest)
  | [], key, text, value, h, fuel, rest, hfuel => by
    simp only [indentedMembers, List.length_append, List.length_singleton] at hfuel
    have hlast := readMember_last h key (by omega : text.length < fuel) depth rest
    simpa [indentedMembers, membersTree] using hlast
  | (k, v) :: ms, key, text, value, h, fuel, rest, hfuel => by
    simp only [indentedMembers, List.length_cons, List.length_append] at hfuel
    obtain ⟨fuel, rfl⟩ := Nat.exists_eq_succ_of_ne_zero (by omega : fuel ≠ 0)
    have hmembers := readMember_members depth ms k (readsAs_indented (depth + 1) v) fuel rest
      (by omega)
    have htext : text ++ (indentedMembers depth ((k, v) :: ms) ++ rest) = text ++ ',' ::
        (newline (depth + 1) ++ (StringLiteral.render k ++
          ':' :: ' ' :: (v.indented (depth + 1) ++ (indentedMembers depth ms ++ rest)))) := by
      simp [indentedMembers]
    rw [htext, readMember_comma h key (by omega), readMember_newline, hmembers]
    rfl

end

/-- A document that is written with indentation is read as the tree of its value. -/
theorem read_indentedText (v : Value) :
    Tree.read v.indentedText.toList = (v.tree, some []) := by
  have hread := readsAs_indented 0 v (2 * (v.indented 0).length + 2) [] (by omega)
    (by simp [Stops])
  rw [List.append_nil] at hread
  rw [Value.indentedText, String.toList_ofList, Tree.read, hread]

/-! ### Whole trees -/

mutual

/-- The tree of a value was read to its end. -/
theorem isWhole_tree : (v : Value) → v.tree.isWhole
  | .null => rfl
  | .bool _ => rfl
  | .number n => by
    obtain ⟨n?, htree⟩ := exists_tree_eq_leaf n
    rw [htree]
    cases n? <;> rfl
  | .string _ => rfl
  | .array items => isWhole_itemsTree items
  | .object members => isWhole_membersTree members

theorem isWhole_itemsTree : (vs : List Value) → (itemsTree vs).isWhole
  | [] => rfl
  | v :: vs => by simp [itemsTree, Items.isWhole, isWhole_tree v, isWhole_itemsTree vs]

theorem isWhole_membersTree : (ms : List (String × Value)) → (membersTree ms).isWhole
  | [] => rfl
  | (_, v) :: ms => by simp [membersTree, Members.isWhole, isWhole_tree v, isWhole_membersTree ms]

end

end Tree

end SpirvBindings.Json
