import Mathlib.Algebra.GroupWithZero.Nat
import SnippetTree.Text.Quoted

/-!
# Quoted texts are read back

A quoted text holds nothing but printable characters, so it stands on one line
(`isPrintable_of_mem_quote`), and no two texts are quoted alike (`quote_injective`).

There are four ways to write a character between quotes (`Quotes`). All but one begin with a
backslash, and what follows the backslash says how many characters belong to the escape; a backslash
is never written alone. So the first character of what stands between the quotes is told from what
is written after it (`unquoteChar?`), and the whole text by reading one character after the other.
-/

namespace SnippetTree.Text

/-! ## Digits -/

/-- The value of a hexadecimal digit in lower case. -/
def hexValue (digit : Char) : Nat :=
  if digit.toNat < 0x3A then digit.toNat - 0x30 else digit.toNat - 0x57

/-- The number that hexadecimal digits stand for. -/
def ofHexDigits (digits : Text) : Nat :=
  digits.foldl (fun code digit => 16 * code + hexValue digit) 0

theorem hexValue_digitChar {digit : Nat} (h : digit < 16) : hexValue digit.digitChar = digit := by
  have hall : ∀ digit < 16, hexValue (Nat.digitChar digit) = digit := by decide
  exact hall digit h

theorem isPrintable_of_ascii {c : Char} (hlow : 0x20 ≤ c.toNat) (hhigh : c.toNat < 0x7F) :
    isPrintable c = true := by
  have hascii : c.toNat < 0x80 := Nat.lt_succ_of_lt hhigh
  simp [isPrintable, hascii, hlow, hhigh]

theorem isPrintable_digitChar {digit : Nat} (h : digit < 16) :
    isPrintable digit.digitChar = true := by
  have hall : ∀ digit < 16, 0x20 ≤ (Nat.digitChar digit).toNat ∧
      (Nat.digitChar digit).toNat < 0x7F := by decide
  obtain ⟨hlow, hhigh⟩ := hall digit h
  exact isPrintable_of_ascii hlow hhigh

theorem length_hexDigits (width code : Nat) : (hexDigits width code).length = width := by
  induction width generalizing code with
  | zero => rfl
  | succ width ih => rw [hexDigits, List.length_append, ih, List.length_singleton]

theorem isPrintable_of_mem_hexDigits {width code : Nat} {c : Char} (h : c ∈ hexDigits width code) :
    isPrintable c = true := by
  induction width generalizing code with
  | zero => cases h
  | succ width ih =>
      rw [hexDigits, List.mem_append, List.mem_singleton] at h
      rcases h with h | rfl
      · exact ih h
      · exact isPrintable_digitChar (Nat.mod_lt _ (by decide))

/-- A number that has no more digits than are written is read back. -/
theorem ofHexDigits_hexDigits {width code : Nat} (h : code < 16 ^ width) :
    ofHexDigits (hexDigits width code) = code := by
  induction width generalizing code with
  | zero =>
      rw [Nat.pow_zero, Nat.lt_one_iff] at h
      rw [h]
      rfl
  | succ width ih =>
      have hless : code / 16 < 16 ^ width := by
        rw [Nat.pow_succ] at h
        omega
      have hbefore := ih hless
      rw [ofHexDigits] at hbefore
      rw [hexDigits, ofHexDigits, List.foldl_append, hbefore, List.foldl_cons, List.foldl_nil,
        hexValue_digitChar (Nat.mod_lt _ (by decide))]
      omega

/-! ## How a character is written -/

/-- One of the two characters that texts are put between. -/
def IsQuoteMark (mark : Char) : Prop :=
  mark = '\'' ∨ mark = '"'

/-- `Quotes mark c written`: between quotes of this kind the character may be written so. -/
inductive Quotes (mark c : Char) : Text → Prop where
  /-- The quote in use and the backslash stand after a backslash. -/
  | kept : c = mark ∨ c = '\\' → Quotes mark c ['\\', c]
  /-- A control character has a letter of its own. -/
  | letter {letter : Char} : (letter, c) ∈ [('n', '\n'), ('r', '\r'), ('t', '\t')] →
      Quotes mark c ['\\', letter]
  | plain : c ≠ '\\' → isPrintable c = true → Quotes mark c [c]
  /-- The letter tells how many digits of the code follow. -/
  | code {letter : Char} {width : Nat} : (letter, width) ∈ [('x', 2), ('u', 4), ('U', 8)] →
      c.toNat < 16 ^ width → Quotes mark c ('\\' :: letter :: hexDigits width c.toNat)

theorem isQuoteMark_quoteMark (text : Text) : IsQuoteMark text.quoteMark := by
  unfold quoteMark
  split
  · exact .inr rfl
  · exact .inl rfl

theorem quotes_escapeCode (mark c : Char) : Quotes mark c (escapeCode c) := by
  have hvalid : c.toNat < 16 ^ 8 := Nat.lt_of_lt_of_le c.val.toNat_lt (by decide)
  rw [escapeCode]
  split
  next h => exact .code (by simp) h
  next =>
    split
    next h => exact .code (by simp) h
    next => exact .code (by simp) hvalid

theorem quotes_quoteChar (mark c : Char) : Quotes mark c (quoteChar mark c) := by
  unfold quoteChar
  split
  next h => exact .kept (by simpa using h)
  next hkept =>
    rw [Bool.or_eq_true, decide_eq_true_eq, decide_eq_true_eq, not_or] at hkept
    split
    next h => exact .letter (by simp [h])
    next =>
      split
      next h => exact .letter (by simp [h])
      next =>
        split
        next h => exact .letter (by simp [h])
        next =>
          split
          next h => exact .plain hkept.2 h
          next => exact quotes_escapeCode mark c

theorem IsQuoteMark.isPrintable {mark : Char} (h : IsQuoteMark mark) :
    isPrintable mark = true := by
  rcases h with rfl | rfl
  · exact isPrintable_of_ascii (by decide) (by decide)
  · exact isPrintable_of_ascii (by decide) (by decide)

theorem Quotes.isPrintable {mark c : Char} {written : Text} (hmark : IsQuoteMark mark)
    (h : Quotes mark c written) : ∀ d ∈ written, isPrintable d = true := by
  have hslash : Text.isPrintable '\\' = true := isPrintable_of_ascii (by decide) (by decide)
  cases h with
  | kept hc =>
      refine List.forall_mem_cons.mpr ⟨hslash, List.forall_mem_singleton.mpr ?_⟩
      rcases hc with rfl | rfl
      · exact hmark.isPrintable
      · exact hslash
  | letter hletter =>
      refine List.forall_mem_cons.mpr ⟨hslash, List.forall_mem_singleton.mpr ?_⟩
      simp only [List.mem_cons, Prod.mk.injEq, List.not_mem_nil, or_false] at hletter
      rcases hletter with ⟨rfl, -⟩ | ⟨rfl, -⟩ | ⟨rfl, -⟩ <;>
        exact isPrintable_of_ascii (by decide) (by decide)
  | plain _ hc => exact List.forall_mem_singleton.mpr hc
  | code hletter _ =>
      refine List.forall_mem_cons.mpr ⟨hslash, List.forall_mem_cons.mpr ⟨?_, ?_⟩⟩
      · simp only [List.mem_cons, Prod.mk.injEq, List.not_mem_nil, or_false] at hletter
        rcases hletter with ⟨rfl, -⟩ | ⟨rfl, -⟩ | ⟨rfl, -⟩ <;>
          exact isPrintable_of_ascii (by decide) (by decide)
      · exact fun d hd => isPrintable_of_mem_hexDigits hd

/-! ## Reading back -/

/-- The character whose code the first `width` digits give, and what follows them. -/
def ofCode (width : Nat) (text : Text) : Char × Text :=
  (Char.ofNat (ofHexDigits (text.take width)), text.drop width)

/-- The character that is written at the beginning of a text, and what follows it. -/
def unquoteChar? : Text → Option (Char × Text)
  | '\\' :: 'n' :: rest => some ('\n', rest)
  | '\\' :: 'r' :: rest => some ('\r', rest)
  | '\\' :: 't' :: rest => some ('\t', rest)
  | '\\' :: 'x' :: rest => some (ofCode 2 rest)
  | '\\' :: 'u' :: rest => some (ofCode 4 rest)
  | '\\' :: 'U' :: rest => some (ofCode 8 rest)
  | '\\' :: c :: rest => some (c, rest)
  | c :: rest => some (c, rest)
  | [] => none

theorem ofCode_hexDigits {width : Nat} {c : Char} (h : c.toNat < 16 ^ width) (rest : Text) :
    ofCode width (hexDigits width c.toNat ++ rest) = (c, rest) := by
  have hlength := length_hexDigits width c.toNat
  rw [ofCode, List.take_left' hlength, List.drop_left' hlength, ofHexDigits_hexDigits h,
    Char.ofNat_toNat]

/-- **A character is read back, whatever is written after it.** -/
theorem Quotes.unquoteChar? {mark c : Char} {written : Text} (hmark : IsQuoteMark mark)
    (h : Quotes mark c written) (rest : Text) :
    Text.unquoteChar? (written ++ rest) = some (c, rest) := by
  cases h with
  | kept hc =>
      rcases hc with rfl | rfl
      · rcases hmark with rfl | rfl <;> rfl
      · rfl
  | letter hletter =>
      simp only [List.mem_cons, Prod.mk.injEq, List.not_mem_nil, or_false] at hletter
      rcases hletter with ⟨rfl, rfl⟩ | ⟨rfl, rfl⟩ | ⟨rfl, rfl⟩ <;> rfl
  | plain hc _ =>
      rw [List.singleton_append]
      unfold Text.unquoteChar?
      split <;> simp_all
  | code hletter hc =>
      have hread := congrArg some (ofCode_hexDigits hc rest)
      simp only [List.mem_cons, Prod.mk.injEq, List.not_mem_nil, or_false] at hletter
      rcases hletter with ⟨rfl, rfl⟩ | ⟨rfl, rfl⟩ | ⟨rfl, rfl⟩ <;> exact hread

/-- What is written between quotes is written for one text only. -/
theorem flatMap_quoteChar_injective {mark : Char} (hmark : IsQuoteMark mark) {t u : Text}
    (h : t.flatMap (quoteChar mark) = u.flatMap (quoteChar mark)) : t = u := by
  have hread : ∀ c rest, unquoteChar? (quoteChar mark c ++ rest) = some (c, rest) :=
    fun c rest => (quotes_quoteChar mark c).unquoteChar? hmark rest
  have hstart : ∀ c t, [] ≠ (c :: t).flatMap (quoteChar mark) := by
    intro c t hnil
    have hnone := hread c (t.flatMap (quoteChar mark))
    rw [← List.flatMap_cons, ← hnil] at hnone
    cases hnone
  induction t generalizing u with
  | nil =>
      cases u with
      | nil => rfl
      | cons d u => exact absurd h (hstart d u)
  | cons c t ih =>
      cases u with
      | nil => exact absurd h.symm (hstart c t)
      | cons d u =>
          have hboth := congrArg unquoteChar? h
          rw [List.flatMap_cons, List.flatMap_cons, hread, hread, Option.some.injEq,
            Prod.mk.injEq] at hboth
          rw [hboth.1, ih hboth.2]

/-- **No two texts are quoted alike.** -/
theorem quote_injective {t u : Text} (h : t.quote = u.quote) : t = u := by
  rw [quote, quote, List.cons.injEq] at h
  obtain ⟨hmark, hbody⟩ := h
  rw [← hmark, List.append_left_inj] at hbody
  exact flatMap_quoteChar_injective (isQuoteMark_quoteMark t) hbody

/-- **A quoted text stands on one line**, with every character visible. -/
theorem isPrintable_of_mem_quote {t : Text} {c : Char} (h : c ∈ t.quote) :
    isPrintable c = true := by
  have hmark := (isQuoteMark_quoteMark t).isPrintable
  rw [quote, List.mem_cons, List.mem_append, List.mem_singleton, List.mem_flatMap] at h
  rcases h with rfl | ⟨d, -, hc⟩ | rfl
  · exact hmark
  · exact (quotes_quoteChar _ d).isPrintable (isQuoteMark_quoteMark t) c hc
  · exact hmark

end SnippetTree.Text
