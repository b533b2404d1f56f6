import Mathlib.Data.List.TakeDrop
import SemverRange.Document.JsonText
import SemverRange.Proofs.Numeral

/-!
# Strings and numbers of JSON are read back

**Strings.** Each character has its own form in a string, and the reader takes the form back to the
character, whatever follows (`readString_charText`). So the characters of a string come back one by
one (`readString_stringText`). A character beyond the sixteen bits has two code units. They are read
as a pair, and no other character has a code unit that could start one.

**Numbers.** A number ends where the text does not go on with one (`Stops`). Then its digits are all
that is read, and their value is the number (`readScalar_digits`).
-/

namespace SemverRange.Json

variable {acc rest : List Char}

/-! ## Strings -/

theorem hexValue?_hexDigit (n : Nat) : hexValue? (hexDigit n) = some (n % 16) := by
  have hall : ∀ k : Fin 16, hexValue? (Nat.digitChar k) = some k.val := by decide
  exact hall ⟨n % 16, Nat.mod_lt _ (by decide)⟩

theorem hexNumber?_unit {n : Nat} (h : n < 0x10000) : hexNumber? [hexDigit (n / 4096),
    hexDigit (n / 256), hexDigit (n / 16), hexDigit n] = some n := by
  have hvalue : 16 * (16 * (16 * (16 * 0 + n / 4096 % 16) + n / 256 % 16) + n / 16 % 16) + n % 16 =
      n := by omega
  exact (by simp [hexNumber?, hexValue?_hexDigit] : _ = some _).trans (congrArg some hvalue)

theorem readString_unit {a b c d : Char} {n : Nat} (h : hexNumber? [a, b, c, d] = some n)
    (hn : isHighSurrogate n = false) :
    readString acc ('\\' :: 'u' :: a :: b :: c :: d :: rest) =
      readString (unitChar n :: acc) rest := by
  rw [readString.eq_def]
  split
  · rename_i heq
    simp at heq
  · rename_i heq
    simp at heq
  · rename_i heq
    simp only [List.cons.injEq, true_and] at heq
    obtain ⟨rfl, rfl, rfl, rfl, rfl⟩ := heq
    -- another escape follows, but the two form no pair
    simp only [h, hn, Bool.false_and, Bool.false_eq_true, if_false]
    split <;> rfl
  · rename_i heq
    simp only [List.cons.injEq, true_and] at heq
    obtain ⟨rfl, rfl, rfl, rfl, rfl⟩ := heq
    simp only [h]
  · rename_i hno heq
    simp only [List.cons.injEq, true_and] at heq
    exact absurd heq.2.symm (hno a b c d rest heq.1.symm)
  · rename_i hno heq
    simp only [List.cons.injEq] at heq
    exact absurd heq.2.symm (hno _ _ heq.1.symm)

theorem readString_pair {a b c d e f g h : Char} {n m : Nat}
    (hn : hexNumber? [a, b, c, d] = some n) (hhigh : isHighSurrogate n = true)
    (hm : hexNumber? [e, f, g, h] = some m) (hlow : isLowSurrogate m = true) :
    readString acc ('\\' :: 'u' :: a :: b :: c :: d :: '\\' :: 'u' :: e :: f :: g :: h :: rest) =
      readString (pairChar n m :: acc) rest := by
  simp only [readString, hn, hm, hhigh, hlow, Bool.and_self, if_true]

theorem readString_simple {c e : Char} (hc : c ≠ 'u') (h : simpleEscape? c = some e) :
    readString acc ('\\' :: c :: rest) = readString (e :: acc) rest := by
  rw [readString.eq_def]
  split
  · rename_i heq
    simp at heq
  · rename_i heq
    simp at heq
  · rename_i heq
    exact absurd (List.cons.inj (List.cons.inj heq).2).1 hc
  · rename_i heq
    exact absurd (List.cons.inj (List.cons.inj heq).2).1 hc
  · rename_i heq
    obtain ⟨rfl, rfl⟩ := List.cons.inj (List.cons.inj heq).2
    simp only [h]
  · rename_i hno heq
    simp only [List.cons.injEq] at heq
    exact absurd heq.2.symm (hno _ _ heq.1.symm)

theorem readString_plain {c : Char} (hquote : c ≠ '\"') (hslash : c ≠ '\\') (h : 32 ≤ c.toNat) :
    readString acc (c :: rest) = readString (c :: acc) rest := by
  rw [readString.eq_def]
  split
  · rename_i heq
    simp at heq
  · rename_i heq
    exact absurd (List.cons.inj heq).1 hquote
  · rename_i heq
    exact absurd (List.cons.inj heq).1 hslash
  · rename_i heq
    exact absurd (List.cons.inj heq).1 hslash
  · rename_i heq
    exact absurd (List.cons.inj heq).1 hslash
  · rename_i heq
    obtain ⟨rfl, rfl⟩ := List.cons.inj heq
    have hcontrol : ¬ c.toNat < 32 := Nat.not_lt.2 h
    simp [hcontrol, hslash]

theorem unitChar_toNat (c : Char) :
    isHighSurrogate c.toNat = false ∧ unitChar c.toNat = c := by
  have hvalid : c.toNat < 0xD800 ∨ 0xDFFF < c.toNat ∧ c.toNat < 0x110000 := c.valid
  have hhigh : isHighSurrogate c.toNat = false := by simp [isHighSurrogate]; omega
  have hlow : isLowSurrogate c.toNat = false := by simp [isLowSurrogate]; omega
  exact ⟨hhigh, by simp [unitChar, hhigh, hlow]⟩

theorem pairChar_toNat {c : Char} (h : 0x10000 ≤ c.toNat) :
    isHighSurrogate (0xD800 + (c.toNat - 0x10000) / 1024) = true ∧
      isLowSurrogate (0xDC00 + (c.toNat - 0x10000) % 1024) = true ∧
      pairChar (0xD800 + (c.toNat - 0x10000) / 1024) (0xDC00 + (c.toNat - 0x10000) % 1024) = c := by
  have hvalid : c.toNat < 0xD800 ∨ 0xDFFF < c.toNat ∧ c.toNat < 0x110000 := c.valid
  refine ⟨by simp [isHighSurrogate]; omega, by simp [isLowSurrogate]; omega, ?_⟩
  have hcode : 0x10000 + (0xD800 + (c.toNat - 0x10000) / 1024 - 0xD800) * 1024 +
      (0xDC00 + (c.toNat - 0x10000) % 1024 - 0xDC00) = c.toNat := by omega
  rw [pairChar, hcode, Char.ofNat_toNat]

/-- A character is read back from its form in a string. -/
theorem readString_charText (c : Char) :
    readString acc (charText c ++ rest) = readString (c :: acc) rest := by
  simp only [charText, Bool.or_eq_true, beq_iff_eq, Bool.and_eq_true, decide_eq_true_eq]
  split_ifs with hmark hplain hn hr ht hb hf hunit
  · rcases hmark with rfl | rfl <;> exact readString_simple (by decide) rfl
  · obtain ⟨hquote, hslash⟩ := not_or.1 hmark
    exact readString_plain hquote hslash hplain.1
  · exact readString_simple (by decide) (hn ▸ rfl)
  · exact readString_simple (by decide) (hr ▸ rfl)
  · exact readString_simple (by decide) (ht ▸ rfl)
  · exact readString_simple (by decide) (hb ▸ rfl)
  · exact readString_simple (by decide) (hf ▸ rfl)
  · obtain ⟨hhigh, hchar⟩ := unitChar_toNat c
    exact (readString_unit (hexNumber?_unit hunit) hhigh).trans
      (congrArg (fun d => readString (d :: acc) rest) hchar)
  · obtain ⟨hhigh, hlow, hchar⟩ := pairChar_toNat (Nat.not_lt.1 hunit)
    have hvalid : c.toNat < 0xD800 ∨ 0xDFFF < c.toNat ∧ c.toNat < 0x110000 := c.valid
    have hfirst : 0xD800 + (c.toNat - 0x10000) / 1024 < 0x10000 := by omega
    have hsecond : 0xDC00 + (c.toNat - 0x10000) % 1024 < 0x10000 := by omega
    exact (readString_pair (hexNumber?_unit hfirst) hhigh (hexNumber?_unit hsecond) hlow).trans
      (congrArg (fun d => readString (d :: acc) rest) hchar)

/-- A text is read back from its form in quotes. -/
theorem readString_stringText (s : String) :
    readString acc (s.toList.flatMap charText ++ '\"' :: rest) =
      some (String.ofList (acc.reverse ++ s.toList), rest) := by
  induction s.toList generalizing acc with
  | nil => rw [List.flatMap_nil, List.nil_append, readString, List.append_nil]
  | cons c cs ih =>
    rw [List.flatMap_cons, List.append_assoc, readString_charText, ih, List.reverse_cons,
      List.append_assoc, List.singleton_append]

/-! ## Numbers -/

/-- The rest of a text does not go on with a number. -/
def Stops (rest : List Char) : Prop := ∀ c cs, rest = c :: cs → c = ',' ∨ c = '\n'

theorem spanDigits_append {ds rest : List Char} (hds : ∀ c ∈ ds, 48 ≤ c.toNat ∧ c.toNat ≤ 57)
    (hrest : Stops rest) : spanDigits (ds ++ rest) = (ds, rest) := by
  have hdigits : ∀ c ∈ ds, Char.isDigit c = true := by
    intro c hc
    simp only [Char.isDigit, Bool.and_eq_true, decide_eq_true_eq, UInt32.le_iff_toNat_le]
    exact hds c hc
  have hnone : rest.takeWhile Char.isDigit = [] ∧ rest.dropWhile Char.isDigit = rest := by
    cases rest with
    | nil => exact ⟨rfl, rfl⟩
    | cons c cs =>
      have hc : Char.isDigit c = false := by
        rcases hrest c cs rfl with rfl | rfl <;> decide
      simp [hc]
  rw [spanDigits, List.span_eq_takeWhile_dropWhile, List.takeWhile_append_of_pos hdigits,
    List.dropWhile_append_of_pos hdigits, hnone.1, hnone.2, List.append_nil]

theorem readFraction_of_stops (h : Stops rest) : readFraction rest = (none, rest) := by
  unfold readFraction
  split
  · rcases h _ _ rfl with h | h <;> exact absurd h (by decide)
  · rfl

theorem readExponent_of_stops (h : Stops rest) : readExponent rest = (none, rest) := by
  cases rest with
  | nil => rfl
  | cons c cs =>
    rcases h c cs rfl with rfl | rfl <;> rfl

theorem readWhole_append {ds : List Char} (h : Numeral.Canonical ds) (hrest : Stops rest) :
    readWhole (ds ++ rest) = some (ds, rest) := by
  obtain ⟨c, cs, rfl⟩ := List.exists_cons_of_ne_nil h.ne_nil
  have hspan := spanDigits_append h.ascii hrest
  unfold readWhole
  split
  · -- a zero is the only digit
    rename_i heq
    obtain ⟨rfl, rfl⟩ := List.cons.inj heq
    have hlength := h.length_of_zero rfl
    obtain rfl : cs = [] := List.length_eq_zero_iff.1 (by simpa using hlength)
    rfl
  · rw [hspan]

theorem readNumber_toDigits {n : Nat} (hn : (Nat.toDigits 10 n).length ≤ Numeral.limit)
    (negative : Bool) (hrest : Stops rest) : readNumber negative (Nat.toDigits 10 n ++ rest) =
      some (.int (if negative then -(n : Int) else n), rest) := by
  have hcanonical := Numeral.canonical_toDigits n
  have hnumeral : Numeral.isNumeral (Nat.toDigits 10 n) = true := by
    simp only [Numeral.isNumeral, Bool.and_eq_true, List.all_eq_true]
    exact ⟨by simp [hcanonical.ne_nil],
      fun c hc => Numeral.isDigit_of_ascii (hcanonical.ascii c hc)⟩
  have hread : Numeral.read? (Nat.toDigits 10 n) = some n :=
    Numeral.read?_eq_some_iff.2 ⟨hnumeral, hn, Numeral.value_toDigits n⟩
  unfold readNumber
  simp only [readWhole_append hcanonical hrest, readFraction_of_stops hrest,
    readExponent_of_stops hrest, hread]
  rfl

/-- Digits start no keyword, with or without a minus. -/
theorem readKeyword_of_ascii {c : Char} (hc : 48 ≤ c.toNat ∧ c.toNat ≤ 57) (cs : List Char) :
    readKeyword (c :: cs) = none ∧ readKeyword ('-' :: c :: cs) = none := by
  have hne : ∀ d : Char, ¬ (48 ≤ d.toNat ∧ d.toNat ≤ 57) → d ≠ c := by
    rintro d hd rfl
    exact hd hc
  simp [readKeyword, keywords, hne 'n' (by decide), hne 't' (by decide), hne 'f' (by decide),
    hne 'N' (by decide), hne 'I' (by decide), hne '-' (by decide)]

theorem readScalar_digits {n : Int} (hn : (Nat.toDigits 10 n.natAbs).length ≤ Numeral.limit)
    (hrest : Stops rest) : readScalar (Numeral.digits n ++ rest) = some (.int n, rest) := by
  have hcanonical := Numeral.canonical_toDigits n.natAbs
  obtain ⟨c, cs, hcs⟩ := List.exists_cons_of_ne_nil hcanonical.ne_nil
  have hc := hcanonical.ascii c (hcs ▸ List.mem_cons_self)
  obtain ⟨hkeyword, hkeyword'⟩ := readKeyword_of_ascii hc (cs ++ rest)
  rw [← List.cons_append, ← hcs] at hkeyword hkeyword'
  by_cases hneg : n < 0
  · have hdigits : Numeral.digits n ++ rest = '-' :: (Nat.toDigits 10 n.natAbs ++ rest) := by
      simp [Numeral.digits, hneg]
    have hvalue : -(n.natAbs : Int) = n := by omega
    simp only [hdigits, readScalar, hkeyword', readNumber_toDigits hn true hrest, if_true, hvalue]
  · have hdigits : Numeral.digits n ++ rest = Nat.toDigits 10 n.natAbs ++ rest := by
      simp [Numeral.digits, hneg]
    have hvalue : (n.natAbs : Int) = n := by omega
    have hread : readNumber false (Nat.toDigits 10 n.natAbs ++ rest) = some (.int n, rest) := by
      simpa [hvalue] using readNumber_toDigits hn false hrest
    rw [hdigits]
    unfold readScalar
    rw [hkeyword]
    split
    · rename_i heq
      exact absurd heq (by simp)
    · split
      · -- no digit is a minus
        rename_i heq
        rw [hcs, List.cons_append] at heq
        rw [(List.cons.inj heq).1] at hc
        exact absurd hc (by decide)
      · exact hread

/-- A number starts with a minus or a digit. -/
theorem exists_head_digits (n : Int) : ∃ c cs, Numeral.digits n = c :: cs ∧ isSpace c = false ∧
    ∀ d, d ≠ '-' → ¬ (48 ≤ d.toNat ∧ d.toNat ≤ 57) → c ≠ d := by
  have hcanonical := Numeral.canonical_toDigits n.natAbs
  obtain ⟨c, cs, hcs⟩ := List.exists_cons_of_ne_nil hcanonical.ne_nil
  have hc := hcanonical.ascii c (hcs ▸ List.mem_cons_self)
  by_cases hneg : n < 0
  · exact ⟨'-', c :: cs, by simp [Numeral.digits, hneg, hcs], rfl, fun d hd _ => Ne.symm hd⟩
  · have hne : ∀ d : Char, ¬ (48 ≤ d.toNat ∧ d.toNat ≤ 57) → c ≠ d := by
      rintro d hd rfl
      exact hd hc
    refine ⟨c, cs, by simp [Numeral.digits, hneg, hcs], ?_, fun d _ => hne d⟩
    simp [isSpace, hne ' ' (by decide), hne '\t' (by decide), hne '\n' (by decide),
      hne '\r' (by decide)]

end SemverRange.Json
