import Mathlib.Data.List.Basic
import Mathlib.Data.List.Induction
import SemverRange.Numeral

/-!
# Plain numerals

A property of characters holds of every digit if it holds of ten characters from each zero on
(`forall_isDigit`), which settles by computation what a digit is not: a blank, a sign, a mark
between digits.

**Canonical numerals** are written in ASCII digits, and their first digit is no zero unless it is
the only one. They are the decimal texts of the natural numbers, each the text of its value.

Main results: `readSigned?_of_isNumeral`, a plain numeral is read the same way where a sign, space
around it and grouped digits would be allowed, and `toDigits_value`.
-/

namespace SemverRange

namespace Text

/-- Digits are the characters at most nine places behind a zero. -/
theorem forall_isDigit {p : Char → Bool}
    (h : ∀ z ∈ zeros, ∀ k < 10, p (Char.ofNat (z + k)) = true) {c : Char}
    (hc : isDigit c = true) : p c = true := by
  unfold isDigit digitValue? at hc
  cases hz : zeros.find? fun z => z ≤ c.toNat && c.toNat < z + 10 with
  | none => simp [hz] at hc
  | some z =>
    have hmem := List.mem_of_find?_eq_some hz
    have hrange := List.find?_some hz
    simp only [Bool.and_eq_true, decide_eq_true_eq] at hrange
    have hp := h z hmem (c.toNat - z) (by omega)
    rwa [show z + (c.toNat - z) = c.toNat by omega, Char.ofNat_toNat] at hp

theorem isBlank_of_isDigit {c : Char} (hc : isDigit c = true) : isBlank c = false := by
  have := forall_isDigit (p := (!isBlank ·)) (by decide +kernel) hc
  simpa using this

theorem ne_of_isDigit {c d : Char} (hc : isDigit c = true) (hd : isDigit d = false) : c ≠ d := by
  rintro rfl
  rw [hc] at hd
  exact absurd hd (by decide)

theorem stripBy_eq_self {p : Char → Bool} {cs : List Char} (h : ∀ c ∈ cs, p c = false) :
    stripBy p cs = cs := by
  have hdrop : ∀ ds : List Char, (∀ c ∈ ds, p c = false) → ds.dropWhile p = ds := by
    intro ds hds
    cases ds with
    | nil => rfl
    | cons d ds => rw [List.dropWhile_cons_of_neg (by simp [hds d List.mem_cons_self])]
  rw [stripBy, hdrop cs h, hdrop _ fun c hc => h c (List.mem_reverse.1 hc), List.reverse_reverse]

end Text

namespace Numeral

open Text

theorem forall_mem_of_isNumeral {cs : List Char} (h : isNumeral cs = true) :
    ∀ c ∈ cs, isDigit c = true := by
  simp only [isNumeral, Bool.and_eq_true, List.all_eq_true] at h
  exact h.2

/-- A plain numeral has no sign, space or groups to take off. -/
theorem readSigned?_of_isNumeral {cs : List Char} (h : isNumeral cs = true) :
    readSigned? cs = (read? cs).map Int.ofNat := by
  have hdigits := forall_mem_of_isNumeral h
  have hstrip : stripBy isSkipped cs = cs :=
    stripBy_eq_self fun c hc => by simp [isSkipped, isBlank_of_isDigit (hdigits c hc)]
  have hgroups : cs.splitOn '_' = [cs] :=
    List.splitOn_eq_singleton fun hc => ne_of_isDigit (hdigits _ hc) (d := '_') (by decide) rfl
  have hread : readGrouped? cs = read? cs := by
    simp [readGrouped?, hgroups, h]
  cases cs with
  | nil => simp [isNumeral] at h
  | cons c ds =>
    have hminus : c ≠ '-' := ne_of_isDigit (hdigits c List.mem_cons_self) (by decide)
    have hplus : c ≠ '+' := ne_of_isDigit (hdigits c List.mem_cons_self) (by decide)
    unfold readSigned?
    rw [hstrip]
    split
    · rename_i heq
      exact absurd (List.cons.inj heq).1 hminus
    · rename_i heq
      exact absurd (List.cons.inj heq).1 hplus
    · rw [hread]

/-! ## Canonical numerals -/

/-- ASCII digits with no zero in front of others. -/
structure Canonical (cs : List Char) : Prop where
  ne_nil : cs ≠ []
  ascii : ∀ c ∈ cs, 48 ≤ c.toNat ∧ c.toNat ≤ 57
  length_of_zero : cs.head? = some '0' → cs.length = 1

theorem digitValue_of_ascii {c : Char} (h : 48 ≤ c.toNat ∧ c.toNat ≤ 57) :
    digitValue c = c.toNat - 48 := by
  rw [digitValue, digitValue?_of_ascii h, Option.getD_some]

theorem isDigit_of_ascii {c : Char} (h : 48 ≤ c.toNat ∧ c.toNat ≤ 57) : isDigit c = true := by
  rw [isDigit, digitValue?_of_ascii h]
  rfl

theorem digitChar_digitValue {c : Char} (h : 48 ≤ c.toNat ∧ c.toNat ≤ 57) :
    (digitValue c).digitChar = c := by
  apply Char.toNat_inj.1
  rw [digitValue_of_ascii h, Nat.toNat_digitChar_of_lt_ten (by omega)]
  omega

theorem digitValue_digitChar {n : Nat} (h : n < 10) : digitValue n.digitChar = n := by
  have hchar := Nat.toNat_digitChar_of_lt_ten h
  rw [digitValue_of_ascii (by omega), hchar]
  omega

/-- The decimal text of a number has it for its value. -/
theorem value_toDigits (n : Nat) : value (Nat.toDigits 10 n) = n := by
  induction n using Nat.strongRecOn with
  | ind n ih =>
    by_cases hn : n < 10
    · rw [Nat.toDigits_of_lt_base hn, ← List.nil_append [n.digitChar], value_append,
        digitValue_digitChar hn]
      exact Nat.zero_add n
    · rw [Nat.toDigits_of_base_le (by decide) (by omega), value_append, ih (n / 10) (by omega),
        digitValue_digitChar (Nat.mod_lt n (by decide))]
      omega

theorem head?_toDigits_ne_zero {n : Nat} (h : 0 < n) : (Nat.toDigits 10 n).head? ≠ some '0' := by
  induction n using Nat.strongRecOn with
  | ind n ih =>
    by_cases hn : n < 10
    · rw [Nat.toDigits_of_lt_base hn, List.head?_cons, ne_eq, Option.some.injEq]
      intro hzero
      have hvalue := digitValue_digitChar hn
      rw [hzero] at hvalue
      exact absurd (hvalue.symm.trans (by decide : digitValue '0' = 0)) (by omega)
    · rw [Nat.toDigits_of_base_le (by decide) (by omega),
        List.head?_append_of_ne_nil _ Nat.toDigits_ne_nil]
      exact ih (n / 10) (by omega) (by omega)

theorem canonical_toDigits (n : Nat) : Canonical (Nat.toDigits 10 n) where
  ne_nil := Nat.toDigits_ne_nil
  ascii := by
    intro c hc
    have hdigit := Nat.isDigit_of_mem_toDigits (by decide) (by decide) hc
    simp only [Char.isDigit, Bool.and_eq_true, decide_eq_true_eq, UInt32.le_iff_toNat_le] at hdigit
    exact hdigit
  length_of_zero := by
    intro hzero
    cases n with
    | zero => rfl
    | succ n => exact absurd hzero (head?_toDigits_ne_zero (Nat.succ_pos n))

/-- **A canonical numeral is the decimal text of its value.** -/
theorem toDigits_value {cs : List Char} (h : Canonical cs) : Nat.toDigits 10 (value cs) = cs := by
  -- along `value`, from the last digit to the first
  induction cs using List.reverseRecOn with
  | nil => exact absurd rfl h.ne_nil
  | append_singleton front c ih =>
    have hc := h.ascii c (by simp)
    have hlast : Nat.toDigits 10 (digitValue c) = [c] := by
      rw [Nat.toDigits_of_lt_base (digitValue_lt_ten c), digitChar_digitValue hc]
    by_cases hfront : front = []
    · subst hfront
      rw [value_append]
      exact (congrArg _ (Nat.zero_add _)).trans hlast
    · have hhead : front.head? ≠ some '0' := by
        intro hzero
        have hlength := h.length_of_zero (by rw [List.head?_append_of_ne_nil _ hfront, hzero])
        simp [hfront] at hlength
      have hdigits : Nat.toDigits 10 (value front) = front := ih
        ⟨hfront, fun d hd => h.ascii d (List.mem_append_left _ hd), fun hzero => absurd hzero hhead⟩
      have hpos : 0 < value front := by
        refine Nat.pos_of_ne_zero fun hzero => hhead ?_
        rw [← hdigits, hzero]
        rfl
      rw [value_append, ← Nat.toDigits_append_toDigits (by decide) hpos (digitValue_lt_ten c),
        hdigits, hlast]

end Numeral

end SemverRange
