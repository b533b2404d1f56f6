import SemverRange.Proofs.Version.Language
import SemverRange.Proofs.Version.Order

/-!
# Ties of precedence

**Ranks.** Precedence sees an identifier through its rank alone, and two ranks tie only if they are
one (`Identifier.Rank.compare` is lawful). So two pre-releases tie exactly if they have the same
ranks in the same order.

**Identifiers are told from their ranks**, if they have no needless zeros (`Identifier.Plain`): the
rank of a word is its characters, and a numeral without needless zeros is the decimal text of its
value (`Identifier.Rank.text`). Versions that were read have such identifiers only.

Main result: `Version.same_of_precedence_eq`.
-/

namespace SemverRange

namespace Identifier

/-! ## Ranks -/

instance : Std.LawfulEqCmp Rank.compare where
  compare_self := Std.ReflCmp.compare_self
  eq_of_compare {a b} h := by
    cases a <;> cases b
    · exact congrArg Rank.number (Nat.compare_eq_eq.1 h)
    · exact absurd h (by simp [Rank.compare])
    · exact absurd h (by simp [Rank.compare])
    · exact congrArg Rank.word (Std.LawfulEqCmp.compare_eq_iff_eq.1 h)

theorem compare_eq_eq_iff {a b : String} :
    Identifier.compare a b = .eq ↔ rank a = rank b := by
  rw [Identifier.compare, Std.LawfulEqCmp.compare_eq_iff_eq]

theorem compareLex_eq_eq_iff {as bs : List String} :
    List.compareLex Identifier.compare as bs = .eq ↔ as.map rank = bs.map rank := by
  induction as generalizing bs with
  | nil => cases bs <;> simp [List.compareLex]
  | cons a as ih =>
    cases bs with
    | nil => simp [List.compareLex]
    | cons b bs =>
      rw [List.compareLex_cons_cons, Ordering.then_eq_eq, compare_eq_eq_iff, ih, List.map_cons,
        List.map_cons, List.cons.injEq]

/-- Pre-releases tie if their identifiers have the same ranks. -/
theorem comparePrerelease_eq_eq_iff {as bs : List String} :
    comparePrerelease as bs = .eq ↔ as.map rank = bs.map rank := by
  cases as with
  | nil => cases bs <;> simp [comparePrerelease]
  | cons a as =>
    cases bs with
    | nil => simp [comparePrerelease]
    | cons b bs => rw [comparePrerelease_cons, compareLex_eq_eq_iff]

/-! ## Identifiers of a rank -/

/-- The identifier with a given rank. -/
def Rank.text : Rank → String
  | .number n => String.ofList (Nat.toDigits 10 n)
  | .word codes => String.ofList (codes.map Char.ofNat)

/-- An identifier that can be written, without needless zeros. -/
structure Plain (id : String) : Prop where
  identifier : Written.isIdentifier id.toList = true
  not_padded : ¬ Padded id

theorem Plain.canonical {id : String} (h : Plain id) (hnumeric : isNumeric id = true) :
    Numeral.Canonical id.toList where
  ne_nil := by
    intro hnil
    rw [isNumeric, hnil] at hnumeric
    exact absurd hnumeric (by decide)
  ascii c hc := by
    have hchar := Partial.isIdentifierChar_of_isIdentifier h.identifier c hc
    have hrange := Written.toNat_of_isIdentifierChar hchar
    exact Text.toNat_of_isDigit (Numeral.forall_mem_of_isNumeral hnumeric c hc) (by omega)
  length_of_zero hzero := by
    have hlength : ¬ 2 ≤ id.toList.length := fun hlong => h.not_padded ⟨hnumeric, hlong, hzero⟩
    have hne : id.toList.length ≠ 0 := fun hnil => by
      rw [List.length_eq_zero_iff.1 hnil] at hzero
      exact absurd hzero (by simp)
    omega

/-- A plain identifier is told from its rank. -/
theorem Plain.text_rank {id : String} (h : Plain id) : (rank id).text = id := by
  unfold rank
  split
  · rename_i hnumeric
    rw [Rank.text, Numeral.toDigits_value (h.canonical hnumeric), String.ofList_toList]
  · rw [Rank.text, List.map_map]
    have hchars : ∀ c ∈ id.toList, (Char.ofNat ∘ Char.toNat) c = c := fun c _ => c.ofNat_toNat
    rw [List.map_congr_left hchars, List.map_id', String.ofList_toList]

theorem eq_of_map_rank_eq {as bs : List String} (has : ∀ id ∈ as, Plain id)
    (hbs : ∀ id ∈ bs, Plain id) (h : as.map rank = bs.map rank) : as = bs := by
  have hback : ∀ {ids : List String}, (∀ id ∈ ids, Plain id) →
      (ids.map rank).map Rank.text = ids := fun {ids} hids => by
      have htext : ∀ id ∈ ids, (Rank.text ∘ rank) id = id := fun id hid => (hids id hid).text_rank
      rw [List.map_map, List.map_congr_left htext, List.map_id']
  rw [← hback has, h, hback hbs]

end Identifier

/-! ## Versions -/

namespace Version

theorem Core.plain {cs : List Char} {v : Version} (h : Core cs v) :
    ∀ id ∈ v.prerelease, Identifier.Plain id := by
  intro id hid
  obtain ⟨hidentifier, hpadded, -⟩ := h.regular.prerelease id hid
  exact ⟨hidentifier, hpadded⟩

/-- **Versions that tie differ in build alone**, if they were read from texts. -/
theorem same_of_precedence_eq {s t : String} {v w : Version} (hv : parse s = .ok v)
    (hw : parse t = .ok w) (h : v.precedence w = .eq) :
    v.toTriple = w.toTriple ∧ v.prerelease = w.prerelease := by
  obtain ⟨_, -, hvcore⟩ := parse_eq_ok_iff_decorated.1 hv
  obtain ⟨_, -, hwcore⟩ := parse_eq_ok_iff_decorated.1 hw
  obtain ⟨htriple, hprerelease⟩ := precedence_eq_eq_iff.1 h
  rw [Identifier.comparePrerelease_eq_eq_iff] at hprerelease
  exact ⟨htriple, Identifier.eq_of_map_rank_eq hvcore.plain hwcore.plain hprerelease⟩

end Version

end SemverRange
