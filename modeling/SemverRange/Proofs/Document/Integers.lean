import SemverRange.Document.Display

/-!
# The integers in a document

The text that shows a document writes out all its integers, those in keys included
(`Document.HasInt`), and everything else can be written. So a document has such a text unless one
of its integers is too long. The proof follows the nesting of documents: one statement for a
document, one for the items of a list and one for the entries of a mapping.

Main result: `Document.display?_eq_none_iff`.
-/

namespace SemverRange

/-- The integer stands somewhere in the document. -/
inductive Document.HasInt (n : Int) : Document → Prop
  | scalar : HasInt n (.scalar (.int n))
  | item {d : Document} {items : List Document} : d ∈ items → HasInt n d → HasInt n (.list items)
  | key {d : Document} {entries : List (Scalar × Document)} : (.int n, d) ∈ entries →
      HasInt n (.mapping entries)
  | value {k : Scalar} {d : Document} {entries : List (Scalar × Document)} : (k, d) ∈ entries →
      HasInt n d → HasInt n (.mapping entries)

theorem Scalar.display?_eq_none_iff {s : Scalar} :
    s.display? = none ↔ ∃ n, s = .int n ∧ Numeral.text? n = none := by
  cases s <;> simp [display?]

namespace Document

/-- An integer of the document is too long to be written. -/
def Unwritable (d : Document) : Prop := ∃ n, d.HasInt n ∧ Numeral.text? n = none

theorem unwritable_scalar_iff {s : Scalar} :
    (scalar s).Unwritable ↔ ∃ n, s = .int n ∧ Numeral.text? n = none := by
  constructor
  · rintro ⟨n, hn, hlong⟩
    cases hn
    exact ⟨n, rfl, hlong⟩
  · rintro ⟨n, rfl, hlong⟩
    exact ⟨n, .scalar, hlong⟩

theorem unwritable_list_iff {items : List Document} :
    (list items).Unwritable ↔ ∃ d ∈ items, d.Unwritable := by
  constructor
  · rintro ⟨n, hn, hlong⟩
    cases hn with
    | item hd hn => exact ⟨_, hd, n, hn, hlong⟩
  · rintro ⟨d, hd, n, hn, hlong⟩
    exact ⟨n, .item hd hn, hlong⟩

theorem unwritable_mapping_iff {entries : List (Scalar × Document)} :
    (mapping entries).Unwritable ↔
      ∃ e ∈ entries, (scalar e.1).Unwritable ∨ e.2.Unwritable := by
  constructor
  · rintro ⟨n, hn, hlong⟩
    cases hn with
    | key he => exact ⟨_, he, .inl ⟨n, .scalar, hlong⟩⟩
    | value he hn => exact ⟨_, he, .inr ⟨n, hn, hlong⟩⟩
  · rintro ⟨⟨k, d⟩, he, ⟨n, hn, hlong⟩ | ⟨n, hn, hlong⟩⟩
    · cases hn
      exact ⟨n, .key he, hlong⟩
    · exact ⟨n, .value he hn, hlong⟩

mutual

/-- A document has a text unless one of its integers is too long. -/
theorem display?_eq_none_iff : ∀ d : Document, display? d = none ↔ d.Unwritable
  | scalar s => by rw [display?, Scalar.display?_eq_none_iff, unwritable_scalar_iff]
  | list items => by
    rw [display?, Option.map_eq_none_iff, displayItems?_eq_none_iff items, unwritable_list_iff]
  | mapping entries => by
    rw [display?, Option.map_eq_none_iff, displayEntries?_eq_none_iff entries,
      unwritable_mapping_iff]

theorem displayItems?_eq_none_iff : ∀ ds : List Document,
    displayItems? ds = none ↔ ∃ d ∈ ds, d.Unwritable
  | [] => by simp [displayItems?]
  | d :: ds => by
    have hcons : displayItems? (d :: ds) = none ↔ display? d = none ∨ displayItems? ds = none := by
      rw [displayItems?]
      cases display? d <;> cases displayItems? ds <;> simp
    rw [hcons, display?_eq_none_iff d, displayItems?_eq_none_iff ds]
    simp only [List.mem_cons, exists_eq_or_imp]

theorem displayEntries?_eq_none_iff : ∀ es : List (Scalar × Document),
    displayEntries? es = none ↔ ∃ e ∈ es, (scalar e.1).Unwritable ∨ e.2.Unwritable
  | [] => by simp [displayEntries?]
  | (k, d) :: es => by
    have hcons : displayEntries? ((k, d) :: es) = none ↔
        (k.display? = none ∨ display? d = none) ∨ displayEntries? es = none := by
      rw [displayEntries?]
      cases k.display? <;> cases display? d <;> cases displayEntries? es <;> simp
    rw [hcons, Scalar.display?_eq_none_iff, ← unwritable_scalar_iff, display?_eq_none_iff d,
      displayEntries?_eq_none_iff es]
    simp only [List.mem_cons, exists_eq_or_imp]

end

end Document

end SemverRange
