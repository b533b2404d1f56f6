import Mathlib.Data.List.Forall2
import SemverRange.Proofs.Command.Verdicts
import SemverRange.Proofs.Document.JsonText

/-!
# What printed rows show

A run prints its rows as lines or as one JSON document, and the rows can be told from what it
prints.

**Lines.** Every line ends with the text of the requirement. In front of it stand the candidate and
one of two phrases, and neither phrase is an end of the other. So a line shows the candidate and the
verdict, but not why a candidate is no version (`rowLines_eq_iff_of_text`).

**Documents.** The document of a row has an entry for each part of the row, and no other row has
these entries (`Row.Shows.unique`). The printed text is read back as the document that was written,
so it shows the rows as they are (`exists_read?_rowLines`).
-/

namespace SemverRange.Command

/-! ## Lines -/

/-- The phrase between the candidate and the requirement. -/
def phrase (satisfied : Bool) : String :=
  if satisfied then " satisfies " else " does not satisfy "

theorem append_phrase_inj {s s' : String} {b b' : Bool} :
    s ++ phrase b = s' ++ phrase b' ↔ s = s' ∧ b = b' := by
  constructor
  · intro h
    have hends := congrArg (fun t : String => t.toList.reverse.take 3) h
    have hphrase : b = b' := by
      cases b <;> cases b' <;> simp [phrase] at hends ⊢
    subst hphrase
    exact ⟨(String.append_left_inj _).1 h, rfl⟩
  · rintro ⟨rfl, rfl⟩
    rfl

/-- A line shows the candidate and the verdict. -/
theorem Row.line_eq_line_iff {row row' : Row} {raw : String} :
    row.line raw = row'.line raw ↔
      row.version = row'.version ∧ row.satisfied = row'.satisfied :=
  (String.append_left_inj raw).trans append_phrase_inj

theorem rowLines_eq_of_text {a : Arguments} {r : Requirement} {rs : List Row}
    (hquiet : a.quiet = false) (hformat : a.format ≠ some .json) :
    rowLines a r rs = rs.map (·.line r.raw) := by
  rw [rowLines, unlessQuiet, hquiet, if_neg hformat]
  rfl

/-- Printed lines show the candidates and verdicts, in order. -/
theorem rowLines_eq_iff_of_text {a : Arguments} {r : Requirement} {rs rs' : List Row}
    (hquiet : a.quiet = false) (hformat : a.format ≠ some .json) :
    rowLines a r rs = rowLines a r rs' ↔ List.Forall₂ (fun row row' =>
      row.version = row'.version ∧ row.satisfied = row'.satisfied) rs rs' := by
  rw [rowLines_eq_of_text hquiet hformat, rowLines_eq_of_text hquiet hformat]
  rw [← List.forall₂_eq_eq_eq, List.forall₂_map_left_iff, List.forall₂_map_right_iff]
  simp only [Row.line_eq_line_iff]

/-! ## Documents -/

/-- The entries of a document are those of the row. -/
structure Row.Shows (row : Row) (entries : List (Scalar × Document)) : Prop where
  version : Document.Has entries "version" (textValue row.version)
  satisfied : Document.Has entries "satisfied" (.scalar (.bool row.satisfied))
  error : Document.Has entries "error" ((row.error.map textValue).getD (.scalar .null))

theorem Row.Shows.unique {row row' : Row} {entries : List (Scalar × Document)}
    (h : row.Shows entries) (h' : row'.Shows entries) : row = row' := by
  obtain ⟨version, satisfied, error⟩ := row
  obtain ⟨version', satisfied', error'⟩ := row'
  obtain rfl : version = version' := by simpa [textValue] using h.version.unique h'.version
  obtain rfl : satisfied = satisfied' := by simpa using h.satisfied.unique h'.satisfied
  have herror := h.error.unique h'.error
  cases error <;> cases error' <;> simp [textValue] at herror ⊢
  exact herror

theorem Row.exists_shows (row : Row) :
    ∃ entries, row.document = .mapping entries ∧ row.Shows entries := by
  refine ⟨_, rfl, ⟨[], _, rfl, by simp⟩, ⟨[_], _, rfl, by simp⟩, ⟨[_, _], [], rfl, by simp⟩⟩

theorem Row.restorable_document (row : Row) : Json.Restorable row.document := by
  have hfields : row.document = .mapping ([("version", textValue row.version),
      ("satisfied", .scalar (.bool row.satisfied)),
      ("error", (row.error.map textValue).getD (.scalar .null))].map Json.entryOf) := rfl
  have hnames : ["version", "satisfied", "error"].Nodup := by decide
  rw [hfields]
  refine .mapping hnames ?_
  simp only [List.forall_mem_cons, List.not_mem_nil, false_imp_iff, implies_true, and_true]
  refine ⟨.text _, .bool _, ?_⟩
  cases row.error with
  | none => exact .null
  | some message => exact .text message

/-- **A printed document shows the rows**, in order. -/
theorem exists_read?_rowLines {a : Arguments} {r : Requirement} {rs : List Row}
    (hquiet : a.quiet = false) (hformat : a.format = some .json) :
    ∃ line entries items, rowLines a r rs = [line] ∧
      Json.read? line.toList = some (.mapping entries) ∧
      Document.Has entries "requirement" (textValue r.raw) ∧
      Document.Has entries "include_prerelease" (.scalar (.bool r.includePrerelease)) ∧
      Document.Has entries "results" (.list items) ∧
      List.Forall₂ (fun row d => ∃ shown, d = .mapping shown ∧ row.Shows shown) rs items := by
  have hrestorable : Json.Restorable (.mapping ([("requirement", textValue r.raw),
      ("include_prerelease", .scalar (.bool r.includePrerelease)),
      ("results", .list (rs.map Row.document))].map Json.entryOf)) := by
    have hnames : ["requirement", "include_prerelease", "results"].Nodup := by decide
    refine .mapping hnames ?_
    simp only [List.forall_mem_cons, List.not_mem_nil, false_imp_iff, implies_true, and_true]
    refine ⟨.text _, .bool _, .list fun d hd => ?_⟩
    obtain ⟨row, -, rfl⟩ := List.mem_map.1 hd
    exact row.restorable_document
  refine ⟨_, _, rs.map Row.document, ?_, Json.read?_text hrestorable,
    ⟨[], _, rfl, by simp⟩, ⟨[_], _, rfl, by simp [Json.entryOf]⟩,
    ⟨[_, _], [], rfl, by simp [Json.entryOf]⟩, ?_⟩
  · rw [rowLines, unlessQuiet, hquiet, if_pos hformat]
    rfl
  · rw [List.forall₂_map_right_iff, List.forall₂_same]
    exact fun row _ => row.exists_shows

end SemverRange.Command
