import Mathlib.Data.List.DropRight
import SemverRange.Proofs.Document.JsonTokens

/-!
# What is written as JSON is read back

A document is restored from its text if nothing is lost in writing it (`Restorable`): it holds no
binary numbers, its integers are within the digit limit, and the keys of each mapping are different
texts.

**Layout.** The parts of a list or mapping stand on lines of their own, indented (`lines`). The
reader passes over the blanks in front of a value, an item or an entry, so it does not see how deep
a part is indented.

**Induction.** `ReadsBack` says of a document that its text is read back at any depth, if the fuel
is not less than its length and what follows does not go on with a number. A part is followed by a
comma or the end of its line, so this holds of it, and the parts behind it are shorter together than
the text from its beginning. The readers of items and entries go along the parts
(`readItems_lines`, `readEntries_lines`).

Main result: `read?_text`.
-/

namespace SemverRange.Json

variable {rest : List Char}

/-! ## Blanks -/

/-- Nothing but blanks. -/
def Blank (cs : List Char) : Prop := ∀ c ∈ cs, isSpace c = true

theorem blank_newline : Blank ['\n'] := List.forall_mem_singleton.2 rfl

theorem blank_space : Blank [' '] := List.forall_mem_singleton.2 rfl

theorem blank_deeper {indent : String} (h : Blank indent.toList) :
    Blank (indent ++ "  ").toList := by
  intro c hc
  rw [String.toList_append, List.mem_append] at hc
  rcases hc with hc | hc
  · exact h c hc
  · obtain rfl : c = ' ' := by simpa using hc
    rfl

theorem skip_append {blanks : List Char} (h : Blank blanks) (cs : List Char) :
    skip (blanks ++ cs) = skip cs := List.dropWhile_append_of_pos h

theorem skip_cons {c : Char} {cs : List Char} (h : isSpace c = false) :
    skip (c :: cs) = c :: cs := by simp [skip, h]

theorem skip_skip (cs : List Char) : skip (skip cs) = skip cs :=
  List.dropWhile_idempotent isSpace cs

theorem readValue_skip (fuel : Nat) (cs : List Char) :
    readValue fuel (skip cs) = readValue fuel cs := by
  cases fuel with
  | zero => rfl
  | succ fuel => rw [readValue, readValue, skip_skip]

theorem readItems_skip (fuel : Nat) (acc : List Document) (cs : List Char) :
    readItems fuel acc (skip cs) = readItems fuel acc cs := by
  cases fuel with
  | zero => rfl
  | succ fuel => rw [readItems, readItems, readValue_skip]

theorem readEntries_skip (fuel : Nat) (acc : List (Scalar × Document)) (cs : List Char) :
    readEntries fuel acc (skip cs) = readEntries fuel acc cs := by
  cases fuel with
  | zero => rfl
  | succ fuel => rw [readEntries, readEntries, skip_skip]

theorem readValue_append {blanks : List Char} (h : Blank blanks) (fuel : Nat) (cs : List Char) :
    readValue fuel (blanks ++ cs) = readValue fuel cs := by
  rw [← readValue_skip, skip_append h, readValue_skip]

theorem readItems_append {blanks : List Char} (h : Blank blanks) (fuel : Nat)
    (acc : List Document) (cs : List Char) :
    readItems fuel acc (blanks ++ cs) = readItems fuel acc cs := by
  rw [← readItems_skip, skip_append h, readItems_skip]

theorem readEntries_append {blanks : List Char} (h : Blank blanks) (fuel : Nat)
    (acc : List (Scalar × Document)) (cs : List Char) :
    readEntries fuel acc (blanks ++ cs) = readEntries fuel acc cs := by
  rw [← readEntries_skip, skip_append h, readEntries_skip]

/-! ## Kinds of values -/

theorem readValue_string (fuel : Nat) (cs : List Char) : readValue (fuel + 1) ('\"' :: cs) =
    (readString [] cs).map fun (s, rest) => (.scalar (.text s), rest) := by
  rw [readValue, skip_cons (by decide)]
  rfl

theorem readValue_list {cs : List Char} (h : ∀ more, skip cs ≠ ']' :: more) (fuel : Nat) :
    readValue (fuel + 1) ('[' :: cs) = readItems fuel [] cs := by
  rw [readValue, skip_cons (by decide), ← readItems_skip]
  split
  · rename_i heq
    exact absurd (List.cons.inj heq).1 (by decide)
  · rename_i heq
    obtain rfl := (List.cons.inj heq).2
    split
    · rename_i hclose
      exact absurd hclose (h _)
    · rfl
  · rename_i heq
    exact absurd (List.cons.inj heq).1 (by decide)
  · rename_i hother _
    exact absurd rfl (hother _)

theorem readValue_mapping {cs : List Char} (h : ∀ more, skip cs ≠ '\x7d' :: more) (fuel : Nat) :
    readValue (fuel + 1) ('\x7b' :: cs) = readEntries fuel [] cs := by
  rw [readValue, skip_cons (by decide), ← readEntries_skip]
  split
  · rename_i heq
    exact absurd (List.cons.inj heq).1 (by decide)
  · rename_i heq
    exact absurd (List.cons.inj heq).1 (by decide)
  · rename_i heq
    obtain rfl := (List.cons.inj heq).2
    split
    · rename_i hclose
      exact absurd hclose (h _)
    · rfl
  · rename_i hother
    exact absurd rfl (hother _)

theorem readValue_of_readScalar {c : Char} {cs : List Char} {s : Scalar}
    (hspace : isSpace c = false) (hquote : c ≠ '\"') (hlist : c ≠ '[') (hmapping : c ≠ '\x7b')
    (h : readScalar (c :: cs) = some (s, rest)) (fuel : Nat) :
    readValue (fuel + 1) (c :: cs) = some (.scalar s, rest) := by
  rw [readValue, skip_cons hspace]
  split
  · rename_i heq
    exact absurd (List.cons.inj heq).1 hquote
  · rename_i heq
    exact absurd (List.cons.inj heq).1 hlist
  · rename_i heq
    exact absurd (List.cons.inj heq).1 hmapping
  · rw [h, Option.map_some]

/-! ## Layout -/

/-- The parts of a collection, each on a line of its own. -/
def lines (indent : String) (parts : List String) : List Char :=
  [',', '\n'].intercalate (parts.map fun p => (indent ++ "  ").toList ++ p.toList)

theorem lines_singleton (indent p : String) :
    lines indent [p] = (indent ++ "  ").toList ++ p.toList := List.intercalate_singleton

theorem lines_cons_cons (indent p q : String) (parts : List String) :
    lines indent (p :: q :: parts) =
      (indent ++ "  ").toList ++ (p.toList ++ ',' :: '\n' :: lines indent (q :: parts)) := by
  simp [lines, List.intercalate_cons_cons]

theorem toList_bracketed (opening closing indent : String) {parts : List String}
    (h : parts ≠ []) : (bracketed opening closing indent parts).toList = opening.toList ++
      '\n' :: (lines indent parts ++ '\n' :: (indent.toList ++ closing.toList)) := by
  have hparts : parts.isEmpty = false := by simpa using h
  simp [bracketed, hparts, lines, String.toList_intercalate, Function.comp_def]

/-- The first part is where the blanks behind an opening bracket end. -/
theorem exists_skip_lines {indent : String} (hindent : Blank indent.toList) {p : String}
    {c : Char} {cs : List Char} (hp : p.toList = c :: cs) (hc : isSpace c = false)
    (parts : List String) (tail : List Char) :
    ∃ more, skip ('\n' :: (lines indent (p :: parts) ++ tail)) = c :: more := by
  have hlines : ∃ more, lines indent (p :: parts) = (indent ++ "  ").toList ++ c :: more := by
    cases parts with
    | nil => exact ⟨cs, by rw [lines_singleton, hp]⟩
    | cons q parts => exact ⟨_, by rw [lines_cons_cons, hp, List.cons_append]⟩
  obtain ⟨more, hmore⟩ := hlines
  have hskip : skip (lines indent (p :: parts) ++ tail) = c :: (more ++ tail) := by
    rw [hmore, List.append_assoc, skip_append (blank_deeper hindent), List.cons_append,
      skip_cons hc]
  exact ⟨more ++ tail, (skip_append blank_newline _).trans hskip⟩

theorem skip_close {indent : String} (hindent : Blank indent.toList) {c : Char}
    (hc : isSpace c = false) : skip ('\n' :: (indent.toList ++ c :: rest)) = c :: rest :=
  (skip_append blank_newline _).trans ((skip_append hindent _).trans (skip_cons hc))

theorem stops_comma (cs : List Char) : Stops (',' :: cs) := by
  rintro _ _ ⟨⟩
  exact .inl rfl

theorem stops_newline (cs : List Char) : Stops ('\n' :: cs) := by
  rintro _ _ ⟨⟩
  exact .inr rfl

/-! ## Documents -/

/-- The entry of a mapping for a named value. -/
def entryOf (field : String × Document) : Scalar × Document := (.text field.1, field.2)

/-- Nothing of the document is lost in writing it. -/
inductive Restorable : Document → Prop
  | null : Restorable (.scalar .null)
  | bool (b : Bool) : Restorable (.scalar (.bool b))
  | int {n : Int} : (Nat.toDigits 10 n.natAbs).length ≤ Numeral.limit →
      Restorable (.scalar (.int n))
  | text (s : String) : Restorable (.scalar (.text s))
  | list {items : List Document} : (∀ d ∈ items, Restorable d) → Restorable (.list items)
  | mapping {fields : List (String × Document)} : (fields.map (·.1)).Nodup →
      (∀ field ∈ fields, Restorable field.2) → Restorable (.mapping (fields.map entryOf))

/-- The text of the document is read back, whatever comes behind it. -/
def ReadsBack (d : Document) : Prop :=
  ∀ (indent : String) (fuel : Nat) (rest : List Char), Blank indent.toList →
    (indented indent d).toList.length ≤ fuel → Stops rest →
    readValue fuel ((indented indent d).toList ++ rest) = some (d, rest)

theorem itemTexts_eq_map (indent : String) (items : List Document) :
    itemTexts indent items = items.map (indented indent) := by
  induction items with
  | nil => rfl
  | cons d ds ih => rw [itemTexts, ih, List.map_cons]

/-- The text of a named value. -/
def fieldText (indent : String) (field : String × Document) : String :=
  stringText field.1 ++ ": " ++ indented indent field.2

theorem entryTexts_eq_map (indent : String) (fields : List (String × Document)) :
    entryTexts indent (fields.map entryOf) = fields.map (fieldText indent) := by
  induction fields with
  | nil => rfl
  | cons field fields ih =>
    rw [List.map_cons, List.map_cons, entryOf, entryTexts, ih]
    rfl

/-- The text of a document starts with a character that is neither a blank nor a closing bracket. -/
theorem Restorable.exists_head {d : Document} (h : Restorable d) (indent : String) :
    ∃ c cs, (indented indent d).toList = c :: cs ∧ isSpace c = false ∧ c ≠ ']' := by
  have hbracketed : ∀ (opening closing : String) (parts : List String), ∃ cs,
      (bracketed opening closing indent parts).toList = opening.toList ++ cs := by
    intro opening closing parts
    unfold bracketed
    split
    · exact ⟨closing.toList, String.toList_append⟩
    · simp only [String.append_assoc, String.toList_append, List.append_cancel_left_eq]
      exact ⟨_, rfl⟩
  cases h with
  | null => exact ⟨'n', _, by rw [indented]; rfl, rfl, by decide⟩
  | bool b =>
    rw [indented]
    cases b with
    | false => exact ⟨'f', _, rfl, rfl, by decide⟩
    | true => exact ⟨'t', _, rfl, rfl, by decide⟩
  | @int n =>
    obtain ⟨c, cs, hcs, hspace, hne⟩ := exists_head_digits n
    rw [indented]
    exact ⟨c, cs, String.toList_ofList.trans hcs, hspace, hne ']' (by decide) (by decide)⟩
  | text s =>
    rw [indented]
    exact ⟨'\"', _, String.toList_ofList, rfl, by decide⟩
  | list =>
    rw [indented]
    obtain ⟨cs, hcs⟩ := hbracketed "[" "]" _
    exact ⟨'[', cs, hcs, rfl, by decide⟩
  | mapping =>
    rw [indented]
    obtain ⟨cs, hcs⟩ := hbracketed "\x7b" "\x7d" _
    exact ⟨'\x7b', cs, hcs, rfl, by decide⟩

theorem readItems_lines {indent : String} (hindent : Blank indent.toList) {d : Document}
    {ds : List Document} (h : ∀ x ∈ d :: ds, ReadsBack x) {acc : List Document} {fuel : Nat}
    (hfuel : (lines indent ((d :: ds).map (indented (indent ++ "  ")))).length < fuel) :
    readItems fuel acc (lines indent ((d :: ds).map (indented (indent ++ "  "))) ++
      '\n' :: (indent.toList ++ ']' :: rest)) = some (.list (acc.reverse ++ d :: ds), rest) := by
  have hblank := blank_deeper hindent
  induction ds generalizing d acc fuel with
  | nil =>
    obtain ⟨fuel, rfl⟩ := Nat.exists_eq_succ_of_ne_zero (by omega : fuel ≠ 0)
    rw [List.map_singleton, lines_singleton, List.length_append] at hfuel
    rw [List.map_singleton, lines_singleton, List.append_assoc, readItems_append hblank, readItems,
      h d List.mem_cons_self _ _ _ hblank (by omega) (stops_newline _)]
    simp only [skip_close hindent (show isSpace ']' = false by decide), List.reverse_cons]
  | cons e es ih =>
    obtain ⟨fuel, rfl⟩ := Nat.exists_eq_succ_of_ne_zero (by omega : fuel ≠ 0)
    rw [List.map_cons, List.map_cons, lines_cons_cons, ← List.map_cons] at hfuel ⊢
    simp only [List.length_append, List.length_cons] at hfuel
    have hothers : readItems fuel (d :: acc) ('\n' :: (lines indent
        ((e :: es).map (indented (indent ++ "  "))) ++ '\n' :: (indent.toList ++ ']' :: rest))) =
        some (.list (acc.reverse ++ d :: e :: es), rest) := by
      have hbefore : (d :: acc).reverse ++ e :: es = acc.reverse ++ d :: e :: es := by simp
      rw [← hbefore]
      exact (readItems_append blank_newline _ _ _).trans
        (ih (fun x hx => h x (List.mem_cons_of_mem d hx)) (by omega))
    rw [List.append_assoc, readItems_append hblank, List.append_assoc, List.cons_append,
      List.cons_append, readItems, h d List.mem_cons_self _ _ _ hblank (by omega) (stops_comma _)]
    simp only [skip_cons (show isSpace ',' = false by decide), hothers]

/-- An entry is read piece by piece: the key in quotes, the colon, and the value. -/
theorem exists_read_fieldText {indent : String} (hindent : Blank indent.toList)
    {field : String × Document} (h : ReadsBack field.2) {fuel : Nat}
    (hfuel : (fieldText indent field).toList.length ≤ fuel) {tail : List Char}
    (htail : Stops tail) : ∃ key value,
      skip ((fieldText indent field).toList ++ tail) = '\"' :: key ∧
      readString [] key = some (field.1, ':' :: value) ∧
      readValue fuel value = some (field.2, tail) := by
  have htext : (fieldText indent field).toList ++ tail =
      '\"' :: (field.1.toList.flatMap charText ++ '\"' :: ':' :: ([' '] ++
        ((indented indent field.2).toList ++ tail))) := by
    simp [fieldText, stringText]
  have hlength : (indented indent field.2).toList.length ≤ fuel := by
    rw [fieldText, String.toList_append, List.length_append] at hfuel
    omega
  refine ⟨_, [' '] ++ ((indented indent field.2).toList ++ tail),
    (congrArg skip htext).trans (skip_cons (by decide)), ?_, ?_⟩
  · rw [readString_stringText, List.reverse_nil, List.nil_append, String.ofList_toList]
  · rw [readValue_append blank_space, h indent fuel tail hindent hlength htail]

theorem readEntries_lines {indent : String} (hindent : Blank indent.toList)
    {field : String × Document} {fields : List (String × Document)}
    (h : ∀ x ∈ field :: fields, ReadsBack x.2) (hnodup : ((field :: fields).map (·.1)).Nodup)
    {acc : List (Scalar × Document)}
    (hacc : ∀ entry ∈ acc, ∀ x ∈ field :: fields, entry.1 ≠ .text x.1) {fuel : Nat}
    (hfuel : (lines indent ((field :: fields).map (fieldText (indent ++ "  ")))).length < fuel) :
    readEntries fuel acc (lines indent ((field :: fields).map (fieldText (indent ++ "  "))) ++
      '\n' :: (indent.toList ++ '\x7d' :: rest)) =
      some (.mapping (acc ++ (field :: fields).map entryOf), rest) := by
  have hblank := blank_deeper hindent
  induction fields generalizing field acc fuel with
  | nil =>
    obtain ⟨fuel, rfl⟩ := Nat.exists_eq_succ_of_ne_zero (by omega : fuel ≠ 0)
    rw [List.map_singleton, lines_singleton, List.length_append] at hfuel
    have hnew : ∀ entry ∈ acc, entry.1 ≠ .text field.1 := fun entry hentry =>
      hacc entry hentry field List.mem_cons_self
    obtain ⟨key, value, hkey, hstring, hvalue⟩ := exists_read_fieldText hblank
      (h field List.mem_cons_self) (by omega : _ ≤ fuel)
      (stops_newline (indent.toList ++ '\x7d' :: rest))
    rw [List.map_singleton, lines_singleton, List.append_assoc, readEntries_append hblank,
      readEntries, hkey]
    simp only [hstring, skip_cons (show isSpace ':' = false by decide), hvalue,
      skip_close hindent (show isSpace '\x7d' = false by decide), Document.put_of_forall_ne hnew]
    rfl
  | cons next fields ih =>
    obtain ⟨fuel, rfl⟩ := Nat.exists_eq_succ_of_ne_zero (by omega : fuel ≠ 0)
    rw [List.map_cons, List.map_cons, lines_cons_cons, ← List.map_cons] at hfuel ⊢
    simp only [List.length_append, List.length_cons] at hfuel
    rw [List.map_cons, List.nodup_cons] at hnodup
    have hnew : ∀ entry ∈ acc, entry.1 ≠ .text field.1 := fun entry hentry =>
      hacc entry hentry field List.mem_cons_self
    have hacc' : ∀ entry ∈ acc ++ [entryOf field], ∀ x ∈ next :: fields, entry.1 ≠ .text x.1 := by
      intro entry hentry x hx
      rcases List.mem_append.1 hentry with hentry | hentry
      · exact hacc entry hentry x (List.mem_cons_of_mem field hx)
      · obtain rfl := List.mem_singleton.1 hentry
        intro heq
        have hname : field.1 = x.1 := Scalar.text.inj heq
        exact hnodup.1 (hname ▸ List.mem_map_of_mem hx)
    have hothers : readEntries fuel (acc ++ [entryOf field]) ('\n' :: (lines indent
        ((next :: fields).map (fieldText (indent ++ "  "))) ++
          '\n' :: (indent.toList ++ '\x7d' :: rest))) =
        some (.mapping (acc ++ (field :: next :: fields).map entryOf), rest) := by
      have hbefore : (acc ++ [entryOf field]) ++ (next :: fields).map entryOf =
          acc ++ (field :: next :: fields).map entryOf := by simp
      rw [← hbefore]
      exact (readEntries_append blank_newline _ _ _).trans
        (ih (fun x hx => h x (List.mem_cons_of_mem field hx)) hnodup.2 hacc' (by omega))
    obtain ⟨key, value, hkey, hstring, hvalue⟩ := exists_read_fieldText hblank
      (h field List.mem_cons_self) (by omega : _ ≤ fuel) (stops_comma _)
    rw [List.append_assoc, readEntries_append hblank, List.append_assoc, List.cons_append,
      List.cons_append, readEntries, hkey]
    simp only [hstring, skip_cons (show isSpace ':' = false by decide), hvalue,
      skip_cons (show isSpace ',' = false by decide), Document.put_of_forall_ne hnew]
    exact hothers

theorem readsBack_scalar {s : Scalar} {c : Char} {cs : List Char}
    (htext : (scalarText s).toList = c :: cs)
    (h : ∀ fuel rest, Stops rest →
      readValue (fuel + 1) (c :: cs ++ rest) = some (.scalar s, rest)) : ReadsBack (.scalar s) := by
  intro indent fuel rest _ hfuel hrest
  rw [indented, htext] at hfuel ⊢
  obtain ⟨fuel, rfl⟩ : ∃ n, fuel = n + 1 :=
    Nat.exists_eq_succ_of_ne_zero fun h => by simp [h] at hfuel
  exact h fuel rest hrest

theorem readsBack_list {items : List Document} (h : ∀ d ∈ items, Restorable d)
    (ih : ∀ d ∈ items, ReadsBack d) : ReadsBack (.list items) := by
  intro indent fuel rest hindent hfuel hrest
  rw [indented, itemTexts_eq_map] at hfuel ⊢
  cases items with
  | nil =>
    obtain ⟨fuel, rfl⟩ : ∃ n, fuel = n + 1 :=
      Nat.exists_eq_succ_of_ne_zero fun h => by simp [h, bracketed] at hfuel
    have htext : (bracketed "[" "]" indent []).toList = ['[', ']'] := by simp [bracketed]
    rw [List.map_nil, htext]
    rfl
  | cons d ds =>
    have hne : (d :: ds).map (indented (indent ++ "  ")) ≠ [] := by simp
    rw [toList_bracketed _ _ _ hne] at hfuel ⊢
    obtain ⟨fuel, rfl⟩ : ∃ n, fuel = n + 1 :=
      Nat.exists_eq_succ_of_ne_zero fun h => by simp [h] at hfuel
    simp only [List.length_append, List.length_cons] at hfuel
    obtain ⟨c, cs, hcs, hspace, hclose⟩ := (h d List.mem_cons_self).exists_head (indent ++ "  ")
    obtain ⟨more, hskip⟩ := exists_skip_lines hindent hcs hspace
      (ds.map (indented (indent ++ "  "))) ('\n' :: (indent.toList ++ ']' :: rest))
    rw [← List.map_cons] at hskip
    have htext : "[".toList ++ '\n' :: (lines indent ((d :: ds).map (indented (indent ++ "  "))) ++
        '\n' :: (indent.toList ++ "]".toList)) ++ rest =
        '[' :: '\n' :: (lines indent ((d :: ds).map (indented (indent ++ "  "))) ++
          '\n' :: (indent.toList ++ ']' :: rest)) := by simp
    rw [htext, readValue_list fun _ h => hclose (List.cons.inj (hskip.symm.trans h)).1]
    exact (readItems_append blank_newline _ _ _).trans (readItems_lines hindent ih (by omega))

theorem readsBack_mapping {fields : List (String × Document)}
    (hnodup : (fields.map (·.1)).Nodup) (ih : ∀ field ∈ fields, ReadsBack field.2) :
    ReadsBack (.mapping (fields.map entryOf)) := by
  intro indent fuel rest hindent hfuel hrest
  rw [indented, entryTexts_eq_map] at hfuel ⊢
  cases fields with
  | nil =>
    obtain ⟨fuel, rfl⟩ : ∃ n, fuel = n + 1 :=
      Nat.exists_eq_succ_of_ne_zero fun h => by simp [h, bracketed] at hfuel
    have htext : (bracketed "\x7b" "\x7d" indent []).toList = ['\x7b', '\x7d'] := by
      simp [bracketed]
    rw [List.map_nil, htext]
    rfl
  | cons field fields =>
    have hne : (field :: fields).map (fieldText (indent ++ "  ")) ≠ [] := by simp
    rw [toList_bracketed _ _ _ hne] at hfuel ⊢
    obtain ⟨fuel, rfl⟩ : ∃ n, fuel = n + 1 :=
      Nat.exists_eq_succ_of_ne_zero fun h => by simp [h] at hfuel
    simp only [List.length_append, List.length_cons] at hfuel
    obtain ⟨cs, hcs⟩ : ∃ cs, (fieldText (indent ++ "  ") field).toList = '\"' :: cs := by
      rw [fieldText, stringText, String.append_assoc, String.toList_append, String.toList_ofList]
      exact ⟨_, rfl⟩
    obtain ⟨more, hskip⟩ := exists_skip_lines hindent hcs (by decide)
      (fields.map (fieldText (indent ++ "  "))) ('\n' :: (indent.toList ++ '\x7d' :: rest))
    rw [← List.map_cons] at hskip
    have htext : "\x7b".toList ++ '\n' :: (lines indent ((field :: fields).map
        (fieldText (indent ++ "  "))) ++ '\n' :: (indent.toList ++ "\x7d".toList)) ++ rest =
        '\x7b' :: '\n' :: (lines indent ((field :: fields).map (fieldText (indent ++ "  "))) ++
          '\n' :: (indent.toList ++ '\x7d' :: rest)) := by simp
    rw [htext, readValue_mapping fun _ h =>
      absurd (List.cons.inj (hskip.symm.trans h)).1 (by decide)]
    exact (readEntries_append blank_newline _ _ _).trans
      (readEntries_lines hindent ih hnodup (by simp) (by omega))

theorem Restorable.readsBack {d : Document} (h : Restorable d) : ReadsBack d := by
  induction h with
  | null => exact readsBack_scalar (c := 'n') rfl fun _ _ _ => rfl
  | bool b =>
    cases b with
    | false => exact readsBack_scalar (c := 'f') rfl fun _ _ _ => rfl
    | true => exact readsBack_scalar (c := 't') rfl fun _ _ _ => rfl
  | @int n hn =>
    obtain ⟨c, cs, hcs, hspace, hne⟩ := exists_head_digits n
    refine readsBack_scalar (String.toList_ofList.trans hcs) fun fuel rest hrest => ?_
    have hread := readScalar_digits hn hrest
    rw [hcs] at hread
    exact readValue_of_readScalar hspace (hne _ (by decide) (by decide))
      (hne _ (by decide) (by decide)) (hne _ (by decide) (by decide)) hread fuel
  | text s =>
    refine readsBack_scalar String.toList_ofList fun fuel rest _ => ?_
    have htext : '\"' :: (s.toList.flatMap charText).append ['\"'] ++ rest =
        '\"' :: (s.toList.flatMap charText ++ '\"' :: rest) := by simp
    rw [htext, readValue_string, readString_stringText, List.reverse_nil, List.nil_append,
      String.ofList_toList, Option.map_some]
  | list hitems ih => exact readsBack_list hitems ih
  | mapping hnodup _ ih => exact readsBack_mapping hnodup ih

/-- **What is written as JSON is read back.** -/
theorem read?_text {d : Document} (h : Restorable d) : read? (text d).toList = some d := by
  have hread : readValue ((text d).toList.length + 1) ((text d).toList ++ []) = some (d, []) :=
    h.readsBack "" _ [] (fun _ hc => absurd hc (by simp)) (Nat.le_succ _) fun _ _ hcons =>
      absurd hcons (by simp)
  rw [List.append_nil] at hread
  rw [read?, hread]
  rfl

theorem read_text {d : Document} (h : Restorable d) : read (text d).toList = .ok d := by
  rw [read, read?_text h]

theorem read_ne_failed (cs : List Char) : read cs ≠ .error .failed := by
  unfold read
  split <;> simp

end SemverRange.Json
