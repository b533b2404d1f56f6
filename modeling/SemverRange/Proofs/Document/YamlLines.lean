import Mathlib.Data.List.TakeWhile
import SemverRange.Document.Yaml.Block

/-!
# Settings in YAML, line by line

The usual settings file has one line for each setting: a key, a colon and a value, perhaps with a
tag in front of the value (`Setting`). Keys and values are words of letters, digits and underscores.

A word is a plain scalar up to what follows it (`readPlain_word`), so a line is read as one entry,
the lines of one indentation as one mapping (`readNode_settings`), and a text of such lines as the
mapping of its settings, at the top (`compose?_settings`) or below a key (`compose?_section`). Of
several lines with one key the last one counts.

Main results: `read_settings` and `read_section` if every setting has a value, and
`read_settings_error` for the first one that has none.
-/

namespace SemverRange.Yaml

/-! ## Words -/

/-- The character may stand in a word. -/
def isWordChar (c : Char) : Bool := c.isAlphanum || c == '_'

/-- A non-empty text of letters, digits and underscores. -/
def IsWord (cs : List Char) : Prop := cs ≠ [] ∧ ∀ c ∈ cs, isWordChar c = true

instance : DecidablePred IsWord := fun cs =>
  decidable_of_iff (cs ≠ [] ∧ cs.all isWordChar = true) (and_congr_right' List.all_eq_true)

theorem ne_of_isWordChar {c d : Char} (hc : isWordChar c = true) (hd : isWordChar d = false) :
    c ≠ d := by
  rintro rfl
  rw [hc] at hd
  exact absurd hd (by decide)

theorem toNat_of_isWordChar {c : Char} (hc : isWordChar c = true) :
    48 ≤ c.toNat ∧ c.toNat ≤ 122 := by
  change (((decide (65 ≤ c.val ∧ c.val ≤ 90) || decide (97 ≤ c.val) && decide (c.val ≤ 122)) ||
    decide (48 ≤ c.val) && decide (c.val ≤ 57)) || c == '_') = true at hc
  simp only [Bool.or_eq_true, Bool.and_eq_true, decide_eq_true_eq, beq_iff_eq,
    UInt32.le_iff_toNat_le] at hc
  rcases hc with hc | rfl
  · change (65 ≤ c.toNat ∧ c.toNat ≤ 90 ∨ 97 ≤ c.toNat ∧ c.toNat ≤ 122) ∨
      48 ≤ c.toNat ∧ c.toNat ≤ 57 at hc
    omega
  · decide

theorem isAllowed_of_isWordChar {c : Char} (hc : isWordChar c = true) : isAllowed c = true := by
  have := toNat_of_isWordChar hc
  simp only [isAllowed, Bool.or_eq_true, Bool.and_eq_true, decide_eq_true_eq]
  omega

theorem isLineEnd_of_isWordChar {c : Char} (hc : isWordChar c = true) : isLineEnd c = false := by
  simp [isLineEnd, ne_of_isWordChar hc (d := '\n') (by decide),
    ne_of_isWordChar hc (d := '\x85') (by decide), ne_of_isWordChar hc (d := '\u2028') (by decide),
    ne_of_isWordChar hc (d := '\u2029') (by decide)]

theorem IsWord.oneLine {cs : List Char} (h : IsWord cs) :
    ∀ c ∈ cs, isAllowed c = true ∧ isLineEnd c = false := fun c hc =>
  ⟨isAllowed_of_isWordChar (h.2 c hc), isLineEnd_of_isWordChar (h.2 c hc)⟩

theorem isWordChar_of_mark {mark : Char} (h : mark ∈ ['.', '-']) :
    isWordChar mark = false ∧ mark ≠ ' ' := by
  simp only [List.mem_cons, List.not_mem_nil, or_false] at h
  rcases h with rfl | rfl <;> decide

/-- A word starts with a character of which everything that follows can be told. -/
theorem IsWord.exists_cons {cs : List Char} (h : IsWord cs) :
    ∃ c rest, cs = c :: rest ∧ isWordChar c = true := by
  obtain ⟨c, rest, rfl⟩ := List.exists_cons_of_ne_nil h.1
  exact ⟨c, rest, rfl, h.2 c List.mem_cons_self⟩

/-- Without its mark at the start no tag is split off. -/
theorem splitTag_eq_self {cs : List Char} (h : cs.head? ≠ some '!') : splitTag cs = (none, cs) := by
  have hnone : ∀ tag : Tag, (tag.name.toList ++ [' ']).isPrefixOf cs = false := by
    intro tag
    cases cs with
    | nil => cases tag <;> rfl
    | cons c cs =>
      have hmark : '!' ≠ c := fun heq => h (congrArg some heq.symm)
      cases tag <;> simp [Tag.name, List.isPrefixOf, hmark]
  simp [splitTag, hnone]

section

variable {c : Char} (hc : isWordChar c = true) (cs : List Char)
include hc

theorem skipSpaces_cons : skipSpaces (c :: cs) = c :: cs := by
  simp [skipSpaces, ne_of_isWordChar hc (d := ' ') (by decide)]

theorem atEnd_cons : atEnd (c :: cs) = false := by
  simp [atEnd, skipSpaces_cons hc, ne_of_isWordChar hc (d := '#') (by decide)]

theorem readQuoted?_cons : readQuoted? (c :: cs) = none := by
  simp [readQuoted?, ne_of_isWordChar hc (d := '\"') (by decide),
    ne_of_isWordChar hc (d := '\x27') (by decide)]

theorem readFlow?_cons : readFlow? (c :: cs) = none := by
  simp [readFlow?, ne_of_isWordChar hc (d := '[') (by decide),
    ne_of_isWordChar hc (d := '\x7b') (by decide)]

theorem splitTag_cons : splitTag (c :: cs) = (none, c :: cs) :=
  splitTag_eq_self fun h => ne_of_isWordChar hc (by decide) (Option.some.inj h)

theorem startsPlain_cons : startsPlain false (c :: cs) = true := by
  have hindicator : isIndicator c = false := by
    unfold isIndicator
    rw [← Bool.not_eq_true, List.contains_iff_mem]
    intro hmem
    have hnone : [',', '[', ']', '\x7b', '\x7d', '#', '&', '*', '!', '|', '>', '\x27', '\"', '%',
        '@', Char.ofNat 96, ' ', '\t'].all (fun d => !isWordChar d) = true := by decide
    simpa [hc] using List.all_eq_true.1 hnone c hmem
  simp [startsPlain, hindicator, ne_of_isWordChar hc (d := '-') (by decide),
    ne_of_isWordChar hc (d := '?') (by decide), ne_of_isWordChar hc (d := ':') (by decide)]

theorem isItem_cons : isItem (c :: cs) = false := by
  simp [isItem, ne_of_isWordChar hc (d := '-') (by decide)]

theorem isMarker_cons {mark : Char} (hmark : isWordChar mark = false) :
    isMarker mark (c :: cs) = false := by
  simp [isMarker, List.isPrefixOf, (ne_of_isWordChar hc hmark).symm]

theorem startsValue_cons : startsValue false (c :: cs) = false := by
  simp [startsValue, ne_of_isWordChar hc (d := ':') (by decide)]

end

theorem spanPlain_append {w : List Char} (hw : ∀ c ∈ w, isWordChar c = true) (cs : List Char) :
    spanPlain false false (w ++ cs) =
      (w ++ (spanPlain false false cs).1, (spanPlain false false cs).2) := by
  induction w with
  | nil => rfl
  | cons c w ih =>
    have hc := hw c List.mem_cons_self
    have hspace : (c == ' ') = false := beq_false_of_ne (ne_of_isWordChar hc (by decide))
    rw [List.cons_append, spanPlain]
    simp [ne_of_isWordChar hc (d := '\t') (by decide), startsValue_cons hc, hspace,
      ih fun d hd => hw d (List.mem_cons_of_mem c hd)]

/-- A word is a plain scalar up to a place where no plain scalar goes on. -/
theorem readPlain_word {w cs : List Char} (hw : IsWord w)
    (hcs : spanPlain false false cs = ([], cs)) : readPlain false (w ++ cs) = (w, cs) := by
  have hdrop : w.reverse.dropWhile (· == ' ') = w.reverse := by
    obtain ⟨c, rest, hreverse⟩ := List.exists_cons_of_ne_nil (List.reverse_ne_nil_iff.2 hw.1)
    have hc : isWordChar c = true := hw.2 c (List.mem_reverse.1 (hreverse ▸ List.mem_cons_self))
    rw [hreverse, List.dropWhile_cons_of_neg (by simp [ne_of_isWordChar hc (d := ' ') (by decide)])]
  simp [readPlain, spanPlain_append hw.2, hcs, hdrop]

/-! ## Settings -/

/-- A key and a value, which may have a tag. -/
structure Setting where
  key : List Char
  tag : Option Tag
  value : List Char

namespace Setting

/-- The key and the value are words. -/
structure Plain (s : Setting) : Prop where
  key : IsWord s.key
  value : IsWord s.value

/-- What stands behind the colon of a setting. -/
def content (s : Setting) : List Char :=
  match s.tag with
  | some tag => tag.name.toList ++ ' ' :: s.value
  | none => s.value

/-- The line of a setting without its indentation. -/
def body (s : Setting) : List Char := s.key ++ ':' :: ' ' :: s.content

/-- The entry of a mapping that a setting stands for. -/
def entry (s : Setting) : Value × Node :=
  (plainScalar none s.key, .scalar (plainScalar s.tag s.value))

variable {s : Setting}

theorem Plain.readKey?_body (h : s.Plain) :
    readKey? s.body = some (plainScalar none s.key, ' ' :: s.content) := by
  obtain ⟨c, rest, hkey, hc⟩ := h.key.exists_cons
  have hplain : readPlain false s.body = (s.key, ':' :: ' ' :: s.content) :=
    readPlain_word h.key (by simp [spanPlain, startsValue, isBreak])
  unfold readKey?
  rw [hplain]
  simp only [body, hkey, List.cons_append, readQuoted?_cons hc, startsValue_cons hc,
    startsPlain_cons hc, if_true, Bool.false_eq_true, if_false]

theorem Plain.splitTag_content (h : s.Plain) : splitTag s.content = (s.tag, s.value) := by
  obtain ⟨c, rest, hvalue, hc⟩ := h.value.exists_cons
  have hskip : skipSpaces s.value = s.value := by rw [hvalue, skipSpaces_cons hc]
  unfold content
  cases s.tag with
  | none =>
    show splitTag s.value = _
    rw [hvalue, splitTag_cons hc]
  | some tag =>
    show splitTag (tag.name.toList ++ ' ' :: s.value) = (some tag, s.value)
    have hsplit : splitTag (tag.name.toList ++ ' ' :: s.value) =
        (some tag, skipSpaces s.value) := by
      cases tag <;> rfl
    rw [hsplit, hskip]

theorem Plain.content_eq_cons (h : s.Plain) : ∃ c rest, s.content = c :: rest ∧
    (c == ' ') = false ∧ (c == '#') = false := by
  unfold content
  cases s.tag with
  | none =>
    obtain ⟨c, rest, hvalue, hc⟩ := h.value.exists_cons
    exact ⟨c, rest, hvalue, beq_false_of_ne (ne_of_isWordChar hc (by decide)),
      beq_false_of_ne (ne_of_isWordChar hc (by decide))⟩
  | some tag => cases tag <;> exact ⟨_, _, rfl, by decide, by decide⟩

/-! ## Lines -/

/-- The setting as a line with content. -/
def contentLine (indent : Nat) (s : Setting) : Line := ⟨indent, s.body, 0, false⟩

/-- The setting as a line of a text. -/
def rawLine (indent : Nat) (s : Setting) : List Char := List.replicate indent ' ' ++ s.body

/-- No line of a deeper collection comes next. -/
def Ends (indent : Nat) (rest : List Line) : Prop := ∀ l, rest.head? = some l → l.indent < indent

/-- The content of a setting is read as its value, on a line that is not continued. -/
theorem Plain.readInline_content (h : s.Plain) {floor : Nat} {rest : List Line}
    (hrest : Ends floor rest) :
    readInline floor s.content rest = some (.scalar (plainScalar s.tag s.value), rest) := by
  obtain ⟨c, cs, hvalue, hc⟩ := h.value.exists_cons
  have hplain : readPlain false s.value = (s.value, []) := by
    have hword : readPlain false (s.value ++ []) = (s.value, []) := readPlain_word h.value rfl
    rwa [List.append_nil] at hword
  have hcontinue : continuePlain floor s.value rest = some (s.value, rest) := by
    cases rest with
    | nil => rfl
    | cons l rest => simp [continuePlain, hrest l rfl]
  have hquoted : readQuoted? s.value = none := by rw [hvalue, readQuoted?_cons hc]
  have hflow : readFlow? s.value = none := by rw [hvalue, readFlow?_cons hc]
  have hitem : isItem s.value = false := by rw [hvalue, isItem_cons hc]
  have hstarts : startsPlain false s.value = true := by rw [hvalue, startsPlain_cons hc]
  unfold readInline
  simp [h.splitTag_content, hquoted, hflow, hitem, hstarts, hplain, hcontinue]

/-- Lines of one indentation are read as one mapping. -/
theorem readEntries_settings {indent : Nat} {rest : List Line} (hrest : Ends indent rest) :
    ∀ (ss : List Setting) (fuel : Nat) (acc : List (Value × Node)), (∀ s ∈ ss, s.Plain) →
      ss.length < fuel → readEntries fuel indent acc (ss.map (contentLine indent) ++ rest) =
        some (.mapping (acc.reverse ++ ss.map entry), rest)
  | [], fuel + 1, acc, _, _ => by
    cases rest with
    | nil => simp [readEntries]
    | cons l rest =>
      have hl := hrest l rfl
      simp [readEntries, hl, Nat.not_lt.2 (Nat.le_of_lt hl)]
  | s :: ss, fuel + 1, acc, hplain, hfuel => by
    have hs := hplain s List.mem_cons_self
    have hnext : Ends (indent + 1) (ss.map (contentLine indent) ++ rest) := by
      intro l hl
      cases ss with
      | nil => exact Nat.lt_succ_of_lt (hrest l hl)
      | cons t ss =>
        obtain rfl := Option.some.inj hl
        exact Nat.lt_succ_self indent
    obtain ⟨c, cs, hcontent, hspace, hmark⟩ := hs.content_eq_cons
    have hskip : skipSpaces (' ' :: s.content) = s.content := by
      simp only [hcontent, skipSpaces, beq_self_eq_true, List.dropWhile_cons_of_pos,
        List.dropWhile_cons_of_neg, hspace, Bool.false_eq_true, not_false_eq_true]
    have hvalue : atEnd (' ' :: s.content) = false := by
      rw [atEnd, hskip, hcontent]
      exact hmark
    have ih := readEntries_settings hrest ss fuel (s.entry :: acc)
      (fun t ht => hplain t (List.mem_cons_of_mem s ht)) (by simpa using hfuel)
    rw [List.map_cons, List.cons_append]
    unfold readEntries
    simp only [contentLine, Nat.lt_irrefl, if_false, hs.readKey?_body, hvalue, Bool.not_false,
      if_true, hskip, hs.readInline_content hnext]
    rw [show (plainScalar none s.key, Node.scalar (plainScalar s.tag s.value)) = s.entry from rfl,
      ih]
    simp

theorem Plain.rawLine_eq (h : s.Plain) (indent : Nat) : ∃ c rest, s.body = c :: rest ∧
    isWordChar c = true ∧ rawLine indent s = List.replicate indent ' ' ++ c :: rest := by
  obtain ⟨c, rest, hkey, hc⟩ := h.key.exists_cons
  refine ⟨c, rest ++ ':' :: ' ' :: s.content, ?_, hc, ?_⟩ <;> simp [rawLine, body, hkey]

theorem contentLines_settings {indent : Nat} (raws : List (List Char)) {ss : List Setting}
    (h : ∀ s ∈ ss, s.Plain) : contentLines 0 false (ss.map (rawLine indent) ++ raws) =
      ss.map (contentLine indent) ++ contentLines 0 false raws := by
  induction ss with
  | nil => rfl
  | cons s ss ih =>
    obtain ⟨c, rest, hbody, hc, hraw⟩ := (h s List.mem_cons_self).rawLine_eq indent
    have hskip : skipSpaces (rawLine indent s) = c :: rest := by
      rw [hraw, skipSpaces, List.dropWhile_append_of_pos (by simp)]
      exact skipSpaces_cons hc rest
    have hlength : (rawLine indent s).length - (rest.length + 1) = indent := by
      simp [hraw]
    rw [List.map_cons, List.cons_append, List.map_cons, List.cons_append,
      ← ih fun t ht => h t (List.mem_cons_of_mem s ht), contentLines]
    simp [hskip, hlength, contentLine, hbody, ne_of_isWordChar hc (d := '#') (by decide)]

/-- Lines of one indentation are read as one node. -/
theorem readNode_settings {indent floor fuel : Nat} {ss : List Setting} {rest : List Line}
    (hne : ss ≠ []) (h : ∀ s ∈ ss, s.Plain) (hrest : Ends indent rest)
    (hfuel : ss.length < fuel) :
    readNode (fuel + 1) floor (ss.map (contentLine indent) ++ rest) =
      some (.mapping (ss.map entry), rest) := by
  obtain ⟨s, others, rfl⟩ := List.exists_cons_of_ne_nil hne
  have hs := h s List.mem_cons_self
  have hitem : isItem s.body = false := by
    obtain ⟨c, body, hbody, hc, -⟩ := hs.rawLine_eq 0
    rw [hbody, isItem_cons hc]
  have hentries := readEntries_settings hrest (s :: others) fuel [] h hfuel
  rw [List.map_cons, List.cons_append] at hentries ⊢
  unfold readNode
  simpa [contentLine, hitem, hs.readKey?_body] using hentries

end Setting

/-! ## Texts -/

/-- The text may stand on a line that marks nothing. -/
structure OneLine (raw : List Char) : Prop where
  allowed : ∀ c ∈ raw, isAllowed c = true ∧ isLineEnd c = false
  unmarked : ∀ mark ∈ ['.', '-'], isMarker mark raw = false

/-- The text of lines. -/
def ofLines (raws : List (List Char)) : List Char := raws.flatMap (· ++ ['\n'])

theorem splitOnP_ofLines {raws : List (List Char)} (h : ∀ raw ∈ raws, OneLine raw) :
    (ofLines raws).splitOnP isLineEnd = raws ++ [[]] := by
  induction raws with
  | nil => rfl
  | cons raw raws ih =>
    have hraw := (h raw List.mem_cons_self).allowed
    rw [ofLines, List.flatMap_cons, List.append_assoc, List.singleton_append,
      List.splitOnP_append_cons _ _ (by decide),
      List.splitOnP_eq_singleton fun c hc => (hraw c hc).2]
    exact congrArg (raw :: ·) (ih fun other ho => h other (List.mem_cons_of_mem raw ho))

theorem length_le_length_ofLines (raws : List (List Char)) :
    raws.length ≤ (ofLines raws).length := by
  induction raws with
  | nil => exact Nat.zero_le _
  | cons raw raws ih =>
    simp only [ofLines, List.flatMap_cons, List.length_append, List.length_cons, List.length_nil]
      at ih ⊢
    omega

/-- A text whose first line starts with a word is read as the node of its lines. -/
theorem compose?_ofLines {c : Char} {tail first : List Char} {rest : List (List Char)}
    (hfirst : first = c :: tail) (hc : isWordChar c = true)
    (h : ∀ raw ∈ first :: rest, OneLine raw) : compose? (ofLines (first :: rest)) =
      ofNodes (2 * (ofLines (first :: rest)).length + 2)
        (contentLines 0 false (first :: (rest ++ [[]]))) := by
  have hallowed : (ofLines (first :: rest)).all isAllowed = true := by
    rw [List.all_eq_true]
    intro d hd
    obtain ⟨raw, hraw, hd⟩ := List.mem_flatMap.1 hd
    rcases List.mem_append.1 hd with hd | hd
    · exact ((h raw hraw).allowed d hd).1
    · obtain rfl := List.mem_singleton.1 hd
      decide
  have hraws : (ofLines (first :: rest)).splitOnP isLineEnd = first :: (rest ++ [[]]) :=
    splitOnP_ofLines h
  have hmarks : ∀ raw ∈ first :: (rest ++ [[]]), ∀ mark ∈ ['.', '-'],
      isMarker mark raw = false := by
    intro raw hraw
    rw [← List.cons_append] at hraw
    rcases List.mem_append.1 hraw with hraw | hraw
    · exact (h raw hraw).unmarked
    · obtain rfl := List.mem_singleton.1 hraw
      exact fun _ _ => rfl
  have hend : beforeEnd? (first :: (rest ++ [[]])) = some (first :: (rest ++ [[]])) := by
    have hdrop : (first :: (rest ++ [[]])).dropWhile (fun raw => !isMarker '.' raw) = [] :=
      List.dropWhile_eq_nil_iff.2 fun raw hraw => by simp [hmarks raw hraw '.' (by decide)]
    unfold beforeEnd?
    rw [hdrop]
  have hany : (first :: (rest ++ [[]])).any (isMarker '-') = false :=
    List.any_eq_false.2 fun raw hraw => by simp [hmarks raw hraw '-' (by decide)]
  have hmarked : isMarker '-' first = false := hmarks first List.mem_cons_self '-' (by decide)
  have hcontent : atEnd first = false := by rw [hfirst, atEnd_cons hc]
  have hbom : c ≠ '\ufeff' := ne_of_isWordChar hc (by decide)
  unfold compose?
  split
  · rename_i heq
    rw [hfirst] at heq
    exact absurd (List.cons.inj heq).1 hbom
  · simp only [hallowed, hraws, hend, hany, hmarked, hcontent, List.takeWhile_cons, Bool.not_true,
      Bool.false_eq_true, if_false, List.length_nil, List.drop_zero]

namespace Setting

theorem Plain.oneLine_rawLine {s : Setting} (h : s.Plain) (indent : Nat) :
    OneLine (rawLine indent s) := by
  have hspace : isAllowed ' ' = true ∧ isLineEnd ' ' = false := by decide
  have hcolon : isAllowed ':' = true ∧ isLineEnd ':' = false := by decide
  have hcontent : ∀ c ∈ s.content, isAllowed c = true ∧ isLineEnd c = false := by
    have htag : ∀ tag : Tag, tag.name.toList.all (fun c => isAllowed c && !isLineEnd c) = true := by
      intro tag
      cases tag <;> decide
    unfold content
    cases s.tag with
    | none => exact h.value.oneLine
    | some tag =>
      intro c hc
      rcases List.mem_append.1 hc with hc | hc
      · simpa using List.all_eq_true.1 (htag tag) c hc
      · rcases List.mem_cons.1 hc with rfl | hc
        · exact hspace
        · exact h.value.oneLine c hc
  refine ⟨fun c hc => ?_, fun mark hmark => ?_⟩
  · simp only [rawLine, body, List.mem_append, List.mem_cons, List.mem_replicate] at hc
    rcases hc with ⟨-, rfl⟩ | hc | rfl | rfl | hc
    · exact hspace
    · exact h.key.oneLine c hc
    · exact hcolon
    · exact hspace
    · exact hcontent c hc
  · have hnone := isWordChar_of_mark hmark
    obtain ⟨c, rest, -, hc, hraw⟩ := h.rawLine_eq indent
    rw [hraw]
    cases indent with
    | zero => exact isMarker_cons hc rest hnone.1
    | succ n => simp [List.replicate_succ, isMarker, List.isPrefixOf, hnone.2]

end Setting

open Setting

variable {ss : List Setting}

theorem oneLine_of_mem_map (indent : Nat) (h : ∀ s ∈ ss, s.Plain) :
    ∀ raw ∈ ss.map (rawLine indent), OneLine raw := by
  intro raw hraw
  obtain ⟨s, hs, rfl⟩ := List.mem_map.1 hraw
  exact (h s hs).oneLine_rawLine indent

theorem ofNodes_of_readNode {fuel : Nat} {lines : List Line} {n : Node} (hne : lines ≠ [])
    (h : readNode fuel 0 lines = some (n, [])) : ofNodes fuel lines = some n := by
  unfold ofNodes
  split
  · exact absurd rfl hne
  · simp only [h]

theorem ends_nil {indent : Nat} : Ends indent [] := fun l hl => by simp at hl

/-- A text of settings is the mapping of its settings. -/
theorem compose?_settings (hne : ss ≠ []) (h : ∀ s ∈ ss, s.Plain) :
    compose? (ofLines (ss.map (rawLine 0))) = some (.mapping (ss.map entry)) := by
  have hlines : contentLines 0 false (ss.map (rawLine 0) ++ [[]]) = ss.map (contentLine 0) ++ [] :=
    contentLines_settings [[]] h
  have hlength := length_le_length_ofLines (ss.map (rawLine 0))
  rw [List.length_map] at hlength
  obtain ⟨s, others, hcons⟩ := List.exists_cons_of_ne_nil hne
  obtain ⟨c, body, -, hc, hraw⟩ := (h s (hcons ▸ List.mem_cons_self)).rawLine_eq 0
  have hraws : ss.map (rawLine 0) = rawLine 0 s :: others.map (rawLine 0) := by
    rw [hcons, List.map_cons]
  have hcompose := compose?_ofLines hraw hc (hraws ▸ oneLine_of_mem_map 0 h)
  rw [← List.cons_append, ← hraws, hlines] at hcompose
  rw [hcompose]
  exact ofNodes_of_readNode (by simpa using hne) (readNode_settings hne h ends_nil (by omega))

theorem oneLine_heading {name : List Char} (hname : IsWord name) : OneLine (name ++ [':']) := by
  constructor
  · intro c hc
    rcases List.mem_append.1 hc with hc | hc
    · exact hname.oneLine c hc
    · obtain rfl := List.mem_singleton.1 hc
      decide
  · intro mark hmark
    obtain ⟨c, rest, rfl, hc⟩ := hname.exists_cons
    exact isMarker_cons hc _ (isWordChar_of_mark hmark).1

theorem readKey?_heading {name : List Char} (hname : IsWord name) :
    readKey? (name ++ [':']) = some (plainScalar none name, []) := by
  have hplain : readPlain false (name ++ [':']) = (name, [':']) :=
    readPlain_word hname (by simp [spanPlain, startsValue])
  obtain ⟨c, rest, hcons, hc⟩ := hname.exists_cons
  unfold readKey?
  rw [hplain]
  simp only [hcons, List.cons_append, readQuoted?_cons hc, startsValue_cons hc, startsPlain_cons hc,
    if_true, Bool.false_eq_true, if_false]

/-- The line of a key with nothing behind its colon. -/
def heading (name : List Char) : Line := ⟨0, name ++ [':'], 0, false⟩

theorem contentLines_heading {name : List Char} (hname : IsWord name) (raws : List (List Char)) :
    contentLines 0 false ((name ++ [':']) :: raws) =
      heading name :: contentLines 0 false raws := by
  obtain ⟨c, rest, rfl, hc⟩ := hname.exists_cons
  rw [contentLines, List.cons_append]
  simp [heading, skipSpaces_cons hc, ne_of_isWordChar hc (d := '#') (by decide)]

/-- Settings below a key are read as the mapping at that key. -/
theorem readNode_section {name : List Char} {indent fuel : Nat} (hname : IsWord name)
    (hindent : 0 < indent) (hne : ss ≠ []) (h : ∀ s ∈ ss, s.Plain) (hfuel : ss.length < fuel) :
    readNode (fuel + 3) 0 (heading name :: (ss.map (contentLine indent) ++ [])) =
      some (.mapping [(plainScalar none name, .mapping (ss.map entry))], []) := by
  have hinner : readNode (fuel + 1) 1 (ss.map (contentLine indent) ++ []) =
      some (.mapping (ss.map entry), []) := readNode_settings hne h ends_nil hfuel
  have hitem : isItem (name ++ [':']) = false := by
    obtain ⟨c, rest, rfl, hc⟩ := hname.exists_cons
    exact isItem_cons hc _
  obtain ⟨s, others, hss⟩ := List.exists_cons_of_ne_nil hne
  rw [hss, List.map_cons, List.cons_append] at hinner ⊢
  have hdeeper : 0 < (contentLine indent s).indent := hindent
  have hempty : atEnd [] = true := rfl
  unfold readNode
  simp only [heading, hitem, readKey?_heading hname, Option.isSome_some, Bool.false_eq_true,
    if_false, if_true]
  unfold readEntries
  simp only [Nat.lt_irrefl, if_false, readKey?_heading hname, hempty, Bool.not_true,
    Bool.false_eq_true, hdeeper, if_true, Nat.zero_add, hinner]
  unfold readEntries
  rfl

theorem compose?_section {name : List Char} {indent : Nat} (hname : IsWord name)
    (hindent : 0 < indent) (hne : ss ≠ []) (h : ∀ s ∈ ss, s.Plain) :
    compose? (ofLines ((name ++ [':']) :: ss.map (rawLine indent))) =
      some (.mapping [(plainScalar none name, .mapping (ss.map entry))]) := by
  obtain ⟨c, rest, hcons, hc⟩ := hname.exists_cons
  have hfirst : name ++ [':'] = c :: (rest ++ [':']) := by rw [hcons, List.cons_append]
  have hlines : contentLines 0 false ((name ++ [':']) :: (ss.map (rawLine indent) ++ [[]])) =
      heading name :: (ss.map (contentLine indent) ++ []) :=
    (contentLines_heading hname _).trans
      (congrArg (heading name :: ·) (contentLines_settings [[]] h))
  have hlength := length_le_length_ofLines ((name ++ [':']) :: ss.map (rawLine indent))
  rw [List.length_cons, List.length_map] at hlength
  rw [compose?_ofLines hfirst hc
    (List.forall_mem_cons.2 ⟨oneLine_heading hname, oneLine_of_mem_map indent h⟩), hlines]
  obtain ⟨fuel, hfuel⟩ : ∃ fuel, 2 * (ofLines ((name ++ [':']) :: ss.map (rawLine indent))).length =
      fuel + 1 := ⟨_, (Nat.succ_pred_eq_of_pos (by omega)).symm⟩
  rw [hfuel]
  exact ofNodes_of_readNode (List.cons_ne_nil _ _)
    (readNode_section hname hindent hne h (by omega))

/-! ## Values -/

namespace Node

theorem read_of_errors_eq_nil {n : Node} (h : n.errors 0 = []) : n.read = .ok n.document := by
  simp [read, error?, h]

theorem mem_of_foldr_earlier {es : List (Nat × ReadError)} {e : Nat × ReadError}
    (h : es.foldr earlier none = some e) : e ∈ es := by
  induction es with
  | nil => simp at h
  | cons first es ih =>
    rw [List.foldr_cons] at h
    unfold earlier at h
    split at h
    · obtain rfl := Option.some.inj h
      exact List.mem_cons_self
    · rename_i found hfound
      split at h
      · obtain rfl := Option.some.inj h
        exact List.mem_cons_self
      · obtain rfl := Option.some.inj h
        exact List.mem_cons_of_mem _ (ih hfound)

/-- Of errors on one level the first one is met first. -/
theorem foldr_earlier {level : Nat} {e : ReadError} {es : List (Nat × ReadError)}
    (h : ∀ f ∈ es, f.1 = level) : ((level, e) :: es).foldr earlier none = some (level, e) := by
  rw [List.foldr_cons]
  unfold earlier
  split
  · rfl
  · rename_i found hfound
    rw [h found (mem_of_foldr_earlier hfound), if_pos (Nat.le_refl level)]

end Node

namespace Setting

open Node

/-- The key and the value of the setting. -/
structure Gives (s : Setting) (k v : Scalar) : Prop where
  key : plainScalar none s.key = .ok k
  value : plainScalar s.tag s.value = .ok v

/-- The entries that the settings make together. -/
def entries (ss : List Setting) : List (Scalar × Document) := entryDocuments [] (ss.map entry)

theorem entryErrors_settings (level : Nat) {ss : List Setting} (h : ∀ s ∈ ss, ∃ k v, s.Gives k v) :
    entryErrors level (ss.map entry) = [] := by
  induction ss with
  | nil => rfl
  | cons s ss ih =>
    obtain ⟨k, v, hs⟩ := h s List.mem_cons_self
    rw [List.map_cons, entry, entryErrors, hs.key, hs.value,
      ih fun t ht => h t (List.mem_cons_of_mem s ht)]
    rfl

theorem level_of_mem_entryErrors {level : Nat} {ss : List Setting} :
    ∀ f ∈ entryErrors level (ss.map entry), f.1 = level := by
  have hscalar : ∀ value : Value, ∀ f ∈ scalarErrors level value, f.1 = level := by
    intro value f hf
    cases value with
    | ok => simp [scalarErrors] at hf
    | error e => rw [List.mem_singleton.1 hf]
  induction ss with
  | nil => exact fun f hf => absurd hf List.not_mem_nil
  | cons s ss ih =>
    intro f hf
    rw [List.map_cons, entry, entryErrors, List.mem_append, List.mem_append] at hf
    rcases hf with hf | hf | hf
    · exact hscalar _ f hf
    · exact hscalar _ f hf
    · exact ih f hf

theorem entryErrors_append (level : Nat) (before after : List (Value × Node)) :
    entryErrors level (before ++ after) = entryErrors level before ++ entryErrors level after := by
  induction before with
  | nil => rfl
  | cons e before ih =>
    obtain ⟨key, n⟩ := e
    simp only [List.cons_append, entryErrors, ih, List.append_assoc]

theorem entryDocuments_append (acc : List (Scalar × Document))
    (before after : List (Value × Node)) :
    entryDocuments acc (before ++ after) = entryDocuments (entryDocuments acc before) after := by
  induction before generalizing acc with
  | nil => rfl
  | cons e before ih =>
    obtain ⟨key, n⟩ := e
    simp only [List.cons_append, entryDocuments, ih]

/-- The last of the settings with a key counts. -/
theorem has_entries {before after : List Setting} {s : Setting} {key : String} {v : Scalar}
    (hs : s.Gives (.text key) v) (hvalues : ∀ t ∈ after, ∃ k v, t.Gives k v ∧ k ≠ .text key) :
    Document.Has (entries (before ++ s :: after)) key (.scalar v) := by
  have hlast : ∀ acc, Document.lookup key (entryDocuments acc (after.map entry)) =
      Document.lookup key acc := by
    clear hs
    induction after with
    | nil => exact fun acc => rfl
    | cons t after ih =>
      intro acc
      obtain ⟨k, v, ht, hk⟩ := hvalues t List.mem_cons_self
      rw [List.map_cons, entry, entryDocuments, ht.key,
        ih fun u hu => hvalues u (List.mem_cons_of_mem t hu)]
      exact Document.lookup_put_of_ne hk _ acc
  rw [← Document.lookup_eq_some_iff, entries, List.map_append, entryDocuments_append, List.map_cons,
    entry, entryDocuments, hlast, hs.key, hs.value]
  exact Document.lookup_put_self key _ _

theorem gives_of_mem_entryDocuments {ss : List Setting} (h : ∀ s ∈ ss, ∃ k v, s.Gives k v)
    {acc : List (Scalar × Document)} {e : Scalar × Document}
    (he : e ∈ entryDocuments acc (ss.map entry)) :
    (∃ s ∈ ss, ∃ v, s.Gives e.1 v) ∨ ∃ e' ∈ acc, e'.1 = e.1 := by
  induction ss generalizing acc with
  | nil => exact .inr ⟨e, he, rfl⟩
  | cons s ss ih =>
    obtain ⟨k, v, hs⟩ := h s List.mem_cons_self
    rw [List.map_cons, entry, entryDocuments, hs.key] at he
    rcases ih (fun t ht => h t (List.mem_cons_of_mem s ht)) he with
      ⟨t, ht, hgives⟩ | ⟨e', he', heq⟩
    · exact .inl ⟨t, List.mem_cons_of_mem s ht, hgives⟩
    · rw [← heq]
      rcases Document.key_of_mem_put he' with hk | ⟨e'', he'', heq'⟩
      · exact .inl ⟨s, List.mem_cons_self, v, by rw [hk]; exact hs⟩
      · exact .inr ⟨e'', he'', heq'⟩

theorem exists_gives_of_mem_entries {ss : List Setting} (h : ∀ s ∈ ss, ∃ k v, s.Gives k v) :
    ∀ e ∈ entries ss, ∃ s ∈ ss, ∃ v, s.Gives e.1 v := fun _ he =>
  (gives_of_mem_entryDocuments h he).resolve_right fun ⟨_, hnil, _⟩ => absurd hnil List.not_mem_nil

end Setting

/-- **Settings that have values** are read as one mapping. -/
theorem read_settings (hne : ss ≠ []) (h : ∀ s ∈ ss, s.Plain)
    (hvalues : ∀ s ∈ ss, ∃ k v, s.Gives k v) :
    read (ofLines (ss.map (rawLine 0))) = .ok (.mapping (entries ss)) := by
  rw [read, compose?_settings hne h]
  exact Node.read_of_errors_eq_nil (entryErrors_settings 1 hvalues)

/-- Settings below a key that have values are read as the mapping at that key. -/
theorem read_section {name : List Char} {key : Scalar} {indent : Nat} (hname : IsWord name)
    (hkey : plainScalar none name = .ok key) (hindent : 0 < indent) (hne : ss ≠ [])
    (h : ∀ s ∈ ss, s.Plain) (hvalues : ∀ s ∈ ss, ∃ k v, s.Gives k v) :
    read (ofLines ((name ++ [':']) :: ss.map (rawLine indent))) =
      .ok (.mapping [(key, .mapping (entries ss))]) := by
  rw [read, compose?_section hname hindent hne h, hkey]
  have herrors : (Node.mapping [(.ok key, .mapping (ss.map entry))]).errors 0 = [] := by
    rw [Node.errors, Node.entryErrors, Node.errors, entryErrors_settings 2 hvalues]
    rfl
  exact Node.read_of_errors_eq_nil herrors

/-- **The first setting without a value** decides how reading fails. -/
theorem read_settings_error {before after : List Setting} {s : Setting} {k : Scalar} {e : ReadError}
    (h : ∀ t ∈ before ++ s :: after, t.Plain) (hbefore : ∀ t ∈ before, ∃ k v, t.Gives k v)
    (hkey : plainScalar none s.key = .ok k) (hvalue : plainScalar s.tag s.value = .error e) :
    read (ofLines ((before ++ s :: after).map (rawLine 0))) = .error e := by
  have herrors : (Node.mapping ((before ++ s :: after).map entry)).errors 0 =
      (1, e) :: Node.entryErrors 1 (after.map entry) := by
    rw [Node.errors, List.map_append, entryErrors_append, entryErrors_settings _ hbefore,
      List.map_cons, entry, Node.entryErrors, hkey, hvalue]
    rfl
  rw [read, compose?_settings (by simp) h]
  simp only [Node.read, Node.error?, herrors, Node.foldr_earlier level_of_mem_entryErrors,
    Option.map_some]

end SemverRange.Yaml
