import SemverRange.Proofs.Band.Reading
import SemverRange.Proofs.Partial.Faults
import SemverRange.Proofs.Version.Writing

/-!
# The language of candidates

**Cores** (`Version.Core`). A core is three numbers separated by points, then the qualifiers that
there are. A number is a run of digits of any script; what it counts for is its value, so cores of
different scripts may write one version. Identifiers are kept as they are written.

**Decoration** (`Version.Decorated`). Before a core there may be blanks, one `=` with blanks behind
it, and one `v`, in this order; behind it there may be blanks. A core starts with a digit and has no
blank in it, so what is taken off from the outside in is exactly the decoration.

**Writing.** The canonical text of a version that was read is a core with no decoration, and writes
that version.

Main result: `Version.parse_decides_language`.
-/

namespace SemverRange.Version

open Text

/-! ## Cores -/

/-- Digits within the limit, with no zero in front of others. -/
structure NumberText (cs : List Char) : Prop where
  ne_nil : cs ≠ []
  digits : ∀ c ∈ cs, isDigit c = true
  length_le : cs.length ≤ Numeral.limit
  length_of_zero : cs.head? = some '0' → cs.length = 1

/-- The text writes the version with nothing around it. -/
inductive Core : List Char → Version → Prop
  | core {major minor patch : List Char} {prerelease build : List String} :
      NumberText major → NumberText minor → NumberText patch →
      (∀ id ∈ prerelease, Written.isIdentifier id.toList = true ∧ ¬ Identifier.Padded id ∧
        ¬ Identifier.Oversized id) →
      (∀ id ∈ build, Written.isIdentifier id.toList = true ∧ ¬ Identifier.Oversized id) →
      Core (Written.text ⟨[major, minor, patch], prerelease.map (·.toList), build.map (·.toList)⟩)
        ⟨⟨Numeral.value major, Numeral.value minor, Numeral.value patch⟩, prerelease, build⟩

theorem NumberText.isNumeral {cs : List Char} (h : NumberText cs) :
    Numeral.isNumeral cs = true := by
  simp only [Numeral.isNumeral, Bool.and_eq_true, List.all_eq_true]
  exact ⟨by simpa using h.ne_nil, h.digits⟩

theorem component?_eq_some_iff {cs : List Char} {n : Int} :
    component? cs = some n ↔ NumberText cs ∧ n = Numeral.value cs := by
  constructor
  · intro h
    unfold component? at h
    split at h
    · exact absurd h (by simp)
    · rename_i hzero
      obtain ⟨m, hm, rfl⟩ := Option.map_eq_some_iff.1 h
      obtain ⟨hnumeral, hlength, rfl⟩ := Numeral.read?_eq_some_iff.1 hm
      refine ⟨⟨?_, Numeral.forall_mem_of_isNumeral hnumeral, hlength, fun hhead => ?_⟩, rfl⟩
      · rintro rfl
        exact absurd hnumeral (by decide)
      · simpa [hhead] using hzero
  · rintro ⟨h, rfl⟩
    have hzero : ¬ (cs.head? == some '0' && cs.length != 1) = true := by
      intro hneedless
      obtain ⟨hhead, hlength⟩ := Bool.and_eq_true_iff.1 hneedless
      have := h.length_of_zero (by simpa using hhead)
      simp [this] at hlength
    rw [component?, if_neg hzero, Numeral.read?_eq_some_iff.2 ⟨h.isNumeral, h.length_le, rfl⟩]
    rfl

/-- A number holds none of the marks that separate the parts of a version. -/
theorem NumberText.not_mem {cs : List Char} (h : NumberText cs) :
    '.' ∉ cs ∧ '-' ∉ cs ∧ '+' ∉ cs :=
  ⟨fun hc => ne_of_isDigit (h.digits _ hc) (d := '.') (by decide) rfl,
    fun hc => ne_of_isDigit (h.digits _ hc) (d := '-') (by decide) rfl,
    fun hc => ne_of_isDigit (h.digits _ hc) (d := '+') (by decide) rfl⟩

/-- What is read without any decoration is a core. -/
theorem readCore?_eq_some_iff_core {cs : List Char} {v : Version} :
    readCore? cs = some v ↔ Core cs v := by
  constructor
  · intro h
    obtain ⟨w, hread, hw⟩ := Option.bind_eq_some_iff.1 h
    obtain ⟨hwell, rfl⟩ := Written.read?_eq_some_iff.1 hread
    obtain ⟨core, prerelease, build⟩ := w
    unfold ofWritten? at hw
    split at hw
    · rename_i major minor patch hcore
      obtain rfl : core = [major, minor, patch] := hcore
      simp only [Option.bind_eq_bind, Option.bind_eq_some_iff, component?_eq_some_iff] at hw
      obtain ⟨a, ⟨hmajor, rfl⟩, b, ⟨hminor, rfl⟩, c, ⟨hpatch, rfl⟩, hparts⟩ := hw
      have hpre : ∀ id ∈ prerelease.map String.ofList, Written.isIdentifier id.toList = true := by
        simpa using hwell.prerelease
      have hbld : ∀ id ∈ build.map String.ofList, Written.isIdentifier id.toList = true := by
        simpa using hwell.build
      obtain ⟨hprerelease, hbuild, rfl⟩ := (ofParts?_eq_some_iff hpre hbld).1 hparts
      have hcs := Core.core hmajor hminor hpatch (fun id hid => ⟨hpre id hid, hprerelease id hid⟩)
        fun id hid => ⟨hbld id hid, hbuild id hid⟩
      simpa [Function.comp_def] using hcs
    · exact absurd hw (by simp)
  · intro h
    cases h with
    | @core major minor patch prerelease build hmajor hminor hpatch hprerelease hbuild =>
      have hwell : Written.WellFormed ⟨[major, minor, patch], prerelease.map (·.toList),
          build.map (·.toList)⟩ := by
        refine ⟨List.cons_ne_nil _ _, ?_, ?_, ?_⟩
        · simp [hmajor.not_mem, hminor.not_mem, hpatch.not_mem]
        · simpa using fun id hid => (hprerelease id hid).1
        · simpa using fun id hid => (hbuild id hid).1
      have hparts : ofParts? ⟨Numeral.value major, Numeral.value minor, Numeral.value patch⟩
          prerelease build = some ⟨_, prerelease, build⟩ :=
        (ofParts?_eq_some_iff (fun id hid => (hprerelease id hid).1)
          fun id hid => (hbuild id hid).1).2
          ⟨fun id hid => (hprerelease id hid).2, fun id hid => (hbuild id hid).2, rfl⟩
      have hids : ∀ ids : List String, (ids.map (·.toList)).map String.ofList = ids := by
        intro ids
        simp [Function.comp_def]
      simp only [readCore?, Written.read?_text hwell, Option.bind_some, ofWritten?, hids,
        component?_eq_some_iff.2 ⟨hmajor, rfl⟩, component?_eq_some_iff.2 ⟨hminor, rfl⟩,
        component?_eq_some_iff.2 ⟨hpatch, rfl⟩]
      exact hparts

theorem Core.exists_head {cs : List Char} {v : Version} (h : Core cs v) :
    ∃ c, cs.head? = some c ∧ isDigit c = true := by
  cases h with
  | @core major _ _ _ _ hmajor =>
    obtain ⟨c, ds, rfl⟩ := List.exists_cons_of_ne_nil hmajor.ne_nil
    exact ⟨c, Written.head?_text rfl hmajor.ne_nil, hmajor.digits c List.mem_cons_self⟩

/-- What a core is made of: digits, characters of identifiers, `.` and `+`. -/
theorem Core.not_mem {cs : List Char} {v : Version} (h : Core cs v) {c : Char}
    (hdigit : isDigit c = false) (hid : Written.isIdentifierChar c = false)
    (hmark : c ∉ ['.', '+']) : c ∉ cs := by
  simp only [List.mem_cons, List.not_mem_nil, or_false, not_or] at hmark
  have hminus : c ≠ '-' := by
    rintro rfl
    exact absurd hid (by decide)
  have hnumber : ∀ {piece : List Char}, NumberText piece → c ∉ piece := fun hpiece hmem => by
    rw [hpiece.digits c hmem] at hdigit
    exact absurd hdigit (by decide)
  have hidentifier : ∀ {id : String}, Written.isIdentifier id.toList = true → c ∉ id.toList :=
    fun hidentifier hmem => by
      rw [Partial.isIdentifierChar_of_isIdentifier hidentifier c hmem] at hid
      exact absurd hid (by decide)
  cases h with
  | core hmajor hminor hpatch hprerelease hbuild =>
    apply Written.not_mem_text hmark.1 hminus hmark.2
    · simp [hnumber hmajor, hnumber hminor, hnumber hpatch]
    · simpa using fun id hmem => hidentifier (hprerelease id hmem).1
    · simpa using fun id hmem => hidentifier (hbuild id hmem).1

theorem Core.isWord {cs : List Char} {v : Version} (h : Core cs v) : IsWord cs := by
  refine Partial.isWord_of_not_mem ?_ fun c hdigit hid hmark => h.not_mem hdigit hid ?_
  · rintro rfl
    obtain ⟨c, hc, -⟩ := h.exists_head
    exact absurd hc (by simp)
  · exact fun hmem => hmark (List.mem_cons_of_mem _ hmem)

/-! ## Decoration -/

/-- What may stand around a core: blanks, at most one `=` with blanks behind it, at most one `v`,
and blanks. -/
inductive Decorated (core : List Char) : List Char → Prop
  | decorated {gap sign mark gap' : List Char} : Gap gap →
      (sign = [] ∨ ∃ blanks, Gap blanks ∧ sign = '=' :: blanks) → (mark = [] ∨ mark = ['v']) →
      Gap gap' → Decorated core (gap ++ (sign ++ (mark ++ (core ++ gap'))))

section

variable {core cs : List Char} (hcore : IsWord core) (hmark : core.head? ≠ some 'v')
include hmark

/-- What was taken off is a decoration. -/
theorem decorated_of_undecorated (h : undecorated cs = core) : Decorated core cs := by
  obtain ⟨-, -, gap, gap', hgap, hgap', hcs⟩ := trim_eq_iff.1 (rfl : trim cs = _)
  unfold undecorated at h
  split at h
  · rename_i rest htrim
    obtain ⟨-, blanks, hblanks, hrest⟩ := trimStart_eq_iff.1 (rfl : trimStart rest = _)
    rw [hcs, htrim, hrest, ← List.cons_append, List.append_assoc]
    rcases (Written.dropMark_eq_iff hmark).1 h with hplain | hv
    · rw [hplain]
      exact .decorated hgap (.inr ⟨blanks, hblanks, rfl⟩) (.inl rfl) hgap'
    · rw [hv]
      exact .decorated hgap (.inr ⟨blanks, hblanks, rfl⟩) (.inr rfl) hgap'
  · rw [hcs]
    rcases (Written.dropMark_eq_iff hmark).1 h with hplain | hv
    · rw [hplain]
      exact .decorated hgap (.inl rfl) (.inl rfl) hgap'
    · rw [hv]
      exact .decorated hgap (.inl rfl) (.inr rfl) hgap'

include hcore

/-- A decoration is taken off, from a core that does not look like one. -/
theorem Decorated.undecorated (hsign : core.head? ≠ some '=') (h : Decorated core cs) :
    undecorated cs = core := by
  cases h with
  | @decorated gap sign mark gap' hgap hsigned hmarked hgap' =>
    have hflush : Flush (mark ++ core) := by
      rcases hmarked with rfl | rfl
      · exact hcore.flush
      · exact flush_cons (by decide) core
    have hend : Flush (sign ++ (mark ++ core)).reverse := by
      rw [List.reverse_append, List.reverse_append, List.append_assoc]
      exact hcore.reverse.flush_append _
    have hdrop : Written.dropMark 'v' (mark ++ core) = core := by
      refine (Written.dropMark_eq_iff hmark).2 ?_
      rcases hmarked with rfl | rfl
      · exact .inl rfl
      · exact .inr rfl
    rcases hsigned with rfl | ⟨blanks, hblanks, rfl⟩
    · have htrim : trim (gap ++ ([] ++ (mark ++ (core ++ gap')))) = mark ++ core :=
        trim_eq_iff.2 ⟨hflush, hend, gap, gap', hgap, hgap', by simp⟩
      rw [Version.undecorated, htrim]
      split
      · rename_i rest heq
        have hhead : (mark ++ core).head? = some '=' := by rw [heq, List.head?_cons]
        rcases hmarked with rfl | rfl
        · exact absurd hhead hsign
        · exact absurd (Option.some.inj hhead) (by decide)
      · exact hdrop
    · have htrim : trim (gap ++ (('=' :: blanks) ++ (mark ++ (core ++ gap')))) =
          '=' :: (blanks ++ (mark ++ core)) :=
        trim_eq_iff.2 ⟨flush_cons (by decide) _, hend, gap, gap', hgap, hgap', by simp⟩
      have hstart : trimStart (blanks ++ (mark ++ core)) = mark ++ core :=
        trimStart_eq_iff.2 ⟨hflush, blanks, hblanks, rfl⟩
      rw [Version.undecorated, htrim]
      simp only [hstart, hdrop]

end

/-- A core does not look like a part of its decoration. -/
theorem Core.head?_ne {cs : List Char} {v : Version} (h : Core cs v) {c : Char}
    (hc : isDigit c = false) : cs.head? ≠ some c := by
  obtain ⟨d, hd, hdigit⟩ := h.exists_head
  intro hhead
  rw [hd] at hhead
  exact ne_of_isDigit hdigit hc (Option.some.inj hhead)

/-- **A candidate is read as a decorated core.** -/
theorem parse_eq_ok_iff_decorated {s : String} {v : Version} :
    parse s = .ok v ↔ ∃ core, Decorated core s.toList ∧ Core core v := by
  rw [parse_eq_ok_iff]
  constructor
  · intro h
    have hcore := readCore?_eq_some_iff_core.1 h
    exact ⟨_, decorated_of_undecorated (hcore.head?_ne (by decide)) rfl, hcore⟩
  · rintro ⟨core, hdecorated, hcore⟩
    rw [hdecorated.undecorated hcore.isWord (hcore.head?_ne (by decide))
      (hcore.head?_ne (by decide))]
    exact readCore?_eq_some_iff_core.2 hcore

theorem parse_eq_error_iff {s : String} {e : InvalidVersion} :
    parse s = .error e ↔ e = ⟨s⟩ ∧ ¬ ∃ v, parse s = .ok v := by
  unfold parse
  cases readCore? (undecorated s.toList) with
  | none => simp [eq_comm]
  | some v => simp

/-! ## Canonical texts -/

theorem numberText_toDigits {n : Nat} (h : (Nat.toDigits 10 n).length ≤ Numeral.limit) :
    NumberText (Nat.toDigits 10 n) := by
  have hcanonical := Numeral.canonical_toDigits n
  exact ⟨hcanonical.ne_nil, fun c hc => Numeral.isDigit_of_ascii (hcanonical.ascii c hc), h,
    hcanonical.length_of_zero⟩

theorem numberText_of_text? {n : Int} {cs : List Char} (hn : 0 ≤ n)
    (h : Numeral.text? n = some cs) : NumberText cs ∧ n = Numeral.value cs := by
  obtain ⟨m, rfl⟩ := Int.eq_ofNat_of_zero_le hn
  obtain ⟨hlength, rfl⟩ := Option.ite_some_none_eq_some.1 h
  have hsign : ¬ (m : Int) < 0 := by omega
  have hdigits : Numeral.digits m = Nat.toDigits 10 m := by simp [Numeral.digits, hsign]
  rw [hdigits, Numeral.value_toDigits]
  exact ⟨numberText_toDigits hlength, rfl⟩

/-- A version as it can be read: natural numbers, and identifiers as they are in a core. -/
structure Regular (v : Version) : Prop where
  natural : v.IsNatural
  prerelease : ∀ id ∈ v.prerelease, Written.isIdentifier id.toList = true ∧
    ¬ Identifier.Padded id ∧ ¬ Identifier.Oversized id
  build : ∀ id ∈ v.build, Written.isIdentifier id.toList = true ∧ ¬ Identifier.Oversized id

/-- The text of a regular version is a core that writes it. -/
theorem Regular.core_of_text? {v : Version} (hv : v.Regular) {text : String}
    (h : v.text? = some text) : Core text.toList v := by
  obtain ⟨⟨hmajor, hminor, hpatch⟩, hprerelease, hbuild⟩ := hv
  obtain ⟨w, hw, rfl⟩ := Option.map_eq_some_iff.1 h
  simp only [written?, Option.bind_eq_bind, Option.bind_eq_some_iff, Option.pure_def,
    Option.some.injEq] at hw
  obtain ⟨major, hmajorText, minor, hminorText, patch, hpatchText, rfl⟩ := hw
  obtain ⟨hmajor, hmajorValue⟩ := numberText_of_text? hmajor hmajorText
  obtain ⟨hminor, hminorValue⟩ := numberText_of_text? hminor hminorText
  obtain ⟨hpatch, hpatchValue⟩ := numberText_of_text? hpatch hpatchText
  have hcore := Core.core hmajor hminor hpatch hprerelease hbuild
  rwa [← hmajorValue, ← hminorValue, ← hpatchValue, ← String.toList_ofList (l := Written.text _)]
    at hcore

theorem Core.regular {cs : List Char} {v : Version} (h : Core cs v) : v.Regular := by
  cases h with
  | core _ _ _ hprerelease hbuild =>
    exact ⟨⟨Int.natCast_nonneg _, Int.natCast_nonneg _, Int.natCast_nonneg _⟩, hprerelease, hbuild⟩

/-- A version that a core writes is written as a core. -/
theorem Core.exists_text? {cs : List Char} {v : Version} (h : Core cs v) :
    ∃ text, v.text? = some text ∧ Core text.toList v := by
  have hlt : ∀ {piece : List Char}, NumberText piece →
      (Numeral.value piece : Int).natAbs < 10 ^ Numeral.limit := fun hpiece =>
    natAbs_lt_of_component? (component?_eq_some_iff.2 ⟨hpiece, rfl⟩)
  have hwritable : v.toTriple.Writable := by
    cases h with
    | core hmajor hminor hpatch _ _ => exact ⟨hlt hmajor, hlt hminor, hlt hpatch⟩
  obtain ⟨text, htext⟩ := Version.exists_text? hwritable
  exact ⟨text, htext, h.regular.core_of_text? htext⟩

theorem Core.unique {cs : List Char} {v w : Version} (hv : Core cs v) (hw : Core cs w) : v = w := by
  have hread := readCore?_eq_some_iff_core.2 hv
  rw [readCore?_eq_some_iff_core.2 hw] at hread
  exact (Option.some.inj hread).symm

/-- **The language of candidates.** A text is a version if it is a decorated core, and it stands for
the version that the core writes; whatever else it is, the error has it as it is. The decoration
makes no difference, and the canonical text of a version that was read is read as that version. -/
theorem parse_decides_language (s : String) :
    (∀ v, parse s = .ok v ↔ ∃ core, Decorated core s.toList ∧ Core core v) ∧
    ((¬ ∃ core v, Decorated core s.toList ∧ Core core v) → parse s = .error ⟨s⟩) ∧
    (∀ (t : String) (core : List Char) (v : Version), Core core v → Decorated core s.toList →
      Decorated core t.toList → parse t = parse s) ∧
    ∀ v, parse s = .ok v → ∃ text, v.text? = some text ∧ parse text = .ok v := by
  refine ⟨fun v => parse_eq_ok_iff_decorated, fun hnone => ?_, fun t core v hcore hs ht => ?_,
    fun v hv => ?_⟩
  · refine parse_eq_error_iff.2 ⟨rfl, ?_⟩
    rintro ⟨v, hv⟩
    obtain ⟨core, hdecorated, hcore⟩ := parse_eq_ok_iff_decorated.1 hv
    exact hnone ⟨core, v, hdecorated, hcore⟩
  · rw [parse_eq_ok_iff_decorated.2 ⟨core, hs, hcore⟩,
      parse_eq_ok_iff_decorated.2 ⟨core, ht, hcore⟩]
  · obtain ⟨core, -, hcore⟩ := parse_eq_ok_iff_decorated.1 hv
    obtain ⟨text, htext, hcanonical⟩ := hcore.exists_text?
    refine ⟨text, htext, parse_eq_ok_iff_decorated.2 ⟨text.toList, ?_, hcanonical⟩⟩
    have hbare : Decorated text.toList _ := .decorated gap_nil (.inl rfl) (.inl rfl) gap_nil
    simpa using hbare

theorem parse_decides_language_arabic :
    parse "= v\u0660.2.3-a+007 " = .ok ⟨⟨0, 2, 3⟩, ["a"], ["007"]⟩ ∧
    parse "1.2" = .error ⟨"1.2"⟩ ∧
    parse "\u0660.2.3-a+007" = parse "= v\u0660.2.3-a+007 " ∧
    ∃ text, text? ⟨⟨0, 2, 3⟩, ["a"], ["007"]⟩ = some text ∧
      parse text = .ok ⟨⟨0, 2, 3⟩, ["a"], ["007"]⟩ := by
  have hnumber : ∀ c, isDigit c = true → NumberText [c] := fun c hc =>
    ⟨List.cons_ne_nil c [], List.forall_mem_singleton.2 hc, (by decide : 1 ≤ Numeral.limit),
      fun _ => rfl⟩
  have hmajor : NumberText ['\u0660'] := hnumber _ (by decide)
  have hminor : NumberText ['2'] := hnumber _ (by decide)
  have hpatch : NumberText ['3'] := hnumber _ (by decide)
  have hprerelease : ∀ id ∈ ["a"], Written.isIdentifier id.toList = true ∧
      ¬ Identifier.Padded id ∧ ¬ Identifier.Oversized id := by decide
  have hbuild : ∀ id ∈ ["007"], Written.isIdentifier id.toList = true ∧
      ¬ Identifier.Oversized id := by decide
  have hcore : Core "\u0660.2.3-a+007".toList ⟨⟨0, 2, 3⟩, ["a"], ["007"]⟩ :=
    .core hmajor hminor hpatch hprerelease hbuild
  have hgap : Gap [' '] := by decide
  have hsigned : Decorated "\u0660.2.3-a+007".toList "= v\u0660.2.3-a+007 ".toList :=
    .decorated gap_nil (.inr ⟨_, hgap, rfl⟩) (.inr rfl) hgap
  have hbare : Decorated "\u0660.2.3-a+007".toList "\u0660.2.3-a+007".toList :=
    .decorated gap_nil (.inl rfl) (.inl rfl) gap_nil
  have hread := ((parse_decides_language "= v\u0660.2.3-a+007 ").1 _).2 ⟨_, hsigned, hcore⟩
  refine ⟨hread, (parse_decides_language "1.2").2.1 ?_,
    (parse_decides_language _).2.2.1 _ _ _ hcore hsigned hbare,
    (parse_decides_language _).2.2.2 _ hread⟩
  rintro ⟨core, v, hdecorated, htwo⟩
  have hok := ((parse_decides_language "1.2").1 v).2 ⟨core, hdecorated, htwo⟩
  exact absurd hok (by simp [show parse "1.2" = .error ⟨"1.2"⟩ from rfl])

end SemverRange.Version
