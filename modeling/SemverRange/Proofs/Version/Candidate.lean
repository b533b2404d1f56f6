import SemverRange.Proofs.Partial.Numbers
import SemverRange.Version.Candidate

/-!
# Candidates and exact partial versions

Both notations write a version as three numbers with qualifiers, but each is read by a check of
its own: a candidate by taking its core for numerals, a partial version by its components.

**Components.** A number that is a component of a partial version is read alike as a piece of a
candidate (`component?_of_componentText`). Over ASCII no other piece is read: a first digit of
another script is a numeral, but not the start of a component.

**The decoration** of a candidate is no part of the version: what is left without it is a part of
the candidate.

Main result: `Version.readCore?_eq_some_iff`. An undecorated ASCII candidate is the text of an
exact partial version, and its version is the lowest of that.
-/

namespace SemverRange

open Partial (ComponentText)

/-! ## Results without their errors -/

theorem toOption_bind {ε α β : Type} (x : Except ε α) (f : α → Except ε β) :
    (x >>= f).toOption = x.toOption >>= fun a => (f a).toOption := by
  cases x <;> rfl

theorem eq_ok_of_toOption {ε α : Type} {x : Except ε α} {a : α} (h : x.toOption = some a) :
    x = .ok a := by
  cases x with
  | error e => exact absurd h (by simp [Except.toOption])
  | ok b => rw [Option.some.inj h]

/-! ## Components -/

namespace Text

theorem toNat_of_isDigit {c : Char} (h : isDigit c = true) (hascii : c.toNat < 128) :
    48 ≤ c.toNat ∧ c.toNat ≤ 57 := by
  have hrange := forall_isDigit
    (p := fun d => 128 ≤ d.toNat || (48 ≤ d.toNat && d.toNat ≤ 57)) (by decide +kernel) h
  simp only [Bool.or_eq_true, Bool.and_eq_true, decide_eq_true_eq] at hrange
  omega

end Text

namespace Partial

theorem componentText_of_isNumeral {cs : List Char} (hascii : ∀ c ∈ cs, c.toNat < 128)
    (h : Numeral.isNumeral cs = true) (hzero : cs.head? = some '0' → cs.length = 1) :
    ComponentText cs := by
  have hdigits := Numeral.forall_mem_of_isNumeral h
  cases cs with
  | nil => exact absurd h (by decide)
  | cons c ds =>
    by_cases hc : c = '0'
    · subst hc
      obtain rfl : ds = [] := by simpa using hzero rfl
      exact .zero
    · have hrange := Text.toNat_of_isDigit (hdigits c List.mem_cons_self)
        (hascii c List.mem_cons_self)
      have hne : c.toNat ≠ 48 := fun heq => hc (Char.toNat_inj.1 heq)
      apply isComponent_iff.1
      simp only [isComponent, Bool.or_eq_true, Bool.and_eq_true, decide_eq_true_eq,
        List.all_eq_true]
      refine .inr ⟨⟨by omega, hrange.2⟩, fun d hd => hdigits d (List.mem_cons_of_mem _ hd)⟩

theorem ComponentText.length_of_zero {cs : List Char} (h : ComponentText cs)
    (hzero : cs.head? = some '0') : cs.length = 1 := by
  cases h with
  | zero => rfl
  | number h1 _ _ =>
    obtain rfl := Option.some.inj hzero
    exact absurd h1 (by decide)
  | wildcard _ => rfl

end Partial

namespace Version

open Partial (isWildcard number)

/-- A component that is a number is read alike in a candidate. -/
theorem component?_of_componentText {s : String} (h : ComponentText s.toList)
    (hw : isWildcard (some s) = false) :
    component? s.toList = (number (some s)).toOption := by
  have hnumeral := Partial.isNumeral_of_componentText h hw
  have hzero : ¬ (s.toList.head? == some '0' && s.toList.length != 1) = true := by
    intro hneedless
    obtain ⟨hhead, hlength⟩ := Bool.and_eq_true_iff.1 hneedless
    have := h.length_of_zero (by simpa using hhead)
    simp [this] at hlength
  have htext : ∀ t, some s = some t → ComponentText t.toList := by
    intro t ht
    rwa [← Option.some.inj ht]
  rw [component?, if_neg hzero, Partial.number_eq htext]
  by_cases hlimit : s.toList.length ≤ Numeral.limit
  · simp [Numeral.read?, hnumeral, hlimit, Partial.value, hw, Except.toOption]
  · simp [Numeral.read?, hlimit, hw, Except.toOption]

theorem componentText_of_component? {s : String} (hascii : ∀ c ∈ s.toList, c.toNat < 128) {n : Int}
    (h : component? s.toList = some n) :
    ComponentText s.toList ∧ isWildcard (some s) = false := by
  unfold component? at h
  split at h
  · exact absurd h (by simp)
  · rename_i hzero
    obtain ⟨m, hm, -⟩ := Option.map_eq_some_iff.1 h
    have hnumeral := (Numeral.read?_eq_some_iff.1 hm).1
    refine ⟨Partial.componentText_of_isNumeral hascii hnumeral fun hhead => ?_,
      Partial.isWildcard_of_isNumeral hnumeral⟩
    simpa [hhead] using hzero

/-! ## The core -/

theorem toOption_lowest {p : Partial} (hexact : p.isExact = true) : p.lowest.toOption = (do
    let t : Triple := ⟨← (number p.major).toOption, ← (number p.minor).toOption,
      ← (number p.patch).toOption⟩
    ofParts? t p.prerelease p.build) := by
  obtain ⟨hmajor, hminor, hpatch⟩ := Partial.isExact_iff.1 hexact
  have hcheck : p.check = .ok () := by
    simp [Partial.check_eq_ok_iff, Partial.isMisshapen, hmajor, hminor, hpatch]
  have hqualified : ∀ t, (p.qualified t).toOption = ofParts? t p.prerelease p.build := by
    intro t
    rw [Partial.qualified, if_pos hexact]
    cases ofParts? t p.prerelease p.build <;> rfl
  rw [Partial.lowest, toOption_bind, Partial.triple, hcheck]
  simp only [toOption_bind, hqualified, bind_assoc]
  rfl

/-- The pieces of an exact partial version are read as its lowest version. -/
theorem ofWritten?_pieces {p : Partial} (hp : p.Spellable) (hexact : p.isExact = true) :
    ofWritten? p.pieces = p.lowest.toOption := by
  obtain ⟨hmajor, hminor, hpatch⟩ := Partial.isExact_iff.1 hexact
  obtain ⟨hmajorText, hminorText, hpatchText⟩ := hp.text_of_mem
  rw [toOption_lowest hexact]
  obtain ⟨major, minor, patch, prerelease, build⟩ := p
  cases minor with
  | none => exact absurd hminor (by simp [isWildcard])
  | some minor =>
    cases patch with
    | none => exact absurd hpatch (by simp [isWildcard])
    | some patch =>
      have hids : ∀ ids : List String, (ids.map (·.toList)).map String.ofList = ids := by
        intro ids
        simp [Function.comp_def]
      simp only [Partial.pieces, Partial.components, Option.toList_some, List.singleton_append,
        List.map_cons, List.map_nil, ofWritten?, hids]
      rw [component?_of_componentText (hmajorText _ rfl) hmajor,
        component?_of_componentText (hminorText _ rfl) hminor,
        component?_of_componentText (hpatchText _ rfl) hpatch]

/-- The pieces of an ASCII candidate are those of an exact partial version. -/
theorem exists_partial_of_ofWritten? {w : Written} (hw : w.WellFormed)
    (hascii : ∀ c ∈ w.text, c.toNat < 128) {v : Version} (h : ofWritten? w = some v) :
    ∃ p : Partial, p.Spellable ∧ p.isExact = true ∧ p.pieces = w := by
  have hpiece : ∀ piece ∈ w.core, ∀ n, component? piece = some n →
      ComponentText (String.ofList piece).toList ∧
        isWildcard (some (String.ofList piece)) = false := by
    intro piece hmem n hn
    refine componentText_of_component? (fun c hc => hascii c ?_) (by rwa [String.toList_ofList])
    rw [String.toList_ofList] at hc
    have hcore : c ∈ Written.dotted w.core := Text.mem_intercalate hmem hc
    simp [Written.text, hcore]
  obtain ⟨core, prerelease, build⟩ := w
  unfold ofWritten? at h
  split at h
  · rename_i major minor patch hcore
    obtain rfl : core = [major, minor, patch] := hcore
    obtain ⟨a, ha, h⟩ := Option.bind_eq_some_iff.1 h
    obtain ⟨b, hb, h⟩ := Option.bind_eq_some_iff.1 h
    obtain ⟨c, hc, -⟩ := Option.bind_eq_some_iff.1 h
    obtain ⟨hmajorText, hmajor⟩ := hpiece major (by simp) a ha
    obtain ⟨hminorText, hminor⟩ := hpiece minor (by simp) b hb
    obtain ⟨hpatchText, hpatch⟩ := hpiece patch (by simp) c hc
    refine ⟨⟨String.ofList major, some (String.ofList minor), some (String.ofList patch),
      prerelease.map String.ofList, build.map String.ofList⟩, ⟨?_, ?_, ?_, ?_⟩, ?_, ?_⟩
    · simpa [Partial.components] using
        And.intro hmajorText (And.intro hminorText hpatchText)
    · exact fun hnone => absurd hnone (by simp)
    · simpa using hw.prerelease
    · simpa using hw.build
    · exact Partial.isExact_iff.2 ⟨hmajor, hminor, hpatch⟩
    · simp [Partial.pieces, Partial.components, Function.comp_def]
  · exact absurd h (by simp)

/-- An undecorated ASCII candidate is an exact partial version, and stands for its lowest version.
-/
theorem readCore?_eq_some_iff {cs : List Char} (hascii : ∀ c ∈ cs, c.toNat < 128) {v : Version} :
    readCore? cs = some v ↔ ∃ p : Partial, p.Spellable ∧ p.isExact = true ∧ p.pieces.text = cs ∧
      p.lowest = .ok v := by
  constructor
  · intro h
    obtain ⟨w, hread, hw⟩ := Option.bind_eq_some_iff.1 h
    obtain ⟨hwell, rfl⟩ := Written.read?_eq_some_iff.1 hread
    obtain ⟨p, hp, hexact, rfl⟩ := exists_partial_of_ofWritten? hwell hascii hw
    rw [ofWritten?_pieces hp hexact] at hw
    exact ⟨p, hp, hexact, rfl, eq_ok_of_toOption hw⟩
  · rintro ⟨p, hp, hexact, rfl, hlowest⟩
    have hread := Written.read?_eq_some_iff.2 ⟨Partial.wellFormed_pieces hp, rfl⟩
    rw [readCore?, hread, Option.bind_some, ofWritten?_pieces hp hexact, hlowest]
    rfl

/-! ## The decoration -/

theorem mem_of_mem_dropMark {mark c : Char} {cs : List Char} (h : c ∈ Written.dropMark mark cs) :
    c ∈ cs := by
  rcases Written.eq_or_eq_of_dropMark (rfl : Written.dropMark mark cs = _) with heq | heq
  · rwa [heq]
  · rw [heq]
    exact List.mem_cons_of_mem _ h

theorem mem_of_mem_undecorated {c : Char} {cs : List Char} (h : c ∈ undecorated cs) : c ∈ cs := by
  obtain ⟨-, -, gap, gap', -, -, hcs⟩ := Text.trim_eq_iff.1 (rfl : Text.trim cs = _)
  have htrim : c ∈ Text.trim cs := by
    unfold undecorated at h
    split at h
    · rename_i rest heq
      rw [heq]
      exact List.mem_cons_of_mem _ ((List.dropWhile_sublist _).subset (mem_of_mem_dropMark h))
    · exact mem_of_mem_dropMark h
  rw [hcs]
  simp [htrim]

theorem parse_eq_ok_iff {s : String} {v : Version} :
    parse s = .ok v ↔ readCore? (undecorated s.toList) = some v := by
  unfold parse
  cases readCore? (undecorated s.toList) with
  | none => simp
  | some w => simp

theorem exists_components_of_parse {s : String} {v : Version} (h : parse s = .ok v) :
    ∃ major minor patch, component? major = some v.major ∧ component? minor = some v.minor ∧
      component? patch = some v.patch := by
  obtain ⟨pieces, -, hpieces⟩ := Option.bind_eq_some_iff.1 (parse_eq_ok_iff.1 h)
  unfold ofWritten? at hpieces
  split at hpieces
  · rename_i major minor patch _
    simp only [Option.bind_eq_bind, Option.bind_eq_some_iff] at hpieces
    obtain ⟨a, ha, b, hb, c, hc, hparts⟩ := hpieces
    unfold ofParts? at hparts
    split at hparts
    · obtain rfl := Option.some.inj hparts
      exact ⟨major, minor, patch, ha, hb, hc⟩
    · exact absurd hparts (by simp)
  · exact absurd hpieces (by simp)

end Version

end SemverRange
