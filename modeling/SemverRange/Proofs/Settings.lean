import SemverRange.Proofs.Document.Integers
import SemverRange.Proofs.Numeral
import SemverRange.Proofs.Text.Words
import SemverRange.Settings

/-!
# Which source decides

**Words** (`Settings.Says`). A text says yes or no if it is one of eight words, but for case and
blanks around it. Of a configured value that is no text its written form counts
(`Document.Says`): a truth value says itself, the numbers one and zero are words, and nothing else
is, since all other forms have a sign, a point or a bracket in them.

**Precedence** (`Settings.Effective`). The command line comes first, then the environment, then
the configuration. A source that says nothing is passed over.

Main results: `Settings.effective_of_resolve` and `Settings.resolve_eq_error_iff`.
-/

namespace SemverRange

open Text

/-! ## Words -/

namespace Settings

/-- The words that say yes, or no. -/
def wordsFor (b : Bool) : List String :=
  if b then ["1", "true", "yes", "on"] else ["0", "false", "no", "off"]

/-- The text says yes, or no: it is such a word, whatever its case and the blanks around it. -/
def Says (s : String) (b : Bool) : Prop :=
  lowerAscii (String.ofList (trim s.toList)) ∈ wordsFor b

instance (s : String) (b : Bool) : Decidable (Says s b) := inferInstanceAs (Decidable (_ ∈ _))

theorem truthWord?_eq_some_iff {s : String} {b : Bool} : truthWord? s = some b ↔ Says s b := by
  unfold truthWord? Says
  generalize lowerAscii (String.ofList (trim s.toList)) = word
  have hdisjoint : ∀ w ∈ wordsFor true, w ∉ wordsFor false := by decide
  show (if (wordsFor true).contains word then some true
    else if (wordsFor false).contains word then some false else none) = some b ↔ _
  by_cases htrue : word ∈ wordsFor true
  · have hfalse := hdisjoint word htrue
    rw [if_pos (List.contains_iff_mem.2 htrue)]
    cases b <;> simp [htrue, hfalse]
  · rw [if_neg fun h => htrue (List.contains_iff_mem.1 h)]
    cases b <;> simp [htrue]

/-! ## Texts of digits, and texts that are no words -/

theorem says_digits_iff {cs : List Char} (h : ∀ c ∈ cs, c.isDigit = true) {b : Bool} :
    Says (String.ofList cs) b ↔ String.ofList cs ∈ wordsFor b := by
  have hchars : ∀ c ∈ cs, isBlank c = false ∧ c.toLower = c := fun c hc => by
    have hall : ∀ k < 58, 48 ≤ k →
        isBlank (Char.ofNat k) = false ∧ (Char.ofNat k).toLower = Char.ofNat k := by decide
    have hdigit := h c hc
    simp only [Char.isDigit, Bool.and_eq_true, decide_eq_true_eq, UInt32.le_iff_toNat_le] at hdigit
    have hc := hall c.toNat (Nat.lt_succ_of_le hdigit.2) hdigit.1
    rwa [Char.ofNat_toNat] at hc
  have htrim : trim cs = cs := stripBy_eq_self fun c hc => (hchars c hc).1
  have hlower : cs.map Char.toLower = cs :=
    (List.map_congr_left fun c hc => (hchars c hc).2).trans (List.map_id' cs)
  rw [Says, String.toList_ofList, htrim, lowerAscii, String.toList_ofList, hlower]

/-- Characters that are in no word. -/
def isMark (c : Char) : Bool := ['.', '+', '-', '[', '\x7b'].contains c

theorem not_says_of_isMark {s : String} {c : Char} (hc : c ∈ s.toList) (hmark : isMark c = true)
    (b : Bool) : ¬ Says s b := by
  intro h
  have hwords : ∀ b, ∀ w ∈ wordsFor b, w.toList.all (!isMark ·) = true := by decide
  have hmarks :
      ['.', '+', '-', '[', '\x7b'].all (fun c => !isBlank c && c.toLower == c) = true := by decide
  obtain ⟨hblank, hlower⟩ : isBlank c = false ∧ c.toLower = c := by
    simpa using List.all_eq_true.1 hmarks c (List.contains_iff_mem.1 hmark)
  have hmem : c ∈ (lowerAscii (String.ofList (trim s.toList))).toList := by
    rw [lowerAscii, String.toList_ofList, String.toList_ofList, ← hlower]
    exact List.mem_map_of_mem (mem_trim hc hblank)
  have hnone := List.all_eq_true.1 (hwords b _ h) c hmem
  rw [hmark] at hnone
  exact absurd hnone (by decide)

end Settings

/-! ## Numbers -/

namespace Binary64

/-- Digits are laid out around a point, or with a signed exponent. -/
theorem exists_isMark_of_layout (ds : List Char) (point : Int) :
    ∃ c ∈ layout ds point, Settings.isMark c = true := by
  unfold layout
  by_cases hposition : -4 < point ∧ point ≤ 16
  · rw [if_pos hposition]
    refine ⟨'.', ?_, by decide⟩
    by_cases hfront : point ≤ 0
    · simp [hfront]
    · by_cases hlength : ds.length ≤ point.toNat
      · simp [hfront, hlength]
      · simp [hfront, hlength]
  · rw [if_neg hposition]
    refine ⟨if point - 1 < 0 then '-' else '+', by simp, ?_⟩
    by_cases hnegative : point - 1 < 0
    · rw [if_pos hnegative]
      decide
    · rw [if_neg hnegative]
      decide

/-- A floating-point number is written as no word. -/
theorem not_says_text (x : Binary64) (b : Bool) : ¬ Settings.Says x.text b := by
  cases x with
  | nan => cases b <;> decide +kernel
  | infinite negative => cases negative <;> cases b <;> decide +kernel
  | finite negative m e =>
    obtain ⟨c, hc, hmark⟩ : ∃ c ∈ (finite negative m e).text.toList, Settings.isMark c = true := by
      rw [text, String.toList_ofList]
      by_cases hzero : m = 0
      · rw [if_pos hzero]
        exact ⟨'.', by simp, by decide⟩
      · rw [if_neg hzero]
        obtain ⟨c, hc, hmark⟩ := exists_isMark_of_layout _ _
        exact ⟨c, List.mem_append_right _ hc, hmark⟩
    exact Settings.not_says_of_isMark hc hmark b

end Binary64

namespace Numeral

/-- Only one and zero are written as words. -/
theorem says_text_iff {n : Int} {cs : List Char} (h : text? n = some cs) (b : Bool) :
    Settings.Says (String.ofList cs) b ↔ (n = 1 ∧ b = true) ∨ (n = 0 ∧ b = false) := by
  obtain rfl : digits n = cs := by
    unfold text? at h
    split at h
    · exact Option.some.inj h
    · exact absurd h (by simp)
  by_cases hnegative : n < 0
  · have hmark : ¬ Settings.Says (String.ofList (digits n)) b :=
      Settings.not_says_of_isMark (c := '-') (by simp [digits, hnegative]) (by decide) b
    simp only [hmark, false_iff, not_or, not_and]
    exact ⟨fun h => by omega, fun h => by omega⟩
  · obtain ⟨k, rfl⟩ := Int.eq_ofNat_of_zero_le (Int.not_lt.1 hnegative)
    have hdigits : digits k = Nat.toDigits 10 k := by simp [digits]
    have hdigit : ∀ c ∈ Nat.toDigits 10 k, c.isDigit = true := fun c hc =>
      Nat.isDigit_of_mem_toDigits (by decide : 0 < 10) (by decide) hc
    have hwords : ∀ b, ∀ w ∈ Settings.wordsFor b, w.toList.all Char.isDigit = true →
        w.toList = if b then ['1'] else ['0'] := by decide
    have hvalue := Nat.ofDigitChars_ten_toDigits (n := k)
    rw [hdigits, Settings.says_digits_iff hdigit]
    constructor
    · intro hmem
      have hword := hwords b _ hmem (by rwa [String.toList_ofList, List.all_eq_true])
      rw [String.toList_ofList] at hword
      rw [hword] at hvalue
      cases b with
      | true => exact .inl ⟨by rw [← hvalue]; rfl, rfl⟩
      | false => exact .inr ⟨by rw [← hvalue]; rfl, rfl⟩
    · rintro (⟨hone, rfl⟩ | ⟨hzero, rfl⟩)
      · obtain rfl : k = 1 := by omega
        decide
      · obtain rfl : k = 0 := by omega
        decide

end Numeral

/-! ## Configured values -/

/-- The configured value says yes, or no. -/
inductive Document.Says : Document → Bool → Prop
  | bool (b : Bool) : Says (.scalar (.bool b)) b
  | text {s : String} {b : Bool} : Settings.Says s b → Says (.scalar (.text s)) b
  | one : Says (.scalar (.int 1)) true
  | zero : Says (.scalar (.int 0)) false

/-- A value that is neither a truth value nor a text says what its written form says. -/
theorem Document.says_display?_iff {d : Document} (hbool : ∀ b, d ≠ .scalar (.bool b))
    (htext : ∀ s, d ≠ .scalar (.text s)) {shown : String} (h : d.display? = some shown) (b : Bool) :
    Settings.Says shown b ↔ d.Says b := by
  have hmarked : ∀ {c}, c ∈ shown.toList → Settings.isMark c = true → ¬ Settings.Says shown b :=
    fun hc hmark => Settings.not_says_of_isMark hc hmark b
  match d with
  | .scalar .null =>
    obtain rfl : "None" = shown := Option.some.inj h
    have hnot : ¬ Settings.Says "None" b := by cases b <;> decide +kernel
    exact ⟨fun hmeans => absurd hmeans hnot, fun hmeans => nomatch hmeans⟩
  | .scalar (.bool b) => exact absurd rfl (hbool b)
  | .scalar (.int n) =>
    obtain ⟨cs, hcs, rfl⟩ := Option.map_eq_some_iff.1 h
    rw [Numeral.says_text_iff hcs]
    constructor
    · rintro (⟨rfl, rfl⟩ | ⟨rfl, rfl⟩)
      · exact .one
      · exact .zero
    · intro hmeans
      cases hmeans with
      | one => exact .inl ⟨rfl, rfl⟩
      | zero => exact .inr ⟨rfl, rfl⟩
  | .scalar (.float x) =>
    obtain rfl : x.text = shown := Option.some.inj h
    exact ⟨fun hmeans => absurd hmeans (x.not_says_text b), fun hmeans => nomatch hmeans⟩
  | .scalar (.text s) => exact absurd rfl (htext s)
  | .list items =>
    obtain ⟨ts, -, rfl⟩ := Option.map_eq_some_iff.1 h
    exact ⟨fun hmeans => absurd hmeans (hmarked (c := '[') (by simp) (by decide)),
      fun hmeans => nomatch hmeans⟩
  | .mapping entries =>
    obtain ⟨ts, -, rfl⟩ := Option.map_eq_some_iff.1 h
    exact ⟨fun hmeans => absurd hmeans (hmarked (c := '\x7b') (by simp) (by decide)),
      fun hmeans => nomatch hmeans⟩

namespace Settings

theorem truthValue?_cases (d : Document) : (∃ b, d = .scalar (.bool b)) ∨
    (∃ s, d = .scalar (.text s)) ∨ ((∀ b, d ≠ .scalar (.bool b)) ∧
      (∀ s, d ≠ .scalar (.text s)) ∧ truthValue? d = match d.display? with
        | some s => .ok (truthWord? s)
        | none => .error .number) := by
  match d with
  | .scalar (.bool b) => exact .inl ⟨b, rfl⟩
  | .scalar (.text s) => exact .inr (.inl ⟨s, rfl⟩)
  | .scalar .null | .scalar (.int n) | .scalar (.float x) | .list items | .mapping entries =>
    exact .inr (.inr ⟨by simp, by simp, rfl⟩)

/-- A configured value is taken for what it says, if its integers can be written. -/
theorem eq_some_iff_says {d : Document} {o : Option Bool} (h : truthValue? d = .ok o) (b : Bool) :
    o = some b ↔ d.Says b := by
  rcases truthValue?_cases d with ⟨c, rfl⟩ | ⟨s, rfl⟩ | ⟨hbool, htext, hwritten⟩
  · obtain rfl : some c = o := Except.ok.inj h
    rw [Option.some.injEq]
    constructor
    · rintro rfl
      exact .bool c
    · intro hmeans
      cases hmeans
      rfl
  · obtain rfl : truthWord? s = o := Except.ok.inj h
    rw [truthWord?_eq_some_iff]
    constructor
    · exact .text
    · intro hmeans
      cases hmeans with
      | text hmeans => exact hmeans
  · rw [hwritten] at h
    cases hshown : d.display? with
    | none =>
      rw [hshown] at h
      exact absurd h (by simp)
    | some shown =>
      rw [hshown] at h
      obtain rfl : truthWord? shown = o := Except.ok.inj h
      rw [truthWord?_eq_some_iff]
      exact Document.says_display?_iff hbool htext hshown b

/-- Only an integer that is too long keeps a value from being looked at. -/
theorem truthValue?_eq_error_iff {d : Document} :
    truthValue? d = .error .number ↔ d.Unwritable := by
  rcases truthValue?_cases d with ⟨c, rfl⟩ | ⟨s, rfl⟩ | ⟨-, -, hwritten⟩
  · simp [truthValue?, Document.unwritable_scalar_iff]
  · simp [truthValue?, Document.unwritable_scalar_iff]
  · rw [hwritten, ← Document.display?_eq_none_iff]
    cases d.display? <;> simp

/-! ## Precedence -/

/-- The environment says yes, or no. -/
def EnvironmentSays (env : String → Option String) (b : Bool) : Prop :=
  ∃ s, env prereleaseVariable = some s ∧ Says s b

/-- The configuration says yes, or no. -/
def ConfigurationSays (config : List (Scalar × Document)) (b : Bool) : Prop :=
  ∃ d, Document.Has config "include_prerelease" d ∧ d.Says b

/-- The configuration has a value for the treatment of pre-releases, but a number in it is too long
to be written. -/
def Overlong (config : List (Scalar × Document)) : Prop :=
  ∃ d, Document.Has config "include_prerelease" d ∧ d.Unwritable

/-- Whether pre-releases are included: the command line comes before the environment, and that
before what the configuration says. A source that says nothing is passed over. -/
inductive Effective (given : Bool) (env : String → Option String) (told : Bool → Prop) : Bool → Prop
  | commandLine : given = true → Effective given env told true
  | environment {b : Bool} : given = false → EnvironmentSays env b → Effective given env told b
  | configuration {b : Bool} : given = false → (∀ c, ¬ EnvironmentSays env c) → told b →
      Effective given env told b
  | default : given = false → (∀ c, ¬ EnvironmentSays env c) → (∀ c, ¬ told c) →
      Effective given env told false

theorem environmentSays_iff {env : String → Option String} {b : Bool} :
    (env prereleaseVariable).bind truthWord? = some b ↔ EnvironmentSays env b := by
  simp only [Option.bind_eq_some_iff, truthWord?_eq_some_iff, EnvironmentSays]

theorem configured_eq_error_iff {config : List (Scalar × Document)} :
    configured config = .error .number ↔ Overlong config := by
  unfold configured Overlong
  simp only [← Document.lookup_eq_some_iff]
  cases Document.lookup "include_prerelease" config with
  | none => simp [pure, Except.pure]
  | some d =>
    simp only [Option.some.injEq, exists_eq_left', ← truthValue?_eq_error_iff]
    cases truthValue? d with
    | error e => cases e; simp [bind, Except.bind]
    | ok o => cases o <;> simp [bind, Except.bind, pure, Except.pure]

theorem configurationSays_iff {config : List (Scalar × Document)} {o : Option Bool}
    {warnings : List Record} (h : configured config = .ok (o, warnings)) (b : Bool) :
    o = some b ↔ ConfigurationSays config b := by
  unfold configured at h
  unfold ConfigurationSays
  simp only [← Document.lookup_eq_some_iff]
  cases hlookup : Document.lookup "include_prerelease" config with
  | none =>
    rw [hlookup] at h
    obtain ⟨rfl, -⟩ := Prod.mk.inj (Except.ok.inj h)
    simp
  | some d =>
    rw [hlookup] at h
    simp only [Option.some.injEq, exists_eq_left']
    cases hvalue : truthValue? d with
    | error e =>
      simp only [hvalue] at h
      exact absurd h (by simp [bind, Except.bind])
    | ok found =>
      rw [← eq_some_iff_says hvalue b]
      simp only [hvalue] at h
      cases found with
      | none =>
        obtain ⟨rfl, -⟩ := Prod.mk.inj (Except.ok.inj h)
        rfl
      | some c =>
        obtain ⟨rfl, -⟩ := Prod.mk.inj (Except.ok.inj h)
        rfl

theorem resolve_of_configured {o : Overrides} {env : String → Option String}
    {config : List (Scalar × Document)} {fromConfig : Option Bool} {warnings : List Record}
    (h : configured config = .ok (fromConfig, warnings)) : resolve o env config =
      .ok (⟨o.includePrerelease ||
          ((((env prereleaseVariable).bind truthWord?).or fromConfig).getD false),
        ((overridingLevel? o).or (((env levelVariable).bind levelName?).or
          (configuredLevel? config))).getD Level.info.name⟩, warnings) := by
  unfold resolve
  rw [h]
  rfl

theorem resolve_eq_error_iff {o : Overrides} {env : String → Option String}
    {config : List (Scalar × Document)} :
    resolve o env config = .error .number ↔ Overlong config := by
  rw [← configured_eq_error_iff]
  cases h : configured config with
  | error e =>
    unfold resolve
    rw [h]
    cases e
    simp [bind, Except.bind]
  | ok found => simp [resolve_of_configured h]

/-- **The settings have what the first source says** that says anything. -/
theorem effective_of_resolve {o : Overrides} {env : String → Option String}
    {config : List (Scalar × Document)} {settings : Settings} {warnings : List Record}
    (h : resolve o env config = .ok (settings, warnings)) :
    Effective o.includePrerelease env (ConfigurationSays config) settings.includePrerelease := by
  cases hconfig : configured config with
  | error e =>
    cases e
    rw [resolve_eq_error_iff.2 (configured_eq_error_iff.1 hconfig)] at h
    exact absurd h (by simp)
  | ok found =>
    obtain ⟨fromConfig, reported⟩ := found
    have hmeans := configurationSays_iff hconfig
    rw [resolve_of_configured hconfig] at h
    obtain ⟨rfl, -⟩ := Prod.mk.inj (Except.ok.inj h)
    simp only
    cases hgiven : o.includePrerelease with
    | true => exact .commandLine rfl
    | false =>
      rw [Bool.false_or]
      cases henv : (env prereleaseVariable).bind truthWord? with
      | some b => exact .environment rfl (environmentSays_iff.1 henv)
      | none =>
        have hsilent : ∀ c, ¬ EnvironmentSays env c := fun c hc => by
          rw [environmentSays_iff.2 hc] at henv
          exact absurd henv (by simp)
        cases fromConfig with
        | some b => exact .configuration rfl hsilent ((hmeans b).1 rfl)
        | none => exact .default rfl hsilent fun c hc => absurd ((hmeans c).2 hc) (by simp)

theorem EnvironmentSays.unique {env : String → Option String} {b c : Bool}
    (hb : EnvironmentSays env b) (hc : EnvironmentSays env c) : b = c :=
  Option.some.inj ((environmentSays_iff.2 hb).symm.trans (environmentSays_iff.2 hc))

theorem Says.unique {s : String} {b c : Bool} (hb : Says s b) (hc : Says s c) : b = c :=
  Option.some.inj ((truthWord?_eq_some_iff.2 hb).symm.trans (truthWord?_eq_some_iff.2 hc))

theorem ConfigurationSays.unique {config : List (Scalar × Document)} {b c : Bool}
    (hb : ConfigurationSays config b) (hc : ConfigurationSays config c) : b = c := by
  obtain ⟨d, hd, hmeans⟩ := hb
  obtain ⟨d', hd', hmeans'⟩ := hc
  obtain rfl := hd.unique hd'
  cases hmeans with
  | bool => cases hmeans'; rfl
  | text hs => cases hmeans' with | text hs' => exact hs.unique hs'
  | one => cases hmeans'; rfl
  | zero => cases hmeans'; rfl

/-- A value that says something can be written. -/
theorem ConfigurationSays.not_overlong {config : List (Scalar × Document)} {b : Bool}
    (h : ConfigurationSays config b) : ¬ Overlong config := by
  obtain ⟨d, hd, hsays⟩ := h
  rintro ⟨d', hd', hunwritable⟩
  obtain rfl := hd.unique hd'
  cases hsays with
  | bool | text =>
    obtain ⟨n, hn, -⟩ := Document.unwritable_scalar_iff.1 hunwritable
    exact absurd hn (by simp)
  | one | zero =>
    obtain ⟨n, hn, hlong⟩ := Document.unwritable_scalar_iff.1 hunwritable
    cases hn
    exact absurd hlong (by decide)

section

variable {given : Bool} {env env' : String → Option String} {told told' : Bool → Prop}
  {b c : Bool}

/-- One treatment of pre-releases is effective if the configuration does not say both. -/
theorem Effective.unique (htold : ∀ {b c}, told b → told c → b = c)
    (hb : Effective given env told b) (hc : Effective given env told c) : b = c := by
  have habsurd : given = true → given = false → False := fun h h' => by
    rw [h] at h'
    exact absurd h' (by decide)
  cases hb with
  | commandLine hgiven =>
    cases hc with
    | commandLine => rfl
    | environment hnot | configuration hnot | default hnot => exact (habsurd hgiven hnot).elim
  | environment hnot hmeans =>
    cases hc with
    | commandLine hgiven => exact (habsurd hgiven hnot).elim
    | environment _ hmeans' => exact hmeans.unique hmeans'
    | configuration _ hsilent | default _ hsilent => exact absurd hmeans (hsilent _)
  | configuration hnot hsilent hmeans =>
    cases hc with
    | commandLine hgiven => exact (habsurd hgiven hnot).elim
    | environment _ hmeans' => exact absurd hmeans' (hsilent _)
    | configuration _ _ hmeans' => exact htold hmeans hmeans'
    | default _ _ hnone => exact absurd hmeans (hnone _)
  | default hnot hsilent hnone =>
    cases hc with
    | commandLine hgiven => exact (habsurd hgiven hnot).elim
    | environment _ hmeans => exact absurd hmeans (hsilent _)
    | configuration _ _ hmeans => exact absurd hmeans (hnone _)
    | default => rfl

/-- Sources that say the same have the same effect. -/
theorem Effective.congr (h : Effective given env told b)
    (henv : ∀ c, EnvironmentSays env c ↔ EnvironmentSays env' c) (htold : ∀ c, told c ↔ told' c) :
    Effective given env' told' b := by
  cases h with
  | commandLine hgiven => exact .commandLine hgiven
  | environment hnot hmeans => exact .environment hnot ((henv b).1 hmeans)
  | configuration hnot hsilent hmeans =>
    exact .configuration hnot (fun c hc => hsilent c ((henv c).2 hc)) ((htold b).1 hmeans)
  | default hnot hsilent hnone =>
    exact .default hnot (fun c hc => hsilent c ((henv c).2 hc))
      fun c hc => hnone c ((htold c).2 hc)

end

/-! ## Levels -/

/-- The log level is one of the five if the command line gives one of them, or none. -/
theorem exists_level_of_resolve {o : Overrides} {env : String → Option String}
    {config : List (Scalar × Document)} {settings : Settings} {warnings : List Record}
    (h : resolve o env config = .ok (settings, warnings))
    (ho : ∀ name, o.logLevel = some name → ∃ l : Level, name = l.name) :
    ∃ l : Level, settings.logLevel = l.name := by
  have hnamed : ∀ {s name : String}, levelName? s = some name → ∃ l : Level, name = l.name :=
    fun hname => by
      obtain ⟨l, -, hl⟩ := Option.map_eq_some_iff.1 hname
      exact ⟨l, hl.symm⟩
  have hupper : ∀ l : Level, Text.upper l.name = l.name := by
    intro l
    cases l <;> decide +kernel
  cases hconfig : configured config with
  | error e =>
    cases e
    rw [resolve_eq_error_iff.2 (configured_eq_error_iff.1 hconfig)] at h
    exact absurd h (by simp)
  | ok found =>
    rw [resolve_of_configured hconfig] at h
    obtain ⟨rfl, -⟩ := Prod.mk.inj (Except.ok.inj h)
    simp only
    cases hgiven : overridingLevel? o with
    | some name =>
      obtain ⟨given, hfilter, rfl⟩ := Option.map_eq_some_iff.1 hgiven
      obtain ⟨l, rfl⟩ := ho given (Option.filter_eq_some_iff.1 hfilter).1
      exact ⟨l, hupper l⟩
    | none =>
      cases henv : (env levelVariable).bind levelName? with
      | some name =>
        obtain ⟨s, -, hname⟩ := Option.bind_eq_some_iff.1 henv
        exact hnamed hname
      | none =>
        cases hlevel : configuredLevel? config with
        | some name =>
          unfold configuredLevel? at hlevel
          split at hlevel
          · exact hnamed hlevel
          · exact absurd hlevel (by simp)
        | none => exact ⟨.info, rfl⟩

end Settings

end SemverRange
