import SemverRange.Command.Configuration
import SemverRange.Proofs.Document.JsonText
import SemverRange.Proofs.Document.YamlLines
import SemverRange.Proofs.Document.YamlTags

/-!
# What a configuration file gives

**Which file** (`Located`). A path that is asked for is taken whatever is there. Otherwise it is the
first of the usual places with a file, so those before it have none.

**Which entries** (`Section`). Those in the section of the program if the document is a mapping with
such a section, those of the whole mapping if it has none, and no entries if one of the two is no
mapping.

**Outcomes.** The file has a text (`Written`) if it is there and is UTF-8. What the reader makes of
the text decides: a document has a section, a refused text counts as empty as a missing file does
(`Loads`), and if the reader fails there is no configuration (`Breaks`).

**The readers of this library.** A JSON file gives the document that it was written from, a YAML
file of settings gives these settings, and nothing but a tag in YAML makes a reader fail.

Main results: `load_eq_some_iff` and `load_eq_none_iff`, and for the readers of this library
`loads_text`, `loads_settings`, `loads_section` and `Breaks.exists_tag`.
-/

namespace SemverRange

theorem FileTree.hasFile_iff {files : FileTree} {path : String} :
    files.hasFile path = true ↔ ∃ bytes, files.lookup path = .file bytes := by
  unfold hasFile
  cases files.lookup path <;> simp

namespace Configuration

variable {readers : Readers} {files : FileTree} {home : String} {requested : Option String}

/-! ## Which file -/

/-- The configuration is looked for at the path. -/
inductive Located (files : FileTree) (home : String) : Option String → String → Prop
  | requested {path : String} : path ≠ "" → Located files home (some path) path
  | usual {requested : Option String} {before after : List String} {path : String} :
      (∀ asked, requested = some asked → asked = "") → usualPaths home = before ++ path :: after →
      (∃ bytes, files.lookup path = .file bytes) →
      (∀ other ∈ before, ∀ bytes, files.lookup other ≠ .file bytes) →
      Located files home requested path

theorem find?_hasFile_eq_some_iff {paths : List String} {path : String} :
    paths.find? files.hasFile = some path ↔ (∃ bytes, files.lookup path = .file bytes) ∧
      ∃ before after, paths = before ++ path :: after ∧
        ∀ other ∈ before, ∀ bytes, files.lookup other ≠ .file bytes := by
  have hnone : ∀ other, (!files.hasFile other) = true ↔
      ∀ bytes, files.lookup other ≠ .file bytes := fun other => by
    rw [Bool.not_eq_true', ← Bool.not_eq_true, FileTree.hasFile_iff, not_exists]
  simp only [List.find?_eq_some_iff_append, FileTree.hasFile_iff, hnone]

theorem path?_eq_some_iff {path : String} :
    path? files home requested = some path ↔ Located files home requested path := by
  unfold path?
  cases hasked : requested.filter (!·.isEmpty) with
  | some asked =>
    obtain ⟨rfl, hnonempty⟩ := Option.filter_eq_some_iff.1 hasked
    have hne : asked ≠ "" := by simpa using hnonempty
    constructor
    · intro h
      obtain rfl : asked = path := Option.some.inj h
      exact .requested hne
    · intro h
      cases h with
      | requested => rfl
      | usual hempty => exact absurd (hempty asked rfl) hne
  | none =>
    have hempty : ∀ asked, requested = some asked → asked = "" := fun asked h => by
      simpa [h, Option.filter] using hasked
    rw [find?_hasFile_eq_some_iff]
    constructor
    · rintro ⟨hfile, before, after, hpaths, hbefore⟩
      exact .usual hempty hpaths hfile hbefore
    · intro h
      cases h with
      | requested hne => exact absurd (hempty path rfl) hne
      | usual _ hpaths hfile hbefore => exact ⟨hfile, _, _, hpaths, hbefore⟩

/-! ## Which entries -/

/-- The entries of a document that are for this program. -/
inductive Section : Document → List (Scalar × Document) → Prop
  | own {all inner : List (Scalar × Document)} : Document.Has all sectionKey (.mapping inner) →
      Section (.mapping all) inner
  | foreign {all : List (Scalar × Document)} {d : Document} : Document.Has all sectionKey d →
      (∀ inner, d ≠ .mapping inner) → Section (.mapping all) []
  | whole {all : List (Scalar × Document)} : (∀ entry ∈ all, entry.1 ≠ .text sectionKey) →
      Section (.mapping all) all
  | flat {d : Document} : (∀ all, d ≠ .mapping all) → Section d []

theorem section_entries (d : Document) : Section d (entries d) := by
  cases d with
  | scalar s => exact .flat fun _ => Document.noConfusion
  | list items => exact .flat fun _ => Document.noConfusion
  | mapping all =>
    cases hlookup : Document.lookup sectionKey all with
    | none =>
      simp only [entries, hlookup]
      exact .whole (Document.lookup_eq_none_iff.1 hlookup)
    | some found =>
      have hhas := Document.lookup_eq_some_iff.1 hlookup
      cases found with
      | mapping inner =>
        simp only [entries, hlookup]
        exact .own hhas
      | scalar | list =>
        simp only [entries, hlookup]
        exact .foreign hhas fun _ => Document.noConfusion

theorem Section.eq_entries {d : Document} {found : List (Scalar × Document)}
    (h : Section d found) : found = entries d := by
  cases h with
  | own hhas => simp [entries, Document.lookup_eq_some_iff.2 hhas]
  | foreign hhas hno =>
    rename_i d
    cases d with
    | mapping inner => exact absurd rfl (hno inner)
    | scalar | list => simp [entries, Document.lookup_eq_some_iff.2 hhas]
  | whole hnone => simp [entries, Document.lookup_eq_none_iff.2 hnone]
  | flat hno =>
    cases d with
    | mapping all => exact absurd rfl (hno all)
    | scalar | list => rfl

/-! ## Outcomes -/

/-- The configuration file is at the path and has the text. -/
inductive Written (files : FileTree) (home : String) (requested : Option String) :
    String → List Char → Prop
  | intro {path : String} {bytes : ByteArray} {cs : List Char} :
      Located files home requested path → files.lookup path = .file bytes →
      Text.decode? bytes = some cs → Written files home requested path cs

/-- The entries and reports that a configuration comes with. -/
inductive Loads (readers : Readers) (files : FileTree) (home : String)
    (requested : Option String) : List (Scalar × Document) → List Record → Prop
  | nowhere : (∀ path, ¬ Located files home requested path) →
      Loads readers files home requested [] []
  | missing {path : String} : Located files home requested path →
      (∀ bytes, files.lookup path ≠ .file bytes) →
      Loads readers files home requested [] [missing path]
  | undecodable {path : String} {bytes : ByteArray} : Located files home requested path →
      files.lookup path = .file bytes → Text.decode? bytes = none →
      Loads readers files home requested [] [unreadable path]
  | refused {path : String} {cs : List Char} : Written files home requested path cs →
      readers.read path cs = .error .refused →
      Loads readers files home requested [] [unreadable path]
  | read {path : String} {cs : List Char} {d : Document} {found : List (Scalar × Document)} :
      Written files home requested path cs → readers.read path cs = .ok d → Section d found →
      Loads readers files home requested found []

/-- The reader fails on the text of the configuration file. -/
def Breaks (readers : Readers) (files : FileTree) (home : String) (requested : Option String) :
    Prop :=
  ∃ path cs, Written files home requested path cs ∧ readers.read path cs = .error .failed

/-- No document comes from the configuration file, if there is one at all: it cannot be found, its
text cannot be decoded, or its reader refuses the text. -/
def Unusable (readers : Readers) (files : FileTree) (home : String) (requested : Option String) :
    Prop :=
  ∀ path cs, Written files home requested path cs → readers.read path cs = .error .refused

theorem Loads.load_eq {found : List (Scalar × Document)} {reports : List Record}
    (h : Loads readers files home requested found reports) :
    load readers files home requested = some (found, reports) := by
  cases h with
  | nowhere hnowhere =>
    have hpath : path? files home requested = none :=
      Option.eq_none_iff_forall_ne_some.2 fun path h => hnowhere path (path?_eq_some_iff.1 h)
    simp only [load, hpath]
  | missing hlocated hnofile =>
    -- `hnofile` excludes the first case of the lookup
    simp only [load, path?_eq_some_iff.2 hlocated]
  | undecodable hlocated hlookup hdecode =>
    simp only [load, path?_eq_some_iff.2 hlocated, hlookup, hdecode, Option.map_none]
  | refused hwritten hread =>
    obtain ⟨hlocated, hlookup, hdecode⟩ := hwritten
    simp only [load, path?_eq_some_iff.2 hlocated, hlookup, hdecode, Option.map_some, hread]
  | read hwritten hread hsection =>
    obtain ⟨hlocated, hlookup, hdecode⟩ := hwritten
    simp only [load, path?_eq_some_iff.2 hlocated, hlookup, hdecode, Option.map_some, hread,
      hsection.eq_entries]

theorem Breaks.load_eq (h : Breaks readers files home requested) :
    load readers files home requested = none := by
  obtain ⟨path, cs, ⟨hlocated, hlookup, hdecode⟩, hread⟩ := h
  simp only [load, path?_eq_some_iff.2 hlocated, hlookup, hdecode, Option.map_some, hread]

/-- Every configuration has an outcome. -/
theorem exists_loads_or_breaks (readers : Readers) (files : FileTree) (home : String)
    (requested : Option String) :
    (∃ found reports, Loads readers files home requested found reports) ∨
      Breaks readers files home requested := by
  cases hpath : path? files home requested with
  | none =>
    refine .inl ⟨_, _, .nowhere fun path hlocated => ?_⟩
    rw [path?_eq_some_iff.2 hlocated] at hpath
    exact absurd hpath (by simp)
  | some path =>
    have hlocated := path?_eq_some_iff.1 hpath
    by_cases hfile : ∃ bytes, files.lookup path = .file bytes
    · obtain ⟨bytes, hlookup⟩ := hfile
      cases hdecode : Text.decode? bytes with
      | none => exact .inl ⟨_, _, .undecodable hlocated hlookup hdecode⟩
      | some cs =>
        have hwritten : Written files home requested path cs := .intro hlocated hlookup hdecode
        cases hread : readers.read path cs with
        | ok d => exact .inl ⟨_, _, .read hwritten hread (section_entries d)⟩
        | error e =>
          cases e with
          | refused => exact .inl ⟨_, _, .refused hwritten hread⟩
          | failed => exact .inr ⟨path, cs, hwritten, hread⟩
    · exact .inl ⟨_, _, .missing hlocated (not_exists.1 hfile)⟩

/-- **A configuration is loaded as it is said to be**, with these reports. -/
theorem load_eq_some_iff {found : List (Scalar × Document)} {reports : List Record} :
    load readers files home requested = some (found, reports) ↔
      Loads readers files home requested found reports := by
  constructor
  · intro h
    rcases exists_loads_or_breaks readers files home requested with
      ⟨found', reports', hloads⟩ | hbreaks
    · obtain ⟨rfl, rfl⟩ := Prod.mk.inj (Option.some.inj (h.symm.trans hloads.load_eq))
      exact hloads
    · rw [hbreaks.load_eq] at h
      exact absurd h (by simp)
  · exact Loads.load_eq

theorem load_eq_none_iff :
    load readers files home requested = none ↔ Breaks readers files home requested := by
  constructor
  · intro h
    rcases exists_loads_or_breaks readers files home requested with
      ⟨found, reports, hloads⟩ | hbreaks
    · rw [hloads.load_eq] at h
      exact absurd h (by simp)
    · exact hbreaks
  · exact Breaks.load_eq

theorem Loads.unique {found found' : List (Scalar × Document)} {reports reports' : List Record}
    (h : Loads readers files home requested found reports)
    (h' : Loads readers files home requested found' reports') : found = found' :=
  (Prod.mk.inj (Option.some.inj (h.load_eq.symm.trans h'.load_eq))).1

theorem Loads.not_breaks {found : List (Scalar × Document)} {reports : List Record}
    (h : Loads readers files home requested found reports) :
    ¬ Breaks readers files home requested := by
  intro hbreaks
  exact absurd (h.load_eq.symm.trans hbreaks.load_eq) (by simp)

/-- A configuration file that cannot be used counts as empty, and its reader does not fail. -/
theorem Unusable.exists_loads (h : Unusable readers files home requested) :
    ∃ reports, Loads readers files home requested [] reports := by
  rcases exists_loads_or_breaks readers files home requested with
    ⟨found, reports, hloads⟩ | ⟨path, cs, hwritten, hread⟩
  · cases hloads with
    | nowhere hnowhere => exact ⟨_, .nowhere hnowhere⟩
    | missing hlocated hnofile => exact ⟨_, .missing hlocated hnofile⟩
    | undecodable hlocated hlookup hdecode => exact ⟨_, .undecodable hlocated hlookup hdecode⟩
    | refused hwritten hread => exact ⟨_, .refused hwritten hread⟩
    | read hwritten hread =>
      rw [h _ _ hwritten] at hread
      exact absurd hread (by simp)
  · rw [h _ _ hwritten] at hread
    exact absurd hread (by simp)

theorem unusable_of_path?_eq_none (h : path? files home requested = none) :
    Unusable readers files home requested := by
  rintro path cs ⟨hlocated, -, -⟩
  rw [path?_eq_some_iff.2 hlocated] at h
  exact absurd h (by simp)

/-! ## Files for the readers of this library -/

section

open Yaml

variable {path : String} {ss : List Setting}

theorem read_standard_of_yaml (hyaml : isJson path = false) (cs : List Char) :
    Readers.standard.read path cs = Yaml.read cs := by
  rw [Readers.read, hyaml]
  rfl

theorem read_standard_of_json (hjson : isJson path = true) (cs : List Char) :
    Readers.standard.read path cs = Json.read cs := by
  rw [Readers.read, hjson]
  rfl

/-- **A JSON file** that a document is written to is the configuration of this document. -/
theorem loads_text {d : Document} {found : List (Scalar × Document)}
    (hwritten : Written files home requested path (Json.text d).toList)
    (hjson : isJson path = true) (h : Json.Restorable d) (hsection : Section d found) :
    Loads .standard files home requested found [] :=
  .read hwritten ((read_standard_of_json hjson _).trans (Json.read_text h)) hsection

/-- Only a tag in a file that is no JSON makes the readers of this library fail. -/
theorem Breaks.exists_tag (h : Breaks .standard files home requested) :
    ∃ path cs, Written files home requested path cs ∧ isJson path = false ∧ '!' ∈ cs := by
  obtain ⟨path, cs, hwritten, hread⟩ := h
  cases hjson : isJson path with
  | true =>
    rw [read_standard_of_json hjson] at hread
    exact absurd hread (Json.read_ne_failed cs)
  | false =>
    rw [read_standard_of_yaml hjson] at hread
    exact ⟨path, cs, hwritten, hjson, not_not.1 fun huntagged => read_ne_failed huntagged hread⟩

/-- **A YAML file of settings** is the configuration of these settings. -/
theorem loads_settings
    (hwritten : Written files home requested path (ofLines (ss.map (Setting.rawLine 0))))
    (hyaml : isJson path = false) (hne : ss ≠ []) (h : ∀ s ∈ ss, s.Plain)
    (hvalues : ∀ s ∈ ss, ∃ k v, s.Gives k v)
    (hflat : ∀ s ∈ ss, ∀ v, ¬ s.Gives (.text sectionKey) v) :
    Loads .standard files home requested (Setting.entries ss) [] := by
  refine .read hwritten ((read_standard_of_yaml hyaml _).trans (read_settings hne h hvalues))
    (.whole fun e he hkey => ?_)
  obtain ⟨s, hs, v, hgives⟩ := Setting.exists_gives_of_mem_entries hvalues e he
  exact hflat s hs v (hkey ▸ hgives)

theorem loads_setting {s : Setting} {key : String} {v : Scalar}
    (hwritten : Written files home requested path (ofLines [s.rawLine 0]))
    (hyaml : isJson path = false) (h : s.Plain) (hgives : s.Gives (.text key) v)
    (hkey : key ≠ sectionKey) : Loads .standard files home requested (Setting.entries [s]) [] := by
  refine loads_settings hwritten hyaml (List.cons_ne_nil _ _) (List.forall_mem_singleton.2 h)
    (List.forall_mem_singleton.2 ⟨_, _, hgives⟩) (List.forall_mem_singleton.2 fun v' hgives' => ?_)
  exact hkey (Scalar.text.inj (Except.ok.inj (hgives.key.symm.trans hgives'.key)))

/-- Settings below the name of the program are the configuration as well. -/
theorem loads_section {indent : Nat} (hwritten : Written files home requested path
      (ofLines ((sectionKey.toList ++ [':']) :: ss.map (Setting.rawLine indent))))
    (hyaml : isJson path = false) (hindent : 0 < indent) (hne : ss ≠ []) (h : ∀ s ∈ ss, s.Plain)
    (hvalues : ∀ s ∈ ss, ∃ k v, s.Gives k v) :
    Loads .standard files home requested (Setting.entries ss) [] := by
  have hname : IsWord sectionKey.toList := by decide
  have hkey : plainScalar none sectionKey.toList = .ok (.text sectionKey) := by rfl
  exact .read hwritten ((read_standard_of_yaml hyaml _).trans
    (read_section hname hkey hindent hne h hvalues)) (.own ⟨[], [], rfl, by simp⟩)

/-- A truth value by any other word makes the reader fail. -/
theorem breaks_of_settings {before after : List Setting} {key word : List Char} {k : Scalar}
    (hwritten : Written files home requested path
      (ofLines ((before ++ ⟨key, some .truth, word⟩ :: after).map (Setting.rawLine 0))))
    (hyaml : isJson path = false)
    (h : ∀ s ∈ before ++ ⟨key, some .truth, word⟩ :: after, s.Plain)
    (hbefore : ∀ s ∈ before, ∃ k v, s.Gives k v) (hkey : plainScalar none key = .ok k)
    (hword : word.map Char.toLower ∉ truthWords.map (·.1)) :
    Breaks .standard files home requested := by
  have hvalue : plainScalar (some .truth) word = .error .failed := by
    have hlookup : truthWords.lookup (word.map Char.toLower) = none :=
      List.lookup_eq_none_iff.2 fun e he =>
        bne_iff_ne.2 fun heq => hword (List.mem_map.2 ⟨e, he, heq.symm⟩)
    simp only [plainScalar, Tag.value, hlookup]
  exact ⟨path, _, hwritten,
    (read_standard_of_yaml hyaml _).trans (read_settings_error h hbefore hkey hvalue)⟩

end

end Configuration

end SemverRange
