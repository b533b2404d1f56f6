import SemverRange.Command.FileTree

/-!
# Files beside a new one

A file that is opened for appending is no directory, so no walk to another file leads through it.
Such a walk finds the same file before and after.

**What is at the new file** (`contents?_of_openForAppend`). A walk along proper names (`Named`) goes
down with every step, and finds what is at the path if it comes to its end. So there was a file or
nothing at the simplified path, which consists of proper names if the working directory does.

**What is elsewhere** (`contents?_withFile`). A path at which something is has something at each of
its beginnings. As a file is opened only in a directory that exists, a new file adds nothing above.

Main results: `FileTree.read_withFile` and `FileTree.read_eq_unusable_iff`.
-/

namespace SemverRange.FileTree

variable {t : FileTree} {here names target : List String}

/-! ## Proper names -/

/-- All names are names of something, and not steps to nowhere or upwards. -/
def Named (path : List String) : Prop := ∀ name ∈ path, name ≠ "" ∧ name ≠ "." ∧ name ≠ ".."

theorem named_simplify (h : Named here) : Named (simplify here names) := by
  induction names generalizing here with
  | nil => exact h
  | cons name names ih =>
    unfold simplify
    by_cases hstays : (name == "" || name == ".") = true
    · rw [if_pos hstays]
      exact ih h
    · rw [if_neg hstays]
      by_cases hup : (name == "..") = true
      · rw [if_pos hup]
        exact ih fun n hn => h n (List.dropLast_subset here hn)
      · rw [if_neg hup]
        apply ih
        intro n hn
        rcases List.mem_append.1 hn with hn | hn
        · exact h n hn
        · obtain rfl := List.mem_singleton.1 hn
          simpa [and_assoc] using And.intro hstays hup

theorem named_start (h : Named t.workingDirectory) (path : String) : Named (t.start path) := by
  unfold start
  split
  · exact fun n hn => absurd hn List.not_mem_nil
  · exact h

/-! ## What is at a path -/

/-- A path of the tree begins with the given one. -/
def Begun (t : FileTree) (here : List String) : Prop :=
  here = [] ∨ here <+: t.workingDirectory ∨ ∃ entry ∈ t.entries, here <+: entry.1

theorem contents?_of_lookup {e : Entry} (h : t.entries.lookup here = some e) :
    t.contents? here = some e := by
  rw [contents?, h]

theorem contents?_of_lookup_eq_none (h : t.entries.lookup here = none) {e : Entry} :
    t.contents? here = some e ↔ t.Begun here ∧ e = .directory := by
  have hbegun : (here.isEmpty || here.isPrefixOf t.workingDirectory ||
      t.entries.any (here.isPrefixOf ·.1)) = true ↔ t.Begun here := by
    simp [Begun, or_assoc]
  simp only [contents?, h, Option.ite_none_right_eq_some, hbegun, Option.some.injEq,
    eq_comm (a := Entry.directory)]

theorem contents?_eq_none_iff : t.contents? here = none ↔ ¬ t.Begun here := by
  cases hentry : t.entries.lookup here with
  | none =>
    rw [Option.eq_none_iff_forall_ne_some]
    simp [contents?_of_lookup_eq_none hentry]
  | some e =>
    obtain ⟨before, after, hentries, -⟩ := List.lookup_eq_some_iff.1 hentry
    have hbegun : t.Begun here := .inr (.inr ⟨(here, e), by simp [hentries], List.prefix_rfl⟩)
    simp [contents?_of_lookup hentry, hbegun]

/-- Something is at each beginning of a path at which something is. -/
theorem Begun.of_beginning {longer : List String} (h : t.Begun longer) (hbegins : here <+: longer) :
    t.Begun here := by
  rcases h with rfl | hworking | ⟨entry, hentry, hlonger⟩
  · exact .inl (List.prefix_nil.1 hbegins)
  · exact .inr (.inl (hbegins.trans hworking))
  · exact .inr (.inr ⟨entry, hentry, hbegins.trans hlonger⟩)

theorem begun_iff : t.Begun here ↔ ∃ e, t.contents? here = some e := by
  rw [← Option.ne_none_iff_exists', ne_eq, contents?_eq_none_iff, Classical.not_not]

/-- Where there is nothing, there is nothing further down. -/
theorem contents?_append (h : t.contents? here = none) (names : List String) :
    t.contents? (here ++ names) = none := by
  rw [contents?_eq_none_iff] at h ⊢
  exact fun hlonger => h (hlonger.of_beginning (List.prefix_append here names))

/-- A path that begins another one, and is not that one, stands above it. -/
theorem prefix_dropLast (h : here <+: target) (hne : here ≠ target) : here <+: target.dropLast := by
  rcases target.eq_nil_or_concat with rfl | ⟨above, name, rfl⟩
  · exact absurd (List.prefix_nil.1 h) hne
  · rw [List.concat_eq_append] at h hne ⊢
    rw [List.dropLast_concat]
    exact (List.prefix_concat_iff.1 h).resolve_left hne

/-- A new file leaves all that is at other paths, if there is something above it. -/
theorem contents?_withFile {bytes : ByteArray} (habove : t.Begun target.dropLast)
    (hne : here ≠ target) : (t.withFile target bytes).contents? here = t.contents? here := by
  have hlookup : (t.withFile target bytes).entries.lookup here = t.entries.lookup here := by
    simp only [withFile, List.lookup_cons, beq_false_of_ne hne]
  cases hentry : t.entries.lookup here with
  | some e => rw [contents?_of_lookup hentry, contents?_of_lookup (hlookup.trans hentry)]
  | none =>
    have hbegun : (t.withFile target bytes).Begun here ↔ t.Begun here := by
      constructor
      · rintro (hnil | hworking | ⟨entry, hentry, hbegins⟩)
        · exact .inl hnil
        · exact .inr (.inl hworking)
        · rcases List.mem_cons.1 hentry with rfl | hentry
          · exact habove.of_beginning (prefix_dropLast hbegins hne)
          · exact .inr (.inr ⟨entry, hentry, hbegins⟩)
      · refine Or.imp_right (Or.imp_right ?_)
        rintro ⟨entry, hentry, hbegins⟩
        exact ⟨entry, List.mem_cons_of_mem _ hentry, hbegins⟩
    ext e
    rw [contents?_of_lookup_eq_none hentry, contents?_of_lookup_eq_none (hlookup.trans hentry),
      hbegun]

/-! ## Walks -/

/-- What a walk has found that has come to its end. -/
def found : Option Entry → Lookup
  | none => .absent
  | some .directory => .directory
  | some (.file bytes) => .file bytes

theorem walk_nil : t.walk here [] = found (t.contents? here) := by
  unfold walk found
  rcases t.contents? here with _ | _ | _ <;> rfl

/-- A walk along proper names finds what is there, if it comes to its end. -/
theorem contents?_of_walk (hnames : Named names) {e : Option Entry}
    (h : t.walk here names = found e) : t.contents? (here ++ names) = e := by
  have hinj : ∀ {e e' : Option Entry}, found e = found e' → e = e' := by
    rintro (_ | _ | _) (_ | _ | _) heq <;> simp_all [found]
  induction names generalizing here with
  | nil =>
    rw [List.append_nil]
    exact hinj (walk_nil.symm.trans h)
  | cons name names ih =>
    obtain ⟨hempty, hdot, hdots⟩ := hnames name List.mem_cons_self
    unfold walk at h
    cases hhere : t.contents? here with
    | none =>
      simp only [hhere] at h
      rw [contents?_append hhere]
      exact hinj h
    | some here' =>
      cases here' with
      | file bytes =>
        simp only [hhere] at h
        rcases e with _ | _ | _ <;> simp [found] at h
      | directory =>
        rw [List.append_cons]
        apply ih fun n hn => hnames n (List.mem_cons_of_mem name hn)
        have hstays : ¬ (name == "" || name == ".") = true := by simp [hempty, hdot]
        have hup : ¬ (name == "..") = true := by simp [hdots]
        simp only [hhere, if_neg hstays, if_neg hup] at h
        by_cases hlong : nameLimit < name.utf8ByteSize
        · rw [if_pos hlong] at h
          rcases e with _ | _ | _ <;> simp [found] at h
        · rwa [if_neg hlong] at h

/-! ## Opening for appending -/

theorem openForAppend_eq_ok {path : String} {before : ByteArray}
    (h : t.openForAppend path = .ok (target, before)) :
    target = simplify (t.start path) (FileTree.names path) ∧
      ((t.walk [] target = .absent ∧ t.walk [] target.dropLast = .directory) ∨
        ∃ bytes, t.walk [] target = .file bytes) := by
  unfold openForAppend at h
  generalize simplify (t.start path) (FileTree.names path) = simplified at h ⊢
  by_cases hzero : path.toList.contains '\x00' = true
  · simp only [if_pos hzero] at h
    exact absurd h (by simp)
  · simp only [if_neg hzero] at h
    cases hwalk : t.walk [] simplified with
    | file bytes =>
      simp only [hwalk] at h
      obtain ⟨rfl, -⟩ := Prod.mk.inj (Except.ok.inj h)
      exact ⟨rfl, .inr ⟨bytes, hwalk⟩⟩
    | absent =>
      simp only [hwalk] at h
      cases habove : t.walk [] simplified.dropLast with
      | directory =>
        simp only [habove] at h
        obtain ⟨rfl, -⟩ := Prod.mk.inj (Except.ok.inj h)
        exact ⟨rfl, .inl ⟨hwalk, habove⟩⟩
      | file bytes =>
        simp only [habove] at h
        exact absurd h (by simp)
      | absent | notADirectory | nameTooLong | unusable =>
        simp only [habove] at h
        exact absurd h (by simp)
    | directory | notADirectory | nameTooLong | unusable =>
      simp only [hwalk] at h
      exact absurd h (by simp)

/-- A file that is opened for appending is no directory, and has something above it. -/
theorem contents?_of_openForAppend (hworking : Named t.workingDirectory) {path : String}
    {before : ByteArray} (h : t.openForAppend path = .ok (target, before)) :
    t.contents? target ≠ some .directory ∧ t.Begun target.dropLast := by
  obtain ⟨htarget, hwalk⟩ := openForAppend_eq_ok h
  have hnamed : Named target := htarget ▸ named_simplify (named_start hworking path)
  rcases hwalk with ⟨hnothing, habove⟩ | ⟨bytes, hfile⟩
  · have hcontents : t.contents? ([] ++ target) = none := contents?_of_walk hnamed hnothing
    have hdirectory : t.contents? ([] ++ target.dropLast) = some .directory :=
      contents?_of_walk (fun n hn => hnamed n (List.dropLast_subset target hn)) habove
    rw [List.nil_append] at hcontents hdirectory
    rw [hcontents]
    exact ⟨by simp, begun_iff.2 ⟨_, hdirectory⟩⟩
  · have hcontents : t.contents? ([] ++ target) = some (.file bytes) :=
      contents?_of_walk hnamed hfile
    rw [List.nil_append] at hcontents
    rw [hcontents]
    exact ⟨by simp, (begun_iff.2 ⟨_, hcontents⟩).of_beginning (List.dropLast_prefix target)⟩

/-! ## Files beside the new one -/

/-- A walk to another file leads there whether or not the new file is there. -/
theorem walk_withFile (htarget : t.contents? target ≠ some .directory)
    (habove : t.Begun target.dropLast) {bytes before : ByteArray}
    (hne : simplify here names ≠ target) :
    (t.withFile target before).walk here names = .file bytes ↔ t.walk here names = .file bytes := by
  induction names generalizing here with
  | nil =>
    have hother : here ≠ target := hne
    rw [walk_nil, walk_nil, contents?_withFile habove hother]
  | cons name names ih =>
    unfold walk
    unfold simplify at hne
    by_cases hhere : here = target
    · -- neither the new file nor what was there before leads any further
      subst hhere
      have hnew : (t.withFile here before).contents? here = some (.file before) :=
        contents?_of_lookup (by simp [withFile])
      cases hold : t.contents? here with
      | none => simp [hnew]
      | some e =>
        cases e with
        | directory => exact absurd hold htarget
        | file bytes' => simp [hnew]
    · rw [contents?_withFile habove hhere]
      cases t.contents? here with
      | none => rfl
      | some e =>
        cases e with
        | file bytes' => rfl
        | directory =>
          by_cases hstays : (name == "" || name == ".") = true
          · simp only [if_pos hstays] at hne ⊢
            exact ih hne
          · simp only [if_neg hstays] at hne ⊢
            by_cases hup : (name == "..") = true
            · simp only [if_pos hup] at hne ⊢
              exact ih hne
            · simp only [if_neg hup] at hne ⊢
              by_cases hlong : nameLimit < name.utf8ByteSize
              · simp only [if_pos hlong]
              · simp only [if_neg hlong]
                exact ih hne

theorem read_eq_ok_iff {path : String} {bytes : ByteArray} : t.read path = .ok bytes ↔
    ('\x00' ∉ path.toList ∧ path ≠ "" ∧ ¬ pathLimit < path.utf8ByteSize) ∧
      t.walk (t.start path) (FileTree.names path) = .file bytes := by
  have hlookup : t.read path = .ok bytes ↔ t.lookup path = .file bytes := by
    unfold read
    cases t.lookup path <;> simp
  rw [hlookup, lookup]
  by_cases hzero : '\x00' ∈ path.toList
  · simp [hzero]
  · by_cases hempty : path = ""
    · simp [hempty]
    · by_cases hlong : pathLimit < path.utf8ByteSize
      · simp [hzero, hempty, hlong]
      · simp [hzero, hempty, hlong]

/-- **A file that is opened for appending leaves all other files**, and makes no other. -/
theorem read_withFile (hworking : Named t.workingDirectory) {log path : String}
    {before bytes : ByteArray} (hopen : t.openForAppend log = .ok (target, before))
    (hne : simplify (t.start path) (FileTree.names path) ≠ target) :
    (t.withFile target before).read path = .ok bytes ↔ t.read path = .ok bytes := by
  obtain ⟨htarget, habove⟩ := contents?_of_openForAppend hworking hopen
  rw [read_eq_ok_iff, read_eq_ok_iff]
  exact and_congr_right fun _ => walk_withFile htarget habove hne

/-- A walk always comes to something that can be told. -/
theorem walk_ne_unusable : t.walk here names ≠ .unusable := by
  induction names generalizing here with
  | nil =>
    rw [walk_nil]
    rcases t.contents? here with _ | _ | _ <;> simp [found]
  | cons name names ih =>
    unfold walk
    cases t.contents? here with
    | none => simp
    | some e =>
      cases e with
      | file bytes => simp
      | directory =>
        by_cases hstays : (name == "" || name == ".") = true
        · simpa only [if_pos hstays] using ih
        · by_cases hup : (name == "..") = true
          · simpa only [if_neg hstays, if_pos hup] using ih
          · by_cases hlong : nameLimit < name.utf8ByteSize
            · simp only [if_neg hstays, if_neg hup, if_pos hlong]
              exact Lookup.noConfusion
            · simpa only [if_neg hstays, if_neg hup, if_neg hlong] using ih

/-- Whether a path is unusable can be seen in its text. -/
theorem read_eq_unusable_iff {path : String} :
    t.read path = .error .unusable ↔ '\x00' ∈ path.toList := by
  have hlookup : t.read path = .error .unusable ↔ t.lookup path = .unusable := by
    unfold read
    cases t.lookup path <;> simp
  rw [hlookup, lookup]
  by_cases hzero : '\x00' ∈ path.toList
  · simp [hzero]
  · have hwalk : t.walk (t.start path) (FileTree.names path) ≠ .unusable := walk_ne_unusable
    by_cases hempty : path.isEmpty = true
    · simp [hzero, hempty]
    · by_cases hlong : pathLimit < path.utf8ByteSize
      · simp [hzero, hempty, hlong]
      · simp [hzero, hempty, hlong, hwalk]

end SemverRange.FileTree
