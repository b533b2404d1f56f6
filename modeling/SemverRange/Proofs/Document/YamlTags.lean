import SemverRange.Proofs.Document.YamlLines
import SemverRange.Proofs.Text.Words

/-!
# Texts of YAML without tags

The reader fails on nothing but a scalar behind a tag, and every tag has an exclamation mark. So a
text without one is either read or refused.

What the readers have in common is an invariant: if the mark is not in the text, it is not in what a
reader leaves of it, and the node that comes out of it is harmless, which is to say that all errors
of its scalars are refusals (`Node.Harmless`). Along the recursion the invariant holds of all four
readers of flow collections at once (`FlowHarmless`), and in the same way of the three readers of
block structure (`BlockHarmless`), where it is about the bodies of lines.

Main result: `read_ne_failed`.
-/

namespace SemverRange.Yaml

/-! ## Nodes -/

namespace Node

/-- All errors of scalars in the node are refusals. -/
def Harmless (n : Node) : Prop := ∀ level, ∀ e ∈ n.errors level, e.2 = .refused

theorem eq_refused_of_mem_scalarErrors {level : Nat} {value : Value} (h : value ≠ .error .failed)
    {e : Nat × ReadError} (he : e ∈ scalarErrors level value) : e.2 = .refused := by
  cases value with
  | ok s => exact absurd he List.not_mem_nil
  | error error =>
    obtain rfl := List.mem_singleton.1 he
    cases error with
    | refused => rfl
    | failed => exact absurd rfl h

theorem mem_itemErrors_iff {level : Nat} {items : List Node} {e : Nat × ReadError} :
    e ∈ itemErrors level items ↔ ∃ n ∈ items, e ∈ n.errors level := by
  induction items with
  | nil => simp [itemErrors]
  | cons n items ih => simp [itemErrors, ih]

theorem mem_entryErrors_iff {level : Nat} {entries : List (Value × Node)} {e : Nat × ReadError} :
    e ∈ entryErrors level entries ↔
      ∃ entry ∈ entries, e ∈ scalarErrors level entry.1 ∨ e ∈ entry.2.errors level := by
  induction entries with
  | nil => simp [entryErrors]
  | cons entry entries ih => simp [entryErrors, ih, or_assoc]

theorem harmless_scalar_iff {value : Value} :
    (scalar value).Harmless ↔ value ≠ .error .failed := by
  refine ⟨?_, fun h _ _ he => eq_refused_of_mem_scalarErrors h he⟩
  rintro h rfl
  exact absurd (h 0 _ (List.mem_singleton_self _)) (by simp)

theorem harmless_null : null.Harmless := harmless_scalar_iff.2 (by simp)

/-- Readers collect the items of a list in reverse. -/
theorem Harmless.list_reverse {acc : List Node} (h : ∀ item ∈ acc, item.Harmless) :
    (list acc.reverse).Harmless := by
  intro level e he
  obtain ⟨item, hitem, he⟩ := mem_itemErrors_iff.1 he
  exact h item (List.mem_reverse.1 hitem) _ e he

/-- The key and the value of the entry are harmless. -/
def HarmlessEntry (entry : Value × Node) : Prop := entry.1 ≠ .error .failed ∧ entry.2.Harmless

theorem Harmless.mapping {entries : List (Value × Node)}
    (h : ∀ entry ∈ entries, HarmlessEntry entry) : (mapping entries).Harmless := by
  intro level e he
  obtain ⟨entry, hentry, he | he⟩ := mem_entryErrors_iff.1 he
  · exact eq_refused_of_mem_scalarErrors (h entry hentry).1 he
  · exact (h entry hentry).2 _ e he

theorem Harmless.mapping_reverse {acc : List (Value × Node)}
    (h : ∀ entry ∈ acc, HarmlessEntry entry) : (Node.mapping acc.reverse).Harmless :=
  .mapping fun entry hentry => h entry (List.mem_reverse.1 hentry)

theorem Harmless.read_ne_failed {n : Node} (h : n.Harmless) : n.read ≠ .error .failed := by
  intro hread
  unfold read at hread
  split at hread
  · next e herror =>
    obtain ⟨found, hfound, rfl⟩ := Option.map_eq_some_iff.1 herror
    rw [h 0 found (mem_of_foldr_earlier hfound)] at hread
    exact absurd hread (by simp)
  · exact absurd hread (by simp)

end Node

open Node

/-! ## Scalars -/

theorem plainScalar_none_ne_failed (cs : List Char) : plainScalar none cs ≠ .error .failed := by
  unfold plainScalar
  split <;> simp_all

theorem quotedScalar_none_ne_failed (cs : List Char) : quotedScalar none cs ≠ .error .failed := by
  simp [quotedScalar, Tag.value]

/-- The mark of a tag is nowhere in the text. -/
def Untagged (cs : List Char) : Prop := '!' ∉ cs

theorem Untagged.of_suffix {cs rest : List Char} (h : Untagged cs) (hrest : rest <:+ cs) :
    Untagged rest :=
  fun hmark => h (hrest.subset hmark)

theorem Untagged.splitTag_eq {cs : List Char} (h : Untagged cs) : splitTag cs = (none, cs) :=
  splitTag_eq_self fun hhead => h (List.mem_of_mem_head? hhead)

/-! ## What the readers of tokens leave -/

theorem skipSpaces_suffix (cs : List Char) : skipSpaces cs <:+ cs := List.dropWhile_suffix _

theorem suffix_of_skipSpaces {c : Char} {cs rest : List Char} (h : skipSpaces cs = c :: rest) :
    rest <:+ cs :=
  (List.suffix_cons c rest).trans (h ▸ skipSpaces_suffix cs)

theorem readSingle_suffix {acc cs text rest : List Char}
    (h : readSingle acc cs = some (text, rest)) : rest <:+ cs := by
  fun_induction readSingle acc cs with
  | case1 => simp at h
  | case2 acc after ih => exact (ih h).trans (List.suffix_append ['\x27', '\x27'] after)
  | case3 acc after =>
    obtain ⟨-, rfl⟩ := Prod.mk.inj (Option.some.inj h)
    exact List.suffix_cons _ _
  | case4 acc c after _ _ ih => exact (ih h).trans (List.suffix_cons c after)

theorem readDouble_suffix {fuel : Nat} {acc cs text rest : List Char}
    (h : readDouble fuel acc cs = some (text, rest)) : rest <:+ cs := by
  fun_induction readDouble fuel acc cs with
  | case3 fuel acc after =>
    obtain ⟨-, rfl⟩ := Prod.mk.inj (Option.some.inj h)
    exact List.suffix_cons _ _
  | case4 fuel acc c after e _ ih => exact (ih h).trans (List.suffix_append ['\\', c] after)
  | case6 fuel acc c after width _ _ _ e _ ih =>
    exact (ih h).trans ((List.drop_suffix width after).trans (List.suffix_append ['\\', c] after))
  | case10 fuel acc c after _ _ _ ih => exact (ih h).trans (List.suffix_cons c after)
  | case1 | case2 | case5 | case7 | case8 | case9 => simp at h

theorem readQuoted?_suffix {cs text rest : List Char}
    (h : readQuoted? cs = some (some (text, rest))) : rest <:+ cs := by
  unfold readQuoted? at h
  split at h
  · exact (readDouble_suffix (Option.some.inj h)).trans (List.suffix_cons _ _)
  · exact (readSingle_suffix (Option.some.inj h)).trans (List.suffix_cons _ _)
  · simp at h

theorem spanPlain_suffix (flow afterSpace : Bool) (cs : List Char) :
    (spanPlain flow afterSpace cs).2 <:+ cs := by
  fun_induction spanPlain flow afterSpace cs with
  | case1 => exact List.suffix_rfl
  | case2 => exact List.suffix_rfl
  | case3 afterSpace c after _ text tail hspan ih =>
    rw [hspan] at ih
    exact ih.trans (List.suffix_cons c after)

theorem readPlain_suffix (flow : Bool) (cs : List Char) : (readPlain flow cs).2 <:+ cs :=
  spanPlain_suffix flow false cs

theorem afterColon?_suffix {quoted : Bool} {cs rest : List Char}
    (h : afterColon? quoted cs = some rest) : rest <:+ cs := by
  unfold afterColon? at h
  split at h
  · next after hskip =>
    split at h
    · obtain rfl := Option.some.inj h
      exact suffix_of_skipSpaces hskip
    · simp at h
  · simp at h

/-! ## Flow collections -/

theorem readFlowScalar_harmless {cs rest : List Char} {value : Value} (hcs : Untagged cs)
    (h : readFlowScalar cs = some (value, rest)) : value ≠ .error .failed ∧ Untagged rest := by
  simp only [readFlowScalar, hcs.splitTag_eq] at h
  split at h
  · next found hquoted =>
    obtain ⟨⟨text, after⟩, rfl, heq⟩ := Option.map_eq_some_iff.1 h
    obtain ⟨rfl, rfl⟩ := Prod.mk.inj heq
    exact ⟨quotedScalar_none_ne_failed text, hcs.of_suffix (readQuoted?_suffix hquoted)⟩
  · split at h
    · obtain ⟨rfl, rfl⟩ := Prod.mk.inj (Option.some.inj h)
      exact ⟨plainScalar_none_ne_failed _, hcs.of_suffix (readPlain_suffix true cs)⟩
    · simp at h

/-- With so much fuel, the readers of flow collections make harmless nodes of texts without tags. -/
structure FlowHarmless (fuel : Nat) : Prop where
  value {cs rest : List Char} {n : Node} : Untagged cs →
    readFlowValue fuel cs = some (n, rest) → n.Harmless ∧ Untagged rest
  entryValue {cs rest : List Char} {n : Node} : Untagged cs →
    readEntryValue fuel cs = some (n, rest) → n.Harmless ∧ Untagged rest
  items {acc : List Node} {cs rest : List Char} {n : Node} : (∀ item ∈ acc, item.Harmless) →
    Untagged cs → readFlowItems fuel acc cs = some (n, rest) → n.Harmless ∧ Untagged rest
  entries {acc : List (Value × Node)} {cs rest : List Char} {n : Node} :
    (∀ entry ∈ acc, HarmlessEntry entry) → Untagged cs →
    readFlowEntries fuel acc cs = some (n, rest) → n.Harmless ∧ Untagged rest

section

variable {fuel : Nat} {cs rest : List Char} {n : Node}

theorem FlowHarmless.value_succ (ih : FlowHarmless fuel) (hcs : Untagged cs)
    (h : readFlowValue (fuel + 1) cs = some (n, rest)) : n.Harmless ∧ Untagged rest := by
  unfold readFlowValue at h
  split at h
  · next after hskip =>
    exact ih.items (by simp) (hcs.of_suffix (suffix_of_skipSpaces hskip)) h
  · next after hskip =>
    exact ih.entries (by simp) (hcs.of_suffix (suffix_of_skipSpaces hskip)) h
  · obtain ⟨⟨value, after⟩, hscalar, heq⟩ := Option.map_eq_some_iff.1 h
    obtain ⟨rfl, rfl⟩ := Prod.mk.inj heq
    obtain ⟨hvalue, hrest⟩ :=
      readFlowScalar_harmless (hcs.of_suffix (skipSpaces_suffix cs)) hscalar
    exact ⟨harmless_scalar_iff.2 hvalue, hrest⟩

theorem FlowHarmless.entryValue_succ (ih : FlowHarmless fuel) (hcs : Untagged cs)
    (h : readEntryValue (fuel + 1) cs = some (n, rest)) : n.Harmless ∧ Untagged rest := by
  have hskipped := hcs.of_suffix (skipSpaces_suffix cs)
  unfold readEntryValue at h
  split at h
  · next c after hskip =>
    rw [hskip] at hskipped
    split at h
    · obtain ⟨rfl, rfl⟩ := Prod.mk.inj (Option.some.inj h)
      exact ⟨harmless_null, hskipped⟩
    · exact ih.value hskipped h
  · simp at h

theorem FlowHarmless.items_succ (ih : FlowHarmless fuel) {acc : List Node}
    (hacc : ∀ item ∈ acc, item.Harmless) (hcs : Untagged cs)
    (h : readFlowItems (fuel + 1) acc cs = some (n, rest)) : n.Harmless ∧ Untagged rest := by
  have hskipped := hcs.of_suffix (skipSpaces_suffix cs)
  unfold readFlowItems at h
  split at h
  · next after hskip =>
    obtain ⟨rfl, rfl⟩ := Prod.mk.inj (Option.some.inj h)
    exact ⟨.list_reverse hacc, hcs.of_suffix (suffix_of_skipSpaces hskip)⟩
  · split at h
    · simp at h
    · next item after hvalue =>
      obtain ⟨hitem, hafter⟩ := ih.value hskipped hvalue
      dsimp only at h
      split at h
      · simp at h
      · next item' after' hentry =>
        -- a scalar before a colon is the key of a mapping of its own
        have hitem' : item'.Harmless ∧ Untagged after' := by
          split at hentry
          · next key start hcolon =>
            obtain ⟨⟨value, left⟩, hread, heq⟩ := Option.map_eq_some_iff.1 hentry
            obtain ⟨rfl, rfl⟩ := Prod.mk.inj heq
            obtain ⟨hvalue, hleft⟩ :=
              ih.entryValue (hafter.of_suffix (afterColon?_suffix hcolon)) hread
            exact ⟨.mapping (by simpa using ⟨harmless_scalar_iff.1 hitem, hvalue⟩), hleft⟩
          · obtain ⟨rfl, rfl⟩ := Prod.mk.inj (Option.some.inj hentry)
            exact ⟨hitem, hafter⟩
        have hacc' : ∀ item ∈ item' :: acc, item.Harmless :=
          List.forall_mem_cons.2 ⟨hitem'.1, hacc⟩
        split at h
        · next left hskip =>
          exact ih.items hacc' (hitem'.2.of_suffix (suffix_of_skipSpaces hskip)) h
        · next left hskip =>
          obtain ⟨rfl, rfl⟩ := Prod.mk.inj (Option.some.inj h)
          exact ⟨.list_reverse hacc', hitem'.2.of_suffix (suffix_of_skipSpaces hskip)⟩
        · simp at h

theorem FlowHarmless.entries_succ (ih : FlowHarmless fuel) {acc : List (Value × Node)}
    (hacc : ∀ entry ∈ acc, HarmlessEntry entry) (hcs : Untagged cs)
    (h : readFlowEntries (fuel + 1) acc cs = some (n, rest)) : n.Harmless ∧ Untagged rest := by
  have hskipped := hcs.of_suffix (skipSpaces_suffix cs)
  unfold readFlowEntries at h
  split at h
  · next after hskip =>
    obtain ⟨rfl, rfl⟩ := Prod.mk.inj (Option.some.inj h)
    exact ⟨.mapping_reverse hacc, hcs.of_suffix (suffix_of_skipSpaces hskip)⟩
  · split at h
    · simp at h
    · next key after hscalar =>
      obtain ⟨hkey, hafter⟩ := readFlowScalar_harmless hskipped hscalar
      dsimp only at h
      split at h
      · simp at h
      · next value after' hentry =>
        have hvalue : value.Harmless ∧ Untagged after' := by
          split at hentry
          · next start hcolon =>
            exact ih.entryValue (hafter.of_suffix (afterColon?_suffix hcolon)) hentry
          · obtain ⟨rfl, rfl⟩ := Prod.mk.inj (Option.some.inj hentry)
            exact ⟨harmless_null, hafter⟩
        have hacc' : ∀ entry ∈ (key, value) :: acc, HarmlessEntry entry :=
          List.forall_mem_cons.2 ⟨⟨hkey, hvalue.1⟩, hacc⟩
        split at h
        · next left hskip =>
          exact ih.entries hacc' (hvalue.2.of_suffix (suffix_of_skipSpaces hskip)) h
        · next left hskip =>
          obtain ⟨rfl, rfl⟩ := Prod.mk.inj (Option.some.inj h)
          exact ⟨.mapping_reverse hacc', hvalue.2.of_suffix (suffix_of_skipSpaces hskip)⟩
        · simp at h

end

theorem flowHarmless (fuel : Nat) : FlowHarmless fuel := by
  induction fuel with
  | zero =>
    constructor
    case value | entryValue | items | entries =>
      intros
      simp_all [readFlowValue, readEntryValue, readFlowItems, readFlowEntries]
  | succ fuel ih => exact ⟨ih.value_succ, ih.entryValue_succ, ih.items_succ, ih.entries_succ⟩

theorem readFlow?_harmless {cs rest : List Char} {n : Node} (hcs : Untagged cs)
    (h : readFlow? cs = some (some (n, rest))) : n.Harmless ∧ Untagged rest := by
  unfold readFlow? at h
  split at h
  · split at h
    · exact (flowHarmless _).value hcs (Option.some.inj h)
    · simp at h
  · simp at h

/-! ## Block structure -/

/-- No tags stand in the lines. -/
def UntaggedLines (ls : List Line) : Prop := ∀ l ∈ ls, Untagged l.body

theorem readKey?_harmless {body rest : List Char} {key : Value}
    (h : readKey? body = some (key, rest)) : key ≠ .error .failed ∧ rest <:+ body := by
  unfold readKey? at h
  split at h
  · simp at h
  · next text after hquoted =>
    split at h
    · next value hskip =>
      split at h
      · obtain ⟨rfl, rfl⟩ := Prod.mk.inj (Option.some.inj h)
        exact ⟨quotedScalar_none_ne_failed text,
          (suffix_of_skipSpaces hskip).trans (readQuoted?_suffix hquoted)⟩
      · simp at h
    · simp at h
  · split at h
    · obtain ⟨rfl, rfl⟩ := Prod.mk.inj (Option.some.inj h)
      exact ⟨by simp, List.drop_suffix 1 body⟩
    · split at h
      · dsimp only at h
        split at h
        · next value hplain =>
          obtain ⟨rfl, rfl⟩ := Prod.mk.inj (Option.some.inj h)
          exact ⟨plainScalar_none_ne_failed _,
            (List.suffix_cons _ _).trans (hplain ▸ readPlain_suffix false body)⟩
        · simp at h
      · simp at h

theorem continuePlain_suffix {floor : Nat} {text text' : List Char} {ls rest : List Line}
    (h : continuePlain floor text ls = some (text', rest)) : rest <:+ ls := by
  induction ls generalizing text with
  | nil =>
    obtain ⟨-, rfl⟩ := Prod.mk.inj (Option.some.inj h)
    exact List.suffix_rfl
  | cons l ls ih =>
    unfold continuePlain at h
    split at h
    · obtain ⟨-, rfl⟩ := Prod.mk.inj (Option.some.inj h)
      exact List.suffix_rfl
    · dsimp only at h
      split at h
      · exact (ih h).trans (List.suffix_cons l ls)
      · split at h
        · obtain ⟨-, rfl⟩ := Prod.mk.inj (Option.some.inj h)
          exact List.suffix_cons l ls
        · simp at h

theorem readInline_harmless {floor : Nat} {cs : List Char} {ls rest : List Line} {n : Node}
    (hcs : Untagged cs) (h : readInline floor cs ls = some (n, rest)) :
    n.Harmless ∧ rest <:+ ls := by
  simp only [readInline, hcs.splitTag_eq] at h
  split at h
  · simp at h
  · split at h
    · obtain ⟨rfl, rfl⟩ := Prod.mk.inj (Option.some.inj h)
      exact ⟨harmless_scalar_iff.2 (quotedScalar_none_ne_failed _), List.suffix_rfl⟩
    · simp at h
  · simp at h
  · next found tail _ hflow =>
    split at h
    · obtain ⟨rfl, rfl⟩ := Prod.mk.inj (Option.some.inj h)
      exact ⟨(readFlow?_harmless hcs hflow).1, List.suffix_rfl⟩
    · simp at h
  · split at h
    · simp at h
    · split at h
      · obtain ⟨⟨text, left⟩, hcontinue, heq⟩ := Option.bind_eq_some_iff.1 h
        obtain ⟨rfl, rfl⟩ := Prod.mk.inj (Option.some.inj heq)
        exact ⟨harmless_scalar_iff.2 (plainScalar_none_ne_failed text),
          continuePlain_suffix hcontinue⟩
      · split at h
        · obtain ⟨rfl, rfl⟩ := Prod.mk.inj (Option.some.inj h)
          exact ⟨harmless_scalar_iff.2 (plainScalar_none_ne_failed _), List.suffix_rfl⟩
        · simp at h

/-- With so much fuel, the readers of block structure make harmless nodes of lines without tags. -/
structure BlockHarmless (fuel : Nat) : Prop where
  node {floor : Nat} {ls rest : List Line} {n : Node} : UntaggedLines ls →
    readNode fuel floor ls = some (n, rest) → n.Harmless ∧ UntaggedLines rest
  items {indent : Nat} {acc : List Node} {ls rest : List Line} {n : Node} :
    (∀ item ∈ acc, item.Harmless) → UntaggedLines ls →
    readItems fuel indent acc ls = some (n, rest) → n.Harmless ∧ UntaggedLines rest
  entries {indent : Nat} {acc : List (Value × Node)} {ls rest : List Line} {n : Node} :
    (∀ entry ∈ acc, HarmlessEntry entry) → UntaggedLines ls →
    readEntries fuel indent acc ls = some (n, rest) → n.Harmless ∧ UntaggedLines rest

theorem UntaggedLines.of_suffix {ls rest : List Line} (h : UntaggedLines ls) (hrest : rest <:+ ls) :
    UntaggedLines rest :=
  fun l hl => h l (hrest.subset hl)

section

variable {fuel : Nat} {ls rest : List Line} {n : Node}

theorem BlockHarmless.node_succ (ih : BlockHarmless fuel) {floor : Nat} (hls : UntaggedLines ls)
    (h : readNode (fuel + 1) floor ls = some (n, rest)) : n.Harmless ∧ UntaggedLines rest := by
  cases ls with
  | nil => simp [readNode] at h
  | cons l ls =>
    obtain ⟨hl, hrest⟩ := List.forall_mem_cons.1 hls
    unfold readNode at h
    split at h
    · exact ih.items (by simp) hls h
    · split at h
      · exact ih.entries (by simp) hls h
      · obtain ⟨hn, hsuffix⟩ := readInline_harmless hl h
        exact ⟨hn, UntaggedLines.of_suffix hrest hsuffix⟩

theorem BlockHarmless.items_succ (ih : BlockHarmless fuel) {indent : Nat} {acc : List Node}
    (hacc : ∀ item ∈ acc, item.Harmless) (hls : UntaggedLines ls)
    (h : readItems (fuel + 1) indent acc ls = some (n, rest)) :
    n.Harmless ∧ UntaggedLines rest := by
  have hdone : (Node.list acc.reverse).Harmless := .list_reverse hacc
  have hmore : ∀ {item : Node}, item.Harmless → ∀ other ∈ item :: acc, other.Harmless :=
    fun hitem => List.forall_mem_cons.2 ⟨hitem, hacc⟩
  cases ls with
  | nil =>
    obtain ⟨rfl, rfl⟩ := Prod.mk.inj (Option.some.inj h)
    exact ⟨hdone, hls⟩
  | cons l ls =>
    obtain ⟨hl, hrest⟩ := List.forall_mem_cons.1 hls
    unfold readItems at h
    split at h
    · simp at h
    · split at h
      · obtain ⟨rfl, rfl⟩ := Prod.mk.inj (Option.some.inj h)
        exact ⟨hdone, hls⟩
      · have hcontent : Untagged (skipSpaces (l.body.drop 1)) :=
          hl.of_suffix ((skipSpaces_suffix _).trans (List.drop_suffix 1 l.body))
        dsimp only at h
        split at h
        · split at h
          · split at h
            · split at h
              · next item after hnode =>
                obtain ⟨hitem, hafter⟩ := ih.node hrest hnode
                exact ih.items (hmore hitem) hafter h
              · simp at h
            · exact ih.items (hmore harmless_null) hrest h
          · obtain ⟨rfl, rfl⟩ := Prod.mk.inj (Option.some.inj h)
            exact ⟨.list_reverse (hmore harmless_null), hrest⟩
        · split at h
          · next item after hnode =>
            obtain ⟨hitem, hafter⟩ := ih.node (List.forall_mem_cons.2 ⟨hcontent, hrest⟩) hnode
            exact ih.items (hmore hitem) hafter h
          · simp at h

theorem BlockHarmless.entries_succ (ih : BlockHarmless fuel) {indent : Nat}
    {acc : List (Value × Node)} (hacc : ∀ entry ∈ acc, HarmlessEntry entry)
    (hls : UntaggedLines ls) (h : readEntries (fuel + 1) indent acc ls = some (n, rest)) :
    n.Harmless ∧ UntaggedLines rest := by
  have hdone : (Node.mapping acc.reverse).Harmless := .mapping_reverse hacc
  cases ls with
  | nil =>
    obtain ⟨rfl, rfl⟩ := Prod.mk.inj (Option.some.inj h)
    exact ⟨hdone, hls⟩
  | cons l ls =>
    obtain ⟨hl, hrest⟩ := List.forall_mem_cons.1 hls
    unfold readEntries at h
    split at h
    · simp at h
    · split at h
      · obtain ⟨rfl, rfl⟩ := Prod.mk.inj (Option.some.inj h)
        exact ⟨hdone, hls⟩
      · split at h
        · simp at h
        · next key value hkey =>
          obtain ⟨hkey, hvalue⟩ := readKey?_harmless hkey
          dsimp only at h
          split at h
          · next found after hfound =>
            have hfound : found.Harmless ∧ UntaggedLines after := by
              split at hfound
              · obtain ⟨hfound, hsuffix⟩ := readInline_harmless
                  ((hl.of_suffix hvalue).of_suffix (skipSpaces_suffix value)) hfound
                exact ⟨hfound, UntaggedLines.of_suffix hrest hsuffix⟩
              · split at hfound
                · obtain ⟨rfl, rfl⟩ := Prod.mk.inj (Option.some.inj hfound)
                  exact ⟨harmless_null, hrest⟩
                · split at hfound
                  · exact ih.node hrest hfound
                  · split at hfound
                    · exact ih.items (by simp) hrest hfound
                    · obtain ⟨rfl, rfl⟩ := Prod.mk.inj (Option.some.inj hfound)
                      exact ⟨harmless_null, hrest⟩
            exact ih.entries (List.forall_mem_cons.2 ⟨⟨hkey, hfound.1⟩, hacc⟩) hfound.2 h
          · simp at h

end

theorem blockHarmless (fuel : Nat) : BlockHarmless fuel := by
  induction fuel with
  | zero =>
    constructor
    case node | items | entries =>
      intros
      simp_all [readNode, readItems, readEntries]
  | succ fuel ih => exact ⟨ih.node_succ, ih.items_succ, ih.entries_succ⟩

/-! ## Texts -/

theorem untaggedLines_contentLines {blanks : Nat} {comment : Bool} {raws : List (List Char)}
    (h : ∀ raw ∈ raws, Untagged raw) : UntaggedLines (contentLines blanks comment raws) := by
  fun_induction contentLines blanks comment raws with
  | case1 => exact fun l hl => absurd hl List.not_mem_nil
  | case2 blanks comment raw raws body _ ih => exact ih (List.forall_mem_cons.1 h).2
  | case3 blanks comment raw raws body tail _ ih => exact ih (List.forall_mem_cons.1 h).2
  | case4 blanks comment raw raws body _ _ ih =>
    obtain ⟨hraw, hraws⟩ := List.forall_mem_cons.1 h
    exact List.forall_mem_cons.2 ⟨hraw.of_suffix (skipSpaces_suffix raw), ih hraws⟩

theorem ofNodes_harmless {fuel : Nat} {ls : List Line} {n : Node} (hls : UntaggedLines ls)
    (h : ofNodes fuel ls = some n) : n.Harmless := by
  unfold ofNodes at h
  split at h
  · obtain rfl := Option.some.inj h
    exact harmless_null
  · split at h
    · next found hnode =>
      obtain rfl := Option.some.inj h
      exact ((blockHarmless fuel).node hls hnode).1
    · simp at h

theorem afterMarker_harmless {fuel : Nat} {first : List Char} {raws : List (List Char)} {n : Node}
    (hfirst : Untagged first) (hraws : ∀ raw ∈ raws, Untagged raw)
    (h : afterMarker fuel first raws = some n) : n.Harmless := by
  unfold afterMarker at h
  split at h
  · exact ofNodes_harmless (untaggedLines_contentLines hraws) h
  · split at h
    · next found hinline =>
      obtain rfl := Option.some.inj h
      exact (readInline_harmless (hfirst.of_suffix (skipSpaces_suffix first)) hinline).1
    · simp at h

theorem beforeEnd?_subset {raws kept : List (List Char)} (h : beforeEnd? raws = some kept) :
    kept ⊆ raws := by
  unfold beforeEnd? at h
  split at h
  · obtain rfl := Option.some.inj h
    exact List.Subset.refl _
  · split at h
    · obtain rfl := Option.some.inj h
      exact List.takeWhile_subset _
    · simp at h

theorem compose?_harmless {cs : List Char} {n : Node} (hcs : Untagged cs)
    (h : compose? cs = some n) : n.Harmless := by
  unfold compose? at h
  extract_lets body at h
  have hbody : Untagged body := by
    unfold body
    split
    · exact hcs.of_suffix (List.suffix_cons _ _)
    · exact hcs
  split at h
  · simp at h
  · split at h
    · simp at h
    · next kept hkept =>
      have hraws : ∀ raw ∈ kept, Untagged raw := fun raw hraw hmark =>
        hbody (Text.subset_of_mem_splitOnP body raw (beforeEnd?_subset hkept hraw) hmark)
      dsimp only at h
      split at h
      · split at h
        · simp at h
        · obtain rfl := Option.some.inj h
          exact harmless_null
      · next first rest hrest =>
        have hkept : ∀ raw ∈ first :: rest, Untagged raw := fun raw hraw =>
          hraws raw (List.mem_of_mem_drop (hrest ▸ hraw))
        obtain ⟨hfirst, hothers⟩ := List.forall_mem_cons.1 hkept
        split at h
        · split at h
          · simp at h
          · exact afterMarker_harmless (hfirst.of_suffix (List.drop_suffix 3 first)) hothers h
        · split at h
          · simp at h
          · exact ofNodes_harmless (untaggedLines_contentLines hkept) h

/-- A text without tags is read or refused. -/
theorem read_ne_failed {cs : List Char} (h : Untagged cs) : read cs ≠ .error .failed := by
  unfold read
  split
  · next n hcompose => exact (compose?_harmless h hcompose).read_ne_failed
  · simp

end SemverRange.Yaml
