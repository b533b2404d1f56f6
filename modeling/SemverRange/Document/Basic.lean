import SemverRange.Decimal.Binary64

/-!
# Documents

What a JSON or YAML text holds: scalars, lists, and mappings from scalars to documents
(`Document`). A mapping keeps its entries in the order in which their keys first came.

A text may give no document for two reasons (`ReadError`): its reader refuses it, or fails on it in
a way that nothing handles.

**Keys** (`Scalar.sameKey`). Two keys are the same if they are equal texts or nulls, or equal as
numbers; a truth value counts as the number one or zero. Writing a key again (`put`) keeps the key
and its place and replaces the value.

Main statements: `lookup_eq_some_iff`, `lookup_put_self` and `lookup_put_of_ne`, for keys that are
texts.
-/

namespace SemverRange

inductive Scalar where
  | null
  | bool (b : Bool)
  | int (n : Int)
  | float (x : Binary64)
  | text (s : String)
  deriving DecidableEq

/-- A value of a configuration language. -/
inductive Document where
  | scalar (s : Scalar)
  | list (items : List Document)
  | mapping (entries : List (Scalar × Document))

instance : Inhabited Document := ⟨.scalar .null⟩

/-- Why a text gives no document. -/
inductive ReadError where
  | refused
  | failed
  deriving DecidableEq

namespace Scalar

/-- The number that a scalar equals as a key. -/
def toInt? : Scalar → Option Int
  | bool b => some (if b then 1 else 0)
  | int n => some n
  | float x => x.toInt?
  | _ => none

/-- The two scalars are one and the same key of a mapping. -/
def sameKey (a b : Scalar) : Bool :=
  match a.toInt?, b.toInt? with
  | some m, some n => m == n
  | none, none => a == b && a != .float .nan
  | _, _ => false

end Scalar

namespace Document

def isNull : Document → Bool
  | scalar .null => true
  | _ => false

/-- The value of the text key `key`. -/
def lookup (key : String) : List (Scalar × Document) → Option Document
  | [] => none
  | (k, v) :: rest => if k.sameKey (.text key) then some v else lookup key rest

/-- The entries with `value` at `key`: in the place of the same key, or else at the end. -/
def put (key : Scalar) (value : Document) : List (Scalar × Document) → List (Scalar × Document)
  | [] => [(key, value)]
  | (k, v) :: rest => if k.sameKey key then (k, value) :: rest else (k, v) :: put key value rest

theorem sameKey_text {k : Scalar} {key : String} :
    k.sameKey (.text key) = true ↔ k = .text key := by
  cases k with
  | float x => cases hx : x.toInt? <;> simp [Scalar.sameKey, Scalar.toInt?, hx]
  | _ => simp [Scalar.sameKey, Scalar.toInt?]

theorem text_sameKey {k : Scalar} {key : String} :
    (Scalar.text key).sameKey k = true ↔ k = .text key := by
  cases k with
  | float x => cases hx : x.toInt? <;> simp [Scalar.sameKey, Scalar.toInt?, hx]
  | text s => simpa [Scalar.sameKey, Scalar.toInt?] using eq_comm
  | _ => simp [Scalar.sameKey, Scalar.toInt?]

/-- The first entry with the text key `key` has the value `d`. -/
def Has (entries : List (Scalar × Document)) (key : String) (d : Document) : Prop :=
  ∃ before after, entries = before ++ (.text key, d) :: after ∧
    ∀ entry ∈ before, entry.1 ≠ .text key

theorem lookup_eq_none_iff {key : String} {entries : List (Scalar × Document)} :
    lookup key entries = none ↔ ∀ entry ∈ entries, entry.1 ≠ .text key := by
  induction entries with
  | nil => simp [lookup]
  | cons entry rest ih =>
    obtain ⟨k, v⟩ := entry
    by_cases h : k = .text key <;> simp [lookup, sameKey_text, h, ih]

theorem lookup_eq_some_iff {key : String} {d : Document} {entries : List (Scalar × Document)} :
    lookup key entries = some d ↔ Has entries key d := by
  induction entries with
  | nil => simp [lookup, Has]
  | cons entry rest ih =>
    obtain ⟨k, v⟩ := entry
    by_cases h : k = .text key
    · subst h
      simp only [lookup, sameKey_text, if_true, Option.some.injEq]
      constructor
      · rintro rfl
        exact ⟨[], rest, rfl, by simp⟩
      · rintro ⟨before, after, hentries, hbefore⟩
        cases before with
        | nil => exact (Prod.mk.inj (List.cons.inj hentries).1).2
        | cons first before =>
          have hfirst := hbefore first List.mem_cons_self
          rw [← (List.cons.inj hentries).1] at hfirst
          exact absurd rfl hfirst
    · have hlookup : lookup key ((k, v) :: rest) = lookup key rest := by
        simp [lookup, sameKey_text, h]
      rw [hlookup, ih]
      constructor
      · rintro ⟨before, after, rfl, hbefore⟩
        refine ⟨(k, v) :: before, after, rfl, ?_⟩
        simpa [h] using hbefore
      · rintro ⟨before, after, hentries, hbefore⟩
        cases before with
        | nil => exact absurd (Prod.mk.inj (List.cons.inj hentries).1).1 h
        | cons first before =>
          exact ⟨before, after, (List.cons.inj hentries).2,
            fun entry hentry => hbefore entry (List.mem_cons_of_mem first hentry)⟩

theorem Has.unique {entries : List (Scalar × Document)} {key : String} {d d' : Document}
    (h : Has entries key d) (h' : Has entries key d') : d = d' :=
  Option.some.inj ((lookup_eq_some_iff.2 h).symm.trans (lookup_eq_some_iff.2 h'))

theorem lookup_put_self (key : String) (value : Document) (entries : List (Scalar × Document)) :
    lookup key (put (.text key) value entries) = some value := by
  induction entries with
  | nil => simp [put, lookup, sameKey_text]
  | cons entry rest ih =>
    obtain ⟨k, v⟩ := entry
    by_cases h : k.sameKey (.text key) = true <;> simp [put, lookup, h, ih]

theorem lookup_put_of_ne {key : String} {k : Scalar} (h : k ≠ .text key) (value : Document)
    (entries : List (Scalar × Document)) :
    lookup key (put k value entries) = lookup key entries := by
  have hother : k.sameKey (.text key) = false := by
    rw [← Bool.not_eq_true, sameKey_text]
    exact h
  induction entries with
  | nil => simp [put, lookup, hother]
  | cons entry rest ih =>
    obtain ⟨k', v⟩ := entry
    by_cases hk : k'.sameKey k = true
    · have hk' : k' ≠ .text key := by
        rintro rfl
        exact h (text_sameKey.1 hk)
      simp [put, lookup, hk, sameKey_text, hk']
    · by_cases hk' : k'.sameKey (.text key) = true <;> simp [put, lookup, hk, hk', ih]

theorem put_of_forall_ne {key : String} {value : Document} {entries : List (Scalar × Document)}
    (h : ∀ entry ∈ entries, entry.1 ≠ .text key) :
    put (.text key) value entries = entries ++ [(.text key, value)] := by
  induction entries with
  | nil => rfl
  | cons entry rest ih =>
    obtain ⟨hne, hothers⟩ := List.forall_mem_cons.1 h
    have hkey : entry.1.sameKey (.text key) = false := by
      rw [← Bool.not_eq_true, sameKey_text]
      exact hne
    simp [put, hkey, ih hothers]

theorem key_of_mem_put {k : Scalar} {value : Document} {entries : List (Scalar × Document)}
    {entry : Scalar × Document} (h : entry ∈ put k value entries) :
    entry.1 = k ∨ ∃ other ∈ entries, other.1 = entry.1 := by
  induction entries with
  | nil => exact .inl (by rw [List.mem_singleton.1 h])
  | cons first rest ih =>
    unfold put at h
    split at h
    · rcases List.mem_cons.1 h with rfl | h
      · exact .inr ⟨first, List.mem_cons_self, rfl⟩
      · exact .inr ⟨entry, List.mem_cons_of_mem first h, rfl⟩
    · rcases List.mem_cons.1 h with rfl | h
      · exact .inr ⟨first, List.mem_cons_self, rfl⟩
      · exact (ih h).imp_right fun ⟨other, hother, heq⟩ =>
          ⟨other, List.mem_cons_of_mem first hother, heq⟩

end Document

end SemverRange
