import SemverRange.Clause

/-!
# Which leaves a nested clause anchors by

A requirement has one node `either` above nodes `every` above leaves. Here clauses are nested in
any way, and a leaf is *shielded* if a node `either` stands above it (`Clause.HasLeaf`).

**Anchors.** A node `every` anchors what its children anchor and a node `either` anchors nothing,
so a clause anchors a version exactly if an unshielded leaf names a pre-release of its triple
(`Clause.anchors_iff`).

**Replacing a part.** The nodes around a part of a clause are frames, the outermost first
(`Frame`, `plug`). To put a part below a node `either` of its own leaves it accepting what it
accepted, but shields its leaves. A node `every` that does not include pre-releases notices that
if it has no other anchor (`Decides`), and the whole clause refuses the version for it unless some
node `either` further out has another alternative that accepts (`Relies`). Both are read off the
frames one by one, so the proofs are inductions along the frames.

Main result: `Clause.wrapping_shields_leaves`.
-/

namespace SemverRange

/-! ## Leaves -/

namespace Leaf

/-- One of the bounds of the leaf is a pre-release of the triple `t`. -/
def Names (l : Leaf) (t : Triple) : Prop :=
  ∃ bound, (l.interval.min = bound ∨ l.interval.max = some bound) ∧
    bound.prerelease ≠ [] ∧ bound.toTriple = t

theorem anchors_iff_names {l : Leaf} {v : Version} : l.anchors v = true ↔ l.Names v.toTriple := by
  simp only [anchors, Bool.or_eq_true, Option.any_eq_true, boundAnchors_iff, Names]
  constructor
  · rintro (h | ⟨bound, hbound, h⟩)
    · exact ⟨l.interval.min, .inl rfl, h⟩
    · exact ⟨bound, .inr hbound, h⟩
  · rintro ⟨bound, rfl | hbound, h⟩
    · exact .inl h
    · exact .inr ⟨bound, hbound, h⟩

end Leaf

namespace Clause

/-- Induction over clauses, with a hypothesis for each child. -/
@[elab_as_elim, induction_eliminator]
theorem induction {motive : Clause → Prop} (leaf : ∀ l, motive (leaf l))
    (every : ∀ children flag, (∀ c ∈ children, motive c) → motive (every children flag))
    (either : ∀ children, (∀ c ∈ children, motive c) → motive (either children)) :
    ∀ c, motive c
  | .leaf l => leaf l
  | .every children flag => every children flag fun c _ => induction leaf every either c
  | .either children => either children fun c _ => induction leaf every either c
termination_by c => sizeOf c
decreasing_by
  all_goals
    have hlt : sizeOf c < sizeOf children := List.sizeOf_lt_of_mem (by assumption)
    simp only [Clause.every.sizeOf_spec, Clause.either.sizeOf_spec]
    omega

/-- The leaf stands in the clause, shielded if there is a node `either` above it. -/
inductive HasLeaf (l : Leaf) : (shielded : Bool) → Clause → Prop
  | leaf : HasLeaf l false (leaf l)
  | every {children : List Clause} {flag shielded : Bool} {c : Clause} :
      c ∈ children → HasLeaf l shielded c → HasLeaf l shielded (every children flag)
  | either {children : List Clause} {shielded : Bool} {c : Clause} :
      c ∈ children → HasLeaf l shielded c → HasLeaf l true (either children)

/-- A clause anchors by its unshielded leaves. -/
theorem anchors_iff {c : Clause} {v : Version} :
    c.anchors v = true ↔ ∃ l, c.HasLeaf l false ∧ l.Names v.toTriple := by
  induction c with
  | leaf l =>
    rw [anchors, Leaf.anchors_iff_names]
    constructor
    · exact fun h => ⟨l, .leaf, h⟩
    · rintro ⟨_, ⟨⟩, h⟩
      exact h
  | every children flag ih =>
    rw [anchors_every, List.any_eq_true]
    constructor
    · rintro ⟨c, hc, h⟩
      obtain ⟨l, hl, hnames⟩ := (ih c hc).1 h
      exact ⟨l, .every hc hl, hnames⟩
    · rintro ⟨l, hl, hnames⟩
      cases hl with
      | every hc hl => exact ⟨_, hc, (ih _ hc).2 ⟨l, hl, hnames⟩⟩
  | either children _ =>
    rw [anchors]
    constructor
    · exact fun h => absurd h (by decide)
    · rintro ⟨_, ⟨⟩, -⟩

/-! ## Frames -/

/-- A node with a place for one more child. -/
inductive Frame where
  | every (before after : List Clause) (includePrerelease : Bool)
  | either (before after : List Clause)

namespace Frame

/-- The node with `c` in its place. -/
def fill (c : Clause) : Frame → Clause
  | every before after flag => .every (before ++ c :: after) flag
  | either before after => .either (before ++ c :: after)

variable (v : Version) (c : Clause) (before after : List Clause)

theorem anchors_fill_every (flag : Bool) : (fill c (every before after flag)).anchors v =
    ((before ++ after).any (anchors v) || c.anchors v) := by
  simp [fill, anchors_every, Bool.or_assoc, Bool.or_comm (c.anchors v)]

theorem accepts_fill_every (flag : Bool) : (fill c (every before after flag)).accepts v =
    ((before ++ after).all (accepts v) && c.accepts v &&
      (v.isRelease || flag || (fill c (every before after flag)).anchors v)) := by
  rw [fill, accepts_every, anchors_every]
  simp [Bool.and_assoc, Bool.and_comm (c.accepts v)]

theorem accepts_fill_either : (fill c (either before after)).accepts v =
    ((before ++ after).any (accepts v) || c.accepts v) := by
  simp [fill, accepts_either, Bool.or_assoc, Bool.or_comm (c.accepts v)]

end Frame

/-- The clause with `c` inside the frames, of which the first is the outermost. -/
def plug (frames : List Frame) (c : Clause) : Clause := frames.foldr (fun f inner => f.fill inner) c

theorem plug_cons (f : Frame) (frames : List Frame) (c : Clause) :
    plug (f :: frames) c = f.fill (plug frames c) := rfl

/-- All frames are nodes `every`, and none of their children anchors `v`: whether the whole clause
does is up to the part inside. -/
def Decides (v : Version) : List Frame → Prop
  | [] => True
  | .every before after _ :: frames =>
    (∀ c ∈ before ++ after, c.anchors v = false) ∧ Decides v frames
  | .either _ _ :: _ => False

/-- Some node `every` among the frames does not include pre-releases and has no anchor for `v` but
the part inside, and no node `either` outside of it has another alternative that accepts `v`. -/
def Relies (v : Version) : List Frame → Prop
  | [] => False
  | .every before after flag :: frames =>
    Relies v frames ∨ (flag = false ∧ Decides v (.every before after flag :: frames))
  | .either before after :: frames =>
    (∀ c ∈ before ++ after, c.accepts v = false) ∧ Relies v frames

/-! ## A part below a node of its own -/

section

variable {v : Version} {c : Clause}

theorem any_eq_true_iff_not_forall {p : Clause → Bool} {cs : List Clause} :
    cs.any p = true ↔ ¬ ∀ c ∈ cs, p c = false := by
  rw [← Bool.not_eq_false, List.any_eq_false]
  simp

/-- A wrapped part loses its anchors, and with them those of the whole clause if it decides. -/
theorem anchors_wrapped_iff {frames : List Frame} :
    (plug frames (either [c])).anchors v = true ↔
      (plug frames c).anchors v = true ∧ ¬ (c.anchors v = true ∧ Decides v frames) := by
  induction frames with
  | nil => simp [plug, Decides, anchors]
  | cons f frames ih =>
    rw [plug_cons, plug_cons]
    cases f with
    | every before after flag =>
      rw [Frame.anchors_fill_every, Frame.anchors_fill_every, Bool.or_eq_true, Bool.or_eq_true, ih,
        any_eq_true_iff_not_forall, Decides]
      -- the part decides here if it does further in and no sibling anchors
      grind
    | either before after => simp [Frame.fill, anchors]

/-- A wrapped part accepts what it accepted, so only a node `every` that relies on its anchors can
notice. -/
theorem accepts_wrapped_iff {frames : List Frame} :
    (plug frames (either [c])).accepts v = true ↔ (plug frames c).accepts v = true ∧
      ¬ (v.isRelease = false ∧ c.anchors v = true ∧ Relies v frames) := by
  induction frames with
  | nil => simp [plug, Relies, accepts_either]
  | cons f frames ih =>
    have hanchors : (plug (f :: frames) (either [c])).anchors v = true ↔ _ := anchors_wrapped_iff
    rw [plug_cons, plug_cons] at hanchors ⊢
    cases f with
    | every before after flag =>
      rw [Frame.accepts_fill_every, Frame.accepts_fill_every]
      simp only [Bool.and_eq_true, Bool.or_eq_true]
      rw [ih, hanchors, Relies]
      -- an answer is lost further in, or because this node loses its only anchor
      grind
    | either before after =>
      rw [Frame.accepts_fill_either, Frame.accepts_fill_either, Bool.or_eq_true, Bool.or_eq_true,
        ih, any_eq_true_iff_not_forall, Relies]
      -- an answer that is lost further in is made up for by a sibling that accepts
      grind

end

/-- **Clauses anchor by their unshielded leaves**, and a part that is put below a node `either` of
its own is missed as an anchor, and only as that: the whole clause refuses a version it accepted if
that is a pre-release, the part anchors it, and the nodes around rely on the part. -/
theorem wrapping_shields_leaves (v : Version) (c : Clause) :
    (c.anchors v = true ↔ ∃ l, c.HasLeaf l false ∧ l.Names v.toTriple) ∧
    ∀ frames, (plug frames (either [c])).accepts v = true ↔
      (plug frames c).accepts v = true ∧
        ¬ (v.isRelease = false ∧ c.anchors v = true ∧ Relies v frames) :=
  ⟨anchors_iff, fun _ => accepts_wrapped_iff⟩

/-- A leaf that is alone below a node `every` is relied upon. -/
theorem exists_shielded_leaf : ∃ (l : Leaf) (v : Version),
    HasLeaf l true (every [either [leaf l]] false) ∧ l.Names v.toTriple ∧
    (every [either [leaf l]] false).anchors v = false ∧
    (every [leaf l] false).accepts v = true ∧
    (every [either [leaf l]] false).accepts v = false := by
  let v : Version := ⟨⟨1, 0, 0⟩, ["a"], []⟩
  let l : Leaf := ⟨.startingAt v, none, false⟩
  have hleaf : HasLeaf l true (every [either [leaf l]] false) :=
    .every List.mem_cons_self (.either List.mem_cons_self .leaf)
  have hnames : l.Names v.toTriple := ⟨v, .inl rfl, by decide, rfl⟩
  have hleafAnchors := (wrapping_shields_leaves v (leaf l)).1.2 ⟨l, .leaf, hnames⟩
  have hanchors : ¬ (every [either [leaf l]] false).anchors v = true := by
    rw [(wrapping_shields_leaves v (every [either [leaf l]] false)).1]
    rintro ⟨l', hl', -⟩
    -- every way down to a leaf passes the node `either`
    cases hl' with
    | every hc hl' =>
      rw [List.mem_singleton.1 hc] at hl'
      cases hl'
  have hrelies : Relies v [.every [] [] false] :=
    .inr ⟨rfl, by simp, trivial⟩
  have hwrapped := (wrapping_shields_leaves v (leaf l)).2 [.every [] [] false]
  refine ⟨l, v, hleaf, hnames, Bool.not_eq_true _ ▸ hanchors, rfl, ?_⟩
  rw [← Bool.not_eq_true]
  exact fun haccepts => (hwrapped.1 haccepts).2 ⟨rfl, hleafAnchors, hrelies⟩

end Clause

end SemverRange
