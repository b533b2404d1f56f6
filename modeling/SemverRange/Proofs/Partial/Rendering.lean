import SemverRange.Proofs.Partial.Numbers

/-!
# The rendering of a partial version is read back

The rendering shows all three components, with an `x` for each that is missing. So it spells not
the partial version itself but the one with these components filled in (`Partial.filled`), and that
one is rendered as the same text.

Main results: `Partial.read?_render` and `Partial.render_filled`.
-/

namespace SemverRange.Partial

/-- `p` with `x` for each component that is missing. -/
def filled (p : Partial) : Partial :=
  { p with minor := some (p.minor.getD "x"), patch := some (p.patch.getD "x") }

theorem shown_getD (component : Option String) :
    shown (some (component.getD "x")) = shown component := by
  cases component <;> rfl

/-- Filling does not change the rendering. -/
theorem render_filled (p : Partial) : p.filled.render = p.render := by
  have hwritten : p.filled.written = p.written := by
    simp [written, filled, shown_getD]
  rw [render, render, hwritten]

theorem shown_eq_toList {s : String} (h : ComponentText s.toList) : shown (some s) = s.toList := by
  rw [shown, if_neg (by simpa using h.ne_nil)]

theorem componentText_getD {component : Option String}
    (h : ∀ s, component = some s → ComponentText s.toList) :
    ComponentText (component.getD "x").toList := by
  cases component with
  | none => exact .wildcard (.inl rfl)
  | some s => exact h s rfl

theorem Spellable.filled {p : Partial} (hp : p.Spellable) : p.filled.Spellable where
  component := by
    obtain ⟨-, hminor, hpatch⟩ := hp.text_of_mem
    intro c hc
    simp only [components, Partial.filled, Option.toList_some, List.cons_append, List.nil_append,
      List.mem_cons, List.not_mem_nil, or_false] at hc
    rcases hc with rfl | rfl | rfl
    · exact hp.component p.major List.mem_cons_self
    · exact componentText_getD hminor
    · exact componentText_getD hpatch
  patch_eq_none := fun h => absurd h (by simp [Partial.filled])
  prerelease := hp.prerelease
  build := hp.build

theorem toList_render_eq_text {p : Partial} (hp : p.Spellable) {minor patch : String}
    (hminor : p.minor = some minor) (hpatch : p.patch = some patch) :
    p.render.toList = p.pieces.text := by
  have hcomponents : p.components = [p.major, minor, patch] := by
    simp [components, hminor, hpatch]
  have hshown : ∀ c ∈ p.components, shown (some c) = c.toList := fun c hc =>
    shown_eq_toList (hp.component c hc)
  have hwritten : p.written = p.pieces := by
    rw [hcomponents] at hshown
    simp [written, pieces, hcomponents, hminor, hpatch, hshown]
  rw [render, String.toList_ofList, hwritten]

/-- The rendering is read as the partial version with `x` for what is missing. -/
theorem read?_render {cs : List Char} {p : Partial} (h : read? cs = some p) :
    read? p.render.toList = some p.filled := by
  have hfilled := (read?_eq_some_iff.1 h).1.filled
  rw [← p.render_filled, toList_render_eq_text hfilled rfl rfl]
  exact read?_eq_some_iff.2 ⟨hfilled, .inl rfl⟩

end SemverRange.Partial
