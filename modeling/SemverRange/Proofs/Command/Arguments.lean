import SemverRange.Command.Arguments

/-!
# One more option in front

No argument takes an option back, and none is read differently because the best candidate was asked
for. So a scan that starts with the option `--max` ends as it would without it, but for that option
(`Progress.askMax`), one step like the other.

Main result: `parse_cons_max`.
-/

namespace SemverRange.Arguments

/-! ## Steps that carry a change along -/

section

variable {ε α β γ : Type}

theorem map_bind (x : Except ε α) (f : α → Except ε β) (g : β → γ) :
    (x >>= f).map g = x >>= fun a => (f a).map g := by
  cases x <;> rfl

theorem bind_map (x : Except ε α) (g : α → β) (f : β → Except ε γ) :
    x.map g >>= f = x >>= fun a => f (g a) := by
  cases x <;> rfl

end

namespace Progress

/-- The state in which the best candidate is asked for as well. -/
def askMax (p : Progress) : Progress := { p with result := { p.result with max := true } }

variable (p : Progress)

theorem applyFlag_askMax (o : Switch) : p.askMax.applyFlag o = (p.applyFlag o).map askMax := by
  cases o <;> rfl

theorem foldlM_applyFlag_askMax (flags : List Switch) :
    flags.foldlM applyFlag p.askMax = (flags.foldlM applyFlag p).map askMax := by
  induction flags generalizing p with
  | nil => rfl
  | cons o flags ih =>
    rw [List.foldlM_cons, List.foldlM_cons, applyFlag_askMax, map_bind, bind_map]
    congr
    funext q
    exact ih q

theorem applyValue_askMax (o : Switch) (value : Option String) :
    p.askMax.applyValue o value = (p.applyValue o value).map askMax := by
  cases o with
  | format =>
    show (choice Format.ofName? value >>= _) = Except.map askMax (choice Format.ofName? value >>= _)
    rw [map_bind]
    rfl
  | logLevel =>
    show (choice Level.ofName? value >>= _) = Except.map askMax (choice Level.ofName? value >>= _)
    rw [map_bind]
    rfl
  | _ => rfl

/-- A change of the state goes along with what is said about the next operand. -/
def askMaxUsed (r : Progress × Bool) : Progress × Bool := (r.1.askMax, r.2)

theorem applyCluster_askMax (k : Cluster) (next : Option String) :
    p.askMax.applyCluster k next = (p.applyCluster k next).map askMaxUsed := by
  unfold applyCluster
  cases k.ending with
  | value o value =>
    simp only [foldlM_applyFlag_askMax, bind_map, applyValue_askMax, map_bind]
    rfl
  | bare o =>
    by_cases hvalue : o.takesValue = true
    · cases next with
      | none => simp only [if_pos hvalue]; rfl
      | some value =>
        simp only [if_pos hvalue, foldlM_applyFlag_askMax, bind_map, applyValue_askMax, map_bind]
        rfl
    · simp only [if_neg hvalue, foldlM_applyFlag_askMax, bind_map, applyFlag_askMax, map_bind]
      rfl

theorem endRun_askMax : p.askMax.endRun = p.endRun.askMax := by
  obtain ⟨result, phase, run, leftOver⟩ := p
  cases phase <;> rfl

theorem addOperand_askMax (s : Option String) :
    p.askMax.addOperand s = (p.addOperand s).askMax := by
  obtain ⟨result, phase, run, leftOver⟩ := p
  cases phase <;> rfl

/-- A scan carries the option along to its end. -/
theorem scan_askMax (skip : Bool) (ts : List Token) :
    p.askMax.scan skip ts = (p.scan skip ts).map askMax := by
  induction ts generalizing p skip with
  | nil => rfl
  | cons t ts ih =>
    unfold scan
    cases skip with
    | true => exact ih p false
    | false =>
      simp only [Bool.false_eq_true, if_false]
      cases t with
      | operand s =>
        show (p.askMax.addOperand (some s)).scan false ts = _
        rw [addOperand_askMax]
        exact ih _ false
      | terminator =>
        show (p.askMax.addOperand none).scan false ts = _
        rw [addOperand_askMax]
        exact ih _ false
      | unknown =>
        show scan { p.askMax.endRun with leftOver := true } false ts = _
        rw [endRun_askMax]
        exact ih { p.endRun with leftOver := true } false
      | short o attached =>
        simp only [endRun_askMax, applyCluster_askMax, bind_map, map_bind]
        congr
        funext k
        congr
        funext r
        exact ih r.1 r.2
      | long o attached =>
        simp only [endRun_askMax, applyCluster_askMax, bind_map, map_bind]
        congr
        funext k
        congr
        funext r
        exact ih r.1 r.2

theorem finish_askMax : p.askMax.finish = p.finish.map fun a => { a with max := true } := by
  unfold finish askMax
  cases operands? p.run.reverse with
  | none => rfl
  | some operands =>
    cases p.leftOver <;> rfl

end Progress

/-- **The option `--max` in front** changes nothing else. -/
theorem parse_cons_max {argv : List String} {a : Arguments} (h : parse argv = .ok a) :
    parse ("--max" :: argv) = .ok { a with max := true } := by
  have htoken : Token.ofArgument "--max" = .ok (.long .max none) := by rfl
  have hparse : parse ("--max" :: argv) = (parse argv).map fun a => { a with max := true } := by
    unfold parse
    have hne : ("--max" == "--") = false := by decide
    simp only [Token.ofArguments, hne, Bool.false_eq_true, if_false, htoken]
    cases Token.ofArguments argv with
    | error e => rfl
    | ok ts =>
      show Progress.initial.askMax.scan false ts >>= Progress.finish =
        (Progress.initial.scan false ts >>= Progress.finish).map _
      rw [Progress.scan_askMax, bind_map, map_bind]
      congr
      funext p
      exact p.finish_askMax
  rw [hparse, h]
  rfl

end SemverRange.Arguments
