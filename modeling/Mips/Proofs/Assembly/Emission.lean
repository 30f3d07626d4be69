import Mips.Assembly.Emission

/-!
What every step of emitting does: it only adds to the findings, and warnings about a statement leave everything else
as it was. Main statement: `findings_foldl_emit`.
-/

namespace Mips

namespace Emission

/-- Only warnings have been found. -/
def Successful (emission : Emission) : Prop := ∀ finding ∈ emission.findings, finding.problem.severity ≠ .error

theorem Successful.of_suffix {before after : Emission} (successful : after.Successful)
    (kept : before.findings <:+ after.findings) : before.Successful :=
  fun finding member => successful finding (kept.subset member)

theorem not_successful_reject {emission : Emission} {placed : Placed} {problem : Problem}
    (severe : problem.severity = .error) : ¬ (emission.reject placed problem).Successful :=
  fun successful => successful _ List.mem_cons_self severe

theorem findings_reject (emission : Emission) (placed : Placed) (problem : Problem) :
    emission.findings <:+ (emission.reject placed problem).findings := List.suffix_cons _ _

theorem findings_emitInstructions (placed : Placed) (emission : Emission) (address : Address)
    (source : Option String) (instructions : List Instruction) :
    emission.findings <:+ (emitInstructions placed emission address source instructions).findings := by
  induction instructions generalizing emission address source with
  | nil => exact List.suffix_refl _
  | cons instruction rest ih =>
    unfold emitInstructions
    refine List.IsSuffix.trans ?_ (ih _ _ _)
    split
    · exact findings_reject ..
    · exact List.suffix_refl _

theorem findings_emitBytes (emission : Emission) (placed : Placed) (content : List UInt8) :
    emission.findings <:+ (emission.emitBytes placed content).findings := by
  unfold emitBytes
  dsimp only
  split
  · exact findings_reject ..
  · exact List.suffix_refl _

theorem statements_emitBytes (emission : Emission) (placed : Placed) (content : List UInt8) :
    (emission.emitBytes placed content).statements = emission.statements := by
  unfold emitBytes
  dsimp only
  split <;> rfl

/-- Warnings change only the findings, which they are added to. -/
theorem warn_eq (emission : Emission) (placed : Placed) (warnings : List Problem) :
    ∃ findings, emission.findings <:+ findings ∧
      warnings.foldl (fun emission => emission.reject placed) emission = { emission with findings := findings } := by
  induction warnings generalizing emission with
  | nil => exact ⟨emission.findings, List.suffix_refl _, rfl⟩
  | cons warning rest ih =>
    obtain ⟨findings, kept, same⟩ := ih (emission.reject placed warning)
    exact ⟨findings, (findings_reject emission placed warning).trans kept, same⟩

theorem findings_emit (settings : Settings) (symbols : SymbolTable) (sources : List (Array String))
    (emission : Emission) (placed : Placed) :
    emission.findings <:+ (emit settings symbols sources emission placed).findings := by
  unfold emit
  dsimp only
  split
  case h_1 => exact List.suffix_refl _
  case h_2 =>
    split
    · exact findings_reject ..
    · exact findings_emitInstructions ..
  case h_3 =>
    split
    · exact findings_reject ..
    next content warnings _ =>
      obtain ⟨findings, kept, same⟩ := warn_eq emission placed warnings
      rw [same]
      exact List.IsSuffix.trans kept (findings_emitBytes ⟨_, _, findings⟩ placed content)

theorem findings_foldl_emit (settings : Settings) (symbols : SymbolTable) (sources : List (Array String))
    (emission : Emission) (placed : List Placed) :
    emission.findings <:+ (placed.foldl (emit settings symbols sources) emission).findings := by
  induction placed generalizing emission with
  | nil => exact List.suffix_refl _
  | cons one rest ih => exact (findings_emit settings symbols sources emission one).trans (ih _)

end Emission

end Mips
