/-!
Computations that may fail: what holds of each result and of each problem, and when one computation has a result if
another one has. Main statements: `yields_bind`, `Fails.bind` and `Foresees.bind`.
-/

namespace Mips

theorem eq_ok_of_toOption {ε α : Type} {outcome : Except ε α} {value : α} (computed : outcome.toOption = some value) :
    outcome = .ok value := by
  cases outcome with
  | ok result => rw [Option.some.inj computed]
  | error error => cases computed

theorem map_eq_ok_iff {ε α β : Type} {change : α → β} {outcome : Except ε α} {result : β} :
    outcome.map change = .ok result ↔ ∃ value, outcome = .ok value ∧ change value = result := by
  cases outcome with
  | ok value => simp [Except.map]
  | error error => simp [Except.map]

theorem bind_eq_ok_iff {ε α β : Type} {next : α → Except ε β} {outcome : Except ε α} {result : β} :
    outcome >>= next = .ok result ↔ ∃ value, outcome = .ok value ∧ next value = .ok result := by
  cases outcome with
  | ok value => simp [bind, Except.bind]
  | error error => simp [bind, Except.bind]

/-- What was computed has the property, unless there was a problem. -/
def Yields {ε α : Type} (property : α → Prop) : Except ε α → Prop
  | .ok value => property value
  | .error _ => True

section Yields

variable {ε α β : Type} {property : α → Prop}

@[simp] theorem yields_ok {value : α} : Yields property (.ok value : Except ε α) ↔ property value := .rfl

@[simp] theorem yields_error {error : ε} : Yields property (.error error) := trivial

@[simp] theorem yields_map {property : β → Prop} {change : α → β} {outcome : Except ε α} :
    Yields property (outcome.map change) ↔ Yields (fun value => property (change value)) outcome := by
  cases outcome <;> exact .rfl

@[simp] theorem yields_bind {property : β → Prop} {next : α → Except ε β} {outcome : Except ε α} :
    Yields property (outcome >>= next) ↔ Yields (fun value => Yields property (next value)) outcome := by
  cases outcome <;> exact .rfl

theorem Yields.mono {stronger : α → Prop} {outcome : Except ε α} (yields : Yields stronger outcome)
    (weakened : ∀ value, stronger value → property value) : Yields property outcome := by
  cases outcome with
  | ok value => exact weakened value yields
  | error error => trivial

theorem yields_of_forall {outcome : Except ε α} (always : ∀ value, property value) : Yields property outcome := by
  cases outcome with
  | ok value => exact always value
  | error error => trivial

end Yields

/-- What was computed has the one property, and a problem has the other. -/
def Ends {ε α : Type} (good : α → Prop) (bad : ε → Prop) : Except ε α → Prop
  | .ok value => good value
  | .error error => bad error

section Ends

variable {ε α β : Type} {good : α → Prop} {bad : ε → Prop}

theorem Ends.of_ok {outcome : Except ε α} (ends : Ends good bad outcome) {value : α} (computed : outcome = .ok value) :
    good value := by
  subst computed
  exact ends

theorem Ends.of_error {outcome : Except ε α} (ends : Ends good bad outcome) {error : ε} (failed : outcome = .error error) :
    bad error := by
  subst failed
  exact ends

theorem Ends.map {better : β → Prop} {change : α → β} {outcome : Except ε α} (ends : Ends good bad outcome)
    (each : ∀ value, good value → better (change value)) : Ends better bad (outcome.map change) := by
  cases outcome with
  | ok value => exact each value ends
  | error error => exact ends

theorem Ends.bind {better : β → Prop} {next : α → Except ε β} {outcome : Except ε α} (ends : Ends good bad outcome)
    (each : ∀ value, good value → Ends better bad (next value)) : Ends better bad (outcome >>= next) := by
  cases outcome with
  | ok value => exact each value ends
  | error error => exact ends

end Ends

/-- The problem has the property, unless there was none. -/
def Fails {ε α : Type} (property : ε → Prop) : Except ε α → Prop
  | .ok _ => True
  | .error error => property error

section Fails

variable {ε α β : Type} {property : ε → Prop}

@[simp] theorem fails_map {change : α → β} {outcome : Except ε α} :
    Fails property (outcome.map change) ↔ Fails property outcome := by
  cases outcome <;> exact .rfl

theorem Fails.bind {next : α → Except ε β} {outcome : Except ε α} (first : Fails property outcome)
    (second : ∀ value, Fails property (next value)) : Fails property (outcome >>= next) := by
  cases outcome with
  | ok value => exact second value
  | error error => exact first

theorem fails_mapM {step : α → Except ε β} (each : ∀ item, Fails property (step item)) (items : List α) :
    Fails property (items.mapM step) := by
  induction items with
  | nil => trivial
  | cons item rest ih =>
    rw [List.mapM_cons]
    exact (each item).bind fun _ => ih.bind fun _ => trivial

end Fails

/-- If something is computed when it is needed, then as much of it is known when it is planned. -/
def Foresees {ε α β : Type} (measure : α → β) (planned computed : Except ε α) : Prop :=
  ∀ result, computed = .ok result → ∃ plan, planned = .ok plan ∧ measure plan = measure result

section Foresees

variable {ε α β γ δ : Type} {measure : α → β} {other : γ → δ}

theorem foresees_refl (outcome : Except ε α) : Foresees measure outcome outcome :=
  fun result found => ⟨result, found, rfl⟩

theorem foresees_error {planned : Except ε α} {error : ε} :
    Foresees measure planned (.error error) := by
  intro result found
  cases found

theorem Foresees.yields {planned computed : Except ε α} (foresees : Foresees measure planned computed) {plan : α}
    (known : planned = .ok plan) : Yields (fun result => measure result = measure plan) computed := by
  cases computed with
  | error error => trivial
  | ok result =>
    obtain ⟨other, found, same⟩ := foresees result rfl
    rw [Except.ok.inj (known.symm.trans found)]
    exact same.symm

theorem Foresees.exists_error {planned computed : Except ε α} (foresees : Foresees measure planned computed)
    {error : ε} (failed : planned = .error error) : ∃ other, computed = .error other := by
  cases computed with
  | error other => exact ⟨other, rfl⟩
  | ok result =>
    obtain ⟨plan, known, _⟩ := foresees result rfl
    cases failed.symm.trans known

theorem Foresees.map {planned computed : Except ε α} (foresees : Foresees measure planned computed)
    {first second : α → γ}
    (same : ∀ plan result, measure plan = measure result → other (first plan) = other (second result)) :
    Foresees other (planned.map first) (computed.map second) := by
  intro result found
  cases computed with
  | error error => cases found
  | ok value =>
    cases found
    obtain ⟨plan, known, equal⟩ := foresees value rfl
    exact ⟨first plan, by rw [known]; rfl, same plan value equal⟩

theorem Foresees.bind {planned computed : Except ε α} (foresees : Foresees measure planned computed)
    {first second : α → Except ε γ}
    (same : ∀ plan result, measure plan = measure result → Foresees other (first plan) (second result)) :
    Foresees other (planned >>= first) (computed >>= second) := by
  intro result found
  cases computed with
  | error error => cases found
  | ok value =>
    obtain ⟨plan, known, equal⟩ := foresees value rfl
    rw [known]
    exact same plan value equal result found

end Foresees

end Mips
