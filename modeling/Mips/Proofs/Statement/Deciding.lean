import Mips.Statement.Parser

/-!
Parts of a line that are read from left to right, with a look at the next token and no further. What such a part reads is
decided then, whatever follows, and where it stops because something else was expected, it could not have gone on with the token
there, but could have with others. Main statements: `Decides.congr`, `Decides.bind`, `decides_token` and `Decides.behindComma`.
-/

namespace Mips

/-- The error says what is wrong, and not only what was expected. -/
def SyntaxError.isSpecific : SyntaxError → Bool
  | .unexpectedToken _ _ | .unexpectedEnd _ => false
  | _ => true

/-- Reads a part of a line from the front of its tokens. -/
abbrev Reader (α : Type) := TokenLine → Rest → Except LineError (α × Rest)

namespace Reader

variable {α β : Type}

/-- Nothing is read. -/
def done (value : α) : Reader α := fun _ remaining => .ok (value, remaining)

/-- One part behind the other. -/
def bind (first : Reader α) (next : α → Reader β) : Reader β := fun line remaining =>
  first line remaining >>= fun found => next found.1 line found.2

def map (change : α → β) (read : Reader α) : Reader β := read.bind fun value => done (change value)

/-- A token that is one of those that `select` knows. -/
def token (expected : String) (select : PlacedToken → Option α) : Reader α
  | line, [] => .error (line.unexpected expected [])
  | line, placed :: rest =>
    match select placed with
    | some value => .ok (value, rest)
    | none => .error (line.unexpected expected (placed :: rest))

/-- A number that is accepted. -/
def number (expected : String) (accepts : Int → Bool) (result : Int → α) : Reader α := fun line remaining => do
  let ((value, span), rest) ← line.readInteger expected remaining
  if accepts value then .ok (result value, rest) else .error ⟨.invalidArgument expected, span⟩

/-- A part behind a comma, or without one. -/
def behindComma (read : Reader α) : Reader α := fun line remaining => read line (TokenLine.afterComma remaining)

/-- Nothing at the end of the line, and something before it. -/
def unlessEnded (read : Reader (List α)) : Reader (List α) := fun line remaining =>
  if remaining.isEmpty then .ok ([], []) else read line remaining

/-- A part that goes to the end of the line. -/
def toEnd (read : TokenLine → Rest → Except LineError α) : Reader α := fun line remaining =>
  (read line remaining).map fun value => (value, [])

end Reader

/-- The next token, if there is one. -/
def ahead (remaining : Rest) : Option Token := remaining.head?.map Prod.fst

theorem ahead_eq_some {token : Token} {remaining : Rest} :
    ahead remaining = some token ↔ ∃ place rest, remaining = (token, place) :: rest := by
  unfold ahead
  rcases remaining with _ | ⟨⟨other, place⟩, rest⟩
  · simp
  · simp [eq_comm]

theorem ahead_eq_none {remaining : Rest} : ahead remaining = none ↔ remaining = [] := by
  simp [ahead]

/-- The tokens begin as the others do, or there are none. -/
def Follows (more rest : Rest) : Prop := more = [] ∨ more.head? = rest.head?

theorem follows_append {more rest : Rest} (follows : Follows more rest) (taken : Rest) :
    Follows (taken ++ more) (taken ++ rest) := by
  cases taken with
  | nil => exact follows
  | cons placed taken => exact .inr rfl

/-- With some tokens behind them, these are read to their end. -/
def Completes {α : Type} (read : Reader α) (tokens : Rest) : Prop :=
  ∃ more value, ∀ other, read other (tokens ++ more) = .ok (value, [])

/--
What is read is read whatever stands behind the next token. If something else was expected there, then other tokens could have
stood there instead, but with this token there is an error whatever stands behind it.
-/
inductive Decides {α : Type} (read : Reader α) (line : TokenLine) (remaining : Rest) : Prop where
  | reads (taken : Rest) {rest : Rest} (value : α) (whole : remaining = taken ++ rest)
      (same : ∀ other more, Follows more rest → read other (taken ++ more) = .ok (value, more))
  | stops (taken : Rest) {rest : Rest} {expected : String} (whole : remaining = taken ++ rest)
      (failed : read line remaining = .error (line.unexpected expected rest)) (completes : Completes read taken)
      (refused : ∀ next, rest.head? = some next →
        ∀ other more, ∃ failure, read other (taken ++ next :: more) = .error failure)
  | faults {failure : LineError} (failed : read line remaining = .error failure)
      (specific : failure.error.isSpecific = true)

section Decides

variable {α β : Type} {line : TokenLine} {remaining rest : Rest}

theorem decides_done (value : α) : Decides (.done value) line remaining :=
  .reads [] value rfl fun _ _ _ => rfl

/-- A part that is another one behind its first token. -/
theorem Decides.cons {read inner : Reader α} {placed : PlacedToken}
    (same : ∀ other more, read other (placed :: more) = inner other more) (decides : Decides inner line rest) :
    Decides read line (placed :: rest) := by
  cases decides with
  | reads taken value whole reads =>
    refine .reads (placed :: taken) value (by rw [whole]; rfl) fun other more follows => ?_
    rw [List.cons_append, same, reads other more follows]
  | stops taken whole failed completes refused =>
    refine .stops (placed :: taken) (by rw [whole]; rfl) ((same ..).trans failed) ?_ ?_
    · obtain ⟨more, value, completed⟩ := completes
      exact ⟨more, value, fun other => (same ..).trans (completed other)⟩
    · intro next first other more
      obtain ⟨failure, failed⟩ := refused next first other more
      exact ⟨failure, (same ..).trans failed⟩
  | faults failed specific => exact .faults ((same ..).trans failed) specific

/-- A part that is read as another one, unless what comes next is something that the other one cannot begin with. -/
theorem Decides.congr {read inner : Reader α} (special : Option Token) (decides : Decides inner line remaining)
    (same : ∀ other more, ahead more ≠ special → read other more = inner other more)
    (rejects : ∀ other more, ahead more = special → ∃ failure, inner other more = .error failure)
    (ordinary : ahead remaining ≠ special) : Decides read line remaining := by
  have reads {other : TokenLine} {more : Rest} {found : α × Rest} (success : inner other more = .ok found) :
      read other more = .ok found := by
    rw [same other more, success]
    intro next
    obtain ⟨failure, failed⟩ := rejects other more next
    rw [success] at failed
    cases failed
  cases decides with
  | reads taken value whole each =>
    exact .reads taken value whole fun other more follows => reads (each other more follows)
  | stops taken whole failed completes refused =>
    refine .stops taken whole ((same line remaining ordinary).trans failed) ?_ ?_
    · obtain ⟨more, value, completed⟩ := completes
      exact ⟨more, value, fun other => reads (completed other)⟩
    · intro next first other more
      obtain ⟨failure, failed⟩ := refused next first other more
      refine ⟨failure, (same other _ ?_).trans failed⟩
      have alike : ahead (taken ++ next :: more) = ahead remaining := by
        rw [whole]
        cases taken with
        | nil => exact congrArg (Option.map Prod.fst) first.symm
        | cons placed taken => rfl
      rwa [alike]
  | faults failed specific => exact .faults ((same line remaining ordinary).trans failed) specific

/-- All tokens up to the end of the line are read. -/
theorem decides_whole {read : Reader α} (value : α) (whole : ∀ other, read other remaining = .ok (value, [])) :
    Decides read line remaining := by
  refine .reads remaining value (List.append_nil remaining).symm fun other more follows => ?_
  have nothing : more = [] := follows.elim id List.head?_eq_none_iff.1
  rw [nothing, List.append_nil, whole]

/-- Nothing is read of a part that may be missing, and is not there. -/
theorem decides_missing {read : Reader α} {placed : PlacedToken} (value : α)
    (ended : ∀ other, read other [] = .ok (value, []))
    (missing : ∀ other more, read other (placed :: more) = .ok (value, placed :: more)) :
    Decides read line (placed :: rest) := by
  refine .reads [] value rfl fun other more follows => ?_
  rcases follows with rfl | head
  · exact ended other
  · obtain ⟨more, rfl⟩ := List.head?_eq_some_iff.1 head
    exact missing other more

/-- Nothing is read at the end of the line, where something must be. -/
theorem decides_lacking {read : Reader α} {expected : String} (completes : Completes read [])
    (lacks : read line [] = .error (line.unexpected expected [])) : Decides read line [] :=
  .stops [] rfl lacks completes fun next head => absurd head (by simp)

/-- Nothing is read at a token that is none of those that must be there. -/
theorem decides_unexpected {read : Reader α} {expected : String} {placed : PlacedToken} (completes : Completes read [])
    (unexpected : ∀ other more, read other (placed :: more) = .error (other.unexpected expected (placed :: more))) :
    Decides read line (placed :: rest) := by
  refine .stops [] rfl (unexpected line rest) completes ?_
  rintro _ ⟨⟩ other more
  exact ⟨_, unexpected other more⟩

section Bind

variable {first : Reader α} {next : α → Reader β} {tokens : Rest} {value : α}

theorem bind_eq_of_ok (read : first line tokens = .ok (value, rest)) :
    first.bind next line tokens = next value line rest := by
  rw [Reader.bind, read]
  rfl

theorem bind_eq_of_error {failure : LineError} (failed : first line tokens = .error failure) :
    first.bind next line tokens = .error failure := by
  rw [Reader.bind, failed]
  rfl

/-- Behind the end of the first part there can be tokens that are the second one. -/
def Completable (first : Reader α) (next : α → Reader β) : Prop :=
  ∀ tokens value, (∀ other, first other tokens = .ok (value, [])) → Completes (first.bind next) tokens

theorem completable_of_optional (optional : ∀ value, ∃ result, ∀ other, next value other [] = .ok (result, [])) :
    Completable first next := by
  intro tokens value read
  obtain ⟨result, ended⟩ := optional value
  refine ⟨[], result, fun other => ?_⟩
  rw [List.append_nil, bind_eq_of_ok (read other), ended]

/-- The second part decides behind what the first one reads. -/
theorem Decides.behind {taken : Rest}
    (reads : ∀ other more, Follows more rest → first other (taken ++ more) = .ok (value, more))
    (completable : Completable first next) (decides : Decides (next value) line rest) :
    Decides (first.bind next) line (taken ++ rest) := by
  have goesOn {other : TokenLine} {more : Rest} (follows : Follows more rest) :
      first.bind next other (taken ++ more) = next value other more := bind_eq_of_ok (reads other more follows)
  cases decides with
  | @reads inside behind result parted same =>
    subst parted
    refine .reads (taken ++ inside) result (List.append_assoc ..).symm fun other more follows => ?_
    rw [List.append_assoc, goesOn (follows_append follows inside), same other more follows]
  | @stops inside behind expected parted failed completes refused =>
    subst parted
    refine .stops (taken ++ inside) (List.append_assoc ..).symm ((goesOn (.inr rfl)).trans failed) ?_ ?_
    · cases inside with
      | nil =>
        -- The first part might go on with what the second one could begin with.
        rw [List.append_nil]
        refine completable taken value fun other => ?_
        have alone := reads other [] (.inl rfl)
        rwa [List.append_nil] at alone
      | cons placed inside =>
        obtain ⟨more, result, completed⟩ := completes
        refine ⟨more, result, fun other => ?_⟩
        have follows : Follows (placed :: inside ++ more) (placed :: inside ++ behind) := .inr rfl
        rw [List.append_assoc, goesOn follows, completed other]
    · intro placed head other more
      obtain ⟨failure, failed⟩ := refused placed head other more
      have follows : Follows (placed :: more) behind := .inr head.symm
      refine ⟨failure, ?_⟩
      rw [List.append_assoc, goesOn (follows_append follows inside), failed]
  | faults failed specific => exact .faults ((goesOn (.inr rfl)).trans failed) specific

/-- One part behind another. -/
theorem Decides.bind (decides : Decides first line remaining)
    (each : ∀ value rest, first line remaining = .ok (value, rest) → Decides (next value) line rest)
    (completable : Completable first next) : Decides (first.bind next) line remaining := by
  cases decides with
  | @reads taken rest value whole reads =>
    subst whole
    exact (each value rest (reads line rest (.inr rfl))).behind reads completable
  | stops taken whole failed completes refused =>
    refine .stops taken whole (bind_eq_of_error failed) ?_ ?_
    · obtain ⟨more, value, completed⟩ := completes
      obtain ⟨further, result, ended⟩ := completable _ value completed
      refine ⟨more ++ further, result, fun other => ?_⟩
      rw [← List.append_assoc, ended other]
    · intro placed head other more
      obtain ⟨failure, failed⟩ := refused placed head other more
      exact ⟨failure, bind_eq_of_error failed⟩
  | faults failed specific => exact .faults (bind_eq_of_error failed) specific

end Bind

theorem Decides.map {read : Reader α} (change : α → β) (decides : Decides read line remaining) :
    Decides (read.map change) line remaining :=
  decides.bind (fun value _ _ => decides_done (change value))
    (completable_of_optional fun value => ⟨change value, fun _ => rfl⟩)

theorem map_eq_ok {read : Reader α} {change : α → β} {value : α} (found : read line remaining = .ok (value, rest)) :
    read.map change line remaining = .ok (change value, rest) :=
  bind_eq_of_ok found

section Token

variable {expected : String} {select : PlacedToken → Option α} {placed : PlacedToken}

theorem token_of_some {value : α} (known : select placed = some value) (line : TokenLine) (rest : Rest) :
    Reader.token expected select line (placed :: rest) = .ok (value, rest) := by
  rw [Reader.token, known]

theorem token_of_none (unknown : select placed = none) (line : TokenLine) (rest : Rest) :
    Reader.token expected select line (placed :: rest) = .error (line.unexpected expected (placed :: rest)) := by
  rw [Reader.token, unknown]

theorem decides_token {value : α} (known : select placed = some value) :
    Decides (.token expected select) line remaining := by
  have completes : Completes (.token expected select) [] := ⟨[placed], value, fun other => token_of_some known other []⟩
  cases remaining with
  | nil => exact decides_lacking completes rfl
  | cons next rest =>
    cases found : select next with
    | none => exact decides_unexpected completes (token_of_none found)
    | some value => exact (decides_done value).cons (token_of_some found)

/-- A token is read whatever stands behind it. -/
theorem completable_token {next : α → Reader β}
    (completed : ∀ value, ∃ more result, ∀ other, next value other more = .ok (result, [])) :
    Completable (.token expected select) next := by
  intro tokens value read
  obtain ⟨more, result, completed⟩ := completed value
  refine ⟨more, result, fun other => ?_⟩
  cases tokens with
  | nil => cases read other
  | cons placed rest =>
    cases found : select placed with
    | none => cases (read other).symm.trans (token_of_none found other rest)
    | some known =>
      cases (read other).symm.trans (token_of_some found other rest)
      exact (bind_eq_of_ok (token_of_some found other more)).trans (completed other)

end Token

/-- A number can be missing, or be wrong by itself. -/
theorem decides_number {expected : String} {accepts : Int → Bool} (accepted : accepts 1 = true) (result : Int → α) :
    Decides (.number expected accepts result) line remaining := by
  have completes : Completes (.number expected accepts result) [] :=
    ⟨[(.integer 1, ⟨0, 0⟩)], result 1, fun other => if_pos accepted⟩
  cases remaining with
  | nil => exact decides_lacking completes rfl
  | cons placed rest =>
    obtain ⟨token, span⟩ := placed
    cases token with
    | integer value =>
      have read (other : TokenLine) (more : Rest) :
          Reader.number expected accepts result other ((.integer value, span) :: more) =
            if accepts value then .ok (result value, more) else .error ⟨.invalidArgument expected, span⟩ := rfl
      by_cases fits : accepts value = true
      · exact (decides_done (result value)).cons fun other more => (read other more).trans (if_pos fits)
      · exact .faults ((read line rest).trans (if_neg fits)) rfl
    | _ => exact decides_unexpected completes fun _ _ => rfl

/-- A comma in front of a part that cannot begin with one. -/
theorem Decides.behindComma {read : Reader α}
    (decides : Decides read line (TokenLine.afterComma remaining))
    (rejects : ∀ other place more, ∃ failure, read other ((.comma, place) :: more) = .error failure) :
    Decides read.behindComma line remaining := by
  unfold TokenLine.afterComma at decides
  split at decides
  next place rest => exact decides.cons fun other more => rfl
  next plain =>
    refine decides.congr (some .comma) ?_ ?_ ?_
    · intro other more ordinary
      rw [Reader.behindComma]
      unfold TokenLine.afterComma
      split
      next place rest => exact absurd rfl ordinary
      next => rfl
    · intro other more next
      obtain ⟨place, rest, rfl⟩ := ahead_eq_some.1 next
      exact rejects other place rest
    · intro next
      obtain ⟨place, rest, rfl⟩ := ahead_eq_some.1 next
      exact plain place rest rfl

theorem Decides.unlessEnded {read : Reader (List α)} (rejects : ∀ other, ∃ failure, read other [] = .error failure)
    (decides : remaining ≠ [] → Decides read line remaining) : Decides read.unlessEnded line remaining := by
  cases remaining with
  | nil => exact decides_whole [] fun _ => rfl
  | cons placed rest =>
    refine (decides (by simp)).congr none ?_ ?_ (by simp [ahead])
    · intro other more present
      rw [Reader.unlessEnded, if_neg (by simpa [ahead] using present)]
    · intro other more next
      rw [ahead_eq_none.1 next]
      exact rejects other

end Decides

end Mips
