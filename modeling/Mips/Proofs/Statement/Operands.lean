import Mathlib.Data.List.Forall2
import Mips.Proofs.Outcome
import Mips.Statement.Parser

/-!
The grammar of operands, and how they are read by it. Commas may be left out, so that one list of tokens can be parted into
operands in several ways; what is read is the way that takes as much as there is at each place, and whenever there is a way,
this one goes through to the end. Main statements: `length_le_of_isOperand`, `exists_readOperand` and `operands_parted`.
-/

namespace Mips

/-- A base register in parentheses. -/
inductive IsBase : Rest → Register → Prop where
  | enclosed (base : Register) (opening place closing : Span) :
    IsBase [(.leftParenthesis, opening), (.register base, place), (.rightParenthesis, closing)] base

/-- What is added to a label: nothing, an integer behind its sign, or a negative integer. -/
inductive IsAddend : Rest → Int → Prop where
  | absent : IsAddend [] 0
  | plus (value : Int) (sign place : Span) : IsAddend [(.plus, sign), (.integer value, place)] value
  | minus (value : Int) (sign place : Span) : IsAddend [(.minus, sign), (.integer value, place)] (-value)
  | negative {value : Int} (below : value < 0) (place : Span) : IsAddend [(.integer value, place)] value

/-- The tokens are the operand. -/
inductive IsOperand : Rest → Operand → Prop where
  | register (register : Register) (place : Span) : IsOperand [(.register register, place)] (.register register)
  | immediate (value : Int) (place : Span) : IsOperand [(.integer value, place)] (.immediate value)
  | negated (value : Int) (sign place : Span) :
    IsOperand [(.minus, sign), (.integer value, place)] (.immediate (-value))
  | based {based : Rest} {base : Register} (isBase : IsBase based base) : IsOperand based (.based none 0 base)
  | offset (value : Int) (place : Span) {based : Rest} {base : Register} (isBase : IsBase based base) :
    IsOperand ((.integer value, place) :: based) (.based none value base)
  | label (name : String) (place : Span) {addends : Rest} {addend : Int} (isAddend : IsAddend addends addend) :
    IsOperand ((.identifier name, place) :: addends) (.label ⟨name, place.start⟩ addend)
  | labelled (name : String) (place : Span) {addends based : Rest} {addend : Int} {base : Register}
      (isAddend : IsAddend addends addend) (isBase : IsBase based base) :
    IsOperand ((.identifier name, place) :: (addends ++ based)) (.based (some ⟨name, place.start⟩) addend base)

/-- The tokens are the operand, and perhaps one comma behind it. -/
inductive IsPart : Rest → Operand → Prop where
  | bare {tokens : Rest} {operand : Operand} (isOperand : IsOperand tokens operand) : IsPart tokens operand
  | ended {tokens : Rest} {operand : Operand} (isOperand : IsOperand tokens operand) (place : Span) :
    IsPart (tokens ++ [(.comma, place)]) operand

/-- The tokens fall into parts that are the operands, one after the other. -/
structure IsParted (tokens : Rest) (parts : List Rest) (operands : List Operand) : Prop where
  whole : parts.flatten = tokens
  each : List.Forall₂ IsPart parts operands

/-- The tokens are operands, parted in some way. -/
def AreOperands (tokens : Rest) : Prop := ∃ parts operands, IsParted tokens parts operands

/-- The parts are the same as the others, or longer where they first differ. -/
inductive Outreaches : List Rest → List Rest → Prop where
  | same (parts : List Rest) : Outreaches parts parts
  | longer {part other : Rest} (parts others : List Rest) (more : other.length < part.length) :
    Outreaches (part :: parts) (other :: others)
  | later (part : Rest) {parts others : List Rest} (outreaches : Outreaches parts others) :
    Outreaches (part :: parts) (part :: others)

section Grammar

variable {tokens rest : Rest} {operand : Operand}

/-- No operand is nothing, and none begins with a comma or a plus. -/
theorem IsOperand.head (isOperand : IsOperand tokens operand) :
    ∃ token place more, tokens = (token, place) :: more ∧ token ≠ .comma ∧ token ≠ .plus := by
  cases isOperand with
  | based isBase =>
    cases isBase
    exact ⟨_, _, _, rfl, by simp, by simp⟩
  | register | immediate | negated | offset | label | labelled => exact ⟨_, _, _, rfl, by simp, by simp⟩

theorem IsPart.head {part : Rest} (isPart : IsPart part operand) :
    ∃ token place more, part = (token, place) :: more ∧ token ≠ .comma := by
  cases isPart with
  | bare isOperand =>
    obtain ⟨token, place, more, rfl, comma, -⟩ := isOperand.head
    exact ⟨token, place, more, rfl, comma⟩
  | ended isOperand _ =>
    obtain ⟨token, place, more, rfl, comma, -⟩ := isOperand.head
    exact ⟨token, place, _, rfl, comma⟩

/-- No further part begins with a comma. -/
theorem afterComma_flatten {parts : List Rest} {operands : List Operand} (each : List.Forall₂ IsPart parts operands) :
    TokenLine.afterComma parts.flatten = parts.flatten := by
  cases each with
  | nil => rfl
  | cons isPart each =>
    obtain ⟨token, place, more, rfl, comma⟩ := isPart.head
    rw [List.flatten_cons, List.cons_append]
    unfold TokenLine.afterComma
    split
    next same =>
      cases same
      exact absurd rfl comma
    next => rfl

/-- The tokens of an operand and a comma behind them, if there is one, are a part. -/
theorem exists_isPart (isOperand : IsOperand tokens operand) (rest : Rest) :
    ∃ part, IsPart part operand ∧ tokens ++ rest = part ++ TokenLine.afterComma rest := by
  unfold TokenLine.afterComma
  split
  next place behind => exact ⟨_, .ended isOperand place, by simp⟩
  next => exact ⟨_, .bare isOperand, rfl⟩

/-- Behind an operand, and its comma if there is one, there are operands again. -/
theorem areOperands_iff :
    AreOperands tokens ↔ tokens = [] ∨ ∃ taken operand rest, tokens = taken ++ rest ∧ IsOperand taken operand ∧
      AreOperands (TokenLine.afterComma rest) := by
  constructor
  · rintro ⟨parts, operands, rfl, each⟩
    cases each with
    | nil => exact .inl rfl
    | @cons part operand parts operands isPart each =>
      have behind : AreOperands parts.flatten := ⟨parts, operands, rfl, each⟩
      right
      cases isPart with
      | bare isOperand =>
        refine ⟨part, operand, parts.flatten, rfl, isOperand, ?_⟩
        rwa [afterComma_flatten each]
      | @ended taken _ isOperand place =>
        exact ⟨taken, operand, (.comma, place) :: parts.flatten, by simp, isOperand, behind⟩
  · rintro (rfl | ⟨taken, operand, rest, rfl, isOperand, parts, operands, whole, each⟩)
    · exact ⟨[], [], rfl, .nil⟩
    · obtain ⟨part, isPart, same⟩ := exists_isPart isOperand rest
      exact ⟨part :: parts, operand :: operands, by rw [List.flatten_cons, whole, same], .cons isPart each⟩

end Grammar

section First

variable {place : Span} {more : Rest}

theorem not_areOperands_plus : ¬AreOperands ((.plus, place) :: more) := by
  rw [areOperands_iff]
  rintro (absurd | ⟨taken, operand, rest, same, isOperand, -⟩)
  · cases absurd
  · obtain ⟨token, first, behind, rfl, -, plus⟩ := isOperand.head
    cases same
    exact plus rfl

/-- A parenthesis is closed behind a register. -/
theorem exists_of_parenthesis (are : AreOperands ((.leftParenthesis, place) :: more)) :
    ∃ base inside closing rest, more = (.register base, inside) :: (.rightParenthesis, closing) :: rest ∧
      AreOperands (TokenLine.afterComma rest) := by
  rw [areOperands_iff] at are
  rcases are with absurd | ⟨taken, operand, rest, same, isOperand, follow⟩
  · cases absurd
  · cases isOperand with
    | based isBase =>
      cases isBase
      cases same
      exact ⟨_, _, _, _, rfl, follow⟩
    | register | immediate | negated | offset | label | labelled => cases same

/-- A minus stands before an integer. -/
theorem exists_of_minus (are : AreOperands ((.minus, place) :: more)) :
    ∃ value behind rest, more = (.integer value, behind) :: rest ∧ AreOperands (TokenLine.afterComma rest) := by
  rw [areOperands_iff] at are
  rcases are with absurd | ⟨taken, operand, rest, same, isOperand, follow⟩
  · cases absurd
  · cases isOperand with
    | negated =>
      cases same
      exact ⟨_, _, _, rfl, follow⟩
    | based isBase =>
      cases isBase
      cases same
    | register | immediate | offset | label | labelled => cases same

/-- What may follow a number or a label with its addend: a base register, or something that is no parenthesis. -/
inductive GoesOn : Rest → Prop where
  | based (base : Register) (opening inside closing : Span) {rest : Rest} (follow : AreOperands (TokenLine.afterComma rest)) :
    GoesOn ((.leftParenthesis, opening) :: (.register base, inside) :: (.rightParenthesis, closing) :: rest)
  | bare {rest : Rest} (plain : ∀ opening more, rest ≠ (.leftParenthesis, opening) :: more)
      (follow : AreOperands (TokenLine.afterComma rest)) : GoesOn rest

theorem goesOn_of_areOperands {rest : Rest} (follow : AreOperands (TokenLine.afterComma rest)) : GoesOn rest := by
  by_cases parenthesis : ∃ opening more, rest = (.leftParenthesis, opening) :: more
  · obtain ⟨opening, more, rfl⟩ := parenthesis
    obtain ⟨base, inside, closing, rest, rfl, behind⟩ := exists_of_parenthesis follow
    exact .based base opening inside closing behind
  · exact .bare (fun opening more same => parenthesis ⟨opening, more, same⟩) follow

theorem goesOn_of_integer {value : Int} (are : AreOperands ((.integer value, place) :: more)) : GoesOn more := by
  rw [areOperands_iff] at are
  rcases are with absurd | ⟨taken, operand, rest, same, isOperand, follow⟩
  · cases absurd
  · cases isOperand with
    | immediate =>
      cases same
      exact goesOn_of_areOperands follow
    | offset _ _ isBase =>
      cases isBase
      cases same
      exact .based _ _ _ _ follow
    | based isBase =>
      cases isBase
      cases same
    | register | negated | label | labelled => cases same

end First

namespace TokenLine

variable {line : TokenLine} {tokens rest : Rest}

/-- An addend is read, and as much behind it as could belong to it. -/
theorem exists_readAddend {addends : Rest} {addend : Int} (isAddend : IsAddend addends addend) (goesOn : GoesOn rest) :
    ∃ found behind, line.readAddend (addends ++ rest) = .ok (found, behind) ∧ GoesOn behind := by
  cases isAddend with
  | plus value => exact ⟨addend, rest, rfl, goesOn⟩
  | minus value => exact ⟨-value, rest, rfl, goesOn⟩
  | negative below =>
    refine ⟨addend, rest, ?_, goesOn⟩
    rw [List.singleton_append, readAddend, if_pos below]
  | absent =>
    rw [List.nil_append]
    cases goesOn with
    | based base opening inside closing follow => exact ⟨0, _, rfl, .based base opening inside closing follow⟩
    | bare plain follow =>
      -- What could be an operand by itself is taken for the addend here.
      unfold readAddend
      split
      next => exact absurd follow not_areOperands_plus
      next =>
        obtain ⟨value, _, rest, rfl, behind⟩ := exists_of_minus follow
        exact ⟨-value, rest, rfl, goesOn_of_areOperands behind⟩
      next value place rest =>
        split
        · exact ⟨value, rest, rfl, goesOn_of_integer follow⟩
        · exact ⟨0, _, rfl, .bare plain follow⟩
      next => exact ⟨0, rest, rfl, .bare plain follow⟩

theorem exists_readOperand_integer (value : Int) (place : Span) (goesOn : GoesOn rest) :
    ∃ operand behind, line.readOperand ((.integer value, place) :: rest) = .ok (operand, behind) ∧
      AreOperands (afterComma behind) := by
  cases goesOn with
  | based base _ _ _ follow => exact ⟨_, _, rfl, follow⟩
  | bare plain follow =>
    refine ⟨.immediate value, rest, ?_, follow⟩
    cases rest with
    | nil => rfl
    | cons next rest =>
      obtain ⟨token, next⟩ := next
      cases token with
      | leftParenthesis => exact absurd rfl (plain next rest)
      | _ => rfl

theorem exists_readOperand_identifier (name : String) (place : Span) {addend : Int} {behind : Rest}
    (read : line.readAddend rest = .ok (addend, behind)) (goesOn : GoesOn behind) :
    ∃ operand behind, line.readOperand ((.identifier name, place) :: rest) = .ok (operand, behind) ∧
      AreOperands (afterComma behind) := by
  rw [readOperand, read]
  cases goesOn with
  | based base _ _ _ follow => exact ⟨_, _, rfl, follow⟩
  | bare plain follow =>
    refine ⟨.label ⟨name, place.start⟩ addend, behind, ?_, follow⟩
    cases behind with
    | nil => rfl
    | cons next behind =>
      obtain ⟨token, next⟩ := next
      cases token with
      | leftParenthesis => exact absurd rfl (plain next behind)
      | _ => rfl

/-- Of operands the first one can be read, however they are parted, and operands follow it. -/
theorem exists_readOperand (line : TokenLine) (are : AreOperands tokens) (present : tokens ≠ []) :
    ∃ operand rest, line.readOperand tokens = .ok (operand, rest) ∧ AreOperands (afterComma rest) := by
  rw [areOperands_iff] at are
  obtain nothing | ⟨taken, operand, rest, rfl, isOperand, follow⟩ := are
  · exact absurd nothing present
  · cases isOperand with
    | register => exact ⟨_, _, rfl, follow⟩
    | immediate value place => exact exists_readOperand_integer value place (goesOn_of_areOperands follow)
    | negated => exact ⟨_, _, rfl, follow⟩
    | based isBase =>
      cases isBase
      exact ⟨_, _, rfl, follow⟩
    | offset value place isBase =>
      cases isBase
      exact exists_readOperand_integer value place (.based _ _ _ _ follow)
    | label name place isAddend =>
      obtain ⟨found, behind, read, goesOn⟩ := exists_readAddend isAddend (goesOn_of_areOperands follow)
      exact exists_readOperand_identifier name place read goesOn
    | labelled name place isAddend isBase =>
      cases isBase
      obtain ⟨found, behind, read, goesOn⟩ := exists_readAddend isAddend (.based _ _ _ _ follow)
      rw [List.cons_append, List.append_assoc]
      exact exists_readOperand_identifier name place read goesOn

theorem eq_of_readInteger {expected : String} {value : Int} {place : Span}
    (read : line.readInteger expected tokens = .ok ((value, place), rest)) : tokens = (.integer value, place) :: rest := by
  unfold readInteger at read
  split at read
  · cases read
    rfl
  · cases read

theorem exists_of_readBase {base : Register} (read : line.readBase tokens = .ok (base, rest)) :
    ∃ inside closing, tokens = (.register base, inside) :: (.rightParenthesis, closing) :: rest := by
  obtain ⟨⟨found, behind⟩, first, second⟩ := bind_eq_ok_iff.1 read
  unfold readRegister at first
  split at first
  · cases first
    dsimp only at second
    split at second
    · cases second
      exact ⟨_, _, rfl⟩
    · cases second
  · cases first

/-- What is read as an addend is one. -/
theorem isAddend_of_readAddend {addend : Int} (read : line.readAddend tokens = .ok (addend, rest)) :
    ∃ taken, tokens = taken ++ rest ∧ IsAddend taken addend := by
  unfold readAddend at read
  split at read
  next sign _ =>
    obtain ⟨⟨⟨value, place⟩, behind⟩, integer, same⟩ := bind_eq_ok_iff.1 read
    cases same
    rw [eq_of_readInteger integer]
    exact ⟨_, rfl, .plus _ sign place⟩
  next sign _ =>
    obtain ⟨⟨⟨value, place⟩, behind⟩, integer, same⟩ := bind_eq_ok_iff.1 read
    cases same
    rw [eq_of_readInteger integer]
    exact ⟨_, rfl, .minus value sign place⟩
  next place _ =>
    split at read
    next below =>
      cases read
      exact ⟨_, rfl, .negative below place⟩
    next =>
      cases read
      exact ⟨[], rfl, .absent⟩
  next =>
    cases read
    exact ⟨[], rfl, .absent⟩

/-- What is read as an operand is one. -/
theorem isOperand_of_readOperand {operand : Operand} (read : line.readOperand tokens = .ok (operand, rest)) :
    ∃ taken, tokens = taken ++ rest ∧ IsOperand taken operand := by
  unfold readOperand at read
  split at read
  case h_1 =>
    cases read
    exact ⟨_, rfl, .register _ _⟩
  case h_2 value place opening _ =>
    obtain ⟨⟨base, behind⟩, based, same⟩ := bind_eq_ok_iff.1 read
    cases same
    obtain ⟨inside, closing, rfl⟩ := exists_of_readBase based
    exact ⟨_, rfl, .offset value place (.enclosed base opening inside closing)⟩
  case h_3 =>
    cases read
    exact ⟨_, rfl, .immediate _ _⟩
  case h_4 sign _ =>
    obtain ⟨⟨⟨value, place⟩, behind⟩, integer, same⟩ := bind_eq_ok_iff.1 read
    cases same
    rw [eq_of_readInteger integer]
    exact ⟨_, rfl, .negated value sign place⟩
  case h_5 opening _ =>
    obtain ⟨⟨base, behind⟩, based, same⟩ := bind_eq_ok_iff.1 read
    cases same
    obtain ⟨inside, closing, rfl⟩ := exists_of_readBase based
    exact ⟨_, rfl, .based (.enclosed base opening inside closing)⟩
  case h_6 name place _ =>
    obtain ⟨⟨addend, behind⟩, added, same⟩ := bind_eq_ok_iff.1 read
    obtain ⟨addends, rfl, isAddend⟩ := isAddend_of_readAddend added
    dsimp only at same
    split at same
    next opening _ =>
      obtain ⟨⟨base, behind⟩, based, same⟩ := bind_eq_ok_iff.1 same
      cases same
      obtain ⟨inside, closing, rfl⟩ := exists_of_readBase based
      exact ⟨_, by simp, .labelled name place isAddend (.enclosed base opening inside closing)⟩
    next =>
      cases same
      exact ⟨_, rfl, .label name place isAddend⟩
  case h_7 => cases read

theorem length_le_of_isAddend {addends : Rest} {addend found : Int} (isAddend : IsAddend addends addend)
    (read : line.readAddend (addends ++ tokens) = .ok (found, rest)) : rest.length ≤ tokens.length := by
  cases isAddend with
  | absent => exact length_readAddend read
  | plus | minus =>
    cases read
    exact Nat.le_refl _
  | negative below =>
    rw [List.singleton_append, readAddend, if_pos below] at read
    cases read
    exact Nat.le_refl _

/-- An addend ends where a parenthesis is opened. -/
theorem readAddend_parenthesis {addends : Rest} {addend : Int} (isAddend : IsAddend addends addend) (opening : Span)
    (more : Rest) :
    line.readAddend (addends ++ (.leftParenthesis, opening) :: more) = .ok (addend, (.leftParenthesis, opening) :: more) := by
  cases isAddend with
  | absent | plus | minus => rfl
  | negative below => rw [List.singleton_append, readAddend, if_pos below]

/-- Whatever of the tokens is an operand, at least as much of them is read. -/
theorem length_le_of_isOperand {other : Rest} {operand found : Operand} (isOperand : IsOperand other operand)
    (read : line.readOperand (other ++ tokens) = .ok (found, rest)) : rest.length ≤ tokens.length := by
  cases isOperand with
  | register | negated =>
    cases read
    exact Nat.le_refl _
  | based isBase | offset _ _ isBase =>
    cases isBase
    cases read
    exact Nat.le_refl _
  | immediate value place =>
    have shorter := length_readOperand read
    simp only [List.singleton_append, List.length_cons] at shorter
    omega
  | label name place isAddend =>
    obtain ⟨⟨addend, behind⟩, added, same⟩ := bind_eq_ok_iff.1 read
    have bound := length_le_of_isAddend isAddend added
    dsimp only at same
    split at same
    next =>
      obtain ⟨⟨base, last⟩, based, same⟩ := bind_eq_ok_iff.1 same
      cases same
      have shorter := length_readBase based
      simp only [List.length_cons] at bound
      dsimp only
      omega
    next =>
      cases same
      exact bound
  | labelled name place isAddend isBase =>
    cases isBase
    rw [List.cons_append, List.append_assoc, readOperand] at read
    simp only [List.cons_append, readAddend_parenthesis isAddend] at read
    cases read
    exact Nat.le_refl _

/-- Reading leaves an end of the tokens, or stops where there is one that was not expected. -/
def EndsWithin {α : Type} (line : TokenLine) (tokens : Rest) (outcome : Except LineError (α × Rest)) : Prop :=
  Ends (fun found => found.2 <:+ tokens)
    (fun failure => ∃ expected stop, stop <:+ tokens ∧ failure = line.unexpected expected stop) outcome

section EndsWithin

variable {α β : Type}

theorem endsWithin_ok {value : α} (suffix : rest <:+ tokens) : EndsWithin line tokens (.ok (value, rest)) := suffix

theorem endsWithin_unexpected (expected : String) (suffix : rest <:+ tokens) :
    EndsWithin line tokens (.error (line.unexpected expected rest) : Except LineError (α × Rest)) :=
  ⟨expected, rest, suffix, rfl⟩

theorem EndsWithin.behind {outcome : Except LineError (α × Rest)} (ends : EndsWithin line rest outcome)
    (suffix : rest <:+ tokens) : EndsWithin line tokens outcome := by
  cases outcome with
  | ok found => exact List.IsSuffix.trans ends suffix
  | error failure =>
    obtain ⟨expected, stop, within, same⟩ := ends
    exact ⟨expected, stop, within.trans suffix, same⟩

theorem EndsWithin.bind {outcome : Except LineError (α × Rest)} {next : α × Rest → Except LineError (β × Rest)}
    (ends : EndsWithin line tokens outcome) (each : ∀ value rest, EndsWithin line rest (next (value, rest))) :
    EndsWithin line tokens (outcome >>= next) :=
  Ends.bind ends fun found suffix => (each found.1 found.2).behind suffix

theorem endsWithin_readInteger (expected : String) (tokens : Rest) :
    EndsWithin line tokens (line.readInteger expected tokens) := by
  unfold readInteger
  split
  · exact endsWithin_ok (List.suffix_cons _ _)
  · exact endsWithin_unexpected expected List.suffix_rfl

theorem endsWithin_readRegister (tokens : Rest) : EndsWithin line tokens (line.readRegister tokens) := by
  unfold readRegister
  split
  · exact endsWithin_ok (List.suffix_cons _ _)
  · exact endsWithin_unexpected "register" List.suffix_rfl

theorem endsWithin_readBase (tokens : Rest) : EndsWithin line tokens (line.readBase tokens) := by
  unfold readBase
  refine (endsWithin_readRegister tokens).bind fun base rest => ?_
  dsimp only
  split
  · exact endsWithin_ok (List.suffix_cons _ _)
  · exact endsWithin_unexpected "')'" List.suffix_rfl

theorem endsWithin_readAddend (tokens : Rest) : EndsWithin line tokens (line.readAddend tokens) := by
  unfold readAddend
  split
  case h_1 | h_2 =>
    refine ((endsWithin_readInteger "integer" _).bind fun value rest => ?_).behind (List.suffix_cons _ _)
    exact endsWithin_ok List.suffix_rfl
  case h_3 =>
    split
    · exact endsWithin_ok (List.suffix_cons _ _)
    · exact endsWithin_ok List.suffix_rfl
  case h_4 => exact endsWithin_ok List.suffix_rfl

theorem endsWithin_readOperand (line : TokenLine) (tokens : Rest) : EndsWithin line tokens (line.readOperand tokens) := by
  have based (withBase : Register → Operand) (rest : Rest) :
      EndsWithin line rest (line.readBase rest >>= fun read => .ok (withBase read.1, read.2)) :=
    (endsWithin_readBase rest).bind fun base rest => endsWithin_ok List.suffix_rfl
  unfold readOperand
  split
  case h_1 | h_3 => exact endsWithin_ok (List.suffix_cons _ _)
  case h_2 value _ _ _ => exact (based (.based none value) _).behind ((List.suffix_cons _ _).trans (List.suffix_cons _ _))
  case h_4 =>
    refine ((endsWithin_readInteger "integer" _).bind fun value rest => ?_).behind (List.suffix_cons _ _)
    exact endsWithin_ok List.suffix_rfl
  case h_5 => exact (based (.based none 0) _).behind (List.suffix_cons _ _)
  case h_6 name place _ =>
    refine ((endsWithin_readAddend _).bind fun addend rest => ?_).behind (List.suffix_cons _ _)
    dsimp only
    split
    · exact (based (.based (some ⟨name, place.start⟩) addend) _).behind (List.suffix_cons _ _)
    · exact endsWithin_ok List.suffix_rfl
  case h_7 => exact endsWithin_unexpected "operand" List.suffix_rfl

end EndsWithin

end TokenLine

/-- The operand that is read and its comma are a part of the tokens, and none that they could begin with is longer. -/
theorem exists_longest_part {line : TokenLine} {tokens rest : Rest} {operand : Operand}
    (read : line.readOperand tokens = .ok (operand, rest)) :
    ∃ part, IsPart part operand ∧ tokens = part ++ TokenLine.afterComma rest ∧
      ∀ other alternative behind, IsPart other alternative → tokens = other ++ behind → other.length ≤ part.length := by
  obtain ⟨taken, whole, isOperand⟩ := TokenLine.isOperand_of_readOperand read
  obtain ⟨part, isPart, parted⟩ := exists_isPart isOperand rest
  rw [whole, parted] at read
  refine ⟨part, isPart, whole.trans parted, fun other alternative behind isOther split => ?_⟩
  have total : part.length + (TokenLine.afterComma rest).length = other.length + behind.length := by
    rw [← List.length_append, ← List.length_append, ← parted, ← whole, split]
  have short := TokenLine.length_afterComma rest
  rw [← parted, ← whole, split] at read
  cases isOther with
  | bare isOther =>
    have bound := TokenLine.length_le_of_isOperand isOther read
    omega
  | @ended inside _ isOther place =>
    rw [List.append_assoc] at read split
    have bound := TokenLine.length_le_of_isOperand isOther read
    rw [List.singleton_append, List.length_cons] at bound
    rcases Nat.lt_or_eq_of_le bound with less | equal
    · omega
    · -- Then the comma stands behind the operand that is read, too.
      have same : rest = (.comma, place) :: behind :=
        (List.append_inj' (whole.symm.trans split) (by rw [List.singleton_append, List.length_cons, equal])).2
      rw [same] at total
      exact Nat.le_of_eq (Nat.add_right_cancel total).symm

/--
The tokens are read as operands by the way to part them that takes the longest ones from the left; if there is no way, there
is an error at one of them, or at their end, where something else was expected.
-/
def ReadLongest (line : TokenLine) (tokens : Rest) (outcome : Except LineError (List Operand)) : Prop :=
  Ends
    (fun operands => ∃ parts, IsParted tokens parts operands ∧
      ∀ others alternatives, IsParted tokens others alternatives → Outreaches parts others)
    (fun failure => ¬AreOperands tokens ∧ ∃ expected stop, stop <:+ tokens ∧ failure = line.unexpected expected stop)
    outcome

theorem readLongest_readOperands (line : TokenLine) (tokens : Rest) :
    ReadLongest line tokens (line.readOperands tokens) := by
  fun_induction line.readOperands tokens with
  | case1 tokens empty =>
    obtain rfl := List.isEmpty_iff.1 empty
    refine ⟨[], ⟨rfl, .nil⟩, fun others alternatives parted => ?_⟩
    obtain ⟨whole, each⟩ := parted
    cases each with
    | nil => exact .same []
    | cons isPart each =>
      obtain ⟨_, _, _, rfl, -⟩ := isPart.head
      cases whole
  | case2 tokens visible failure read =>
    have ends := TokenLine.endsWithin_readOperand line tokens
    rw [read] at ends
    refine ⟨fun are => ?_, ends⟩
    obtain ⟨operand, rest, success, -⟩ := TokenLine.exists_readOperand line are (by simpa using visible)
    rw [read] at success
    cases success
  | case3 tokens visible operand rest read ih =>
    obtain ⟨part, isPart, whole, longest⟩ := exists_longest_part read
    generalize line.readOperands (TokenLine.afterComma rest) = outcome at ih
    cases outcome with
    | ok operands =>
      obtain ⟨parts, parted, outreaches⟩ := ih
      refine ⟨part :: parts, ⟨by rw [List.flatten_cons, parted.whole, whole], .cons isPart parted.each⟩, ?_⟩
      rintro others alternatives ⟨covered, each⟩
      cases each with
      | nil => simp [← covered] at visible
      | @cons other alternative others alternatives isOther each =>
        rw [List.flatten_cons] at covered
        rcases Nat.lt_or_eq_of_le (longest other alternative _ isOther covered.symm) with less | equal
        · exact .longer parts others less
        · obtain ⟨rfl, behind⟩ := List.append_inj (covered.trans whole) equal
          exact .later other (outreaches others alternatives ⟨behind, each⟩)
    | error failure =>
      obtain ⟨not, expected, stop, suffix, same⟩ := ih
      refine ⟨fun are => ?_, expected, stop, ?_, same⟩
      · obtain ⟨other, behind, success, follow⟩ := TokenLine.exists_readOperand line are (by simpa using visible)
        rw [read] at success
        cases success
        exact not follow
      · rw [whole]
        exact suffix.trans (List.suffix_append _ _)

/--
Behind a mnemonic a list of tokens is read as operands exactly if it can be parted into operands with a comma behind each of
them or none. It is read by the way to part it that takes the longest ones from the left, and to its end.
-/
theorem operands_parted (tokens : Rest) :
    (∀ line, ReadLongest line tokens (line.readOperands tokens)) ∧
      ∀ (definitions : Definitions) (text : String) (number : Nat) (all : Rest) (labels : List Label) (name : String)
        (place : Span) (mnemonic : Mnemonic),
        definitions.tokens false (Token.items text) = (all, none) →
        leadingLabels all = (labels, (.identifier name, place) :: tokens) →
        Mnemonic.ofName? (Text.lowercase name) = some mnemonic →
        ∃ outcome span, ReadLongest ⟨all, text.utf8ByteSize⟩ tokens outcome ∧
          parseLineWith definitions text number = outcome.map fun operands =>
            (some ⟨number, labels, some (.instruction ⟨mnemonic, operands⟩), span⟩, definitions) := by
  refine ⟨fun line => readLongest_readOperands line tokens, ?_⟩
  intro definitions text number all labels name place mnemonic lexed headed known
  refine ⟨_, ⟨place.start, max ((all.getLast?.map fun placed => placed.2.stop).getD 0) place.start⟩,
    readLongest_readOperands ⟨all, text.utf8ByteSize⟩ tokens, ?_⟩
  have named : TokenLine.readMnemonic name place = .ok mnemonic := by rw [TokenLine.readMnemonic, known]
  simp only [parseLineWith, lexed, parseTokens, headed, named, bind, Except.bind, pure, Except.pure]
  cases TokenLine.readOperands ⟨all, text.utf8ByteSize⟩ tokens <;> rfl

/-- A label takes the number behind it for its addend, and the register behind that for its base. -/
theorem operands_parted_without_commas :
    let text := "sw $t0 table -8 ($sp), 4"
    let tokens : Rest := [(.register ⟨8⟩, ⟨3, 6⟩), (.identifier "table", ⟨7, 12⟩), (.integer (-8), ⟨13, 15⟩),
      (.leftParenthesis, ⟨16, 17⟩), (.register ⟨29⟩, ⟨17, 20⟩), (.rightParenthesis, ⟨20, 21⟩),
      (.comma, ⟨21, 22⟩), (.integer 4, ⟨23, 24⟩)]
    let all := (.identifier "sw", ⟨0, 2⟩) :: tokens
    (Definitions.tokens [] false (Token.items text) = (all, none) ∧
      leadingLabels all = ([], all) ∧ Mnemonic.ofName? (Text.lowercase "sw") = some (.machine .sw)) ∧
      ∃ outcome span, ReadLongest ⟨all, 24⟩ tokens outcome ∧
        parseLineWith [] text 1 = outcome.map fun operands =>
          (some ⟨1, [], some (.instruction ⟨.machine .sw, operands⟩), span⟩, []) := by
  intro text tokens all
  have lexed : Definitions.tokens [] false (Token.items text) = (all, none) := by decide +kernel
  have headed : leadingLabels all = ([], all) := by decide +kernel
  have known : Mnemonic.ofName? (Text.lowercase "sw") = some (.machine .sw) := by decide +kernel
  exact ⟨⟨lexed, headed, known⟩,
    (operands_parted tokens).2 [] text 1 all [] "sw" ⟨0, 2⟩ (.machine .sw) lexed headed known⟩

end Mips
