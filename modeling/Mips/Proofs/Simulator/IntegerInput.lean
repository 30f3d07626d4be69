import Mips.Proofs.Execution.Serving
import Mips.Proofs.Execution.Straight
import Mips.Proofs.Simulator.InputBuffer
import Mips.Proofs.Text.Numeral
import Mips.Proofs.Word

/-!
Reading integers. A line is taken for an integer if, without the blanks around it, it is a sign or none and then digits. A
second sign is let pass in front of the digits, although there the first one has been read already. Main statements:
`parseInteger?_eq_some_iff` and `accepted_of_readInteger`.
-/

namespace Mips

namespace Text

/-- No digit is a sign or a mark of hexadecimal digits. -/
theorem IsDigit.plain {base value : Nat} (bounded : base ≤ 16) {c : Char} (digit : IsDigit base c value) :
    c ≠ '+' ∧ c ≠ '-' ∧ c ≠ 'x' ∧ c ≠ 'X' := by
  have lower : ∀ value < 16, Text.digit value ≠ '+' ∧ Text.digit value ≠ '-' ∧ Text.digit value ≠ 'x' ∧
      Text.digit value ≠ 'X' := by decide
  have upper : ∀ value < 16, (Text.digit value).toUpper ≠ '+' ∧ (Text.digit value).toUpper ≠ '-' ∧
      (Text.digit value).toUpper ≠ 'x' ∧ (Text.digit value).toUpper ≠ 'X' := by decide
  obtain ⟨small, written⟩ := digit
  have bound : value < 16 := by omega
  rcases written with rfl | rfl
  · exact lower value bound
  · exact upper value bound

theorem IsNumeral.plain {base number : Nat} (bounded : base ≤ 16) {characters : List Char}
    (numeral : IsNumeral base characters number) : ∀ c ∈ characters, c ≠ '+' ∧ c ≠ '-' ∧ c ≠ 'x' ∧ c ≠ 'X' := by
  obtain ⟨-, values, digits, -⟩ := numeral
  induction digits with
  | nil => simp
  | cons digit _ ih => exact List.forall_mem_cons.2 ⟨digit.plain bounded, ih⟩

end Text

namespace Service

open Text

/-- A sign in front of an integer, if there is one. -/
inductive Sign where
  | absent
  | plus
  | minus
  deriving DecidableEq

namespace Sign

def characters : Sign → List Char
  | absent => []
  | plus => ['+']
  | minus => ['-']

/-- The number with the sign in front of it. -/
def apply : Sign → Int → Int
  | minus, number => -number
  | _, number => number

end Sign

/--
The text is a well-formed integer: a sign or none, and then decimal digits that denote with it a signed number of 32 bits, or
`0x` and hexadecimal digits that denote an unsigned one. The word is the number modulo `2^32`.
-/
inductive IsInteger : List Char → Word → Prop where
  | decimal (sign : Sign) {digits : List Char} {number : Nat} (numeral : IsNumeral 10 digits number)
      (fits : -0x80000000 ≤ sign.apply number ∧ sign.apply number < 0x80000000) :
    IsInteger (sign.characters ++ digits) (Word.ofInt (sign.apply number))
  | hexadecimal (sign : Sign) {mark : Char} {digits : List Char} {number : Nat} (marks : mark = 'x' ∨ mark = 'X')
      (numeral : IsNumeral 16 digits number) (fits : number < 0x100000000) :
    IsInteger (sign.characters ++ '0' :: mark :: digits) (Word.ofInt (sign.apply number))

/-- The text is an integer but for a second sign in front of its digits: any sign of decimal ones, a plus of hexadecimal ones. -/
inductive IsTwiceSigned : List Char → Word → Prop where
  | decimal {first second : Sign} (signed : first ≠ .absent) (again : second ≠ .absent) {digits : List Char} {number : Nat}
      (numeral : IsNumeral 10 digits number)
      (fits : -0x80000000 ≤ first.apply (second.apply number) ∧ first.apply (second.apply number) < 0x80000000) :
    IsTwiceSigned (first.characters ++ (second.characters ++ digits)) (Word.ofInt (first.apply (second.apply number)))
  | hexadecimal (sign : Sign) {mark : Char} {digits : List Char} {number : Nat} (marks : mark = 'x' ∨ mark = 'X')
      (numeral : IsNumeral 16 digits number) (fits : number < 0x100000000) :
    IsTwiceSigned (sign.characters ++ '0' :: mark :: '+' :: digits) (Word.ofInt (sign.apply number))

/-- The text begins with no sign. -/
def Unsigned (text : List Char) : Prop := ∀ c ∈ text.head?, c ≠ '+' ∧ c ≠ '-'

theorem unsigned_of_isNumeral {base number : Nat} (bounded : base ≤ 16) {digits : List Char}
    (numeral : IsNumeral base digits number) : Unsigned digits := by
  intro c first
  obtain ⟨plus, minus, -⟩ := numeral.plain bounded c (List.mem_of_mem_head? first)
  exact ⟨plus, minus⟩

/-- A sign is taken off if there is one, and nothing else is. -/
theorem splitSign_eq_iff {text rest : List Char} {negative : Bool} :
    splitSign text = (negative, rest) ↔
      ∃ sign : Sign, text = sign.characters ++ rest ∧ negative = decide (sign = .minus) ∧
        (sign = .absent → Unsigned rest) := by
  constructor
  · intro taken
    unfold splitSign at taken
    split at taken
    next =>
      cases taken
      exact ⟨.minus, rfl, rfl, by simp⟩
    next =>
      cases taken
      exact ⟨.plus, rfl, rfl, by simp⟩
    next minus plus =>
      cases taken
      refine ⟨.absent, rfl, rfl, fun _ c first => ?_⟩
      obtain ⟨others, rfl⟩ := List.head?_eq_some_iff.1 first
      exact ⟨fun same => plus others (by rw [same]), fun same => minus others (by rw [same])⟩
  · rintro ⟨sign, rfl, rfl, bare⟩
    cases sign with
    | plus | minus => rfl
    | absent =>
      have unsigned := bare rfl
      change splitSign rest = (false, rest)
      unfold splitSign
      split
      · exact absurd rfl (unsigned '-' rfl).2
      · exact absurd rfl (unsigned '+' rfl).1
      · rfl

/-- One plus in front of hexadecimal digits does not count. -/
theorem hexadecimal?_plus (rest : List Char) :
    hexadecimal? ('+' :: rest) = ((readNumeral? 16 rest).filter (· < 0x100000000)).map UInt32.ofNat := by
  simp only [hexadecimal?]
  cases readNumeral? 16 rest with
  | none => rfl
  | some number => by_cases fits : number < 0x100000000 <;> simp [Option.filter, fits]

theorem hexadecimal?_bare {characters : List Char} (bare : ∀ rest, characters ≠ '+' :: rest) :
    hexadecimal? characters = ((readNumeral? 16 characters).filter (· < 0x100000000)).map UInt32.ofNat := by
  unfold hexadecimal?
  split
  next rest => exact absurd rfl (bare rest)
  next =>
    dsimp only
    cases readNumeral? 16 characters with
    | none => rfl
    | some number => by_cases fits : number < 0x100000000 <;> simp [Option.filter, fits]

theorem hexadecimal?_eq_some_iff {characters : List Char} {word : Word} :
    hexadecimal? characters = some word ↔
      ∃ digits number, (characters = digits ∨ characters = '+' :: digits) ∧ IsNumeral 16 digits number ∧
        number < 0x100000000 ∧ word = Word.ofInt number := by
  have same {number : Nat} (fits : number < 0x100000000) : UInt32.ofNat number = Word.ofInt number := by
    have value := Word.ofInt_toNat (UInt32.ofNat number)
    rw [UInt32.toNat_ofNat', Nat.mod_eq_of_lt fits] at value
    exact value.symm
  have denoted (digits : List Char) :
      ((readNumeral? 16 digits).filter (· < 0x100000000)).map UInt32.ofNat = some word ↔
        ∃ number, IsNumeral 16 digits number ∧ number < 0x100000000 ∧ word = Word.ofInt number := by
    simp only [Option.map_eq_some_iff, Option.filter_eq_some_iff, readNumeral?_eq_some_iff (by decide : 16 ≤ 16),
      decide_eq_true_eq, and_assoc]
    refine exists_congr fun number => and_congr_right fun _ => and_congr_right fun fits => ?_
    rw [same fits, eq_comm]
  by_cases plus : ∃ rest, characters = '+' :: rest
  · obtain ⟨rest, rfl⟩ := plus
    rw [hexadecimal?_plus, denoted]
    constructor
    · rintro ⟨number, facts⟩
      exact ⟨rest, number, .inr rfl, facts⟩
    · rintro ⟨digits, number, rfl | shape, numeral, facts⟩
      · exact absurd rfl (numeral.plain (by decide) '+' List.mem_cons_self).1
      · cases shape
        exact ⟨number, numeral, facts⟩
  · rw [not_exists] at plus
    rw [hexadecimal?_bare plus, denoted]
    constructor
    · rintro ⟨number, facts⟩
      exact ⟨characters, number, .inl rfl, facts⟩
    · rintro ⟨digits, number, rfl | rfl, facts⟩
      · exact ⟨number, facts⟩
      · exact absurd rfl (plus digits)

theorem decimal?_eq_some_iff {first : Sign} {characters : List Char} {word : Word} :
    decimal? (decide (first = .minus)) characters = some word ↔
      ∃ (second : Sign) (digits : List Char) (number : Nat), characters = second.characters ++ digits ∧
        IsNumeral 10 digits number ∧
        (-0x80000000 ≤ first.apply (second.apply number) ∧ first.apply (second.apply number) < 0x80000000) ∧
        word = Word.ofInt (first.apply (second.apply number)) := by
  have value (second : Sign) (number : Nat) :
      (if decide (first = .minus) = decide (second = .minus) then (number : Int) else -number) =
        first.apply (second.apply number) := by
    cases first <;> cases second <;> simp [Sign.apply]
  constructor
  · intro read
    unfold decimal? at read
    cases taken : splitSign characters with
    | mk inner digits =>
      obtain ⟨second, shape, rfl, -⟩ := splitSign_eq_iff.1 taken
      simp only [taken, value] at read
      split at read
      next number denoted =>
        split at read
        next fits =>
          cases read
          exact ⟨second, digits, number, shape, (readNumeral?_eq_some_iff (by decide)).1 denoted, fits, rfl⟩
        next => cases read
      next => cases read
  · rintro ⟨second, digits, number, shape, numeral, fits, rfl⟩
    have taken : splitSign characters = (decide (second = .minus), digits) :=
      splitSign_eq_iff.2 ⟨second, shape, rfl, fun _ => unsigned_of_isNumeral (by decide) numeral⟩
    have denoted := (readNumeral?_eq_some_iff (by decide)).2 numeral
    simp only [decimal?, taken, denoted, value, if_pos fits]

/-- Behind the sign, hexadecimal digits come after their mark. -/
theorem parseInteger?_marked {text digits : List Char} {sign : Sign} {mark : Char} (marks : mark = 'x' ∨ mark = 'X')
    (taken : splitSign text = (decide (sign = .minus), '0' :: mark :: digits)) :
    parseInteger? text = (hexadecimal? digits).map fun word => Word.ofInt (sign.apply word.toNat) := by
  have signed (word : Word) : (if decide (sign = .minus) then -word else word) = Word.ofInt (sign.apply word.toNat) := by
    cases sign with
    | absent | plus => exact (Word.ofInt_toNat word).symm
    | minus =>
      change -word = Word.ofInt (-(word.toNat : Int))
      rw [Word.ofInt_neg, Word.ofInt_toNat]
  unfold parseInteger?
  rcases marks with rfl | rfl <;> simp only [taken, signed]

/-- Without a mark, decimal digits come behind the sign. -/
theorem parseInteger?_unmarked {text rest : List Char} {negative : Bool} (taken : splitSign text = (negative, rest))
    (unmarked : ∀ digits, rest ≠ '0' :: 'x' :: digits ∧ rest ≠ '0' :: 'X' :: digits) :
    parseInteger? text = decimal? negative rest := by
  unfold parseInteger?
  simp only [taken]
  split
  next digits => exact absurd rfl (unmarked digits).1
  next digits => exact absurd rfl (unmarked digits).2
  next => rfl

/-- A text is taken for an integer exactly if it is one, or would be one without a second sign in front of its digits. -/
theorem parseInteger?_eq_some_iff {text : List Char} {word : Word} :
    parseInteger? text = some word ↔ IsInteger text word ∨ IsTwiceSigned text word := by
  have value (number : Nat) (fits : number < 0x100000000) : (Word.ofInt number).toNat = number := by
    have rest := Word.toNat_ofInt number
    omega
  constructor
  · intro read
    cases taken : splitSign text with
    | mk negative rest =>
      obtain ⟨sign, shape, rfl, bare⟩ := splitSign_eq_iff.1 taken
      subst shape
      by_cases marked : ∃ mark digits, (mark = 'x' ∨ mark = 'X') ∧ rest = '0' :: mark :: digits
      · obtain ⟨mark, behind, marks, rfl⟩ := marked
        rw [parseInteger?_marked marks taken, Option.map_eq_some_iff] at read
        obtain ⟨unsigned, denoted, rfl⟩ := read
        obtain ⟨digits, number, shape, numeral, fits, rfl⟩ := hexadecimal?_eq_some_iff.1 denoted
        rw [value number fits]
        rcases shape with rfl | rfl
        · exact .inl (.hexadecimal sign marks numeral fits)
        · exact .inr (.hexadecimal sign marks numeral fits)
      · have unmarked (digits : List Char) : rest ≠ '0' :: 'x' :: digits ∧ rest ≠ '0' :: 'X' :: digits :=
          ⟨fun same => marked ⟨'x', digits, .inl rfl, same⟩, fun same => marked ⟨'X', digits, .inr rfl, same⟩⟩
        rw [parseInteger?_unmarked taken unmarked] at read
        obtain ⟨second, digits, number, rfl, numeral, fits, rfl⟩ := decimal?_eq_some_iff.1 read
        by_cases again : second = .absent
        · subst again
          exact .inl (.decimal sign numeral fits)
        · refine .inr (.decimal (fun absent => ?_) again numeral fits)
          have unsigned := bare absent
          cases second with
          | absent => exact again rfl
          | plus => exact (unsigned '+' rfl).1 rfl
          | minus => exact (unsigned '-' rfl).2 rfl
  · have marked (sign : Sign) {mark : Char} {behind : List Char} {unsigned : Word} (marks : mark = 'x' ∨ mark = 'X')
        (denoted : hexadecimal? behind = some unsigned) :
        parseInteger? (sign.characters ++ '0' :: mark :: behind) = some (Word.ofInt (sign.apply unsigned.toNat)) := by
      have taken : splitSign (sign.characters ++ '0' :: mark :: behind) =
          (decide (sign = .minus), '0' :: mark :: behind) :=
        splitSign_eq_iff.2 ⟨sign, rfl, rfl, fun _ => by simp [Unsigned]⟩
      rw [parseInteger?_marked marks taken, denoted]
      rfl
    rintro (integer | twice)
    · cases integer with
      | @decimal sign digits number numeral fits =>
        have taken : splitSign (sign.characters ++ digits) = (decide (sign = .minus), digits) :=
          splitSign_eq_iff.2 ⟨sign, rfl, rfl, fun _ => unsigned_of_isNumeral (by decide) numeral⟩
        have plain := numeral.plain (by decide)
        rw [parseInteger?_unmarked taken fun behind => ⟨?_, ?_⟩]
        · exact decimal?_eq_some_iff.2 ⟨.absent, digits, number, rfl, numeral, fits, rfl⟩
        · rintro rfl
          exact (plain 'x' (by simp)).2.2.1 rfl
        · rintro rfl
          exact (plain 'X' (by simp)).2.2.2 rfl
      | @hexadecimal sign mark digits number marks numeral fits =>
        have denoted := hexadecimal?_eq_some_iff.2 ⟨digits, number, .inl rfl, numeral, fits, rfl⟩
        rw [marked sign marks denoted, value number fits]
    · cases twice with
      | @decimal first second signed again digits number numeral fits =>
        have taken : splitSign (first.characters ++ (second.characters ++ digits)) =
            (decide (first = .minus), second.characters ++ digits) :=
          splitSign_eq_iff.2 ⟨first, rfl, rfl, fun absent => absurd absent signed⟩
        rw [parseInteger?_unmarked taken fun behind => by cases second <;> simp [Sign.characters] at again ⊢]
        exact decimal?_eq_some_iff.2 ⟨second, digits, number, rfl, numeral, fits, rfl⟩
      | @hexadecimal sign mark digits number marks numeral fits =>
        have denoted := hexadecimal?_eq_some_iff.2 ⟨digits, number, .inr rfl, numeral, fits, rfl⟩
        rw [marked sign marks denoted, value number fits]

/-- An integer has no sign but at its head. -/
theorem IsInteger.signs {text : List Char} {word : Word} (integer : IsInteger text word) :
    ∀ c ∈ text.tail, c ≠ '+' ∧ c ≠ '-' := by
  have behind {sign : Sign} {rest : List Char} (plain : ∀ c ∈ rest, c ≠ '+' ∧ c ≠ '-') :
      ∀ c ∈ (sign.characters ++ rest).tail, c ≠ '+' ∧ c ≠ '-' := by
    cases sign with
    | absent => exact fun c later => plain c (List.mem_of_mem_tail later)
    | plus | minus => exact plain
  cases integer with
  | decimal sign numeral =>
    refine behind fun c member => ?_
    obtain ⟨plus, minus, -⟩ := numeral.plain (by decide) c member
    exact ⟨plus, minus⟩
  | @hexadecimal sign mark digits number marks numeral =>
    refine behind (List.forall_mem_cons.2 ⟨by decide, List.forall_mem_cons.2 ⟨?_, fun c member => ?_⟩⟩)
    · rcases marks with rfl | rfl <;> decide
    · obtain ⟨plus, minus, -⟩ := numeral.plain (by decide) c member
      exact ⟨plus, minus⟩

theorem IsTwiceSigned.signs {text : List Char} {word : Word} (twice : IsTwiceSigned text word) :
    ∃ c ∈ text.tail, c = '+' ∨ c = '-' := by
  cases twice with
  | @decimal first second signed again =>
    cases first <;> cases second <;> simp [Sign.characters] at signed again ⊢
  | hexadecimal sign => cases sign <;> simp [Sign.characters]

theorem readInteger?_of_some {line : String} {word : Word} (read : parseInteger? (trim line.toList) = some word) :
    readInteger? (some line) = .ok word := by
  simp only [readInteger?, read]

theorem readInteger?_of_none {line : String} (refused : parseInteger? (trim line.toList) = none) :
    readInteger? (some line) =
      .error (.service (String.ofList (quoted (trim line.toList)) ++ " is not an integer")) := by
  simp only [readInteger?, refused]

end Service

namespace Simulator

variable [Generator] {κ : Type} [Console κ]

/--
What becomes of a line that is read for an integer, without the blanks around it. It is accepted exactly if it is an integer,
or would be one without a second sign in front of its digits; so without a sign behind its first character it is accepted
exactly if it is an integer. The word of a line that is accepted goes into `$v0`. Any other line is a fault of the service.
-/
theorem accepted_of_readInteger {simulator : Simulator κ} (called : simulator.machine.service? = some .readInteger)
    {line : String} (entered : (Console.readLine simulator.console).1 = some line) (outside : Outside) :
    let machine := simulator.machine
    let text := Text.trim line.toList
    let after := (simulator.advance outside).2
    (∀ word, Service.parseInteger? text = some word ↔ Service.IsInteger text word ∨ Service.IsTwiceSigned text word) ∧
      (∀ word, Service.IsTwiceSigned text word → ∀ other, ¬Service.IsInteger text other) ∧
      ((∀ c ∈ text.tail, c ≠ '+' ∧ c ≠ '-') →
        ∀ word, Service.parseInteger? text = some word ↔ Service.IsInteger text word) ∧
      (∀ word, Service.parseInteger? text = some word →
        (simulator.advance outside).1 = none ∧ after.console = (Console.readLine simulator.console).2 ∧
          after.machine = { machine.set .v0 word with pending := none, pc := machine.next }) ∧
      (Service.parseInteger? text = none →
        let fault : Fault := .service (String.ofList (Text.quoted text) ++ " is not an integer")
        simulator.Raises outside true fault ∧ machine.FaultsPrecisely after.machine true fault) := by
  intro machine text after
  have performed : (Service.readInteger.perform (Step.ready machine) simulator.console
      (outside.surroundings simulator.moment)).ending =
        (((Service.readInteger? (some line)).mapError .atOnce).map fun word => [.register .v0 word]).map
          ServiceEnd.resume := by
    rw [← entered]
    rfl
  have apart (word : Word) (twice : Service.IsTwiceSigned text word) : ∃ c ∈ text.tail, ¬(c ≠ '+' ∧ c ≠ '-') := by
    obtain ⟨c, member, sign⟩ := twice.signs
    exact ⟨c, member, fun ⟨plus, minus⟩ => sign.elim plus minus⟩
  refine ⟨fun word => Service.parseInteger?_eq_some_iff, ?_, ?_, ?_, ?_⟩
  · intro word twice other integer
    obtain ⟨c, member, sign⟩ := apart word twice
    exact sign (integer.signs c member)
  · intro plain word
    rw [Service.parseInteger?_eq_some_iff, or_iff_left_iff_imp]
    intro twice
    obtain ⟨c, member, sign⟩ := apart word twice
    exact absurd (plain c member) sign
  · intro word read
    rw [Service.readInteger?_of_some read] at performed
    obtain ⟨completed, rest, same⟩ := advance_of_service called performed
    exact ⟨completed, rest, same⟩
  · intro refused fault
    rw [Service.readInteger?_of_none refused] at performed
    have raised : simulator.Raises outside true fault := Step.raises_of_service called performed
    exact ⟨raised, (advance_of_raises raised).2⟩

/-- A simulator that is about to read an integer from its console. -/
def readingInteger (input : String) : Simulator BufferedConsole :=
  (reading 0 0 (Text.Utf8.ofText input)).setRegister .v0 5

end Simulator

end Mips

namespace Mips.Simulator

open Text

/-- A negative number in hexadecimal is read between blanks, and a line with a sign within its digits is a fault. -/
theorem accepted_with_blanks :
    let outside : Outside := ⟨fun _ => ⟨0, RandomStream.ofSeed⟩, fun _ _ => []⟩
    ((readingInteger " -0x10 \n").advance outside).2.machine.get .v0 = 0xFFFFFFF0 ∧
      (readingInteger "1-2").Raises outside true (.service "\"1-2\" is not an integer") := by
  intro outside
  have calls : (readingInteger " -0x10 \n").machine.service? = some .readInteger ∧
      (readingInteger "1-2").machine.service? = some .readInteger := by
    decide +kernel
  constructor
  · have entered : (Console.readLine (readingInteger " -0x10 \n").console).1 = some " -0x10 " := by decide +kernel
    obtain ⟨-, -, -, completes, -⟩ := accepted_of_readInteger calls.1 entered outside
    obtain ⟨-, -, same⟩ := completes 0xFFFFFFF0 (by decide +kernel)
    rw [same]
    exact Machine.get_set_self _ (by decide) _
  · have entered : (Console.readLine (readingInteger "1-2").console).1 = some "1-2" := by decide +kernel
    obtain ⟨-, -, -, -, fails⟩ := accepted_of_readInteger calls.2 entered outside
    exact (fails (by decide +kernel)).1

/-- The minus of a negative number may stand in front of it again; the line is accepted although it is no integer. -/
theorem accepted_with_two_signs :
    let outside : Outside := ⟨fun _ => ⟨0, RandomStream.ofSeed⟩, fun _ _ => []⟩
    let simulator := readingInteger "--7\n"
    simulator.machine.service? = some .readInteger ∧ (Console.readLine simulator.console).1 = some "--7" ∧
      (simulator.advance outside).1 = none ∧ (simulator.advance outside).2.machine.get .v0 = 7 ∧
      ∀ word, ¬Service.IsInteger "--7".toList word := by
  intro outside simulator
  refine ⟨by decide +kernel, by decide +kernel, by decide +kernel, by decide +kernel, ?_⟩
  intro word integer
  exact absurd rfl (integer.signs '-' (by decide)).2

end Mips.Simulator
