import Mips.Console
import Mips.Proofs.Text.Utf8

/-!
A console that holds all of its input and one that receives it byte by byte answer alike. The first one looks for the end of
a line or of a character in all that is left, the other one stops at the byte that shows it. Main statement:
`interchangeable`.
-/

namespace Mips.Console

open Text.Utf8

/-- What a program asks of a console. -/
inductive Call where
  | print (text : String)
  | readLine
  | readCharacter

/-- What a console answers. -/
inductive Answer where
  | printed
  | line (line : Option String)
  | character (character : Option Char)
  deriving DecidableEq, Repr

section Calls

variable {κ : Type} [Console κ]

/-- The answer to a call, and the console after it. -/
def serve (console : κ) : Call → Answer × κ
  | .print text => (.printed, print console text)
  | .readLine => (readLine console).map .line id
  | .readCharacter => (readCharacter console).map .character id

/-- The answers to the calls, one after the other, and the console after them. -/
def serveAll (console : κ) : List Call → List Answer × κ
  | [] => ([], console)
  | call :: calls =>
    let (answer, next) := serve console call
    (serveAll next calls).map (answer :: ·) id

end Calls

/-- Of a line that is received the bytes that were received before belong to it. -/
theorem receiveLine_eq (held supply : List UInt8) :
    receiveLine held supply =
      if held = [] ∧ supply = [] then (none, [])
      else (some (lineText (held.reverse ++ supply.takeWhile (· ≠ newline))),
        supply.drop ((supply.takeWhile (· ≠ newline)).length + 1)) := by
  induction supply generalizing held with
  | nil => cases held <;> simp [receiveLine]
  | cons byte supply ih =>
    by_cases ends : byte = newline
    · simp [receiveLine, ends]
    · simp [receiveLine, ends, ih]

theorem receiveLine_nil (bytes : List UInt8) : receiveLine [] bytes = splitLine bytes := by
  cases bytes with
  | nil => rfl
  | cons byte bytes => rw [receiveLine_eq]; simp [splitLine]

section Character

variable {first : UInt8} {rest : List UInt8}

/-- What goes on after the beginning of a character is decided by the byte that shows what it is. -/
theorem receiveCharacter_eq (cut : head first rest = .truncated) (supply : List UInt8) :
    receiveCharacter (first :: rest) supply = splitCharacter (first :: (rest ++ supply)) := by
  induction supply generalizing rest with
  | nil => rw [List.append_nil, splitCharacter, cut, receiveCharacter]
  | cons byte supply ih =>
    have regroup : rest ++ byte :: supply = (rest ++ [byte]) ++ supply := by simp
    have length : (rest ++ [byte]).length = rest.length + 1 := by simp
    rw [receiveCharacter, regroup]
    cases found : head first (rest ++ [byte]) with
    | truncated =>
      exact ih found
    | character c count =>
      have settled := head_append found Head.noConfusion supply
      dsimp only
      rw [splitCharacter, settled]
      dsimp only
      rw [head_concat_character cut found, ← length, List.drop_left]
    | malformed count =>
      have settled := head_append found Head.noConfusion supply
      dsimp only
      rw [splitCharacter, settled]
      dsimp only
      rw [if_pos (isLeading_of_truncated cut), head_concat_malformed cut found, ← length, List.drop_left]

theorem receiveCharacter_nil (bytes : List UInt8) : receiveCharacter [] bytes = splitCharacter bytes := by
  cases bytes with
  | nil => rfl
  | cons first bytes =>
    rw [receiveCharacter]
    cases found : head first [] with
    | truncated => exact receiveCharacter_eq found bytes
    | character c count =>
      have settled := head_append found Head.noConfusion bytes
      obtain ⟨alone, -⟩ := head_eq_character_iff.1 found
      rw [List.nil_append] at settled
      rw [splitCharacter, settled]
      dsimp only
      rw [Nat.le_zero.1 alone, List.drop_zero]
    | malformed count =>
      have settled := head_append found Head.noConfusion bytes
      rw [List.nil_append] at settled
      rw [splitCharacter, settled]
      have stray : ¬isLeading first = true := fun leading =>
        absurd (broken_of_head (.inr leading) found).1 (Nat.not_lt_zero _)
      dsimp only
      rw [if_neg stray]

end Character

/-- The consoles will be read alike: what the one holds the other one is still to receive. -/
def ReadAlike (buffered : BufferedConsole) (channel : ChannelConsole) : Prop := channel.supply = buffered.input

/-- The texts that the calls print, in order. -/
def texts (calls : List Call) : List String :=
  calls.filterMap fun
    | .print text => some text
    | .readLine | .readCharacter => none

/-- Those of the texts that a channel with this much room accepts. -/
def accepted (texts : List String) : Option Nat → List String
  | none => texts
  | some room => texts.take room

section Serving

variable {buffered : BufferedConsole} {channel : ChannelConsole}

theorem readCharacter_readAlike (alike : ReadAlike buffered channel) :
    (readCharacter channel).1 = (readCharacter buffered).1 ∧
      ReadAlike (readCharacter buffered).2 (readCharacter channel).2 := by
  rw [ReadAlike] at alike
  simp only [readCharacter, ReadAlike, alike, receiveCharacter_nil, and_self]

theorem readLine_readAlike (alike : ReadAlike buffered channel) :
    (readLine channel).1 = (readLine buffered).1 ∧ ReadAlike (readLine buffered).2 (readLine channel).2 := by
  rw [ReadAlike] at alike
  simp only [readLine, ReadAlike, alike, receiveLine_nil, and_self]

theorem print_readAlike (alike : ReadAlike buffered channel) (text : String) :
    ReadAlike (print buffered text) (print channel text) := by
  obtain ⟨supply, output, room⟩ := channel
  rcases room with _ | _ | room <;> exact alike

/-- One call is answered alike, and the consoles go on to be read alike, whether or not the text that is printed arrives. -/
theorem serve_readAlike (alike : ReadAlike buffered channel) (call : Call) :
    (serve channel call).1 = (serve buffered call).1 ∧ ReadAlike (serve buffered call).2 (serve channel call).2 := by
  cases call with
  | print text => exact ⟨rfl, print_readAlike alike text⟩
  | readLine =>
    obtain ⟨answer, next⟩ := readLine_readAlike alike
    exact ⟨congrArg Answer.line answer, next⟩
  | readCharacter =>
    obtain ⟨answer, next⟩ := readCharacter_readAlike alike
    exact ⟨congrArg Answer.character answer, next⟩

/-- All calls are answered alike. -/
theorem serveAll_readAlike (alike : ReadAlike buffered channel) (calls : List Call) :
    (serveAll channel calls).1 = (serveAll buffered calls).1 ∧
      ReadAlike (serveAll buffered calls).2 (serveAll channel calls).2 := by
  induction calls generalizing buffered channel with
  | nil => exact ⟨rfl, alike⟩
  | cons call calls ih =>
    obtain ⟨answer, next⟩ := serve_readAlike alike call
    obtain ⟨answers, last⟩ := ih next
    exact ⟨congrArg₂ List.cons answer answers, last⟩

theorem output_serveAll_buffered (input : List UInt8) (output : String) (calls : List Call) :
    (serveAll (BufferedConsole.mk input output) calls).2.output = output ++ String.join (texts calls) := by
  induction calls generalizing input output with
  | nil => exact String.append_empty.symm
  | cons call calls ih =>
    cases call with
    | print text => exact (ih input (output ++ text)).trans (by rw [String.append_assoc, ← String.join_cons]; rfl)
    | readLine => exact ih (splitLine input).2 output
    | readCharacter => exact ih (splitCharacter input).2 output

/-- What is sent arrives in order, up to the text that is not accepted any more. -/
theorem output_serveAll_channel (supply : List UInt8) (output : String) (room : Option Nat) (calls : List Call) :
    (serveAll (ChannelConsole.mk supply output room) calls).2.output =
      output ++ String.join (accepted (texts calls) room) := by
  induction calls generalizing supply output room with
  | nil => cases room <;> simp [serveAll, texts, accepted, String.join_nil]
  | cons call calls ih =>
    cases call with
    | print text =>
      rcases room with _ | _ | room
      · exact (ih supply (output ++ text) none).trans (by rw [String.append_assoc, ← String.join_cons]; rfl)
      · exact ih supply output (some 0)
      · exact (ih supply (output ++ text) (some room)).trans (by rw [String.append_assoc, ← String.join_cons]; rfl)
    | readLine => exact ih (receiveLine [] supply).2 output room
    | readCharacter => exact ih (receiveCharacter [] supply).2 output room

end Serving

/--
Whatever the input and the calls, the console that holds the bytes and the one that receives them one at a time give the
same answers and leave the same input, even if the texts are dropped from some point on. If they never are, then both
deliver the same: all texts in the order in which they were printed.
-/
theorem interchangeable (input : List UInt8) (output : String) (calls : List Call) :
    (∀ room, (serveAll (ChannelConsole.mk input output room) calls).1 =
        (serveAll (BufferedConsole.mk input output) calls).1 ∧
      (serveAll (ChannelConsole.mk input output room) calls).2.supply =
        (serveAll (BufferedConsole.mk input output) calls).2.input) ∧
    (serveAll (ChannelConsole.mk input output none) calls).2.output = output ++ String.join (texts calls) ∧
    (serveAll (BufferedConsole.mk input output) calls).2.output = output ++ String.join (texts calls) := by
  refine ⟨fun room => ?_, output_serveAll_channel input output none calls, output_serveAll_buffered input output calls⟩
  have alike : ReadAlike ⟨input, output⟩ ⟨input, output, room⟩ := rfl
  exact serveAll_readAlike alike calls

end Mips.Console
