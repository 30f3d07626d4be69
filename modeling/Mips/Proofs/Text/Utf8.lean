import Mathlib.Data.List.Forall2
import Mips.Span
import Mips.Text.Utf8

/-!
Characters as bytes, read from their head on. The first byte of a character decides how many bytes follow it and between
which bounds they lie, so that what stands at the head of a list of bytes is told by how many of them keep to these bounds.
Main statements: `head_eq`, `utf8EncodeChar_eq_iff` and `length_ofText`.
-/

namespace Mips.Text.Utf8

/-- The byte lies between the bounds. -/
def Within (bounds : UInt8 × UInt8) (byte : UInt8) : Prop := within bounds.1 bounds.2 byte = true

/-- The byte is the first one of some character. -/
def IsFirst (byte : UInt8) : Prop := byte < 0x80 ∨ isLeading byte = true

instance : DecidablePred IsFirst := fun byte => inferInstanceAs (Decidable (byte < 0x80 ∨ isLeading byte = true))

/-- The bounds of the bytes that follow the first byte of a character. -/
def followers (first : UInt8) : List (UInt8 × UInt8) :=
  if first.toNat < 0x80 then []
  else if first.toNat < 0xE0 then [(0x80, 0xBF)]
  else if first.toNat < 0xF0 then [secondBounds first, (0x80, 0xBF)]
  else [secondBounds first, (0x80, 0xBF), (0x80, 0xBF)]

/-- What the first byte of a character adds to its number. -/
def leadBits (first : UInt8) : Nat :=
  if first.toNat < 0x80 then first.toNat
  else if first.toNat < 0xE0 then first.toNat % 32
  else if first.toNat < 0xF0 then first.toNat % 16
  else first.toNat % 8

/-- How many of the bytes lie between the bounds, up to the first one that does not. -/
def fitting : List (UInt8 × UInt8) → List UInt8 → Nat
  | [], _ | _ :: _, [] => 0
  | bounds :: others, byte :: rest => if within bounds.1 bounds.2 byte then fitting others rest + 1 else 0

/-- The bytes are those of one character, by the bounds between which they lie. -/
structure IsWhole (first : UInt8) (rest : List UInt8) : Prop where
  begins : IsFirst first
  follows : List.Forall₂ Within (followers first) rest

section Fitting

variable {bounds : List (UInt8 × UInt8)} {bytes : List UInt8}

theorem fitting_le (bounds : List (UInt8 × UInt8)) (bytes : List UInt8) :
    fitting bounds bytes ≤ bounds.length ∧ fitting bounds bytes ≤ bytes.length := by
  fun_induction fitting bounds bytes with
  | case3 bounds others byte rest inside ih =>
    simp only [List.length_cons]
    omega
  | case1 | case2 | case4 => exact ⟨Nat.zero_le _, Nat.zero_le _⟩

/-- Of the first so many bytes those are between the bounds that are so among all. -/
theorem fitting_take (bounds : List (UInt8 × UInt8)) (bytes : List UInt8) (count : Nat) :
    fitting bounds (bytes.take count) = min count (fitting bounds bytes) := by
  fun_induction fitting bounds bytes generalizing count with
  | case1 | case2 => simp [fitting]
  | case3 bounds others byte rest inside ih =>
    cases count with
    | zero => simp [fitting]
    | succ count => simp [fitting, inside, ih, Nat.succ_min_succ]
  | case4 bounds others byte rest outside => cases count <;> simp [fitting, outside]

/-- Bytes that are appended count only if all before them are between bounds, and more bounds are left. -/
theorem fitting_append (settled : fitting bounds bytes = bounds.length ∨ fitting bounds bytes ≠ bytes.length)
    (more : List UInt8) : fitting bounds (bytes ++ more) = fitting bounds bytes := by
  fun_induction fitting bounds bytes with
  | case1 => simp [fitting]
  | case2 => simp at settled
  | case3 bounds others byte rest inside ih =>
    have later := ih (by simpa using settled)
    simp [fitting, inside, later]
  | case4 bounds others byte rest outside => simp [fitting, outside]

/-- All bounds are used up exactly if as many bytes lie between them. -/
theorem fitting_eq_length_iff : fitting bounds bytes = bounds.length ↔
    bounds.length ≤ bytes.length ∧ List.Forall₂ Within bounds (bytes.take bounds.length) := by
  fun_induction fitting bounds bytes with
  | case1 => simp
  | case2 => simp
  | case3 bounds others byte rest inside ih => simp [ih, Within, inside]
  | case4 bounds others byte rest outside => simp [Within, outside]

/-- All bytes count exactly if they lie between as many of the bounds. -/
theorem fitting_eq_bytes_iff :
    fitting bounds bytes = bytes.length ↔ List.Forall₂ Within (bounds.take bytes.length) bytes := by
  fun_induction fitting bounds bytes with
  | case1 bytes => cases bytes <;> simp
  | case2 => simp
  | case3 bounds others byte rest inside ih => simp [ih, Within, inside]
  | case4 bounds others byte rest outside => simp [Within, outside]

end Fitting

theorem within_iff (low high byte : UInt8) :
    within low high byte = true ↔ low.toNat ≤ byte.toNat ∧ byte.toNat ≤ high.toNat := by
  simp [within, UInt8.le_iff_toNat_le]

theorem not_within {low high byte : UInt8} (outside : byte.toNat < low.toNat ∨ high.toNat < byte.toNat) :
    ¬within low high byte = true := by
  rw [within_iff]
  omega

theorem within_continuation (byte : UInt8) : Within (0x80, 0xBF) byte ↔ 0x80 ≤ byte.toNat ∧ byte.toNat ≤ 0xBF :=
  within_iff 0x80 0xBF byte

/-- Behind four of the first bytes there are fewer second ones than behind the others. -/
theorem within_secondBounds (first byte : UInt8) :
    Within (secondBounds first) byte ↔
      0x80 ≤ byte.toNat ∧ byte.toNat ≤ 0xBF ∧ (first.toNat = 0xE0 → 0xA0 ≤ byte.toNat) ∧
        (first.toNat = 0xED → byte.toNat ≤ 0x9F) ∧ (first.toNat = 0xF0 → 0x90 ≤ byte.toNat) ∧
        (first.toNat = 0xF4 → byte.toNat ≤ 0x8F) := by
  have e0 : first = 0xE0 ↔ first.toNat = 0xE0 := UInt8.toNat_inj.symm
  have ed : first = 0xED ↔ first.toNat = 0xED := UInt8.toNat_inj.symm
  have f0 : first = 0xF0 ↔ first.toNat = 0xF0 := UInt8.toNat_inj.symm
  have f4 : first = 0xF4 ↔ first.toNat = 0xF4 := UInt8.toNat_inj.symm
  rw [Within, within_iff, secondBounds]
  simp only [e0, ed, f0, f4]
  split
  · change 0xA0 ≤ _ ∧ _ ≤ 0xBF ↔ _
    omega
  split
  · change 0x80 ≤ _ ∧ _ ≤ 0x9F ↔ _
    omega
  split
  · change 0x90 ≤ _ ∧ _ ≤ 0xBF ↔ _
    omega
  split
  · change 0x80 ≤ _ ∧ _ ≤ 0x8F ↔ _
    omega
  · change 0x80 ≤ _ ∧ _ ≤ 0xBF ↔ _
    omega

theorem isLeading_iff (byte : UInt8) : isLeading byte = true ↔ 0xC2 ≤ byte.toNat ∧ byte.toNat ≤ 0xF4 :=
  within_iff 0xC2 0xF4 byte

theorem isFirst_iff (byte : UInt8) :
    IsFirst byte ↔ byte.toNat < 0x80 ∨ 0xC2 ≤ byte.toNat ∧ byte.toNat ≤ 0xF4 := by
  rw [IsFirst, isLeading_iff, UInt8.lt_iff_toNat_lt]
  rfl

section First

variable {first : UInt8}

theorem not_lt_of_large (large : 0x80 ≤ first.toNat) : ¬first < 0x80 := fun small =>
  Nat.not_lt.2 large (UInt8.lt_iff_toNat_lt.1 small)

theorem of_ascii (small : first.toNat < 0x80) : followers first = [] ∧ leadBits first = first.toNat := by
  simp only [followers, leadBits, if_pos small, and_self]

theorem of_two (lower : 0x80 ≤ first.toNat) (upper : first.toNat < 0xE0) :
    followers first = [(0x80, 0xBF)] ∧ leadBits first = first.toNat % 32 := by
  simp only [followers, leadBits, if_neg (Nat.not_lt.2 lower), if_pos upper, and_self]

theorem of_three (lower : 0xE0 ≤ first.toNat) (upper : first.toNat < 0xF0) :
    followers first = [secondBounds first, (0x80, 0xBF)] ∧ leadBits first = first.toNat % 16 := by
  have large : ¬first.toNat < 0x80 := by omega
  simp only [followers, leadBits, if_neg large, if_neg (Nat.not_lt.2 lower), if_pos upper, and_self]

theorem of_four (lower : 0xF0 ≤ first.toNat) :
    followers first = [secondBounds first, (0x80, 0xBF), (0x80, 0xBF)] ∧ leadBits first = first.toNat % 8 := by
  have large : ¬first.toNat < 0x80 ∧ ¬first.toNat < 0xE0 := by omega
  simp only [followers, leadBits, if_neg large.1, if_neg large.2, if_neg (Nat.not_lt.2 lower), and_self]

/-- What stands at the head of bytes whose first one begins a character, by how many of the others continue it. -/
def counted (first : UInt8) (rest : List UInt8) : Head :=
  let count := fitting (followers first) rest
  if count = (followers first).length then .character (Char.ofNat (point (leadBits first) (rest.take count))) count
  else if count = rest.length then .truncated
  else .malformed count

theorem head_ascii (small : first.toNat < 0x80) (rest : List UInt8) : head first rest = counted first rest := by
  have ascii : first < 0x80 := UInt8.lt_iff_toNat_lt.2 small
  obtain ⟨bounds, bits⟩ := of_ascii small
  simp [head, counted, ascii, bounds, bits, fitting, point]

theorem head_two (lower : 0xC2 ≤ first.toNat) (upper : first.toNat ≤ 0xDF) (rest : List UInt8) :
    head first rest = counted first rest := by
  have large : ¬first < 0x80 := not_lt_of_large (by omega)
  have here : within 0xC2 0xDF first = true := (within_iff _ _ _).2 ⟨lower, upper⟩
  obtain ⟨bounds, bits⟩ := of_two (Nat.le_trans (by decide) lower) (Nat.lt_succ_of_le upper)
  unfold head counted
  rw [if_neg large, if_pos here, bounds, bits]
  rcases rest with _ | ⟨b, rest⟩
  · rfl
  · cases second : within 0x80 0xBF b <;> simp [fitting, isContinuation, second]

theorem head_three (lower : 0xE0 ≤ first.toNat) (upper : first.toNat ≤ 0xEF) (rest : List UInt8) :
    head first rest = counted first rest := by
  have large : ¬first < 0x80 := not_lt_of_large (by omega)
  have above : ¬within 0xC2 0xDF first = true :=
    not_within (.inr (Nat.lt_of_lt_of_le (by decide : (0xDF : UInt8).toNat < 0xE0) lower))
  have here : within 0xE0 0xEF first = true := (within_iff _ _ _).2 ⟨lower, upper⟩
  obtain ⟨bounds, bits⟩ := of_three lower (by omega)
  unfold head counted
  rw [if_neg large, if_neg above, if_pos here, bounds, bits]
  rcases rest with _ | ⟨b, _ | ⟨c, rest⟩⟩
  · rfl
  · cases second : within (secondBounds first).1 (secondBounds first).2 b <;> simp [fitting, second]
  · cases second : within (secondBounds first).1 (secondBounds first).2 b <;> cases third : within 0x80 0xBF c <;>
      simp [fitting, isContinuation, second, third]

theorem head_four (lower : 0xF0 ≤ first.toNat) (upper : first.toNat ≤ 0xF4) (rest : List UInt8) :
    head first rest = counted first rest := by
  have large : ¬first < 0x80 := not_lt_of_large (by omega)
  have above : ¬within 0xC2 0xDF first = true ∧ ¬within 0xE0 0xEF first = true :=
    ⟨not_within (.inr (Nat.lt_of_lt_of_le (by decide : (0xDF : UInt8).toNat < 0xF0) lower)),
      not_within (.inr (Nat.lt_of_lt_of_le (by decide : (0xEF : UInt8).toNat < 0xF0) lower))⟩
  have here : within 0xF0 0xF4 first = true := (within_iff _ _ _).2 ⟨lower, upper⟩
  obtain ⟨bounds, bits⟩ := of_four lower
  unfold head counted
  rw [if_neg large, if_neg above.1, if_neg above.2, if_pos here, bounds, bits]
  rcases rest with _ | ⟨b, _ | ⟨c, _ | ⟨d, rest⟩⟩⟩
  · rfl
  · cases second : within (secondBounds first).1 (secondBounds first).2 b <;> simp [fitting, second]
  · cases second : within (secondBounds first).1 (secondBounds first).2 b <;> cases third : within 0x80 0xBF c <;>
      simp [fitting, isContinuation, second, third]
  · cases second : within (secondBounds first).1 (secondBounds first).2 b <;> cases third : within 0x80 0xBF c <;>
      cases fourth : within 0x80 0xBF d <;> simp [fitting, isContinuation, second, third, fourth]

/-- What stands at the head of bytes is told by how many of them continue what the first one begins. -/
theorem head_eq (begins : IsFirst first) (rest : List UInt8) : head first rest = counted first rest := by
  rcases (isFirst_iff first).1 begins with small | ⟨lower, upper⟩
  · exact head_ascii small rest
  · by_cases two : first.toNat ≤ 0xDF
    · exact head_two lower two rest
    by_cases three : first.toNat ≤ 0xEF
    · exact head_three (by omega) three rest
    · exact head_four (by omega) upper rest

/-- A byte that is not the first one of any character stands for itself. -/
theorem head_of_not_isFirst (stray : ¬IsFirst first) (rest : List UInt8) : head first rest = .malformed 0 := by
  rw [isFirst_iff] at stray
  have large : ¬first < 0x80 := not_lt_of_large (by omega)
  have outside {low high : UInt8} (lower : 0xC2 ≤ low.toNat) (upper : high.toNat ≤ 0xF4) :
      ¬within low high first = true := not_within (by omega)
  unfold head
  rw [if_neg large, if_neg (outside (by decide) (by decide)), if_neg (outside (by decide) (by decide)),
    if_neg (outside (by decide) (by decide))]

end First

section Head

variable {first : UInt8} {rest : List UInt8} {count : Nat}

/-- More bytes at the end do not change what stands at the head, unless it was cut off there. -/
theorem head_append {seen : Head} (found : head first rest = seen) (settled : seen ≠ .truncated) (more : List UInt8) :
    head first (rest ++ more) = seen := by
  subst found
  by_cases begins : IsFirst first
  · rw [head_eq begins] at settled
    rw [head_eq begins, head_eq begins]
    obtain ⟨-, within⟩ := fitting_le (followers first) rest
    unfold counted at settled ⊢
    dsimp only at settled ⊢
    by_cases whole : fitting (followers first) rest = (followers first).length
    · rw [fitting_append (.inl whole), if_pos whole, if_pos whole, List.take_append_of_le_length within]
    · by_cases all : fitting (followers first) rest = rest.length
      · rw [if_neg whole, if_pos all] at settled
        exact absurd rfl settled
      · have longer : fitting (followers first) rest ≠ (rest ++ more).length := by
          rw [List.length_append]
          omega
        rw [fitting_append (.inr all), if_neg whole, if_neg whole, if_neg all, if_neg longer]
  · rw [head_of_not_isFirst begins, head_of_not_isFirst begins]

/-- A character at the head consists of bytes that lie between its bounds. -/
theorem isWhole_of_head {c : Char} (found : head first rest = .character c count) :
    count ≤ rest.length ∧ IsWhole first (rest.take count) ∧
      c = Char.ofNat (point (leadBits first) (rest.take count)) := by
  by_cases begins : IsFirst first
  · rw [head_eq begins, counted] at found
    split at found
    next whole =>
      cases found
      obtain ⟨long, follows⟩ := fitting_eq_length_iff.1 whole
      exact ⟨(fitting_le _ _).2, ⟨begins, whole ▸ follows⟩, rfl⟩
    next =>
      split at found
      · cases found
      · cases found
  · rw [head_of_not_isFirst begins] at found
    cases found

/-- Bytes between the bounds are a character at the head, whatever comes after them. -/
theorem head_of_isWhole (whole : IsWhole first rest) (more : List UInt8) :
    head first (rest ++ more) = .character (Char.ofNat (point (leadBits first) rest)) rest.length := by
  have length := whole.follows.length_eq
  have fits : fitting (followers first) rest = (followers first).length := by
    rw [fitting_eq_length_iff, length, List.take_length]
    exact ⟨Nat.le_refl _, whole.follows⟩
  have alone : head first rest = .character (Char.ofNat (point (leadBits first) rest)) rest.length := by
    rw [head_eq whole.begins, counted]
    rw [if_pos fits, fits, length, List.take_length]
  exact head_append alone Head.noConfusion more

/-- What is cut off at the end is the beginning of a character. -/
theorem truncated_iff_fitting : head first rest = .truncated ↔
    IsFirst first ∧ fitting (followers first) rest = rest.length ∧ rest.length < (followers first).length := by
  by_cases begins : IsFirst first
  · rw [head_eq begins, counted]
    have bounded := fitting_le (followers first) rest
    split
    next whole =>
      simp only [reduceCtorEq, false_iff]
      omega
    next =>
      split
      next all => exact ⟨fun _ => ⟨begins, all, by omega⟩, fun _ => rfl⟩
      next =>
        simp only [reduceCtorEq, false_iff]
        omega
  · rw [head_of_not_isFirst begins]
    simp [begins]

/-- What is broken off is the beginning of a character, and the byte behind it does not continue it. -/
theorem broken_of_head (begins : IsFirst first) (found : head first rest = .malformed count) :
    count < rest.length ∧ head first (rest.take count) = .truncated ∧
      head first (rest.take (count + 1)) = .malformed count := by
  have bounded := fitting_le (followers first) rest
  rw [head_eq begins, counted] at found
  split at found
  · cases found
  next short =>
    split at found
    · cases found
    next inside =>
      cases found
      have before := fitting_take (followers first) rest (fitting (followers first) rest)
      have behind := fitting_take (followers first) rest (fitting (followers first) rest + 1)
      rw [Nat.min_self] at before
      rw [Nat.min_eq_right (Nat.le_succ _)] at behind
      refine ⟨by omega, ?_, ?_⟩
      · rw [truncated_iff_fitting, before, List.length_take]
        exact ⟨begins, by omega, by omega⟩
      · rw [head_eq begins, counted]
        rw [behind, if_neg short, List.length_take, if_neg (by omega)]

end Head

/-- The forms of the bytes of a character, one for each length, and the number for which they stand. -/
inductive Spelled (first : UInt8) : List UInt8 → Nat → Prop where
  | one (upper : first.toNat < 0x80) : Spelled first [] first.toNat
  | two {b : UInt8} (lower : 0xC2 ≤ first.toNat) (upper : first.toNat < 0xE0) (second : Within (0x80, 0xBF) b) :
      Spelled first [b] (first.toNat % 32 * 64 + b.toNat % 64)
  | three {b c : UInt8} (lower : 0xE0 ≤ first.toNat) (upper : first.toNat < 0xF0)
      (second : Within (secondBounds first) b) (third : Within (0x80, 0xBF) c) :
      Spelled first [b, c] ((first.toNat % 16 * 64 + b.toNat % 64) * 64 + c.toNat % 64)
  | four {b c d : UInt8} (lower : 0xF0 ≤ first.toNat) (upper : first.toNat ≤ 0xF4)
      (second : Within (secondBounds first) b) (third : Within (0x80, 0xBF) c) (fourth : Within (0x80, 0xBF) d) :
      Spelled first [b, c, d] (((first.toNat % 8 * 64 + b.toNat % 64) * 64 + c.toNat % 64) * 64 + d.toNat % 64)

section Encoding

variable {first : UInt8} {rest : List UInt8} {number : Nat}

theorem spelled_iff : Spelled first rest number ↔ IsWhole first rest ∧ point (leadBits first) rest = number := by
  constructor
  · intro spelled
    cases spelled with
    | one upper =>
      obtain ⟨bounds, bits⟩ := of_ascii upper
      exact ⟨⟨(isFirst_iff _).2 (.inl upper), bounds ▸ .nil⟩, bits⟩
    | two lower upper second =>
      obtain ⟨bounds, bits⟩ := of_two (by omega) upper
      exact ⟨⟨(isFirst_iff _).2 (by omega), bounds ▸ .cons second .nil⟩, by rw [bits]; rfl⟩
    | three lower upper second third =>
      obtain ⟨bounds, bits⟩ := of_three lower upper
      exact ⟨⟨(isFirst_iff _).2 (by omega), bounds ▸ .cons second (.cons third .nil)⟩, by rw [bits]; rfl⟩
    | four lower upper second third fourth =>
      obtain ⟨bounds, bits⟩ := of_four lower
      refine ⟨⟨(isFirst_iff _).2 (by omega), ?_⟩, by rw [bits]; rfl⟩
      exact bounds ▸ .cons second (.cons third (.cons fourth .nil))
  · rintro ⟨⟨begins, follows⟩, rfl⟩
    rcases (isFirst_iff first).1 begins with ascii | ⟨least, greatest⟩
    · obtain ⟨bounds, bits⟩ := of_ascii ascii
      rw [bounds] at follows
      cases follows
      exact bits ▸ .one ascii
    by_cases two : first.toNat < 0xE0
    · obtain ⟨bounds, bits⟩ := of_two (by omega) two
      rw [bounds] at follows
      rcases follows with _ | ⟨second, _ | _⟩
      exact bits ▸ .two least two second
    by_cases three : first.toNat < 0xF0
    · obtain ⟨bounds, bits⟩ := of_three (by omega) three
      rw [bounds] at follows
      rcases follows with _ | ⟨second, _ | ⟨third, _ | _⟩⟩
      exact bits ▸ .three (by omega) three second third
    · obtain ⟨bounds, bits⟩ := of_four (Nat.le_of_not_lt three)
      rw [bounds] at follows
      rcases follows with _ | ⟨second, _ | ⟨third, _ | ⟨fourth, _ | _⟩⟩⟩
      exact bits ▸ .four (by omega) greatest second third fourth

/-- Bytes that lie between their bounds are those of the character for whose number they stand. -/
theorem utf8EncodeChar_of_spelled (spelled : Spelled first rest number) :
    String.utf8EncodeChar (Char.ofNat number) = first :: rest := by
  have valid (value : Nat) (allowed : value < 0xD800 ∨ 0xDFFF < value ∧ value < 0x110000) :
      (Char.ofNat value).val.toNat = value := by
    rw [Char.ofNat, dif_pos allowed]
    rfl
  have byte {value : Nat} (b : UInt8) (same : value = b.toNat) : UInt8.ofNat value = b := by rw [same, UInt8.ofNat_toNat]
  have small := first.toNat_lt
  unfold String.utf8EncodeChar
  cases spelled with
  | one upper => rw [valid _ (by omega), if_pos (by omega), byte first rfl]
  | @two b lower upper second =>
    rw [within_continuation] at second
    rw [valid _ (by omega), if_neg (by omega), if_pos (by omega), byte first (by omega), byte b (by omega)]
  | @three b c lower upper second third =>
    rw [within_secondBounds] at second
    rw [within_continuation] at third
    rw [valid _ (by omega), if_neg (by omega), if_neg (by omega), if_pos (by omega), byte first (by omega),
      byte b (by omega), byte c (by omega)]
  | @four b c d lower upper second third fourth =>
    rw [within_secondBounds] at second
    rw [within_continuation] at third fourth
    rw [valid _ (by omega), if_neg (by omega), if_neg (by omega), if_neg (by omega), byte first (by omega),
      byte b (by omega), byte c (by omega), byte d (by omega)]

/-- Every character has bytes that lie between their bounds and stand for its number. -/
theorem exists_spelled (c : Char) : ∃ first rest, Spelled first rest c.toNat := by
  have valid : c.toNat < 0xD800 ∨ 0xDFFF < c.toNat ∧ c.toNat < 0x110000 := c.valid
  have byte (value : Nat) (small : value < 256) : ∃ b : UInt8, b.toNat = value :=
    ⟨UInt8.ofNat value, by rw [UInt8.toNat_ofNat', Nat.mod_eq_of_lt small]⟩
  have digit (value : Nat) : ∃ b : UInt8, b.toNat = value % 64 + 0x80 := byte _ (by omega)
  obtain ⟨last, last_eq⟩ := digit c.toNat
  have bounded : Within (0x80, 0xBF) last := (within_continuation last).2 (by omega)
  by_cases one : c.toNat < 0x80
  · obtain ⟨first, first_eq⟩ := byte c.toNat (by omega)
    exact ⟨first, [], first_eq ▸ .one (by omega)⟩
  by_cases two : c.toNat < 0x800
  · obtain ⟨first, first_eq⟩ := byte (c.toNat / 64 + 0xC0) (by omega)
    have number : c.toNat = first.toNat % 32 * 64 + last.toNat % 64 := by omega
    exact ⟨first, [last], number ▸ .two (by omega) (by omega) bounded⟩
  obtain ⟨third, third_eq⟩ := digit (c.toNat / 64)
  by_cases three : c.toNat < 0x10000
  · obtain ⟨first, first_eq⟩ := byte (c.toNat / 4096 + 0xE0) (by omega)
    have number : c.toNat = (first.toNat % 16 * 64 + third.toNat % 64) * 64 + last.toNat % 64 := by omega
    have second : Within (secondBounds first) third := (within_secondBounds first third).2 (by omega)
    exact ⟨first, [third, last], number ▸ .three (by omega) (by omega) second bounded⟩
  · obtain ⟨second, second_eq⟩ := digit (c.toNat / 4096)
    obtain ⟨first, first_eq⟩ := byte (c.toNat / 262144 + 0xF0) (by omega)
    have number : c.toNat =
        ((first.toNat % 8 * 64 + second.toNat % 64) * 64 + third.toNat % 64) * 64 + last.toNat % 64 := by omega
    have above : Within (secondBounds first) second := (within_secondBounds first second).2 (by omega)
    have middle : Within (0x80, 0xBF) third := (within_continuation third).2 (by omega)
    exact ⟨first, [second, third, last], number ▸ .four (by omega) (by omega) above middle bounded⟩

/-- The bytes of a character are those that lie between their bounds and stand for its number. -/
theorem utf8EncodeChar_eq_iff {c : Char} : String.utf8EncodeChar c = first :: rest ↔
    IsWhole first rest ∧ c = Char.ofNat (point (leadBits first) rest) := by
  constructor
  · intro encoded
    obtain ⟨other, others, spelled⟩ := exists_spelled c
    have same := utf8EncodeChar_of_spelled spelled
    rw [Char.ofNat_toNat, encoded] at same
    cases same
    obtain ⟨whole, number⟩ := spelled_iff.1 spelled
    exact ⟨whole, by rw [number, Char.ofNat_toNat]⟩
  · rintro ⟨whole, rfl⟩
    exact utf8EncodeChar_of_spelled (spelled_iff.2 ⟨whole, rfl⟩)

theorem mem_followers {bounds : UInt8 × UInt8} (member : bounds ∈ followers first) :
    bounds = secondBounds first ∨ bounds = (0x80, 0xBF) := by
  unfold followers at member
  split at member
  · cases member
  split at member
  · exact .inr (List.mem_singleton.1 member)
  split at member
  · simpa using member
  · simpa using member

theorem within_lower {bounds : UInt8 × UInt8} (member : bounds ∈ followers first) : Within bounds bounds.1 := by
  rcases mem_followers member with rfl | rfl
  · unfold secondBounds
    split
    · exact (rfl : within 0xA0 0xBF 0xA0 = true)
    split
    · exact (rfl : within 0x80 0x9F 0x80 = true)
    split
    · exact (rfl : within 0x90 0xBF 0x90 = true)
    split
    · exact (rfl : within 0x80 0x8F 0x80 = true)
    · exact (rfl : within 0x80 0xBF 0x80 = true)
  · exact (rfl : within 0x80 0xBF 0x80 = true)

/-- There is always a byte between the bounds, so that what has begun can be completed. -/
theorem forall₂_lower {bounds : List (UInt8 × UInt8)} (listed : bounds ⊆ followers first) :
    List.Forall₂ Within bounds (bounds.map Prod.fst) := by
  rw [List.forall₂_map_right_iff, List.forall₂_same]
  exact fun each member => within_lower (listed member)

/-- A whole character stands at the head exactly if its bytes do. -/
theorem head_eq_character_iff {c : Char} {count : Nat} : head first rest = .character c count ↔
    count ≤ rest.length ∧ String.utf8EncodeChar c = first :: rest.take count := by
  rw [utf8EncodeChar_eq_iff]
  constructor
  · exact isWhole_of_head
  · rintro ⟨short, whole, rfl⟩
    have found := head_of_isWhole whole (rest.drop count)
    rwa [List.take_append_drop, List.length_take, Nat.min_eq_left short] at found

/-- What is cut off at the end goes on to be a character. -/
theorem head_eq_truncated_iff : head first rest = .truncated ↔
    ∃ c more, more ≠ [] ∧ String.utf8EncodeChar c = first :: (rest ++ more) := by
  rw [truncated_iff_fitting, fitting_eq_bytes_iff]
  constructor
  · rintro ⟨begins, follows, short⟩
    have nonempty : ((followers first).drop rest.length).map Prod.fst ≠ [] := by simpa using short
    have later : List.Forall₂ Within ((followers first).drop rest.length)
        (((followers first).drop rest.length).map Prod.fst) := forall₂_lower (List.drop_subset _ _)
    have both : List.Forall₂ Within ((followers first).take rest.length ++ (followers first).drop rest.length)
        (rest ++ ((followers first).drop rest.length).map Prod.fst) := List.rel_append follows later
    rw [List.take_append_drop] at both
    exact ⟨_, _, nonempty, utf8EncodeChar_eq_iff.2 ⟨⟨begins, both⟩, rfl⟩⟩
  · rintro ⟨c, more, nonempty, encoded⟩
    obtain ⟨⟨begins, follows⟩, -⟩ := utf8EncodeChar_eq_iff.1 encoded
    refine ⟨begins, List.forall₂_take_append _ _ _ follows, ?_⟩
    have length := follows.length_eq
    have positive := List.length_pos_iff.2 nonempty
    rw [List.length_append] at length
    omega

theorem isFirst_iff_exists : IsFirst first ↔ ∃ c rest, String.utf8EncodeChar c = first :: rest := by
  constructor
  · intro begins
    exact ⟨_, _, utf8EncodeChar_eq_iff.2 ⟨⟨begins, forall₂_lower (List.Subset.refl _)⟩, rfl⟩⟩
  · rintro ⟨c, rest, encoded⟩
    exact (utf8EncodeChar_eq_iff.1 encoded).1.begins

/-- No byte of a character but its first one begins a character. -/
theorem not_isFirst_of_mem {c : Char} {byte : UInt8} (encoded : String.utf8EncodeChar c = first :: rest)
    (member : byte ∈ rest) : ¬IsFirst byte := by
  obtain ⟨number, spelled⟩ : ∃ number, Spelled first rest number :=
    ⟨_, spelled_iff.2 ⟨(utf8EncodeChar_eq_iff.1 encoded).1, rfl⟩⟩
  rw [isFirst_iff]
  cases spelled with
  | one => cases member
  | two lower upper second =>
    rw [within_continuation] at second
    cases List.mem_singleton.1 member
    omega
  | three lower upper second third =>
    rw [within_secondBounds] at second
    rw [within_continuation] at third
    simp only [List.mem_cons, List.not_mem_nil, or_false] at member
    rcases member with rfl | rfl <;> omega
  | four lower upper second third fourth =>
    rw [within_secondBounds] at second
    rw [within_continuation] at third fourth
    simp only [List.mem_cons, List.not_mem_nil, or_false] at member
    rcases member with rfl | rfl | rfl <;> omega

end Encoding

section Concat

variable {first byte : UInt8} {rest : List UInt8} {count : Nat}

theorem isLeading_of_truncated (cut : head first rest = .truncated) : isLeading first = true := by
  obtain ⟨begins, -, short⟩ := truncated_iff_fitting.1 cut
  rcases begins with ascii | leading
  · obtain ⟨bounds, -⟩ := of_ascii (UInt8.lt_iff_toNat_lt.1 ascii)
    rw [bounds] at short
    exact absurd short (Nat.not_lt_zero _)
  · exact leading

/-- The byte that completes a character is its last one. -/
theorem head_concat_character {c : Char} (cut : head first rest = .truncated)
    (found : head first (rest ++ [byte]) = .character c count) : count = rest.length + 1 := by
  obtain ⟨short, encoded⟩ := head_eq_character_iff.1 found
  rw [List.length_append, List.length_singleton] at short
  by_contra other
  have within : count ≤ rest.length := by omega
  rw [List.take_append_of_le_length within] at encoded
  rw [head_eq_character_iff.2 ⟨within, encoded⟩] at cut
  cases cut

/-- The byte that breaks off a character stands behind all that was received of it. -/
theorem head_concat_malformed (cut : head first rest = .truncated)
    (found : head first (rest ++ [byte]) = .malformed count) : count = rest.length := by
  obtain ⟨short, -, broken⟩ := broken_of_head (truncated_iff_fitting.1 cut).1 found
  rw [List.length_append, List.length_singleton] at short
  by_contra other
  have within : count + 1 ≤ rest.length := by omega
  rw [List.take_append_of_le_length within] at broken
  have unchanged := head_append broken Head.noConfusion (rest.drop (count + 1))
  rw [List.take_append_drop, cut] at unchanged
  cases unchanged

end Concat

section Length

theorem encode_append (first second : List Char) : encode (first ++ second) = encode first ++ encode second :=
  List.flatMap_append

/-- Characters have as many bytes as offsets count for them. -/
theorem length_encode (characters : List Char) : (encode characters).length = byteLength characters := by
  induction characters with
  | nil => rfl
  | cons first rest ih =>
    rw [← List.singleton_append, encode_append, List.length_append, ih, byteLength_append]
    simp [encode]

theorem utf8ByteSize_ofList (characters : List Char) : (String.ofList characters).utf8ByteSize = byteLength characters := by
  induction characters with
  | nil => rfl
  | cons first rest ih =>
    have split : String.ofList (first :: rest) = String.singleton first ++ String.ofList rest := by
      rw [String.singleton_eq_ofList, ← String.ofList_append, List.singleton_append]
    rw [split, String.utf8ByteSize_append, ih, byteLength_cons, String.utf8ByteSize_singleton]

theorem byteLength_toList (text : String) : byteLength text.toList = text.utf8ByteSize := by
  rw [← utf8ByteSize_ofList, String.ofList_toList]

/-- The bytes of a text are as many as the text has. -/
theorem length_ofText (text : String) : (ofText text).length = text.utf8ByteSize :=
  (length_encode text.toList).trans (byteLength_toList text)

end Length

end Mips.Text.Utf8
