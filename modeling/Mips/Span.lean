/-!
Parts of a line, as byte offsets.
-/

namespace Mips

/-- The bytes of a line from `start` up to, but not including, `stop`. -/
structure Span where
  start : Nat
  stop : Nat
  deriving DecidableEq, Repr, Inhabited

/-- The parts of a line that an error concerns, with one and two kept apart from longer lists. -/
inductive Spans where
  | one (span : Span)
  | two (first second : Span)
  | many (spans : List Span)
  deriving DecidableEq, Repr

namespace Spans

/-- The spans of a list, in its order. -/
def ofList : List Span → Spans
  | [span] => .one span
  | [first, second] => .two first second
  | spans => .many spans

def toList : Spans → List Span
  | .one span => [span]
  | .two first second => [first, second]
  | .many spans => spans

/-- The first span, or the empty one at the start of the line. -/
def first (spans : Spans) : Span := spans.toList.head?.getD ⟨0, 0⟩

@[simp] theorem toList_ofList (spans : List Span) : (ofList spans).toList = spans := by
  match spans with
  | [] | [_] | [_, _] | _ :: _ :: _ :: _ => rfl

end Spans

def byteLength : List Char → Nat
  | [] => 0
  | c :: rest => c.utf8Size + byteLength rest

@[simp] theorem byteLength_nil : byteLength [] = 0 := rfl

@[simp] theorem byteLength_cons (c : Char) (rest : List Char) :
    byteLength (c :: rest) = c.utf8Size + byteLength rest := rfl

theorem byteLength_append (first second : List Char) :
    byteLength (first ++ second) = byteLength first + byteLength second := by
  induction first with
  | nil => simp
  | cons c rest ih => simp [ih, Nat.add_assoc]

end Mips
