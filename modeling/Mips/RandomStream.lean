import Mips.Word

/-!
Streams of random words. What generates them is a parameter of the machine: it grows a stream from a seed, and whatever is
drawn from a stream leaves another stream, from which the next draw is made.
-/

namespace Mips

/-- A generator of random streams. -/
class Generator where
  Stream : Type
  decidableEq : DecidableEq Stream
  /-- The stream that is grown from a seed. -/
  ofSeed : Word → Stream
  /-- The next word of a stream, and the stream after it. -/
  next : Stream → Word × Stream
  /-- A number that is not negative and below a bound, and the stream after it. -/
  below : Word → Stream → Word × Stream

/-- A stream of random words, at the point to which it has been drawn from. -/
def RandomStream [Generator] : Type := Generator.Stream

namespace RandomStream

variable [Generator]

instance : DecidableEq RandomStream := Generator.decidableEq

def ofSeed (seed : Word) : RandomStream := Generator.ofSeed seed

/-- The next word, and the stream after it. -/
def next (stream : RandomStream) : Word × RandomStream := Generator.next stream

/-- A number below a bound, and the stream after it. -/
def below (bound : Word) (stream : RandomStream) : Word × RandomStream := Generator.below bound stream

end RandomStream

/-- A number that is drawn below a bound is below it, if the bound is positive as a signed number. -/
class LawfulGenerator [Generator] : Prop where
  below_lt {bound : Word} (positive : 0 < bound.signed) (stream : RandomStream) :
    (stream.below bound).1.toNat < bound.toNat

end Mips
