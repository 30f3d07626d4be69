import Mips.RandomStream

/-!
The generator of random streams that the command line uses. A stream is the sequence of words of the ChaCha blocks, of
twelve rounds each, whose key is grown from a seed; it is known by the key and by how many words have been drawn.
-/

namespace Mips

def rotateLeft (word amount : Word) : Word := (word <<< amount) ||| (word >>> (32 - amount))

def quarterRound (block : Vector Word 16) (a b c d : Fin 16) : Vector Word 16 :=
  let half := fun (block : Vector Word 16) (first second : Word) =>
    let block := block.set a (block[a] + block[b])
    let block := block.set d (rotateLeft (block[d] ^^^ block[a]) first)
    let block := block.set c (block[c] + block[d])
    block.set b (rotateLeft (block[b] ^^^ block[c]) second)
  half (half block 16 12) 8 7

def doubleRound (block : Vector Word 16) : Vector Word 16 :=
  [(0, 4, 8, 12), (1, 5, 9, 13), (2, 6, 10, 14), (3, 7, 11, 15),
   (0, 5, 10, 15), (1, 6, 11, 12), (2, 7, 8, 13), (3, 4, 9, 14)].foldl
    (fun block (a, b, c, d) => quarterRound block a b c d) block

/-- The block with this number under a key; four words are the same in all blocks. -/
def block (key : Vector Word 8) (number : UInt64) : Vector Word 16 :=
  let start : Vector Word 16 :=
    #v[0x61707865, 0x3320646E, 0x79622D32, 0x6B206574,
       key[0], key[1], key[2], key[3], key[4], key[5], key[6], key[7],
       number.toUInt32, (number >>> 32).toUInt32, 0, 0]
  start.zipWith (· + ·) ((List.range 6).foldl (fun block _ => doubleRound block) start)

/-- A stream of random words: its key and how many words have been drawn. -/
structure ChaCha where
  key : Vector Word 8
  drawn : Nat
  deriving DecidableEq

namespace ChaCha

def advanceSeed (state : UInt64) : UInt64 := state * 6364136223846793005 + 11634580027462260723

def seedWord (state : UInt64) : Word :=
  let mixed := (((state >>> 18) ^^^ state) >>> 27).toUInt32
  let amount := (state >>> 59).toUInt32
  (mixed >>> amount) ||| (mixed <<< ((32 - amount) % 32))

/-- So many words of key, grown from a state of the seed. -/
def keyWords (state : UInt64) : Nat → List Word
  | 0 => []
  | count + 1 => seedWord (advanceSeed state) :: keyWords (advanceSeed state) count

theorem length_keyWords (state : UInt64) (count : Nat) : (keyWords state count).length = count := by
  induction count generalizing state with
  | zero => rfl
  | succ count ih => simp [keyWords, ih]

def ofSeed (seed : Word) : ChaCha where
  key := ⟨(keyWords seed.toUInt64 8).toArray, by simp [length_keyWords]⟩
  drawn := 0

/-- The next word, and the stream after it. -/
def next (stream : ChaCha) : Word × ChaCha :=
  let words := block stream.key (UInt64.ofNat (stream.drawn / 16))
  (words[Fin.ofNat 16 stream.drawn], { stream with drawn := stream.drawn + 1 })

/--
A number below a positive bound, and the stream after it. The product of a word and the bound has the number in
its high half; words whose low half is too large are passed over, so that all numbers are equally likely. At most
`tries` words are passed over.
-/
def below (bound : Word) : Nat → ChaCha → Word × ChaCha
  | 0, stream =>
    let (word, stream) := stream.next
    (Word.high (word.toUInt64 * bound.toUInt64), stream)
  | tries + 1, stream =>
    let (word, stream) := stream.next
    let product := word.toUInt64 * bound.toUInt64
    let limit := (bound <<< UInt32.ofNat bound.leadingZeros) - 1
    if Word.low product ≤ limit then (Word.high product, stream) else below bound tries stream

/-- How many words are passed over at most; each is passed over with a chance of less than one half. -/
def maximalTries : Nat := 4096

end ChaCha

instance : Generator where
  Stream := ChaCha
  decidableEq := inferInstance
  ofSeed := ChaCha.ofSeed
  next := ChaCha.next
  below bound := ChaCha.below bound ChaCha.maximalTries

end Mips
