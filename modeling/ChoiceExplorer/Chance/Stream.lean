/-!
# A seeded stream of random words

The stream is the output of the ChaCha block function with four double rounds,
under a key that is stretched from a seed.  A word is a function of the key and
of its place, so drawing only has to count.
-/

namespace ChoiceExplorer.Chance

def rotateLeft (word : UInt32) (count : UInt32) : UInt32 :=
  word <<< count ||| word >>> (32 - count)

def rotateRight (word : UInt32) (count : UInt32) : UInt32 :=
  if count = 0 then word else word >>> count ||| word <<< (32 - count)

abbrev Block := Vector UInt32 16

namespace Block

def quarterRound (block : Block) (a b c d : Fin 16) : Block :=
  let block := block.set a (block[a] + block[b])
  let block := block.set d (rotateLeft (block[d] ^^^ block[a]) 16)
  let block := block.set c (block[c] + block[d])
  let block := block.set b (rotateLeft (block[b] ^^^ block[c]) 12)
  let block := block.set a (block[a] + block[b])
  let block := block.set d (rotateLeft (block[d] ^^^ block[a]) 8)
  let block := block.set c (block[c] + block[d])
  block.set b (rotateLeft (block[b] ^^^ block[c]) 7)

/-- Mix the columns and then the diagonals of a block. -/
def doubleRound (block : Block) : Block :=
  let block := block.quarterRound 0 4 8 12
  let block := block.quarterRound 1 5 9 13
  let block := block.quarterRound 2 6 10 14
  let block := block.quarterRound 3 7 11 15
  let block := block.quarterRound 0 5 10 15
  let block := block.quarterRound 1 6 11 12
  let block := block.quarterRound 2 7 8 13
  block.quarterRound 3 4 9 14

def output (block : Block) : Block :=
  block.zipWith (· + ·) block.doubleRound.doubleRound.doubleRound.doubleRound

end Block

abbrev Key := Vector UInt32 8

namespace Key

/-- The state that follows a state of the generator that stretches a seed. -/
def nextState (state : UInt64) : UInt64 :=
  state * 6364136223846793005 + 11634580027462260723

def wordOf (state : UInt64) : UInt32 :=
  rotateRight (((state >>> 18) ^^^ state) >>> 27).toUInt32 (state >>> 59).toUInt32

def states (seed : UInt64) : Nat → UInt64
  | 0 => seed
  | count + 1 => nextState (states seed count)

def ofSeed (seed : UInt64) : Key :=
  Vector.ofFn fun place => wordOf (states seed (place.val + 1))

def block (key : Key) (number : Nat) : Block :=
  #v[0x61707865, 0x3320646e, 0x79622d32, 0x6b206574,
    key[0], key[1], key[2], key[3], key[4], key[5], key[6], key[7],
    number.toUInt32, (number >>> 32).toUInt32, 0, 0]

def word (key : Key) (place : Nat) : UInt32 :=
  (key.block (place / 16)).output.get ⟨place % 16, Nat.mod_lt place (by decide)⟩

end Key

structure Stream where
  key : Key
  place : Nat := 0
  deriving DecidableEq

namespace Stream

def ofSeed (seed : UInt64) : Stream := { key := Key.ofSeed seed }

def next32 (stream : Stream) : UInt32 × Stream :=
  (stream.key.word stream.place, { stream with place := stream.place + 1 })

/-- Draw two words, the low one first. -/
def next64 (stream : Stream) : UInt64 × Stream :=
  let (low, stream) := stream.next32
  let (high, stream) := stream.next32
  (high.toUInt64 <<< 32 ||| low.toUInt64, stream)

end Stream

end ChoiceExplorer.Chance
