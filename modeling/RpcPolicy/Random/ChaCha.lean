/-! A stream of random words: ChaCha with twelve rounds under a key spread from a seed. -/

namespace RpcPolicy

namespace ChaCha

/-- Sixteen words of cipher state. -/
abbrev Block := Vector UInt32 16

def rotateLeft (x : UInt32) (n : UInt32) : UInt32 :=
  (x <<< n) ||| (x >>> (32 - n))

/-- Mixes four words of a block. -/
def quarterRound (b : Block) (i j k l : Fin 16) : Block :=
  let a₁ := b[i] + b[j]
  let d₁ := rotateLeft (b[l] ^^^ a₁) 16
  let c₁ := b[k] + d₁
  let b₁ := rotateLeft (b[j] ^^^ c₁) 12
  let a₂ := a₁ + b₁
  let d₂ := rotateLeft (d₁ ^^^ a₂) 8
  let c₂ := c₁ + d₂
  let b₂ := rotateLeft (b₁ ^^^ c₂) 7
  (((b.set i a₂).set j b₂).set k c₂).set l d₂

/-- A round over the columns and one over the diagonals. -/
def doubleRound (b : Block) : Block :=
  let b := quarterRound b 0 4 8 12
  let b := quarterRound b 1 5 9 13
  let b := quarterRound b 2 6 10 14
  let b := quarterRound b 3 7 11 15
  let b := quarterRound b 0 5 10 15
  let b := quarterRound b 1 6 11 12
  let b := quarterRound b 2 7 8 13
  quarterRound b 3 4 9 14

/-- The block a key gives for a counter. -/
def initial (key : Vector UInt32 8) (counter : UInt64) : Block :=
  #v[0x61707865, 0x3320646e, 0x79622d32, 0x6b206574,
    key[0], key[1], key[2], key[3], key[4], key[5], key[6], key[7],
    counter.toUInt32, (counter >>> 32).toUInt32, 0, 0]

/-- The output block of a counter: twelve rounds, then the input is added. -/
def block (key : Vector UInt32 8) (counter : UInt64) : Block :=
  let input := initial key counter
  (Nat.repeat doubleRound 6 input).zipWith (· + ·) input

end ChaCha

/-- A source of random words: a key and how many words were taken. -/
structure RandomSource where
  key : Vector UInt32 8
  taken : Nat
deriving DecidableEq

namespace RandomSource

/-- One step of the generator that spreads a seed: the next state and a word of it. -/
def spread (s : UInt64) : UInt64 × UInt32 :=
  let s := s * 6364136223846793005 + 11634580027462260723
  let x := (((s >>> 18) ^^^ s) >>> 27).toUInt32
  let r := (s >>> 59).toUInt32
  (s, (x >>> r) ||| (x <<< ((32 - r) % 32)))

/-- The words of the key of a seed. -/
def keyWords : Nat → UInt64 → List UInt32
  | 0, _ => []
  | n + 1, s => (spread s).2 :: keyWords n (spread s).1

theorem length_keyWords (n : Nat) (s : UInt64) : (keyWords n s).length = n := by
  induction n generalizing s with
  | zero => rfl
  | succ n ih => simp [keyWords, ih]

/-- The source of a seed. -/
def ofSeed (seed : UInt64) : RandomSource :=
  ⟨⟨(keyWords 8 seed).toArray, by simp [length_keyWords]⟩, 0⟩

/-- A word of the stream. -/
def word (source : RandomSource) (n : Nat) : UInt32 :=
  (ChaCha.block source.key (n / 16).toUInt64).get ⟨n % 16, Nat.mod_lt n (by decide)⟩

/-- Takes sixty-four bits, the low half first. -/
def next (source : RandomSource) : UInt64 × RandomSource :=
  ((source.word source.taken).toUInt64 ||| ((source.word (source.taken + 1)).toUInt64 <<< 32),
    { source with taken := source.taken + 2 })

end RandomSource

end RpcPolicy
