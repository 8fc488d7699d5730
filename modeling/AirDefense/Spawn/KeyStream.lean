/-!
# Key streams

An endless sequence of 32-bit words that a seed determines.  The sequence is cut
into blocks of sixteen words; a block is computed from the key and its number by
four double rounds of additions, rotations and exclusive ors.  A stream is a key
and a place in the sequence, and reading it moves the place.
-/

namespace AirDefense

abbrev WordBlock := Vector UInt32 16

namespace WordBlock

def rotateLeft (x : UInt32) (n : UInt32) : UInt32 :=
  (x <<< n) ||| (x >>> (32 - n))

def quarterRound (b : WordBlock) (i j k l : Fin 16) : WordBlock :=
  let p := b[i] + b[j]
  let s := rotateLeft (b[l] ^^^ p) 16
  let r := b[k] + s
  let q := rotateLeft (b[j] ^^^ r) 12
  let p := p + q
  let s := rotateLeft (s ^^^ p) 8
  let r := r + s
  let q := rotateLeft (q ^^^ r) 7
  (((b.set i p).set j q).set k r).set l s

def doubleRound (b : WordBlock) : WordBlock :=
  let b := b.quarterRound 0 4 8 12
  let b := b.quarterRound 1 5 9 13
  let b := b.quarterRound 2 6 10 14
  let b := b.quarterRound 3 7 11 15
  let b := b.quarterRound 0 5 10 15
  let b := b.quarterRound 1 6 11 12
  let b := b.quarterRound 2 7 8 13
  b.quarterRound 3 4 9 14

end WordBlock

def wordCount : Nat := 4294967296

/-- The words of 2 ^ 64 blocks; then the sequence repeats itself. -/
def streamPeriod : Nat := 295147905179352825856

abbrev StreamKey := Vector UInt32 8

structure KeyStream where
  key : StreamKey
  place : Nat
deriving DecidableEq

namespace KeyStream

/-!
## Seeds
-/

def seedStep (s : UInt64) : UInt64 :=
  s * 6364136223846793005 + 11634580027462260723

/-- A key word from the state of the congruence: its high bits, rotated by its highest. -/
def seedWord (s : UInt64) : UInt32 :=
  let word := ((s >>> 18 ^^^ s) >>> 27).toUInt32
  let turn := (s >>> 59).toUInt32
  if turn = 0 then word else WordBlock.rotateLeft word (32 - turn)

def seedWords : Nat -> UInt64 -> List UInt32
  | 0, _ => []
  | n + 1, s => seedWord (seedStep s) :: seedWords n (seedStep s)

theorem length_seedWords (n : Nat) (s : UInt64) : (seedWords n s).length = n := by
  induction n generalizing s with
  | zero => rfl
  | succ n ih => simp [seedWords, ih]

def keyOfSeed (seed : Nat) : StreamKey :=
  ⟨(seedWords 8 (UInt64.ofNat seed)).toArray, by simp [length_seedWords]⟩

def ofSeed (seed : Nat) : KeyStream :=
  { key := keyOfSeed seed, place := 0 }

/-!
## Blocks
-/

def constants : Vector UInt32 4 :=
  #v[0x61707865, 0x3320646e, 0x79622d32, 0x6b206574]

/-- The low and the high word of a block's number, and two unused words. -/
def counter (number : Nat) : Vector UInt32 4 :=
  #v[UInt32.ofNat number, UInt32.ofNat (number / wordCount), 0, 0]

def initialBlock (key : StreamKey) (number : Nat) : WordBlock :=
  constants ++ key ++ counter number

def block (key : StreamKey) (number : Nat) : WordBlock :=
  let start := initialBlock key number
  let stirred := start.doubleRound.doubleRound.doubleRound.doubleRound
  start.zipWith (· + ·) stirred

def word (key : StreamKey) (place : Nat) : UInt32 :=
  (block key (place / 16))[place % 16]

def next (s : KeyStream) : UInt32 × KeyStream :=
  (word s.key s.place, { s with place := s.place + 1 })

end KeyStream
end AirDefense
