/-!
# The key stream of ChaCha

A block of sixteen words is mixed in rounds of four quarter rounds each, first
down the columns and then along the diagonals, and added to what it was before.
The stream under a key is the sequence of the mixed blocks for the counters
0, 1, 2, …  `word` reads the stream as words of 64 bits.
-/

namespace CacheSim.KeyStream

/-- Sixteen words. -/
abbrev State := Vector UInt32 16

/-- Eight words. -/
abbrev Key := Vector UInt32 8

/-- Rotates a word to the left by `n`, from 1 to 31 bits. -/
@[inline] def rotl (x : UInt32) (n : UInt32) : UInt32 :=
  (x <<< n) ||| (x >>> (32 - n))

/-- Mixes the words at four places. -/
@[inline] def quarter (s : State) (a b c d : Fin 16) : State :=
  let x := s[a] + s[b]
  let w := rotl (s[d] ^^^ x) 16
  let z := s[c] + w
  let y := rotl (s[b] ^^^ z) 12
  let x := x + y
  let w := rotl (w ^^^ x) 8
  let z := z + w
  let y := rotl (y ^^^ z) 7
  (((s.set a x).set b y).set c z).set d w

/-- Mixes the columns, then the diagonals. -/
def doubleRound (s : State) : State :=
  let s := quarter s 0 4 8 12
  let s := quarter s 1 5 9 13
  let s := quarter s 2 6 10 14
  let s := quarter s 3 7 11 15
  let s := quarter s 0 5 10 15
  let s := quarter s 1 6 11 12
  let s := quarter s 2 7 8 13
  quarter s 3 4 9 14

/-- The block that is mixed: four constants, the key, the counter in 64 bits
and 64 bits of zeros. -/
def initial (key : Key) (counter : Nat) : State :=
  #v[0x61707865, 0x3320646e, 0x79622d32, 0x6b206574,
    key[0], key[1], key[2], key[3], key[4], key[5], key[6], key[7],
    UInt32.ofNat counter, UInt32.ofNat (counter / UInt32.size), 0, 0]

/-- Six double rounds. -/
def mix (s : State) : State :=
  (List.range 6).foldl (fun s _ => doubleRound s) s

/-- The block of the stream for a counter. -/
def block (key : Key) (counter : Nat) : State :=
  let s := initial key counter
  Vector.zipWith (· + ·) (mix s) s

/-- Word `i` of 64 bits of the stream, its low half first. -/
def word (key : Key) (i : Nat) : Nat :=
  let s := block key (i / 8)
  let half (j : Nat) : Nat := (s.toArray.getD j 0).toNat
  half (2 * (i % 8)) + half (2 * (i % 8) + 1) * UInt32.size

theorem word_lt (key : Key) (i : Nat) : word key i < UInt64.size := by
  have low := ((block key (i / 8)).toArray.getD (2 * (i % 8)) 0).toNat_lt
  have high := ((block key (i / 8)).toArray.getD (2 * (i % 8) + 1) 0).toNat_lt
  simp only [word, UInt32.size, UInt64.size]
  omega

end CacheSim.KeyStream
