import CoopShooter.Random.ChaCha

/-!
Random positions from a seed. The seed is stretched to the key of a ChaCha stream, and every draw
uses up one word of it.
-/

namespace CoopShooter

/-- A stream of words and how many of them have been used. -/
structure Generator where
  key : ChaCha.Key
  used : Nat
  deriving DecidableEq

namespace Generator

/-- One step of the sequence that stretches a seed. -/
def stretch (state : UInt64) : UInt64 :=
  state * 6364136223846793005 + 11634580027462260723

/-- The word that a state of that sequence gives. -/
def wordOf (state : UInt64) : UInt32 :=
  let mixed := (((state >>> 18) ^^^ state) >>> 27).toUInt32
  let turn := (state >>> 59).toUInt32
  (mixed >>> turn) ||| (mixed <<< ((32 - turn) % 32))

/-- The next `count` words of the sequence. -/
def keyWords : (count : Nat) → UInt64 → List UInt32
  | 0, _ => []
  | count + 1, state =>
    let state := stretch state
    wordOf state :: keyWords count state

@[simp] theorem length_keyWords (count : Nat) (state : UInt64) :
    (keyWords count state).length = count := by
  induction count generalizing state with
  | zero => rfl
  | succ count ih => simp [keyWords, ih]

/-- The generator of a seed. -/
def ofSeed (seed : UInt64) : Generator where
  key := ⟨(keyWords 8 seed).toArray, by simp⟩
  used := 0

/-- A number from `low` up to `high`: the top bits of a word fill the fraction of a number between
one and two, which is then moved and stretched. Where the largest fraction stays below `high` after
rounding, as it does between 40 and 1040, `high` itself is never drawn. -/
def draw (g : Generator) (low high : Float32) : Float32 × Generator :=
  let word := ChaCha.word g.key g.used
  let fraction : UInt32 := word >>> 9
  let unit := Float32.ofBits (fraction ||| 0x3f800000) - 1
  (unit * (high - low) + low, { g with used := g.used + 1 })

end Generator

end CoopShooter
