/-!
# Dice

Where demand is random, it is drawn from dice: a source of numbers with a state, which can be asked
for a number below any bound. What is built on dice may use that a number drawn is below its bound
and nothing else, so whatever holds of it holds for every course chance can take.

The dice that are cast are a Mersenne twister: the generator of 64-bit words known as MT19937-64,
and numbers below a bound drawn from it without bias. The word is scaled down by a multiplication,
and drawn again in the rare case that its remainder shows it to be one of the words that would
favour some numbers.
-/

namespace RideShare.Chance

/-- A source of numbers whose state is a `σ`. -/
structure Dice (σ : Type) where
  /-- The state to begin with, for a seed. -/
  ofSeed : UInt64 → σ
  /-- A number below the bound given, and the state after drawing it. -/
  roll : σ → Nat → Nat × σ
  /-- A number is below its bound, unless there is no such number. -/
  roll_lt : ∀ s n, 0 < n → (roll s n).1 < n

/-! ## A Mersenne twister -/

/-- The state of the generator: its words, and how many of them were handed out. -/
structure Twister where
  /-- The words of the recurrence. -/
  words : Array UInt64
  /-- How many of them were handed out since they were made. -/
  used : Nat
  deriving Inhabited

namespace Twister

/-- The number of words. -/
def degree : Nat := 312

/-- How far ahead of a word the word is that is mixed into it. -/
def offset : Nat := 156

/-- The bits taken from a word. -/
def upperMask : UInt64 := 0xFFFFFFFF80000000

/-- The bits taken from the word after it. -/
def lowerMask : UInt64 := 0x7FFFFFFF

/-- What is mixed in when the lowest of these bits is set. -/
def twistMask : UInt64 := 0xB5026F5AA96619E9

/-- Words for a seed. All of them are used up, so the first draw makes new ones. -/
def ofSeed (seed : UInt64) : Twister :=
  let grow (words : Array UInt64) (i : Nat) : Array UInt64 :=
    let last := words.getD i 0
    words.push ((6364136223846793005 : UInt64) * (last ^^^ (last >>> 62)) + (i + 1).toUInt64)
  { words := (List.range (degree - 1)).foldl grow #[seed], used := degree }

/-- Make word `i` anew from itself and two words ahead of it, in a circle. -/
def twistWord (words : Array UInt64) (i : Nat) : Array UInt64 :=
  let x := (words.getD i 0 &&& upperMask) ||| (words.getD ((i + 1) % degree) 0 &&& lowerMask)
  let mixed := if x &&& 1 == 0 then x >>> 1 else (x >>> 1) ^^^ twistMask
  words.setIfInBounds i (words.getD ((i + offset) % degree) 0 ^^^ mixed)

/-- Make all words anew, one after the other. -/
def twist (words : Array UInt64) : Array UInt64 := (List.range degree).foldl twistWord words

/-- Even out the bits of a word. -/
def temper (x : UInt64) : UInt64 :=
  let x := x ^^^ ((x >>> 29) &&& 0x5555555555555555)
  let x := x ^^^ ((x <<< 17) &&& 0x71D67FFFEDA60000)
  let x := x ^^^ ((x <<< 37) &&& 0xFFF7EEE000000000)
  x ^^^ (x >>> 43)

/-- The next word. -/
def next (twister : Twister) : UInt64 × Twister :=
  match twister with
  | { words, used } =>
    let (words, used) := if degree ≤ used then (twist words, 0) else (words, used)
    (temper (words.getD used 0), { words, used := used + 1 })

/-- The number of words there are. -/
def wordCount : Nat := UInt64.size

/-- A number below `n`, from the next word `x` with `x * n % 2 ^ 64` not below `threshold`. There is
hardly ever a second word to look at; after `bound` words the next is taken as it is. -/
def rollFrom (n threshold : Nat) : (bound : Nat) → Twister → Nat × Twister
  | 0, twister =>
    let (x, twister) := twister.next
    (x.toNat * n / wordCount, twister)
  | bound + 1, twister =>
    let (x, twister) := twister.next
    let product := x.toNat * n
    if product % wordCount < threshold then rollFrom n threshold bound twister
    else (product / wordCount, twister)

/-- A number below `n`. Of the words, `2 ^ 64 % n` would favour some numbers, and are passed
over. -/
def roll (twister : Twister) (n : Nat) : Nat × Twister :=
  rollFrom n ((wordCount - n) % n) 100 twister

theorem rollFrom_lt {n : Nat} (hn : 0 < n) (threshold bound : Nat) (twister : Twister) :
    (rollFrom n threshold bound twister).1 < n := by
  have scaled (x : UInt64) : x.toNat * n / wordCount < n :=
    Nat.div_lt_of_lt_mul (Nat.mul_lt_mul_of_pos_right x.toNat_lt hn)
  induction bound generalizing twister with
  | zero => exact scaled _
  | succ bound ih =>
    simp only [rollFrom]
    split
    · exact ih _
    · exact scaled _

/-- The generator as dice. -/
def dice : Dice Twister where
  ofSeed := ofSeed
  roll := roll
  roll_lt twister _ hn := rollFrom_lt hn _ _ twister

end Twister

end RideShare.Chance
