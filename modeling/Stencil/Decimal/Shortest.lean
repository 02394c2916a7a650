/-!
# The shortest decimal of a binary fraction

A positive binary fraction is `m · 2 ^ q`. The decimals that read back as it are those in its
*rounding interval*, which reaches half way to either neighbour and holds its ends when `m` is even.
`shortest` finds a decimal in that interval with as few digits as possible, and of those the nearest
to the fraction itself. For each number of digits it looks at the two points of that decimal grid
next to the fraction: if any point of the grid lies in the interval, one of these two does.

All arithmetic is exact, on natural numbers scaled by a common denominator.
-/

namespace Stencil.Decimal

/-- A positive binary fraction `mantissa · 2 ^ exponent`, and whether the neighbour below it is only
half as far away as the one above. -/
structure Binary where
  /-- The mantissa, at least one. -/
  mantissa : Nat
  /-- The binary exponent. -/
  exponent : Int
  /-- Whether the fraction is the least of its binary order. -/
  isLowest : Bool

/-- The fraction, the distances to the ends of its rounding interval, and the denominator they are
all divided by. -/
structure Scaled where
  /-- The numerator of the fraction. -/
  value : Nat
  /-- The distance to the lower end. -/
  below : Nat
  /-- The distance to the upper end. -/
  above : Nat
  /-- The common denominator. -/
  unit : Nat

/-- A binary fraction over quarters of its last place. -/
def Binary.scaled (b : Binary) : Scaled :=
  let up := Nat.pow 2 b.exponent.toNat
  { value := 4 * b.mantissa * up
    below := (if b.isLowest then 1 else 2) * up
    above := 2 * up
    unit := 4 * Nat.pow 2 (-b.exponent).toNat }

/-- Whether `n / d` lies in the rounding interval of a fraction `value / unit`, for a point given by
its numerator over `unit · scale` and a fraction whose numerators are scaled alike. -/
def Scaled.holds (s : Scaled) (isEven : Bool) (scale point : Nat) : Bool :=
  let value := s.value * scale
  if point ≤ value then
    let gap := value - point
    if isEven then gap ≤ s.below * scale else gap < s.below * scale
  else
    let gap := point - value
    if isEven then gap ≤ s.above * scale else gap < s.above * scale

/-- The number of digits before the point: the least `k` with `value / unit < 10 ^ k`, for a value
whose order of magnitude is known to lie at `start` or above. -/
def orderFrom (value unit : Nat) : (fuel : Nat) → Int → Int
  | 0, k => k
  | fuel + 1, k =>
    if value * 10 ^ (-k).toNat < unit * 10 ^ k.toNat then k else orderFrom value unit fuel (k + 1)

/-- A first guess of the number of digits before the point, never too large. -/
def orderGuess (value unit : Nat) : Int :=
  let bits : Int := (Nat.log2 value : Int) - (Nat.log2 unit : Int) - 1
  bits * 30103 / 100000 - 1

/-- The best point of the grid of multiples of `10 ^ e`, if one of the fraction's two neighbours
there lies in the rounding interval. -/
def onGrid? (s : Scaled) (isEven : Bool) (e : Int) : Option Nat :=
  let scale := Nat.pow 10 (-e).toNat
  let step := s.unit * Nat.pow 10 e.toNat
  let value := s.value * scale
  let low := value / step
  let lowHit := low != 0 && s.holds isEven scale (low * step)
  let highHit := s.holds isEven scale ((low + 1) * step)
  let lowGap := value - low * step
  let highGap := (low + 1) * step - value
  if lowHit && highHit then
    some (if lowGap < highGap || (lowGap = highGap && low % 2 = 0) then low else low + 1)
  else if lowHit then some low
  else if highHit then some (low + 1)
  else none

/-- The first grid with a hit, from coarse to fine. -/
def searchGrids (s : Scaled) (isEven : Bool) (order : Int) : (left digits : Nat) → Nat × Int
  | 0, digits => (s.value * 10 ^ (-(order - digits)).toNat /
      (s.unit * 10 ^ (order - digits).toNat), order - digits)
  | left + 1, digits =>
    match onGrid? s isEven (order - digits) with
    | some n => (n, order - digits)
    | none => searchGrids s isEven order left (digits + 1)

/-- The decimal `n · 10 ^ e` with the fewest digits that reads back as the fraction. -/
def shortest (b : Binary) : Nat × Int :=
  let s := b.scaled
  let order := orderFrom s.value s.unit 8 (orderGuess s.value s.unit)
  searchGrids s (b.mantissa % 2 == 0) order 17 1

end Stencil.Decimal
