import ContractAbi.Float.Binary64
/-!
The shortest decimal that reads back. A positive value `v = M · 2 ^ X` reads back from every
number of its rounding interval `[(M - lo) · 2 ^ X, (M + hi) · 2 ^ X]`, whose ends belong to it
when `inclusive`. For 1, 2, … significant digits the two neighbours of `v` on that decimal grid are
tested; the first grid with a neighbour inside wins, and of two neighbours inside the nearer one,
the upper one on a tie. Seventeen digits always suffice for binary64.
-/

namespace ContractAbi.Float

/-- The interval of reals that read back as one value, scaled by `2 ^ X`. -/
structure Interval where
  M : Nat
  lo : Nat
  hi : Nat
  X : Int
  inclusive : Bool

def decimalLength (n : Nat) : Nat := (Nat.toDigits 10 n).length

def comparePow (a : Nat) (j : Int) (b : Nat) (e : Int) : Ordering :=
  compare (a * Nat.pow 10 j.toNat * Nat.pow 2 (-e).toNat) (b * Nat.pow 2 e.toNat * Nat.pow 10 (-j).toNat)

def floorLog10 (m : Nat) (e : Int) : Int :=
  let num := m * Nat.pow 2 e.toNat
  let den := Nat.pow 2 (-e).toNat
  let k : Int := (decimalLength num : Int) - decimalLength den
  if comparePow 1 k m e != .gt then k else k - 1

def Interval.contains (I : Interval) (c : Nat) (j : Int) : Bool :=
  let above := comparePow c j (I.M - I.lo) I.X
  let below := comparePow c j (I.M + I.hi) I.X
  if I.inclusive then above != .lt && below != .gt else above == .gt && below == .lt

/-- The decimal `(C, j)`, standing for `C · 10 ^ j`, chosen on the grid of `n` significant
digits, if one of the two neighbours of the value on that grid lies in the interval. -/
def Interval.pick (I : Interval) (top : Int) (n : Nat) : Option (Nat × Int) :=
  let j := top - n + 1
  let c := I.M * Nat.pow 2 I.X.toNat * Nat.pow 10 (-j).toNat / (Nat.pow 2 (-I.X).toNat * Nat.pow 10 j.toNat)
  let down := I.contains c j
  let up := I.contains (c + 1) j
  if down && up then
    -- the nearer neighbour; on a tie the upper one
    if comparePow (2 * c + 1) j (2 * I.M) I.X == .gt then some (c, j) else some (c + 1, j)
  else if down then some (c, j)
  else if up then some (c + 1, j)
  else none

def Interval.search (I : Interval) (top : Int) : Nat → Nat → Nat × Int
  | 0, _ => (0, 0)
  | fuel + 1, n =>
    match I.pick top n with
    | some d => d
    | none => I.search top fuel (n + 1)

def normalize (c : Nat) (j : Int) : Nat × Int :=
  if c = 0 then (0, 0) else go c j c
where
  go (c : Nat) (j : Int) : Nat → Nat × Int
    | 0 => (c, j)
    | fuel + 1 => if c % 10 = 0 then go (c / 10) (j + 1) fuel else (c, j)

/-- The rounding interval of a finite positive value. Below the normal range every value is
treated as even; a power of two in the normal range has a lower neighbour half as far. -/
def Interval.ofBinary64 (x : Binary64) : Interval :=
  if x.exponentField = 0 then
    ⟨2 * x.fractionField, 1, 1, -1075, true⟩
  else if x.fractionField = 0 then
    ⟨4 * x.significand, 1, 2, x.exponent - 2, true⟩
  else
    ⟨2 * x.significand, 1, 1, x.exponent - 1, x.significand % 2 == 0⟩

/-- The shortest decimal `(C, j)` that reads back as the finite positive `x`, meaning `C · 10 ^ j`,
with `C` free of trailing zeros. -/
def shortest (x : Binary64) : Nat × Int :=
  let I := Interval.ofBinary64 x
  let d := I.search (floorLog10 I.M I.X) 17 1
  normalize d.1 d.2

end ContractAbi.Float
