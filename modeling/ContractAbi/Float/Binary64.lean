/-!
Binary64 numbers by their bit patterns, computed exactly in natural numbers. A finite pattern
stands for `m · 2 ^ e`: `m` is the fraction with its hidden bit (or the bare fraction below the
normal range) and `e` the unbiased exponent of its last bit. `round` takes any positive ratio to
the nearest pattern, a tie to the even one, and to infinity past the largest finite value.
-/

namespace ContractAbi

/-- A binary64 number, as its 64 bits. -/
structure Binary64 where
  bits : UInt64
deriving DecidableEq, Repr

namespace Binary64

def sign (x : Binary64) : Bool := x.bits.toNat ≥ Nat.pow 2 63

def exponentField (x : Binary64) : Nat := x.bits.toNat / Nat.pow 2 52 % Nat.pow 2 11

def fractionField (x : Binary64) : Nat := x.bits.toNat % Nat.pow 2 52

def isFinite (x : Binary64) : Bool := x.exponentField != 2047

def isNaN (x : Binary64) : Bool := x.exponentField == 2047 && x.fractionField != 0

def significand (x : Binary64) : Nat :=
  if x.exponentField = 0 then x.fractionField else x.fractionField + Nat.pow 2 52

def exponent (x : Binary64) : Int :=
  if x.exponentField = 0 then -1074 else (x.exponentField : Int) - 1075

def zero : Binary64 := ⟨0⟩

def neg (x : Binary64) : Binary64 := ⟨x.bits ^^^ 0x8000000000000000⟩

def withSign (negative : Bool) (x : Binary64) : Binary64 :=
  if negative then ⟨x.bits ||| 0x8000000000000000⟩ else x

def pow2Ratio (k : Int) : Nat × Nat :=
  if 0 ≤ k then (Nat.pow 2 k.toNat, 1) else (1, Nat.pow 2 (-k).toNat)

def ratioAtLeastPow2 (num den : Nat) (k : Int) : Bool :=
  let p := pow2Ratio k
  num * p.2 ≥ den * p.1

def floorLog2 (num den : Nat) : Int :=
  let k : Int := (Nat.log2 num : Int) - Nat.log2 den
  if ratioAtLeastPow2 num den k then k else k - 1

def roundHalfEven (num den : Nat) : Nat :=
  let q := num / den
  let r := num % den
  if 2 * r > den ∨ (2 * r = den ∧ q % 2 = 1) then q + 1 else q

/-- The pattern nearest to the positive ratio `num / den`, a tie to the even one; infinity
when the ratio rounds past the largest finite value, zero when `num = 0`. -/
def round (num den : Nat) : Binary64 :=
  if num = 0 then zero else
  let t := max (floorLog2 num den - 52) (-1074)
  let p := pow2Ratio t
  let q := roundHalfEven (num * p.2) (den * p.1)
  let bits := (t + 1074).toNat * Nat.pow 2 52 + q
  if bits ≥ 0x7FF0000000000000 then ⟨0x7FF0000000000000⟩ else ⟨UInt64.ofNat bits⟩

def ofScaled (m : Nat) (e : Int) : Binary64 :=
  let p := pow2Ratio e
  round (m * p.1) p.2

def ofNat (n : Nat) : Binary64 := round n 1

def addNonneg (x y : Binary64) : Binary64 :=
  let e := min x.exponent y.exponent
  ofScaled (x.significand * Nat.pow 2 (x.exponent - e).toNat + y.significand * Nat.pow 2 (y.exponent - e).toNat) e

def scalePow2 (x : Binary64) (k : Int) : Binary64 :=
  ofScaled x.significand (x.exponent + k)

def infinity : Binary64 := ⟨0x7FF0000000000000⟩

def mulNonneg (x y : Binary64) : Binary64 :=
  ofScaled (x.significand * y.significand) (x.exponent + y.exponent)

def divNonneg (x y : Binary64) : Binary64 :=
  let p := pow2Ratio (x.exponent - y.exponent)
  round (x.significand * p.1) (y.significand * p.2)

def pow10 (k : Nat) : Binary64 := ofNat (Nat.pow 10 k)

/-- A finite non-negative value divided by `10 ^ k` in rounded steps: while the power is past
`10 ^ 308`, a division by the pattern of `10 ^ 308` comes first, and zero stays zero. -/
def divPow10 (x : Binary64) (k : Nat) : Binary64 :=
  if k ≤ 308 then divNonneg x (pow10 k)
  else if x = zero then zero
  else divPow10 (divNonneg x (pow10 308)) (k - 308)
termination_by k
decreasing_by omega

/-- The decimal `digits · 10 ^ exp10` read in two rounded steps: `digits` rounded to a pattern,
then multiplied or divided by the pattern of the power of ten. This can miss the nearest pattern
by one unit in the last place; a product past the largest power of ten is infinite. -/
def ofDecimalTwoStep (negative : Bool) (digits : Nat) (exp10 : Int) : Binary64 :=
  let x := ofNat digits
  let v :=
    if 0 ≤ exp10 then
      if exp10 ≤ 308 then mulNonneg x (pow10 exp10.toNat)
      else if x = zero then zero else infinity
    else divPow10 x (-exp10).toNat
  withSign negative v

def ofDecimal (negative : Bool) (digits : Nat) (exp10 : Int) : Binary64 :=
  let v := if 0 ≤ exp10 then round (digits * Nat.pow 10 exp10.toNat) 1 else round digits (Nat.pow 10 (-exp10).toNat)
  withSign negative v

def bitsHex (x : Binary64) : String :=
  let ds := Nat.toDigits 16 x.bits.toNat
  "0x" ++ String.ofList (List.replicate (16 - ds.length) '0' ++ ds)

end Binary64

end ContractAbi
