import ContractAbi.Abi.I256
import ContractAbi.Machine
import ContractAbi.Float.Text
/-!
Fixed-point numbers: a signed integer `raw` standing for `raw / 2 ^ fracBits`. `ofBinary64`
scales a finite float by `2 ^ fracBits` and rounds half away from zero, refusing a magnitude of
256 bits or more; `toBinary64` goes back through binary64 arithmetic, rounding after each step.
-/

namespace ContractAbi

/-- A number `raw / 2 ^ fracBits`. -/
structure FixedPoint where
  raw : Int
  fracBits : Nat
deriving DecidableEq, Repr

namespace FixedPoint

/-- `mantissa · 2 ^ shift` rounded half up, for a 64-bit mantissa; none from `2 ^ 256` on. A
left shift is exact; a right shift adds back the last bit it shifts out. -/
def shiftRound? (mantissa : Nat) (shift : Int) : Option Nat :=
  if 0 ≤ shift then
    if mantissa ≠ 0 ∧ Nat.log2 mantissa + 1 + shift.toNat > 256 then none
    else some (mantissa * Nat.pow 2 shift.toNat)
  else
    let s := (-shift).toNat
    if s > 64 then some 0
    else some ((if s = 64 then 0 else mantissa / Nat.pow 2 s) + mantissa / Nat.pow 2 (s - 1) % 2)

/-- The exponent of the last mantissa bit plus `fracBits`, a sum of signed 64-bit integers:
`fracBits` is read as one (from `2 ^ 63` on it wraps to a negative number), and a sum outside their
range stops the program. The mantissa carries its last bit at exponent `exponentField - 1075`. -/
def shift (x : Binary64) (fracBits : Nat) : Except Overflow Int :=
  I64.add ((x.exponentField : Int) - 1075) (I64.ofUsize fracBits)

def scaledMagnitude? (x : Binary64) (fracBits : Nat) : Except Overflow (Option Nat) :=
  let mantissa := if x.exponentField = 0 then 2 * x.fractionField else x.fractionField + Nat.pow 2 52
  (shift x fracBits).map (shiftRound? mantissa)

def rawOfBinary64? (x : Binary64) (fracBits : Nat) : Except Overflow (Option I256) :=
  if !x.isFinite then .ok none
  else (scaledMagnitude? x fracBits).map (Option.map fun m => I256.new (BitVec.ofNat 256 m) x.sign)

/-- The fixed-point number nearest to `x · 2 ^ fracBits`, half away from zero; none for NaN, the
infinities and magnitudes of 2 ^ 256 or more. A magnitude that rounds to zero is not negative. -/
def ofBinary64 (x : Binary64) (fracBits : Nat) : Except Overflow (Option FixedPoint) :=
  (rawOfBinary64? x fracBits).map (Option.map fun r => ⟨r.toInt, fracBits⟩)

def limbs (m : Nat) : List Nat :=
  [m / Nat.pow 2 192 % Nat.pow 2 64, m / Nat.pow 2 128 % Nat.pow 2 64, m / Nat.pow 2 64 % Nat.pow 2 64,
    m % Nat.pow 2 64]

/-- The value as binary64: the magnitude's limbs folded as `acc · 2 ^ 64 + limb`, rounding the
limb and each sum, then scaled by `2 ^ -fracBits`, a factor that is zero from 2 ^ -1024 down;
the sign comes last, so a negative value that vanishes is negative zero. -/
def toBinary64 (x : FixedPoint) : Binary64 :=
  let magnitude := (limbs x.raw.natAbs).foldl
    (fun acc limb => Binary64.addNonneg (acc.scalePow2 64) (Binary64.ofNat limb)) Binary64.zero
  let scaled :=
    if x.fracBits ≤ 1023 then magnitude.scalePow2 (-(x.fracBits : Int)) else Binary64.zero
  if x.raw < 0 then scaled.neg else scaled

def display (x : FixedPoint) : String := x.toBinary64.toText

end FixedPoint

end ContractAbi
