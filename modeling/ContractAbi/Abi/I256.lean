import ContractAbi.Abi.Type
import ContractAbi.Word
/-!
Signed 256-bit integers in sign-magnitude form: a 256-bit magnitude and a sign. The constructors
make zero non-negative. Every magnitude below `2 ^ 256` can be held, but only `[-2 ^ 255, 2 ^ 255)`
has a two's complement word. The order compares signs first, then magnitudes. The integer types
`intN` check, write and read values through this form. The argument codec carries such an integer
by the number it stands for (`toInt`).
-/

namespace ContractAbi

/-- A signed 256-bit integer: a magnitude and a sign. -/
structure I256 where
  abs : BitVec 256
  negative : Bool
deriving DecidableEq, Repr

namespace I256

def zero : I256 := ⟨0, false⟩

/-- The integer of a magnitude and a sign; a zero magnitude is not negative. -/
def new (abs : BitVec 256) (negative : Bool) : I256 := ⟨abs, negative && abs != 0⟩

def ofInt128 (v : BitVec 128) : I256 := new (BitVec.ofNat 256 v.toInt.natAbs) (decide (v.toInt < 0))

def ofInt64 (v : Int64) : I256 := ofInt128 (v.toBitVec.signExtend 128)

def ofU256 (v : BitVec 256) : I256 := new v false

def isZero (x : I256) : Bool := x.abs == 0

def toInt (x : I256) : Int := if x.negative then -(x.abs.toNat : Int) else x.abs.toNat

def signBit : BitVec 256 := 1 <<< 255

/-- The two's complement word, or none outside `[-2 ^ 255, 2 ^ 255)`. The word of a negative
integer is its magnitude negated with wrapping, `!abs + 1`. -/
def toWord (x : I256) : Option Bytes :=
  let twos? : Option (BitVec 256) :=
    if x.negative then (if x.abs > signBit then none else some (~~~x.abs + 1))
    else if x.abs ≥ signBit then none else some x.abs
  twos?.map fun t => Word.ofNat t.toNat

/-- The integer of a two's complement word. The top bit gives the sign, and a negative word has
magnitude `!raw + 1`, which is `2 ^ 255` for the word `0x80 00..00`. -/
def fromWord (w : Bytes) : I256 :=
  let raw : BitVec 256 := BitVec.ofNat 256 (Word.toNat w)
  if (w.headD 0 &&& 0x80) == 0 then new raw false else new (~~~raw + 1) true

/-- The order: by sign, then by magnitude, reversed between negative integers. -/
def cmp (x y : I256) : Ordering :=
  match x.negative, y.negative with
  | false, false => compare x.abs.toNat y.abs.toNat
  | true, true => compare y.abs.toNat x.abs.toNat
  | true, false => .lt
  | false, true => .gt

instance : Ord I256 := ⟨cmp⟩

def display (x : I256) : String := (if x.negative then "-" else "") ++ toString x.abs.toNat

end I256

def lowMask (bits : Nat) : BitVec 256 := BitVec.ofNat 256 (Nat.pow 2 bits - 1)

structure IntType where
  bits : Nat

namespace IntType

def name (t : IntType) : String := "int" ++ toString t.bits

def minValue (t : IntType) : I256 := I256.new (lowMask (t.bits - 1) + 1) true

def maxValue (t : IntType) : I256 := I256.new (lowMask (t.bits - 1)) false

def isValid (t : IntType) (x : I256) : Bool :=
  x.cmp t.minValue != .lt && x.cmp t.maxValue != .gt

def outOfRange (t : IntType) (x : I256) : AbiError := .valueOutOfRange t.name x.display

def encodeWord (t : IntType) (x : I256) : Except AbiError Bytes :=
  if !t.isValid x then .error (t.outOfRange x)
  else
    match x.toWord with
    | some w => .ok w
    | none => .error (t.outOfRange x)

/-- The value of a word, refusing a word that is not the sign extension of a value within the
bounds. -/
def decodeWord (t : IntType) (w : Bytes) : Except AbiError I256 :=
  let x := I256.fromWord w
  if !t.isValid x then .error (t.outOfRange x) else .ok x

end IntType

end ContractAbi
