import ContractAbi.Abi.Error
/-!
Argument types. A static type has an encoding of fixed size: the scalars take one word and a
fixed array `T[K]` takes `K` times the size of `T`. The dynamic types (`bytes`, `string`, `T[]`)
are written as a payload after the head. The builders check widths as the canonical names demand.
-/

namespace ContractAbi

/-- A type whose encoding has a fixed size. -/
inductive StaticType where
  | uint (bits : Nat)
  | int (bits : Nat)
  | bool
  | address
  | function
  | fixedBytes (len : Nat)
  | fixed (m n : Nat)
  | ufixed (m n : Nat)
  | array (elem : StaticType) (len : Nat)
deriving DecidableEq, Repr

/-- An argument type: static, or one of the dynamic types. -/
inductive AbiType where
  | static (t : StaticType)
  | bytes
  | string
  | dynArray (elem : StaticType)
deriving DecidableEq, Repr

def wordSize : Nat := 32

namespace StaticType

def canonicalName : StaticType → String
  | .uint b => "uint" ++ toString b
  | .int b => "int" ++ toString b
  | .bool => "bool"
  | .address => "address"
  | .function => "function"
  | .fixedBytes l => "bytes" ++ toString l
  | .fixed m n => "fixed" ++ toString m ++ "x" ++ toString n
  | .ufixed m n => "ufixed" ++ toString m ++ "x" ++ toString n
  | .array t k => t.canonicalName ++ "[" ++ toString k ++ "]"

def fixedSize : StaticType → Nat
  | .array t k => t.fixedSize * k
  | _ => wordSize

end StaticType

namespace AbiType

def canonicalName : AbiType → String
  | .static t => t.canonicalName
  | .bytes => "bytes"
  | .string => "string"
  | .dynArray t => t.canonicalName ++ "[]"

def isDynamic : AbiType → Bool
  | .static _ => false
  | _ => true

def headSize : AbiType → Nat
  | .static t => t.fixedSize
  | _ => wordSize

def toStatic : AbiType → Except AbiError StaticType
  | .static t => .ok t
  | t => .error (.invalidElementType t.canonicalName)

end AbiType

def uintMax (bits : Nat) : Nat := Nat.pow 2 bits - 1

def intMin (bits : Nat) : Int := -Int.pow 2 (bits - 1)

def intMax (bits : Nat) : Int := Int.pow 2 (bits - 1) - 1

def validWidth (bits : Nat) : Bool := bits != 0 && bits ≤ 256 && bits % 8 == 0

namespace StaticType

def uintOf (bits : Nat) : Except AbiError StaticType :=
  if validWidth bits then .ok (.uint bits) else .error (.invalidBitWidth .uint bits)

def intOf (bits : Nat) : Except AbiError StaticType :=
  if validWidth bits then .ok (.int bits) else .error (.invalidBitWidth .int bits)

/-- `bytesN` for `1 ≤ N ≤ 32`; the error gives the width in bits, a product that stops the program
when it passes `machineMax`. -/
def fixedBytesOf (len : Nat) : Except AbiError StaticType :=
  if len = 0 ∨ len > 32 then do
    let bits ← (Usize.mul len 8).mapError .overflow
    .error (.invalidBitWidth .bytes bits)
  else .ok (.fixedBytes len)

/-- Checks the integer and fractional widths of a fixed-point type: each a positive multiple
of 8, then their sum at most 256. The sum is a machine word: past `machineMax` it stops the
program. -/
def checkDecimal (kind : WidthKind) (m n : Nat) : Except AbiError Unit :=
  if m = 0 ∨ m % 8 ≠ 0 then .error (.invalidBitWidth kind m)
  else if n = 0 ∨ n % 8 ≠ 0 then .error (.invalidBitWidth kind n)
  else do
    let bits ← (Usize.add m n).mapError .overflow
    if bits > 256 then .error (.invalidBitWidth kind bits) else .ok ()

def fixedOf (m n : Nat) : Except AbiError StaticType :=
  (checkDecimal .fixed m n).map fun _ => .fixed m n

def ufixedOf (m n : Nat) : Except AbiError StaticType :=
  (checkDecimal .ufixed m n).map fun _ => .ufixed m n

/-- `T[K]` for `K ≥ 1`, if its size is a machine-sized number. -/
def arrayOf (elem : StaticType) (len : Nat) : Except AbiError StaticType :=
  if len = 0 then .error (.malformedDescriptor (elem.canonicalName ++ "[0]"))
  else if elem.fixedSize * len > machineMax then .error (.lengthOverflow len)
  else .ok (.array elem len)

end StaticType

end ContractAbi
