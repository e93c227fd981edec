import ContractAbi.Bytes
import ContractAbi.Text.Quoted
/-!
Reading hex. The text is taken byte by byte: an odd number of bytes is refused first, then the
pairs are read in order and the first byte that is no hex digit, in either case, is reported with
its position.
-/

namespace ContractAbi.Hex

inductive Error where
  | oddLength
  | invalidChar (byte : UInt8) (index : Nat)
deriving DecidableEq, Repr

/-- The text of a hex error; a bad byte is shown as the character with that code, quoted. -/
def Error.message : Error → String
  | .oddLength => "Odd number of digits"
  | .invalidChar b i =>
    "Invalid character " ++ Text.quoteChar (Char.ofNat b.toNat) ++ " at position " ++ toString i

def digitValue (b : UInt8) : Option Nat :=
  let n := b.toNat
  if 48 ≤ n ∧ n ≤ 57 then some (n - 48)
  else if 65 ≤ n ∧ n ≤ 70 then some (n - 55)
  else if 97 ≤ n ∧ n ≤ 102 then some (n - 87)
  else none

def decodePairs : Bytes → Nat → Except Error Bytes
  | hi :: lo :: rest, i =>
    match digitValue hi, digitValue lo with
    | some h, some l => (decodePairs rest (i + 2)).map (UInt8.ofNat (16 * h + l) :: ·)
    | none, _ => .error (.invalidChar hi i)
    | some _, none => .error (.invalidChar lo (i + 1))
  | _, _ => .ok []

def decode (text : Bytes) : Except Error Bytes :=
  if text.length % 2 = 1 then .error .oddLength else decodePairs text 0

def stripMark : Bytes → Bytes
  | 48 :: 120 :: rest => rest
  | text => text

def decodeString (s : String) : Except Error Bytes :=
  decode (stripMark s.toUTF8.toList)

end ContractAbi.Hex
