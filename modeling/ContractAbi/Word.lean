import ContractAbi.Bytes
/-!
Words: 32 bytes standing for a number, most significant byte first. An unsigned number below
`2 ^ 256` is written as itself; a signed one in `[-2 ^ 255, 2 ^ 255)` as its two's complement,
so that a word with the top bit set stands for a negative number.
-/

namespace ContractAbi.Word

def ofNat (n : Nat) : Bytes := Bytes.ofNat 32 n

def toNat (w : Bytes) : Nat := Bytes.toNat w

/-- The two's complement word of a signed number in `[-2 ^ 255, 2 ^ 255)`; none outside. -/
def ofInt? (x : Int) : Option Bytes :=
  if -Int.pow 2 255 ≤ x ∧ x < Int.pow 2 255 then some (ofNat (x % Int.pow 2 256).toNat) else none

def toInt (w : Bytes) : Int :=
  let n := toNat w
  if n < Nat.pow 2 255 then n else (n : Int) - Int.pow 2 256

theorem length_ofNat (n : Nat) : (ofNat n).length = 32 := Bytes.length_ofNat 32 n

theorem toNat_ofNat (n : Nat) : toNat (ofNat n) = n % Nat.pow 2 256 := by
  simp [toNat, ofNat, Bytes.toNat_ofNat]

end ContractAbi.Word
