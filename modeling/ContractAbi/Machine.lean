/-!
Machine words as a build with overflow checks runs them. Sizes, lengths and bit widths are
64-bit unsigned words; an addition or product past `machineMax` does not wrap but stops the
program (`Overflow`). A word read as a signed 64-bit integer (`as i64`) wraps, and a signed sum
outside `[-2 ^ 63, 2 ^ 63)` stops the program in the same way.
-/

namespace ContractAbi

/-- The largest machine-sized number, the bound on sizes, lengths and offsets. -/
def machineMax : Nat := Nat.pow 2 64 - 1

/-- The arithmetic check that stopped the program. -/
inductive Overflow where
  | add
  | mul
deriving DecidableEq, Repr

def Overflow.message : Overflow → String
  | .add => "attempt to add with overflow"
  | .mul => "attempt to multiply with overflow"

namespace Usize

def add (a b : Nat) : Except Overflow Nat :=
  if a + b > machineMax then .error .add else .ok (a + b)

def mul (a b : Nat) : Except Overflow Nat :=
  if a * b > machineMax then .error .mul else .ok (a * b)

end Usize

namespace I64

/-- A machine word read as a signed 64-bit integer: the words from `2 ^ 63` on are negative. -/
def ofUsize (n : Nat) : Int :=
  if n < Nat.pow 2 63 then n else (n : Int) - Nat.pow 2 64

def add (a b : Int) : Except Overflow Int :=
  if a + b < -Int.pow 2 63 ∨ Int.pow 2 63 ≤ a + b then .error .add else .ok (a + b)

end I64

end ContractAbi
