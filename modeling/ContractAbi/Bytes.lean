/-!
Byte strings and the numbers they stand for. A number is written big-endian in a field of fixed
width; `toNat_ofNat` says that reading the field back gives the number modulo the field.
-/

namespace ContractAbi

/-- A byte string. Where it stands for a number, the most significant byte comes first. -/
abbrev Bytes := List UInt8

namespace Bytes

def ofNat : Nat → Nat → Bytes
  | 0, _ => []
  | w + 1, n => ofNat w (n / 256) ++ [UInt8.ofNat (n % 256)]

def toNat (bs : Bytes) : Nat :=
  bs.foldl (fun acc b => acc * 256 + b.toNat) 0

def compareLex : Bytes → Bytes → Ordering
  | [], [] => .eq
  | [], _ :: _ => .lt
  | _ :: _, [] => .gt
  | a :: as, b :: bs =>
    match compare a.toNat b.toNat with
    | .eq => compareLex as bs
    | o => o

def hexDigit (d : Nat) : Char :=
  if d < 10 then Char.ofNat (48 + d) else Char.ofNat (87 + d)

def toHex (bs : Bytes) : String :=
  String.ofList (bs.flatMap fun b => [hexDigit (b.toNat / 16), hexDigit (b.toNat % 16)])

def toHex0x (bs : Bytes) : String :=
  "0x" ++ toHex bs

theorem length_ofNat (w n : Nat) : (ofNat w n).length = w := by
  induction w generalizing n with
  | zero => rfl
  | succ w ih => simp [ofNat, ih]

theorem toNat_append (as bs : Bytes) :
    toNat (as ++ bs) = bs.foldl (fun acc b => acc * 256 + b.toNat) (toNat as) := by
  simp [toNat, List.foldl_append]

theorem toNat_ofNat (w n : Nat) : toNat (ofNat w n) = n % Nat.pow 256 w := by
  induction w generalizing n with
  | zero => simp [ofNat, toNat, Nat.mod_one]
  | succ w ih =>
    rw [ofNat, toNat_append, ih, Nat.pow_eq, Nat.pow_eq]
    have hb : (UInt8.ofNat (n % 256)).toNat = n % 256 := by simp
    simp only [List.foldl_cons, List.foldl_nil, hb]
    rw [Nat.pow_succ', Nat.mod_mul]
    omega

end Bytes

/-- A quantity as lowercase hex after `0x`, without leading zeros; zero is `0x0`. -/
def hexQuantity (n : Nat) : String :=
  "0x" ++ String.ofList (Nat.toDigits 16 n)

end ContractAbi
