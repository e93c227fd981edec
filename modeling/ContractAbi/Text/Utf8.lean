import ContractAbi.Bytes
/-!
UTF-8. `encode` writes each character in the shortest form; `decode` accepts exactly the
well-formed byte strings and otherwise reports how many bytes are valid and how long the bad
sequence is. A sequence that the input cuts short has no length: the error says it is incomplete.
-/

namespace ContractAbi.Utf8

def encodeChar (c : Char) : Bytes :=
  let n := c.toNat
  if n < 0x80 then [UInt8.ofNat n]
  else if n < 0x800 then [UInt8.ofNat (0xC0 + n / 64), UInt8.ofNat (0x80 + n % 64)]
  else if n < 0x10000 then
    [UInt8.ofNat (0xE0 + n / 4096), UInt8.ofNat (0x80 + n / 64 % 64), UInt8.ofNat (0x80 + n % 64)]
  else
    [UInt8.ofNat (0xF0 + n / 262144), UInt8.ofNat (0x80 + n / 4096 % 64),
      UInt8.ofNat (0x80 + n / 64 % 64), UInt8.ofNat (0x80 + n % 64)]

def encode (s : String) : Bytes :=
  s.toList.flatMap encodeChar

/-- Where a byte string stops being UTF-8: the first `validUpTo` bytes are valid, and the bad
sequence after them is `errorLen` bytes long, or cut short by the end of the input. -/
structure Error where
  validUpTo : Nat
  errorLen : Option Nat
deriving DecidableEq, Repr

def Error.message (e : Error) : String :=
  match e.errorLen with
  | some n => "invalid utf-8 sequence of " ++ toString n ++ " bytes from index " ++ toString e.validUpTo
  | none => "incomplete utf-8 byte sequence from index " ++ toString e.validUpTo

/-- The length of the sequence a lead byte starts, with the range its second byte must lie in;
`none` for a byte that starts no sequence. -/
def leadRule (b : Nat) : Option (Nat × Nat × Nat) :=
  if b < 0x80 then some (1, 0, 0)
  else if 0xC2 ≤ b ∧ b ≤ 0xDF then some (2, 0x80, 0xBF)
  else if b = 0xE0 then some (3, 0xA0, 0xBF)
  else if 0xE1 ≤ b ∧ b ≤ 0xEC ∨ 0xEE ≤ b ∧ b ≤ 0xEF then some (3, 0x80, 0xBF)
  else if b = 0xED then some (3, 0x80, 0x9F)
  else if b = 0xF0 then some (4, 0x90, 0xBF)
  else if 0xF1 ≤ b ∧ b ≤ 0xF3 then some (4, 0x80, 0xBF)
  else if b = 0xF4 then some (4, 0x80, 0x8F)
  else none

def isContinuation (b : UInt8) : Bool :=
  0x80 ≤ b.toNat && b.toNat ≤ 0xBF

def decodeFrom : Bytes → Nat → Except Error (List Char)
  | [], _ => .ok []
  | b :: rest, i =>
    match leadRule b.toNat with
    | none => .error ⟨i, some 1⟩
    | some (w, lo, hi) =>
      if w = 1 then (decodeFrom rest (i + 1)).map (Char.ofNat b.toNat :: ·) else
      match rest with
      | [] => .error ⟨i, none⟩
      | c1 :: rest1 =>
        if !(lo ≤ c1.toNat && c1.toNat ≤ hi) then .error ⟨i, some 1⟩
        else if w = 2 then
          (decodeFrom rest1 (i + 2)).map
            (Char.ofNat ((b.toNat % 32) * 64 + c1.toNat % 64) :: ·)
        else
          match rest1 with
          | [] => .error ⟨i, none⟩
          | c2 :: rest2 =>
            if !isContinuation c2 then .error ⟨i, some 2⟩
            else if w = 3 then
              (decodeFrom rest2 (i + 3)).map
                (Char.ofNat ((b.toNat % 16) * 4096 + (c1.toNat % 64) * 64 + c2.toNat % 64) :: ·)
            else
              match rest2 with
              | [] => .error ⟨i, none⟩
              | c3 :: rest3 =>
                if !isContinuation c3 then .error ⟨i, some 3⟩
                else
                  (decodeFrom rest3 (i + 4)).map
                    (Char.ofNat ((b.toNat % 8) * 262144 + (c1.toNat % 64) * 4096
                      + (c2.toNat % 64) * 64 + c3.toNat % 64) :: ·)

/-- The string that a byte string encodes, or where it stops being UTF-8. -/
def decode (bs : Bytes) : Except Error String :=
  (decodeFrom bs 0).map String.ofList

end ContractAbi.Utf8
