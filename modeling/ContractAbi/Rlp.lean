import ContractAbi.Bytes
/-!
Recursive length prefix encoding of byte strings, integers and lists. A single byte below `0x80`
is itself; other strings of up to 55 bytes take `0x80 + length` in front, longer ones `0xb7 +`
the length of their big-endian length. Lists do the same from `0xc0` and `0xf7`. An integer is
the string of its big-endian bytes without leading zeros, so zero is the empty string.
-/

namespace ContractAbi.Rlp

def minimalBytes (n : Nat) : Bytes :=
  if n = 0 then [] else Bytes.ofNat (Nat.log2 n / 8 + 1) n

/-- A length header: `short + len` up to 55, else `long +` the length of the length, then it. -/
def header (short long len : Nat) : Bytes :=
  if len ≤ 55 then [UInt8.ofNat (short + len)]
  else
    let lb := minimalBytes len
    UInt8.ofNat (long + lb.length) :: lb

def encodeBytes (bs : Bytes) : Bytes :=
  match bs with
  | [b] => if b.toNat < 0x80 then [b] else header 0x80 0xb7 1 ++ bs
  | _ => header 0x80 0xb7 bs.length ++ bs

def encodeNat (n : Nat) : Bytes := encodeBytes (minimalBytes n)

def encodeList (items : List Bytes) : Bytes :=
  let payload := items.flatten
  header 0xc0 0xf7 payload.length ++ payload

end ContractAbi.Rlp
