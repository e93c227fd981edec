import ContractAbi.Bytes
/-!
Keccak-256: the sponge over Keccak-f[1600] with a rate of 136 bytes, the padding `0x01 … 0x80`
and a 32-byte digest. The state is 25 lanes of 64 bits; lane `x + 5 * y` is the lane at column `x`
and row `y`, and bytes enter a lane least significant first.
-/

namespace ContractAbi.Keccak

abbrev State := Array UInt64

def roundConstants : Array UInt64 := #[
  0x0000000000000001, 0x0000000000008082, 0x800000000000808A, 0x8000000080008000,
  0x000000000000808B, 0x0000000080000001, 0x8000000080008081, 0x8000000000008009,
  0x000000000000008A, 0x0000000000000088, 0x0000000080008009, 0x000000008000000A,
  0x000000008000808B, 0x800000000000008B, 0x8000000000008089, 0x8000000000008003,
  0x8000000000008002, 0x8000000000000080, 0x000000000000800A, 0x800000008000000A,
  0x8000000080008081, 0x8000000000008080, 0x0000000080000001, 0x8000000080008008]

def rotations : Array Nat := #[
  0, 1, 62, 28, 27, 36, 44, 6, 55, 20, 3, 10, 43, 25, 39, 41, 45, 15, 21, 8, 18, 2, 61, 56, 14]

def rotl (x : UInt64) (n : Nat) : UInt64 :=
  (x <<< n.toUInt64) ||| (x >>> (64 - n).toUInt64)

/-- Lane `i` of a state. The lanes are read and built through the state's list, which keeps
hashes of short inputs cheap to evaluate in proofs. -/
def lane (a : State) (i : Nat) : UInt64 :=
  a.toList.getD i 0

def ofLanes (f : Nat → UInt64) : State :=
  ((List.range 25).map f).toArray

def theta (a : State) : State :=
  let parity (x : Nat) : UInt64 :=
    lane a x ^^^ lane a (x + 5) ^^^ lane a (x + 10) ^^^ lane a (x + 15) ^^^ lane a (x + 20)
  ofLanes fun i =>
    let x := i % 5
    lane a i ^^^ parity ((x + 4) % 5) ^^^ rotl (parity ((x + 1) % 5)) 1

def rhoPi (a : State) : State :=
  ofLanes fun i =>
    let src := (i % 5 + 3 * (i / 5)) % 5 + 5 * (i % 5)
    rotl (lane a src) (rotations.getD src 0)

def chi (a : State) : State :=
  ofLanes fun i =>
    let row := i - i % 5
    lane a i ^^^ ((~~~ lane a (row + (i % 5 + 1) % 5)) &&& lane a (row + (i % 5 + 2) % 5))

def iota (rc : UInt64) (a : State) : State :=
  a.modify 0 (· ^^^ rc)

def permute (a : State) : State :=
  roundConstants.foldl (fun s rc => iota rc (chi (rhoPi (theta s)))) a

def rate : Nat := 136

def pad (msg : Bytes) : Bytes :=
  let p := rate - msg.length % rate
  if p = 1 then msg ++ [0x81] else msg ++ [0x01] ++ List.replicate (p - 2) 0 ++ [0x80]

def laneOfBytes (bs : Bytes) : UInt64 :=
  bs.foldr (fun b acc => (acc <<< 8) ||| b.toUInt64) 0

def absorbBlock (a : State) (block : Bytes) : State :=
  permute (ofLanes fun i =>
    if i < rate / 8 then lane a i ^^^ laneOfBytes ((block.drop (8 * i)).take 8) else lane a i)

def bytesOfLane (x : UInt64) : Bytes :=
  (List.range 8).map fun k => (x >>> (8 * k).toUInt64).toUInt8

def hash (msg : Bytes) : Bytes :=
  let padded := pad msg
  let final := (List.range (padded.length / rate)).foldl
    (fun a k => absorbBlock a ((padded.drop (rate * k)).take rate)) (Array.replicate 25 0)
  (List.range 4).flatMap fun i => bytesOfLane (lane final i)

def hashConcat (parts : List Bytes) : Bytes := hash parts.flatten

theorem length_bytesOfLane (x : UInt64) : (bytesOfLane x).length = 8 := by
  simp [bytesOfLane]

theorem length_hash (msg : Bytes) : (hash msg).length = 32 := by
  simp only [hash, List.length_flatMap, length_bytesOfLane]
  rfl

end ContractAbi.Keccak
