import ContractAbi.Hex
/-!
Fixed-size byte strings: addresses (20 bytes), hashes (32), method selectors (4) and function
references (24: an address followed by a selector). Each is read from hex after one optional
lowercase `0x`, and its errors name the kind of value that was being read.
-/

namespace ContractAbi

/-- A byte string of exactly `n` bytes. -/
structure ByteVec (n : Nat) where
  bytes : Bytes
  length_eq : bytes.length = n
deriving DecidableEq

abbrev Address := ByteVec 20
abbrev H256 := ByteVec 32
abbrev MethodId := ByteVec 4
/-- A reference to a function of a contract: its address, then its selector. -/
abbrev FunctionRef := ByteVec 24

inductive PrimitiveKind where
  | address
  | hash
  | methodId
deriving DecidableEq, Repr

inductive PrimitiveError where
  | invalidHex (kind : PrimitiveKind) (e : Hex.Error)
  | invalidLength (kind : PrimitiveKind) (expected actual : Nat)
deriving DecidableEq, Repr

namespace PrimitiveError

def kind : PrimitiveError → PrimitiveKind
  | .invalidHex k _ => k
  | .invalidLength k _ _ => k

def detail : PrimitiveError → String
  | .invalidHex _ e => "invalid hex string: " ++ e.message
  | .invalidLength .address _ n => "invalid address length: expected 20 bytes, got " ++ toString n
  | .invalidLength .hash e n =>
    "invalid hash length: expected " ++ toString e ++ " bytes, got " ++ toString n
  | .invalidLength .methodId e n =>
    "invalid length: expected " ++ toString e ++ " bytes, got " ++ toString n

/-- The error text, led by the kind of value. -/
def message (e : PrimitiveError) : String :=
  (match e.kind with
    | .address => "address error: "
    | .hash => "hash error: "
    | .methodId => "method id error: ") ++ e.detail

end PrimitiveError

namespace ByteVec

def ofBytes (kind : PrimitiveKind) (n : Nat) (bs : Bytes) : Except PrimitiveError (ByteVec n) :=
  if h : bs.length = n then .ok ⟨bs, h⟩ else .error (.invalidLength kind n bs.length)

def ofHex (kind : PrimitiveKind) (n : Nat) (s : String) : Except PrimitiveError (ByteVec n) :=
  match Hex.decodeString s with
  | .error e => .error (.invalidHex kind e)
  | .ok bs => ofBytes kind n bs

def toHex {n : Nat} (v : ByteVec n) : String :=
  Bytes.toHex0x v.bytes

def isZero {n : Nat} (v : ByteVec n) : Bool :=
  v.bytes.all (· == 0)

/-- Values of one size compare bytewise, a byte as an unsigned number. -/
instance {n : Nat} : Ord (ByteVec n) where
  compare a b := Bytes.compareLex a.bytes b.bytes

def zero (n : Nat) : ByteVec n :=
  ⟨List.replicate n 0, List.length_replicate⟩

/-- The last `n` bytes of a byte string of at least `n` bytes, else zeros in front. -/
def lastOf (n : Nat) (bs : Bytes) : ByteVec n :=
  ⟨List.replicate (n - bs.length) 0 ++ bs.drop (bs.length - n), by simp; omega⟩

end ByteVec

namespace Address

def ofHex (s : String) : Except PrimitiveError Address := ByteVec.ofHex .address 20 s

def ofBytes (bs : Bytes) : Except PrimitiveError Address := ByteVec.ofBytes .address 20 bs

def debug (a : Address) : String := "Address(" ++ a.toHex ++ ")"

def toWord (a : Address) : H256 :=
  ⟨List.replicate 12 0 ++ a.bytes, by simp [a.length_eq]⟩

end Address

namespace H256

def ofHex (s : String) : Except PrimitiveError H256 := ByteVec.ofHex .hash 32 s

def ofBytes (bs : Bytes) : Except PrimitiveError H256 := ByteVec.ofBytes .hash 32 bs

def debug (h : H256) : String := "H256(" ++ h.toHex ++ ")"

def ofNat (n : Nat) : H256 := ⟨Bytes.ofNat 32 n, Bytes.length_ofNat 32 n⟩

def lowAddress (h : H256) : Address := ByteVec.lastOf 20 h.bytes

end H256

namespace MethodId

def ofHex (s : String) : Except PrimitiveError MethodId := ByteVec.ofHex .methodId 4 s

/-- The selector that opens calldata: its first four bytes. -/
def ofInput (data : Bytes) : Except PrimitiveError MethodId :=
  if h : 4 ≤ data.length then .ok ⟨data.take 4, List.length_take.trans (Nat.min_eq_left h)⟩
  else .error (.invalidLength .methodId 4 data.length)

def debug (m : MethodId) : String := "MethodId(" ++ m.toHex ++ ")"

end MethodId

namespace FunctionRef

def ofHex (s : String) : Except PrimitiveError FunctionRef := ByteVec.ofHex .methodId 24 s

def address (f : FunctionRef) : Address :=
  ⟨f.bytes.take 20, by simp [f.length_eq]⟩

def selector (f : FunctionRef) : MethodId :=
  ⟨f.bytes.drop 20, by simp [f.length_eq]⟩

def debug (f : FunctionRef) : String := "FunctionRef(" ++ f.toHex ++ ")"

end FunctionRef

end ContractAbi
