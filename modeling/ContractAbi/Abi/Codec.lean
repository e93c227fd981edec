import ContractAbi.Abi.Value
import ContractAbi.Word
/-!
Encoding and decoding of single values. A static type is written in exactly its fixed size: a
scalar as one word, a fixed array as its elements one after another. A dynamic type is written as
a self-delimiting payload: a length word and the data padded to whole words, or a count word and
the elements. Decoding takes a buffer that holds exactly one encoding; the bytes that padding and
alignment fill are not inspected.
-/

namespace ContractAbi

namespace Codec

/-- The length in the first word of `data`, which must be a machine-sized number. -/
def readLength (data : Bytes) : Except AbiError Nat :=
  if data.length < wordSize then .error (.truncatedBuffer wordSize data.length)
  else
    let v := Word.toNat (data.take wordSize)
    if v > machineMax then .error (.lengthOverflow v) else .ok v

/-- `len` rounded up to whole words, if that is a machine-sized number. -/
def paddedLen (len : Nat) : Except AbiError Nat :=
  let p := (len + 31) / 32 * 32
  if p > machineMax then .error (.lengthOverflow len) else .ok p

def expectLen (data : Bytes) (n : Nat) : Except AbiError Unit :=
  if data.length < n then .error (.truncatedBuffer n data.length)
  else if data.length > n then .error (.lengthMismatch n data.length)
  else .ok ()

def encodePadded (data : Bytes) : Bytes :=
  Word.ofNat data.length ++ data ++ List.replicate ((data.length + 31) / 32 * 32 - data.length) 0

def decodePadded (data : Bytes) : Except AbiError Bytes := do
  let len ← readLength data
  let padded ← paddedLen len
  let remaining := data.length - wordSize
  if remaining ≠ padded then throw (.lengthMismatch padded remaining)
  pure ((data.drop wordSize).take len)

def chunks (data : Bytes) (size count : Nat) : List Bytes :=
  (List.range count).map fun k => (data.drop (k * size)).take size

end Codec

namespace StaticType

def encodeScalar (t : StaticType) (v : Value) : Except AbiError Bytes :=
  match t, v with
  | .uint b, .uint n =>
    if n > uintMax b then .error (.valueOutOfRange t.canonicalName (toString n)) else .ok (Word.ofNat n)
  | .int b, .int x =>
    if x < intMin b ∨ x > intMax b then .error (.valueOutOfRange t.canonicalName (toString x))
    else .ok (Word.ofNat (x % Int.pow 2 256).toNat)
  | .bool, .bool b => .ok (Word.ofNat (if b then 1 else 0))
  | .address, .address a => .ok (List.replicate 12 0 ++ a.bytes)
  | .function, .function f => .ok (List.replicate 8 0 ++ f.bytes)
  | .fixedBytes l, .fixedBytes bs =>
    if bs.length ≠ l then .error (.lengthMismatch l bs.length) else .ok (bs ++ List.replicate (32 - l) 0)
  | .fixed m n, .fixed x =>
    if x.fracBits ≠ n then
      .error (.typeMismatch t.canonicalName ("fixed with " ++ toString x.fracBits ++ " fractional bits"))
    else if x.raw < intMin (m + n) ∨ x.raw > intMax (m + n) then
      .error (.valueOutOfRange t.canonicalName x.display)
    else .ok (Word.ofNat (x.raw % Int.pow 2 256).toNat)
  | .ufixed m n, .fixed x =>
    if x.fracBits ≠ n then
      .error (.typeMismatch t.canonicalName ("fixed with " ++ toString x.fracBits ++ " fractional bits"))
    else if x.raw < 0 ∨ x.raw > uintMax (m + n) then
      .error (.valueOutOfRange t.canonicalName x.display)
    else .ok (Word.ofNat x.raw.toNat)
  | t, v => .error (.typeMismatch t.canonicalName v.kind)

def encode : StaticType → Value → Except AbiError Bytes
  | .array elem len, v =>
    match v with
    | .array items =>
      if items.length ≠ len then .error (.lengthMismatch len items.length)
      else (items.mapM fun item => encode elem item).map List.flatten
    | v => .error (.typeMismatch (StaticType.array elem len).canonicalName v.kind)
  | t, v => encodeScalar t v

def decodeUint (bits : Nat) (w : Bytes) : Except AbiError Nat :=
  let v := Word.toNat w
  if v > uintMax bits then .error (.valueOutOfRange ("uint" ++ toString bits) (toString v)) else .ok v

def decodeInt (bits : Nat) (w : Bytes) : Except AbiError Int :=
  let x := Word.toInt w
  if x < intMin bits ∨ x > intMax bits then .error (.valueOutOfRange ("int" ++ toString bits) (toString x))
  else .ok x

def decodeScalar (t : StaticType) (w : Bytes) : Except AbiError Value :=
  match t with
  | .uint b => (decodeUint b w).map .uint
  | .int b => (decodeInt b w).map .int
  | .bool =>
    let v := Word.toNat w
    if v > 1 then .error (.valueOutOfRange "bool" (toString v)) else .ok (.bool (v == 1))
  | .address => .ok (.address (ByteVec.lastOf 20 w))
  | .function => .ok (.function (ByteVec.lastOf 24 w))
  | .fixedBytes l => .ok (.fixedBytes (w.take l))
  | .fixed m n => (decodeInt (m + n) w).map fun x => .fixed ⟨x, n⟩
  | .ufixed m n => (decodeUint (m + n) w).map fun v => .fixed ⟨v, n⟩
  | .array _ _ => .error (.typeMismatch t.canonicalName "word")

def decode : StaticType → Bytes → Except AbiError Value
  | .array elem len, data => do
    Codec.expectLen data (elem.fixedSize * len)
    let items ← (Codec.chunks data elem.fixedSize len).mapM fun chunk => decode elem chunk
    pure (.array items)
  | t, data => do
    Codec.expectLen data wordSize
    decodeScalar t data

def decodeElements (elem : StaticType) (payload : Bytes) (count : Nat) : Except AbiError (List Value) :=
  (Codec.chunks payload elem.fixedSize count).mapM elem.decode

def payloadLen (elem : StaticType) (count : Nat) : Except AbiError Nat :=
  if count * elem.fixedSize > machineMax then .error (.lengthOverflow count) else .ok (count * elem.fixedSize)

/-- The elements of a `T[]` payload at the start of `data`, and how many bytes it takes; the
bytes after it are left alone. -/
def decodePrefix (elem : StaticType) (data : Bytes) : Except AbiError (List Value × Nat) := do
  let count ← Codec.readLength data
  let payload ← payloadLen elem count
  let consumed := payload + wordSize
  if consumed > machineMax then throw (.lengthOverflow count)
  if data.length < consumed then throw (.truncatedBuffer consumed data.length)
  let items ← decodeElements elem ((data.take consumed).drop wordSize) count
  pure (items, consumed)

end StaticType

namespace AbiType

/-- The encoding of a value: the whole encoding of a static type, the payload of a dynamic one. -/
def encode : AbiType → Value → Except AbiError Bytes
  | .static t, v => t.encode v
  | .bytes, .bytes bs => .ok (Codec.encodePadded bs)
  | .string, .string s => .ok (Codec.encodePadded (Utf8.encode s))
  | .dynArray elem, .array items =>
    (items.mapM elem.encode).map fun parts => Word.ofNat items.length ++ parts.flatten
  | t, v => .error (.typeMismatch t.canonicalName v.kind)

def decode : AbiType → Bytes → Except AbiError Value
  | .static t, data => t.decode data
  | .bytes, data => (Codec.decodePadded data).map .bytes
  | .string, data => do
    let bs ← Codec.decodePadded data
    match Utf8.decode bs with
    | .ok s => pure (.string s)
    | .error e => throw (.invalidUtf8 e)
  | .dynArray elem, data => do
    let count ← Codec.readLength data
    let payload ← elem.payloadLen count
    let remaining := data.length - wordSize
    if remaining ≠ payload then throw (.lengthMismatch payload remaining)
    let items ← elem.decodeElements (data.drop wordSize) count
    pure (.array items)

end AbiType

end ContractAbi
