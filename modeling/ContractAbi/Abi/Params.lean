import ContractAbi.Abi.Codec
import ContractAbi.Abi.Registry
/-!
Argument lists in the head/tail layout. The head holds, in argument order, the encoding of each
static argument and, for each dynamic one, the offset of its payload from the start of the
buffer; the payloads follow the head in argument order. Decoding accepts only this layout: the
offsets, read from the last dynamic argument back, must lie between the end of the head and the
start of the payload after them, and the first payload must begin where the head ends.
-/

namespace ContractAbi

structure ParameterList where
  types : List AbiType

namespace ParameterList

/-- The bytes the head takes: the sum of the head sizes, saturating at `machineMax`. -/
def headSize (L : ParameterList) : Nat :=
  L.types.foldl (fun acc t => min machineMax (acc + t.headSize)) 0

def canonicalNames (L : ParameterList) : List String :=
  L.types.map AbiType.canonicalName

def signature (L : ParameterList) : String :=
  ",".intercalate L.canonicalNames

/-- Parses a comma-separated list of descriptors; the empty string is the empty list, and an
empty piece makes the whole text malformed. -/
def ofSignature (r : Registry) (s : String) : Except AbiError ParameterList :=
  if s.isEmpty then .ok ⟨[]⟩
  else
    let resolve (piece : List Char) : Except AbiError AbiType :=
      if piece.isEmpty then .error (.malformedDescriptor s) else r.search (String.ofList piece)
    ((s.toList.splitOn ',').mapM resolve).map ParameterList.mk

def encodeParts (headSize : Nat) : List AbiType → List Value → Bytes → Bytes →
    Except AbiError Bytes
  | t :: ts, v :: vs, head, tail =>
    match t with
    | .static st => do
      let enc ← st.encode v
      encodeParts headSize ts vs (head ++ enc) tail
    | dt => do
      let offset := headSize + tail.length
      if offset > machineMax then throw (.lengthOverflow tail.length)
      let enc ← dt.encode v
      encodeParts headSize ts vs (head ++ Word.ofNat offset) (tail ++ enc)
  | _, _, head, tail => .ok (head ++ tail)

def encode (L : ParameterList) (values : List Value) : Except AbiError Bytes :=
  if values.length ≠ L.types.length then .error (.lengthMismatch L.types.length values.length)
  else encodeParts L.headSize L.types values [] []

/-- The byte ranges of the arguments `ts`, whose head slots start at `pos`, in a buffer whose
payloads for them end at `upper`. The scan runs from the last argument back: a static argument
keeps its head slot; a dynamic one reads the offset in its slot, which must be a machine-sized
number at least `headSize` and below the start of the payload after it, and takes the bytes from
the offset up to that start. Returns the ranges in argument order and where the first payload
starts. -/
def spansFrom (data : Bytes) (headSize : Nat) :
    Nat → List AbiType → Nat → Except AbiError (List (Nat × Nat) × Nat)
  | _, [], upper => .ok ([], upper)
  | pos, t :: ts, upper => do
    let (spans, next) ← spansFrom data headSize (pos + t.headSize) ts upper
    if t.isDynamic then
      let offset := Word.toNat ((data.drop pos).take wordSize)
      if offset > machineMax ∨ offset < headSize ∨ offset ≥ next then
        throw (.invalidOffset offset headSize next)
      pure ((offset, next) :: spans, offset)
    else pure ((pos, pos + t.headSize) :: spans, next)

def decode (L : ParameterList) (data : Bytes) : Except AbiError (List Value) := do
  let head := L.headSize
  if data.length < head then throw (.truncatedBuffer head data.length)
  let (spans, first) ← spansFrom data head 0 L.types data.length
  if first ≠ head then throw (.encodingIncomplete first head)
  (L.types.zip spans).mapM fun (t, lo, hi) => t.decode ((data.drop lo).take (hi - lo))

end ParameterList

end ContractAbi
