import ContractAbi.Abi.Type
/-!
Type descriptors and the registry that resolves them. A registry is a list of matchers tried in
order; the first that claims a descriptor decides it, with a type or an error, and a descriptor
that none claims is unknown. The array matchers strip one suffix, `[]` or `[K]`, and resolve the
rest through the same registry. Before the matchers run, the empty descriptor and one with more
than 32 opening brackets are refused, at every level.
-/

namespace ContractAbi

inductive Matcher where
  | dynamicArray
  | fixedArray
  | uint
  | int
  | address
  | bool
  | ufixed
  | fixed
  | function
  | bytes
  | fixedBytes
  | string
deriving DecidableEq, Repr

/-- A list of matchers, tried in order. -/
structure Registry where
  matchers : List Matcher

namespace Registry

/-- The standard registry: arrays first, then the scalars, `bytes` before `bytesN`. -/
def standard : Registry :=
  ⟨[.dynamicArray, .fixedArray, .uint, .int, .address, .bool, .ufixed, .fixed, .function, .bytes,
    .fixedBytes, .string]⟩

def empty : Registry := ⟨[]⟩

def withMatcher (r : Registry) (m : Matcher) : Registry := ⟨r.matchers ++ [m]⟩

end Registry

namespace Descriptor

def malformed (d : List Char) : AbiError := .malformedDescriptor (String.ofList d)

def digits (s d : List Char) : Except AbiError Nat :=
  if s.isEmpty || !s.all Char.isDigit then .error (malformed d)
  else
    let v := s.foldl (fun acc c => acc * 10 + (c.toNat - 48)) 0
    if v > machineMax then .error (malformed d) else .ok v

def width (rest : List Char) (default : Nat) (d : List Char) : Except AbiError Nat :=
  if rest.isEmpty then .ok default else digits rest d

def dropPrefix (p s : List Char) : Option (List Char) :=
  if p.isPrefixOf s then some (s.drop p.length) else none

def dropSuffix (p s : List Char) : Option (List Char) :=
  if p.isSuffixOf s then some (s.take (s.length - p.length)) else none

def lastIndexOf (c : Char) (s : List Char) : Option Nat :=
  (s.zipIdx.filter (·.1 == c)).getLast?.map (·.2)

def decimalWidths (rest d : List Char) : Except AbiError (Option (Nat × Nat)) :=
  if rest.isEmpty then .ok none
  else
    match rest.idxOf? 'x' with
    | none => .error (malformed d)
    | some i => do
      let m ← digits (rest.take i) d
      let n ← digits (rest.drop (i + 1)) d
      pure (some (m, n))

/-- Maps an error of a type builder to a malformed descriptor; an overflow is no error value but a
stopped run, and passes unchanged. -/
def orMalformed (d : List Char) : Except AbiError StaticType → Except AbiError StaticType
  | .ok t => .ok t
  | .error (.overflow op) => .error (.overflow op)
  | .error _ => .error (malformed d)

end Descriptor

open Descriptor in
/-- What one matcher makes of a descriptor: no claim, a type, or an error; `search` resolves the
element of an array. -/
def Matcher.apply (search : List Char → Except AbiError AbiType) :
    Matcher → List Char → Except AbiError (Option AbiType)
  | .dynamicArray, d =>
    match dropSuffix ['[', ']'] d with
    | none => .ok none
    | some inner => do
      let elem ← (← search inner).toStatic
      pure (some (.dynArray elem))
  | .fixedArray, d =>
    match dropSuffix [']'] d with
    | none => .ok none
    | some openRest =>
      match lastIndexOf '[' openRest with
      | none => .error (malformed d)
      | some i => do
        let len ← digits (openRest.drop (i + 1)) d
        if len = 0 then throw (malformed d)
        let elem ← (← search (openRest.take i)).toStatic
        let t ← StaticType.arrayOf elem len
        pure (some (.static t))
  | .uint, d =>
    match dropPrefix "uint".toList d with
    | none => .ok none
    | some rest => do
      let bits ← width rest 256 d
      pure (some (.static (← orMalformed d (StaticType.uintOf bits))))
  | .int, d =>
    match dropPrefix "int".toList d with
    | none => .ok none
    | some rest => do
      let bits ← width rest 256 d
      pure (some (.static (← orMalformed d (StaticType.intOf bits))))
  | .address, d => .ok (if d = "address".toList then some (.static .address) else none)
  | .bool, d => .ok (if d = "bool".toList then some (.static .bool) else none)
  | .ufixed, d =>
    match dropPrefix "ufixed".toList d with
    | none => .ok none
    | some rest => do
      match ← decimalWidths rest d with
      | none => pure (some (.static (.ufixed 128 128)))
      | some (m, n) => pure (some (.static (← orMalformed d (StaticType.ufixedOf m n))))
  | .fixed, d =>
    match dropPrefix "fixed".toList d with
    | none => .ok none
    | some rest => do
      match ← decimalWidths rest d with
      | none => pure (some (.static (.fixed 128 128)))
      | some (m, n) => pure (some (.static (← orMalformed d (StaticType.fixedOf m n))))
  | .function, d => .ok (if d = "function".toList then some (.static .function) else none)
  | .bytes, d => .ok (if d = "bytes".toList then some .bytes else none)
  | .fixedBytes, d =>
    if d = "byte".toList then .ok (some (.static (.fixedBytes 1)))
    else
      match dropPrefix "bytes".toList d with
      | none => .ok none
      | some rest => do
        let len ← digits rest d
        pure (some (.static (← orMalformed d (StaticType.fixedBytesOf len))))
  | .string, d => .ok (if d = "string".toList then some .string else none)

def maxArrayDepth : Nat := 32

namespace Registry

/-- The first matcher's answer for a descriptor, or unknown when none claims it. -/
def firstClaim (search : List Char → Except AbiError AbiType) (d : List Char) :
    List Matcher → Except AbiError AbiType
  | [] => .error (.unknownType (String.ofList d))
  | m :: ms => do
    match ← m.apply search d with
    | some t => pure t
    | none => firstClaim search d ms

def searchWith (r : Registry) : Nat → List Char → Except AbiError AbiType
  | 0, d => .error (.malformedDescriptor (String.ofList d))
  | fuel + 1, d =>
    if d.isEmpty then .error (.malformedDescriptor "")
    else if d.count '[' > maxArrayDepth then .error (.malformedDescriptor (String.ofList d))
    else firstClaim (searchWith r fuel) d r.matchers

/-- The type a descriptor stands for. Every suffix shortens the descriptor, so its length bounds
the depth of the recursion. -/
def search (r : Registry) (d : String) : Except AbiError AbiType :=
  r.searchWith (d.length + 1) d.toList

end Registry

end ContractAbi
