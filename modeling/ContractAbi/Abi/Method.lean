import ContractAbi.Abi.Params
import ContractAbi.Keccak
/-!
Method selectors and methods. A signature is a name, an opening parenthesis, canonical argument
types separated by commas, and a closing parenthesis; its selector is the first four bytes of its
Keccak-256 hash. Calldata is the selector followed by the encoded arguments.
-/

namespace ContractAbi

/-- The first four bytes of the Keccak-256 hash of a text. -/
def functionSelector (text : String) : MethodId :=
  ⟨(Keccak.hash (Utf8.encode text)).take 4, by simp [Keccak.length_hash]⟩

/-- A method name: an ASCII letter, `_` or `$`, then ASCII letters, digits, `_` or `$`. -/
def isIdentifier (name : String) : Bool :=
  match name.toList with
  | [] => false
  | c :: cs =>
    (c.isAlpha || c == '_' || c == '$') && cs.all fun c => c.isAlphanum || c == '_' || c == '$'

def splitSignature (sig : String) : Except AbiError (String × String) :=
  let cs := sig.toList
  match cs.idxOf? '(' with
  | none => .error (.malformedDescriptor sig)
  | some i =>
    let name := String.ofList (cs.take i)
    let rest := cs.drop (i + 1)
    if rest.getLast? != some ')' then .error (.malformedDescriptor sig)
    else
      let args := rest.dropLast
      if !isIdentifier name || args.contains '(' || args.contains ')' then .error (.malformedDescriptor sig)
      else .ok (name, String.ofList args)

structure MethodSelector where
  signature : String
  id : MethodId

namespace MethodSelector

def ofTypes (name : String) (types : List AbiType) : Except AbiError MethodSelector :=
  if !isIdentifier name then .error (.malformedDescriptor name)
  else
    let sig := name ++ "(" ++ ",".intercalate (types.map AbiType.canonicalName) ++ ")"
    .ok ⟨sig, functionSelector sig⟩

def ofSignature (sig : String) : Except AbiError MethodSelector := do
  let (name, args) ← splitSignature sig
  let params ← ParameterList.ofSignature Registry.standard args
  ofTypes name params.types

/-- The name: the signature up to its opening parenthesis. -/
def name (s : MethodSelector) : String :=
  String.ofList (s.signature.toList.takeWhile (· != '('))

def display (s : MethodSelector) : String := s.id.toHex ++ " " ++ s.signature

end MethodSelector

structure Method where
  selector : MethodSelector
  inputs : ParameterList
  outputs : ParameterList

namespace Method

def make (name : String) (inputs outputs : ParameterList) : Except AbiError Method := do
  let sel ← MethodSelector.ofTypes name inputs.types
  pure ⟨sel, inputs, outputs⟩

def parse (r : Registry) (sig outputs : String) : Except AbiError Method := do
  let (name, args) ← splitSignature sig
  let ins ← ParameterList.ofSignature r args
  let outs ← ParameterList.ofSignature r outputs
  make name ins outs

def name (m : Method) : String := m.selector.name

def signature (m : Method) : String := m.selector.signature

def id (m : Method) : MethodId := m.selector.id

def encodeCall (m : Method) (args : List Value) : Except AbiError Bytes := do
  let enc ← m.inputs.encode args
  pure (m.id.bytes ++ enc)

def decodeCall (m : Method) (data : Bytes) : Except AbiError (List Value) :=
  match MethodId.ofInput data with
  | .error _ => .error (.truncatedBuffer 4 data.length)
  | .ok found =>
    if found ≠ m.id then .error (.selectorMismatch m.id found)
    else m.inputs.decode (data.drop 4)

def decodeOutput (m : Method) (data : Bytes) : Except AbiError (List Value) :=
  m.outputs.decode data

end Method

end ContractAbi
