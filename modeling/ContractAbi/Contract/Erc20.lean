import ContractAbi.Contract.Basic
/-!
ERC-20 tokens: the nine methods of the interface, typed calls that encode to and decode from
calldata, the Transfer and Approval logs, and token reads with the processing of their results.
Some early tokens answer `name` and `symbol` with a `bytes32` instead of a string; a reply of at
most two words is therefore read as text up to its first zero byte.
-/

namespace ContractAbi

inductive Erc20Method where
  | totalSupply
  | balanceOf
  | transfer
  | transferFrom
  | approve
  | allowance
  | name
  | symbol
  | decimals
deriving DecidableEq, Repr

namespace Erc20Method

def all : List Erc20Method :=
  [.totalSupply, .balanceOf, .transfer, .transferFrom, .approve, .allowance, .name, .symbol, .decimals]

def inputs : Erc20Method → List AbiType
  | .totalSupply | .name | .symbol | .decimals => []
  | .balanceOf => [.static .address]
  | .transfer | .approve => [.static .address, .static (.uint 256)]
  | .transferFrom => [.static .address, .static .address, .static (.uint 256)]
  | .allowance => [.static .address, .static .address]

def outputTypes : Erc20Method → List AbiType
  | .totalSupply | .balanceOf | .allowance => [.static (.uint 256)]
  | .transfer | .transferFrom | .approve => [.static .bool]
  | .name | .symbol => [.string]
  | .decimals => [.static (.uint 8)]

def methodName : Erc20Method → String
  | .totalSupply => "totalSupply"
  | .balanceOf => "balanceOf"
  | .transfer => "transfer"
  | .transferFrom => "transferFrom"
  | .approve => "approve"
  | .allowance => "allowance"
  | .name => "name"
  | .symbol => "symbol"
  | .decimals => "decimals"

def signature (m : Erc20Method) : String :=
  m.methodName ++ "(" ++ ",".intercalate (m.inputs.map AbiType.canonicalName) ++ ")"

def outputs (m : Erc20Method) : String := ",".intercalate (m.outputTypes.map AbiType.canonicalName)

def method (m : Erc20Method) : Method :=
  ⟨⟨m.signature, functionSelector m.signature⟩, ⟨m.inputs⟩, ⟨m.outputTypes⟩⟩

theorem parse_method (m : Erc20Method) :
    Method.parse Registry.standard m.signature m.outputs = .ok m.method := by
  cases m <;> rfl

def id (m : Erc20Method) : MethodId := m.method.id

def ofId? (id : MethodId) : Option Erc20Method := all.find? (·.id == id)

end Erc20Method

def Contract.erc20 (a : Address) : Contract :=
  Erc20Method.all.foldl (fun c m => c.withFunction m.method) (Contract.empty a)

inductive Erc20Call where
  | totalSupply
  | balanceOf (owner : Address)
  | transfer (recipient : Address) (value : Nat)
  | transferFrom (sender recipient : Address) (value : Nat)
  | approve (spender : Address) (value : Nat)
  | allowance (owner spender : Address)
  | name
  | symbol
  | decimals

namespace Erc20Call

def method : Erc20Call → Erc20Method
  | .totalSupply => .totalSupply
  | .balanceOf _ => .balanceOf
  | .transfer _ _ => .transfer
  | .transferFrom _ _ _ => .transferFrom
  | .approve _ _ => .approve
  | .allowance _ _ => .allowance
  | .name => .name
  | .symbol => .symbol
  | .decimals => .decimals

def args : Erc20Call → List Value
  | .balanceOf o => [.address o]
  | .transfer r v => [.address r, .uint v]
  | .transferFrom s r v => [.address s, .address r, .uint v]
  | .approve s v => [.address s, .uint v]
  | .allowance o s => [.address o, .address s]
  | _ => []

def encode (c : Erc20Call) : Except ContractError Bytes :=
  liftAbi (c.method.method.encodeCall c.args)

def addressAt (values : List Value) (i : Nat) : Except ContractError Address :=
  match values[i]? with
  | some (.address a) => .ok a
  | _ => .error (.unexpectedValue ("argument " ++ toString i ++ " is not an address"))

def uintAt (values : List Value) (i : Nat) : Except ContractError Nat :=
  match values[i]? with
  | some (.uint n) => .ok n
  | _ => .error (.unexpectedValue ("argument " ++ toString i ++ " is not a uint"))

def decode (data : Bytes) : Except ContractError Erc20Call := do
  let id ← liftPrimitive (MethodId.ofInput data)
  let some m := Erc20Method.ofId? id | throw (.unknownSelector id)
  let args ← liftAbi (m.method.decodeCall data)
  match m with
  | .totalSupply => pure .totalSupply
  | .name => pure .name
  | .symbol => pure .symbol
  | .decimals => pure .decimals
  | .balanceOf => return .balanceOf (← addressAt args 0)
  | .transfer => return .transfer (← addressAt args 0) (← uintAt args 1)
  | .transferFrom => return .transferFrom (← addressAt args 0) (← addressAt args 1) (← uintAt args 2)
  | .approve => return .approve (← addressAt args 0) (← uintAt args 1)
  | .allowance => return .allowance (← addressAt args 0) (← addressAt args 1)

end Erc20Call

inductive Erc20Event where
  | transfer (sender recipient : Address) (value : Nat)
  | approval (owner spender : Address) (value : Nat)

namespace Erc20Event

def transferSignature : String := "Transfer(address,address,uint256)"

def approvalSignature : String := "Approval(address,address,uint256)"

def topicOf (text : String) : H256 := ⟨Keccak.hash (Utf8.encode text), Keccak.length_hash _⟩

def transferId : H256 := topicOf transferSignature

def approvalId : H256 := topicOf approvalSignature

def eventId : Erc20Event → H256
  | .transfer _ _ _ => transferId
  | .approval _ _ _ => approvalId

def topics (e : Erc20Event) : List H256 :=
  match e with
  | .transfer a b _ | .approval a b _ => [e.eventId, a.toWord, b.toWord]

def value : Erc20Event → Nat
  | .transfer _ _ v | .approval _ _ v => v

def data (e : Erc20Event) : Except ContractError Bytes :=
  liftAbi (ParameterList.encode ⟨[.static (.uint 256)]⟩ [.uint e.value])

/-- The event of a log; none for anything but three topics with data, the first one of the
two ERC-20 events. -/
def decode (topics : List H256) (data : Bytes) : Except ContractError (Option Erc20Event) :=
  match topics with
  | [id, a, b] =>
    if data.isEmpty then .ok none
    else if id ≠ transferId ∧ id ≠ approvalId then .ok none
    else do
      let values ← liftAbi (ParameterList.decode ⟨[.static (.uint 256)]⟩ data)
      let v ← Erc20Call.uintAt values 0
      if id = transferId then pure (some (.transfer a.lowAddress b.lowAddress v))
      else pure (some (.approval a.lowAddress b.lowAddress v))
  | _ => .ok none

end Erc20Event

def firstOutput (m : Erc20Method) (data : Bytes) : Except ContractError Value := do
  let values ← liftAbi (m.method.decodeOutput data)
  match values with
  | v :: _ => pure v
  | [] => throw (.invalidResult (m.methodName ++ " returned nothing"))

def uintResult (m : Erc20Method) (data : Bytes) : Except ContractError Nat := do
  match ← firstOutput m data with
  | .uint n => pure n
  | other => throw (.invalidResult ("expected uint, got " ++ other.display))

/-- A textual reply: a string, or for replies of at most two words the bytes up to the first
zero byte, which must not be empty. -/
def stringResult (data : Bytes) : Except ContractError String := do
  if data.isEmpty then throw (.invalidResult "empty value")
  if data.length > 2 * wordSize then
    match ← firstOutput .name data with
    | .string s => pure s
    | other => throw (.invalidResult ("expected string, got " ++ other.display))
  else
    let text := data.takeWhile (· != 0)
    if text.isEmpty then throw (.invalidResult "zero length value")
    match Utf8.decode text with
    | .ok s => pure s
    | .error e => throw (.abi (.invalidUtf8 e))

inductive Erc20Read where
  | name
  | symbol
  | decimals
  | totalSupply
  | balanceOf (owner : Address)
  | allowance (owner spender : Address)

inductive ReadValue where
  | text (s : String)
  | small (n : Nat)
  | amount (n : Nat)

namespace Erc20Read

def call : Erc20Read → Erc20Call
  | .name => .name
  | .symbol => .symbol
  | .decimals => .decimals
  | .totalSupply => .totalSupply
  | .balanceOf o => .balanceOf o
  | .allowance o s => .allowance o s

def process : Erc20Read → Bytes → Except ContractError ReadValue
  | .name, d | .symbol, d => (stringResult d).map .text
  | .decimals, d => (uintResult .decimals d).map fun n => .small (n % 256)
  | .totalSupply, d => (uintResult .totalSupply d).map .amount
  | .balanceOf _, d => (uintResult .balanceOf d).map .amount
  | .allowance _ _, d => (uintResult .allowance d).map .amount

end Erc20Read

structure Erc20Token where
  contract : Address

namespace Erc20Token

def call (t : Erc20Token) (c : Erc20Call) : Except ContractError ContractCall := do
  let data ← c.encode
  pure ⟨t.contract, data⟩

end Erc20Token

end ContractAbi
