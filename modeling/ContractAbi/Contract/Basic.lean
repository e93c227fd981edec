import ContractAbi.Abi.Method
import ContractAbi.Contract.Error
import ContractAbi.Contract.Call
/-!
Contracts: an address and a table of methods keyed by selector, kept in increasing order of
selector bytes. Adding a method replaces the one with the same selector. Calldata is dispatched
by its first four bytes. A builder collects methods, parsed through a registry of its choice,
and adds them in order.
-/

namespace ContractAbi

/-- Inserts a method into a table sorted by selector, replacing the one with its selector. -/
def insertMethod (m : Method) : List Method → List Method
  | [] => [m]
  | n :: ns =>
    match Bytes.compareLex m.id.bytes n.id.bytes with
    | .lt => m :: n :: ns
    | .eq => m :: ns
    | .gt => n :: insertMethod m ns

structure Contract where
  address : Address
  methods : List Method

namespace Contract

def empty (a : Address) : Contract := ⟨a, []⟩

/-- The contract with one more method; a method with the same selector is replaced. -/
def withFunction (c : Contract) (m : Method) : Contract := ⟨c.address, insertMethod m c.methods⟩

/-- The first method in selector order with the given name. -/
def function? (c : Contract) (name : String) : Option Method :=
  c.methods.find? (·.name == name)

def method? (c : Contract) (id : MethodId) : Option Method :=
  c.methods.find? (·.id == id)

def require (c : Contract) (name : String) : Except ContractError Method :=
  match c.function? name with
  | some m => .ok m
  | none => .error (.unknownFunction name)

def encodeCall (c : Contract) (name : String) (args : List Value) : Except ContractError Bytes := do
  let m ← c.require name
  liftAbi (m.encodeCall args)

def call (c : Contract) (name : String) (args : List Value) : Except ContractError ContractCall := do
  let data ← c.encodeCall name args
  pure ⟨c.address, data⟩

def decodeOutput (c : Contract) (name : String) (data : Bytes) : Except ContractError (List Value) := do
  let m ← c.require name
  liftAbi (m.decodeOutput data)

def dispatch (c : Contract) (data : Bytes) : Except ContractError (Method × List Value) := do
  let id ← liftPrimitive (MethodId.ofInput data)
  match c.method? id with
  | none => throw (.unknownSelector id)
  | some m => do
    let args ← liftAbi (m.decodeCall data)
    pure (m, args)

end Contract

/-- A contract under construction: its address, the registry for its signatures, and its
methods in the order they were given. -/
structure ContractBuilder where
  address : Address
  registry : Registry := Registry.standard
  methods : List Method := []

namespace ContractBuilder

def new (a : Address) : ContractBuilder := { address := a }

def withRegistry (b : ContractBuilder) (r : Registry) : ContractBuilder := { b with registry := r }

def function (b : ContractBuilder) (sig outputs : String) : Except ContractError ContractBuilder := do
  let m ← liftAbi (Method.parse b.registry sig outputs)
  pure { b with methods := b.methods ++ [m] }

def method (b : ContractBuilder) (m : Method) : ContractBuilder := { b with methods := b.methods ++ [m] }

def build (b : ContractBuilder) : Contract :=
  b.methods.foldl Contract.withFunction (Contract.empty b.address)

end ContractBuilder

end ContractAbi
