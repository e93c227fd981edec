import ContractAbi.Abi.Error
/-!
Errors of contract-level operations: codec and primitive errors passed through, and the failures
that belong to contracts, with their texts.
-/

namespace ContractAbi

inductive ContractError where
  | abi (e : AbiError)
  | primitive (e : PrimitiveError)
  | unknownSelector (id : MethodId)
  | unknownFunction (name : String)
  | unexpectedValue (text : String)
  | invalidResult (text : String)
deriving DecidableEq

def ContractError.message : ContractError → String
  | .abi e => "ABI error: " ++ e.message
  | .primitive e => "primitive error: " ++ e.message
  | .unknownSelector id => "unknown selector: " ++ id.toHex
  | .unknownFunction n => "unknown function: " ++ n
  | .unexpectedValue t => "unexpected value: " ++ t
  | .invalidResult t => "invalid result: " ++ t

def liftAbi {α : Type} : Except AbiError α → Except ContractError α
  | .ok a => .ok a
  | .error e => .error (.abi e)

def liftPrimitive {α : Type} : Except PrimitiveError α → Except ContractError α
  | .ok a => .ok a
  | .error e => .error (.primitive e)

end ContractAbi
