import ContractAbi.Primitive
/-!
Calls and call requests. A call request holds the optional fields of a transaction call; its JSON
text lists the fields that are set in the order from, to, gas, gasPrice, value, data, quantities
as hex without leading zeros. A contract call is a request with only a target and calldata.
-/

namespace ContractAbi

structure ContractCall where
  target : Address
  data : Bytes

structure CallRequest where
  sender : Option Address := none
  target : Option Address := none
  gas : Option Nat := none
  gasPrice : Option Nat := none
  value : Option Nat := none
  data : Option Bytes := none

namespace CallRequest

/-- The set fields as key and text, in the order from, to, gas, gasPrice, value, data. -/
def entries (r : CallRequest) : List (String × String) :=
  (r.sender.map fun a => ("from", a.toHex)).toList ++
  (r.target.map fun a => ("to", a.toHex)).toList ++
  (r.gas.map fun g => ("gas", hexQuantity g)).toList ++
  (r.gasPrice.map fun g => ("gasPrice", hexQuantity g)).toList ++
  (r.value.map fun v => ("value", hexQuantity v)).toList ++
  (r.data.map fun d => ("data", Bytes.toHex0x d)).toList

def objectText (fields : List (String × String)) : String :=
  "\x7b" ++ ",".intercalate (fields.map fun (k, v) => "\"" ++ k ++ "\":\"" ++ v ++ "\"") ++ "\x7d"

def toJsonText (r : CallRequest) : String := objectText r.entries

/-- Whether one text comes before another or equals it, character by character by code point. -/
def textLe : List Char → List Char → Bool
  | [], _ => true
  | _ :: _, [] => false
  | a :: as, b :: bs => a.toNat < b.toNat || (a.toNat == b.toNat && textLe as bs)

def keyLe (a b : String × String) : Bool := textLe a.1.toList b.1.toList

def toSortedJsonText (r : CallRequest) : String :=
  objectText (r.entries.mergeSort keyLe)

end CallRequest

namespace ContractCall

def methodId? (c : ContractCall) : Option MethodId :=
  match MethodId.ofInput c.data with
  | .ok m => some m
  | .error _ => none

def toRequest (c : ContractCall) : CallRequest := { target := some c.target, data := some c.data }

end ContractCall

end ContractAbi
