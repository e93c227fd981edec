import ContractAbi.Abi.Type
import ContractAbi.FixedPoint
import ContractAbi.Text.Quoted
/-!
Argument values, one variant per family of types, with the name of each variant and the text of
a value: numbers in decimal, byte strings in hex, fixed-point numbers as float text, strings
quoted, arrays in brackets.
-/

namespace ContractAbi

inductive Value where
  | uint (n : Nat)
  | int (i : Int)
  | bool (b : Bool)
  | address (a : Address)
  | function (f : FunctionRef)
  | fixedBytes (bs : Bytes)
  | fixed (x : FixedPoint)
  | bytes (bs : Bytes)
  | string (s : String)
  | array (items : List Value)
deriving BEq

namespace Value

def kind : Value → String
  | .uint _ => "uint"
  | .int _ => "int"
  | .bool _ => "bool"
  | .address _ => "address"
  | .function _ => "function"
  | .fixedBytes _ => "fixed bytes"
  | .fixed _ => "fixed"
  | .bytes _ => "bytes"
  | .string _ => "string"
  | .array _ => "array"

def display : Value → String
  | .uint n => toString n
  | .int i => toString i
  | .bool b => if b then "true" else "false"
  | .address a => a.toHex
  | .function f => f.toHex
  | .fixedBytes bs => Bytes.toHex0x bs
  | .fixed x => x.display
  | .bytes bs => Bytes.toHex0x bs
  | .string s => Text.quoteString s
  | .array items => "[" ++ ", ".intercalate (items.attach.map fun ⟨v, _⟩ => display v) ++ "]"

end Value

end ContractAbi
