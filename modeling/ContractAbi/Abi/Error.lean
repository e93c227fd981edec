import ContractAbi.Machine
import ContractAbi.Primitive
import ContractAbi.Text.Utf8
/-!
Errors of the argument codec and the type registry, with their texts.
-/

namespace ContractAbi

inductive WidthKind where
  | uint
  | int
  | bytes
  | fixed
  | ufixed
deriving DecidableEq, Repr

def WidthKind.name : WidthKind → String
  | .uint => "uint"
  | .int => "int"
  | .bytes => "bytes"
  | .fixed => "fixed"
  | .ufixed => "ufixed"

inductive AbiError where
  | malformedDescriptor (descriptor : String)
  | unknownType (descriptor : String)
  | invalidElementType (name : String)
  | invalidBitWidth (kind : WidthKind) (bits : Nat)
  | valueOutOfRange (typeName value : String)
  | typeMismatch (expected found : String)
  | lengthMismatch (expected actual : Nat)
  | truncatedBuffer (needed available : Nat)
  | lengthOverflow (value : Nat)
  | invalidOffset (offset lower upper : Nat)
  | encodingIncomplete (boundary headSize : Nat)
  | invalidUtf8 (e : Utf8.Error)
  | selectorMismatch (expected found : MethodId)
  | overflow (op : Overflow)
deriving DecidableEq

def AbiError.message : AbiError → String
  | .malformedDescriptor d => "malformed type descriptor: " ++ d
  | .unknownType d => "unknown type: " ++ d
  | .invalidElementType n => "invalid array element type: " ++ n ++ " is dynamic"
  | .invalidBitWidth k b => "invalid bit width for " ++ k.name ++ ": " ++ toString b
  | .valueOutOfRange t v => "value out of range for " ++ t ++ ": " ++ v
  | .typeMismatch e f => "type mismatch: expected " ++ e ++ ", found " ++ f
  | .lengthMismatch e a => "length mismatch: expected " ++ toString e ++ ", got " ++ toString a
  | .truncatedBuffer n a =>
    "truncated buffer: need " ++ toString n ++ " bytes, have " ++ toString a
  | .lengthOverflow v => "length overflow: " ++ toString v
  | .invalidOffset o l u =>
    "invalid offset " ++ toString o ++ ": must be in [" ++ toString l ++ ", " ++ toString u ++ ")"
  | .encodingIncomplete b h =>
    "encoding incomplete: first payload starts at " ++ toString b ++ ", head ends at " ++ toString h
  | .invalidUtf8 e => "invalid utf-8: " ++ e.message
  | .selectorMismatch e f => "selector mismatch: expected " ++ e.toHex ++ ", found " ++ f.toHex
  | .overflow op => op.message

end ContractAbi
