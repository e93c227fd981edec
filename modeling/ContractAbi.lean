import ContractAbi.Machine
import ContractAbi.Abi.Codec
import ContractAbi.Abi.Error
import ContractAbi.Abi.I256
import ContractAbi.Abi.Method
import ContractAbi.Abi.Params
import ContractAbi.Abi.Registry
import ContractAbi.Abi.Type
import ContractAbi.Abi.Value
import ContractAbi.Bytes
import ContractAbi.Contract.Basic
import ContractAbi.Contract.Call
import ContractAbi.Contract.Deploy
import ContractAbi.Contract.Erc20
import ContractAbi.Contract.Error
import ContractAbi.FixedPoint
import ContractAbi.Float.Binary64
import ContractAbi.Float.Shortest
import ContractAbi.Float.Text
import ContractAbi.Hex
import ContractAbi.Keccak
import ContractAbi.Primitive
import ContractAbi.Rlp
import ContractAbi.Text.GraphemeExtend
import ContractAbi.Text.Printable
import ContractAbi.Text.Quoted
import ContractAbi.Text.Utf8
import ContractAbi.Word
import ContractAbi.Proofs.Results
import ContractAbi.Proofs.Words
import ContractAbi.Proofs.WellFormed
import ContractAbi.Proofs.Utf8
import ContractAbi.Proofs.Typing
import ContractAbi.Proofs.ValueCodec
import ContractAbi.Proofs.Layout
import ContractAbi.Proofs.RoundTrip
import ContractAbi.Proofs.Standard
import ContractAbi.Proofs.Canonical
import ContractAbi.Proofs.Checked
import ContractAbi.Proofs.DecodeSafety
import ContractAbi.Proofs.Framing
import ContractAbi.Proofs.Grammar
import ContractAbi.Proofs.CanonicalName
import ContractAbi.Proofs.MethodTable
import ContractAbi.Proofs.Dispatch
import ContractAbi.Proofs.Erc20Calls
import ContractAbi.Proofs.Signature
import ContractAbi.Proofs.SignMagnitude
import ContractAbi.Proofs.FixedPointRounding
import ContractAbi.Proofs.PrefixDecode
import ContractAbi.Proofs.EventLogs
import ContractAbi.Proofs.TokenReads
import ContractAbi.Proofs.HexForms
import ContractAbi.Proofs.Widths
import ContractAbi.Proofs.WidthOverflow
