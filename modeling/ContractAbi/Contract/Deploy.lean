import ContractAbi.Primitive
import ContractAbi.Keccak
import ContractAbi.Rlp
/-!
Addresses of deployed contracts. A contract created by an account gets the last 20 bytes of the
Keccak-256 hash of the list `[sender, nonce]` in recursive length prefix encoding; one created
with a salt gets the last 20 bytes of the hash of `0xff`, the sender, the salt and the hash of the
creation code.
-/

namespace ContractAbi

/-- The address of the contract that `sender` creates with the given nonce. -/
def createAddress (sender : Address) (nonce : Nat) : Address :=
  ByteVec.lastOf 20 (Keccak.hash (Rlp.encodeList [Rlp.encodeBytes sender.bytes, Rlp.encodeNat nonce]))

def create2Address (sender : Address) (salt : H256) (initCode : Bytes) : Address :=
  ByteVec.lastOf 20 (Keccak.hashConcat [[0xff], sender.bytes, salt.bytes, Keccak.hash initCode])

end ContractAbi
