import SignedRelay.Bytes

/-!
# Hash primitives

Every computation of this library takes its hash primitive as a value. Laws that need digests of
one word, thirty-two bytes, ask for `Hasher.WordSized`.
-/
namespace SignedRelay

structure Hasher where
  hash : Bytes → Bytes

namespace Hasher

/-- Every digest is thirty-two bytes long. -/
def WordSized (hasher : Hasher) : Prop := ∀ data, (hasher.hash data).length = 32

/-- No two of the given byte strings share a digest. -/
def InjectiveOn (hasher : Hasher) (inputs : List Bytes) : Prop :=
  ∀ a ∈ inputs, ∀ b ∈ inputs, hasher.hash a = hasher.hash b → a = b

instance (hasher : Hasher) (inputs : List Bytes) : Decidable (hasher.InjectiveOn inputs) :=
  inferInstanceAs (Decidable (∀ a ∈ inputs, ∀ b ∈ inputs, hasher.hash a = hasher.hash b → a = b))

/-- Two primitives give the same digests for the given byte strings. -/
def AgreeOn (hasher other : Hasher) (inputs : List Bytes) : Prop :=
  ∀ data ∈ inputs, other.hash data = hasher.hash data

/-- A polynomial in the bytes, cut to one word. It has no cryptographic strength, and serves where a
hash has to be worked out in full. -/
def polynomial : Hasher where
  hash data := Bytes.ofNatBE 32 (data.foldl (fun n b => 257 * n + b.toNat + 1) 1)

theorem wordSized_polynomial : polynomial.WordSized := fun _ => Bytes.length_ofNatBE 32 _

/-- The primitive that hashes its input behind a fixed salt. -/
def salted (hasher : Hasher) (salt : Bytes) : Hasher where
  hash data := hasher.hash (salt ++ data)

theorem WordSized.salted {hasher : Hasher} (h : hasher.WordSized) (salt : Bytes) :
    (hasher.salted salt).WordSized :=
  fun data => h (salt ++ data)

@[simp] theorem salted_nil (hasher : Hasher) : hasher.salted [] = hasher := rfl

end Hasher

end SignedRelay
