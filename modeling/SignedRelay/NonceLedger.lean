import SignedRelay.Bytes
import SignedRelay.Error

/-!
# Nonce ledgers

A ledger holds the next nonce of each sender, which is zero for a sender not seen before. A nonce is
accepted if it is the next one, and the next one then grows by one. Main statements: acceptance
changes the accepted sender's entry by one and no other.
-/
namespace SignedRelay

/-- The next nonces of the senders seen, the last change first. -/
structure NonceLedger where
  entries : List (Bytes × Nat) := []
  deriving DecidableEq, Repr

namespace NonceLedger

def empty : NonceLedger := {}

/-- The next nonce of a sender. -/
def get (ledger : NonceLedger) (sender : Bytes) : Nat := (ledger.entries.lookup sender).getD 0

def set (ledger : NonceLedger) (sender : Bytes) (next : Nat) : NonceLedger where
  entries := (sender, next) :: ledger.entries.filter (·.1 != sender)

/-- The ledger after the acceptance of a nonce. -/
def accept (ledger : NonceLedger) (sender : Bytes) (nonce : Int) :
    Except NonceMismatch NonceLedger :=
  let expected := ledger.get sender
  if nonce = expected then .ok (ledger.set sender (expected + 1))
  else .error { expected, provided := nonce }

@[simp] theorem get_empty (sender : Bytes) : empty.get sender = 0 := rfl

theorem lookup_filter_ne {α β : Type} [BEq α] [LawfulBEq α] (entries : List (α × β)) {a b : α}
    (h : a ≠ b) : (entries.filter (·.1 != b)).lookup a = entries.lookup a := by
  induction entries with
  | nil => rfl
  | cons entry rest ih =>
    by_cases hb : entry.1 = b
    · have ha : (a == entry.1) = false := by simpa [hb] using h
      rw [List.filter_cons_of_neg (by simp [hb]), List.lookup_cons, ha, ih]
    · rw [List.filter_cons_of_pos (by simp [hb]), List.lookup_cons, List.lookup_cons, ih]

@[simp] theorem get_set_self (ledger : NonceLedger) (sender : Bytes) (next : Nat) :
    (ledger.set sender next).get sender = next := by
  simp [get, set]

theorem get_set_of_ne (ledger : NonceLedger) {sender other : Bytes} (h : other ≠ sender)
    (next : Nat) : (ledger.set sender next).get other = ledger.get other := by
  have hne : (other == sender) = false := by simpa using h
  simp [get, set, List.lookup_cons, hne, lookup_filter_ne _ h]

end NonceLedger

end SignedRelay
