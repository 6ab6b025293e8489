import SignedRelay.ArgType

/-!
# The interpreter's stack

Argument values are read, checked and hashed by recursion, and each call that is open takes its part of a
stack that belongs to the interpreter. How much of it is left when a message comes in, and how much a value
of each type takes, the library can neither see nor set, so both are parameters. What is asked of them is
what every interpreter in use has at its default limit. Main statement: values within the usual bound on
nesting never exhaust the stack.
-/
namespace SignedRelay

/-- How deep types, argument lists and values may nest where nothing else is said. -/
def defaultNesting : Int := 32

/-- The room that a computation finds on the stack, and the part of it that values take. -/
class Stack where
  /-- How many lists can stand within one another in a payload that is read. -/
  reading : Nat
  /-- How many steps inward the nesting of a value can be checked. -/
  checking : Nat
  /-- How many calls can be open within the one that is asked for the word of a value. -/
  hashing : Nat
  /-- How many calls an array keeps open while an element is encoded. -/
  array : Nat
  /-- How many calls a struct keeps open while a field is encoded. -/
  struct : Nat
  /-- How many calls the word of a value takes beside those for its items. -/
  own : ArgType → Nat
  /-- The most of these that a type takes. -/
  most : Nat
  own_le : ∀ type, own type ≤ most
  le_reading : 400 ≤ reading
  le_checking : 400 ≤ checking
  default_le_hashing : defaultNesting * max array struct + most ≤ hashing

namespace Stack

section Room

variable [Stack]

/-- The most calls that one list of a value keeps open. -/
def level : Nat := max array struct

theorem array_le_level : array ≤ level := Nat.le_max_left _ _

theorem struct_le_level : struct ≤ level := Nat.le_max_right _ _

/-- Values within a bound on nesting do not exhaust the stack, whatever their types. -/
structure Holds (bound : Int) : Prop where
  bound_le : bound ≤ checking
  bound_mul_le : bound * level + most ≤ hashing

theorem holds_default : Holds defaultNesting where
  bound_le := Int.le_trans (by decide : defaultNesting ≤ 400) (Int.ofNat_le.2 le_checking)
  bound_mul_le := default_le_hashing

theorem Holds.level_mul_le {bound : Int} (h : Holds bound) {steps : Nat} (hsteps : steps ≤ bound) :
    level * steps + most ≤ hashing := by
  have hle : (steps : Int) * level ≤ bound * level :=
    Int.mul_le_mul_of_nonneg_right hsteps (Int.natCast_nonneg level)
  have hlevel : ((level * steps + most : Nat) : Int) ≤ hashing := by
    rw [Int.natCast_add, Int.natCast_mul, Int.mul_comm]
    exact Int.le_trans (Int.add_le_add_right hle most) h.bound_mul_le
  exact Int.ofNat_le.1 hlevel

end Room

/-- The room that programs find where nothing else is said. -/
instance standard : Stack where
  reading := 900
  checking := 450
  hashing := 900
  array := 2
  struct := 1
  own
    | .fixedBytes _ | .uint | .int | .bool | .address => 2
    | .string | .bytes | .array .. | .struct .. => 8
  most := 8
  own_le := by
    intro type
    cases type <;> simp
  le_reading := by decide
  le_checking := by decide
  default_le_hashing := by decide

end Stack

end SignedRelay
