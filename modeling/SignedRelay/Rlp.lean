import SignedRelay.Bytes
import SignedRelay.Error
import SignedRelay.Stack

/-!
# Argument values

Arguments arrive as trees of byte strings and lists, in recursive length prefix form. Only the canonical
form is read: the shortest header for every item, no byte left over, and a list that ends where its last
item ends. Lists may not nest beyond a bound, nor beyond what the stack has room for.
-/
namespace SignedRelay

inductive Rlp
  | bytes (data : Bytes)
  | list (items : List Rlp)

namespace Rlp

mutual

/-- How many lists enclose the innermost list, that list included; none in a byte string. -/
def nesting : Rlp → Nat
  | bytes _ => 0
  | list items => nestingAll items + 1

/-- The deepest nesting of several values. -/
def nestingAll : List Rlp → Nat
  | [] => 0
  | value :: rest => max value.nesting (nestingAll rest)

end

mutual

/-- How many steps inward the innermost item is: none in a byte string or an empty list. -/
def height : Rlp → Nat
  | bytes _ => 0
  | list items => heightAll items

/-- The height of the list of some values. -/
def heightAll : List Rlp → Nat
  | [] => 0
  | value :: rest => max (value.height + 1) (heightAll rest)

end

/-- A list in a value is enclosed by a given number of other lists. -/
inductive ListAt : Rlp → Nat → Prop
  | outermost {items : List Rlp} : ListAt (list items) 0
  | inside {items : List Rlp} {value : Rlp} {depth : Nat} : value ∈ items → ListAt value depth →
    ListAt (list items) (depth + 1)

/-- What the empty list is encoded as. -/
def emptyList : Bytes := [0xc0]

/-- The outermost item of an encoding: a byte string, or the encodings of a list's items. -/
inductive Item
  | bytes (data : Bytes)
  | list (payload : Bytes)

/-- The first `length` bytes and the rest. -/
def split? (length : Nat) (data : Bytes) : Option (Bytes × Bytes) :=
  if length ≤ data.length then some (data.take length, data.drop length) else none

/-- A payload behind its length, which is written in `size` bytes and above fifty-five. -/
def longPayload? (size : Nat) (data : Bytes) : Option (Bytes × Bytes) :=
  match split? size data with
  | none => none
  | some (digits, rest) =>
    if digits.head? = some 0 ∨ Bytes.toNatBE digits ≤ 55 then none
    else split? (Bytes.toNatBE digits) rest

/-- A byte below `0x80` is its own encoding and has no other. -/
def isOwnEncoding : Bytes → Bool
  | [b] => b < 0x80
  | _ => false

/-- The first item of an encoding and what follows it. -/
def item? : Bytes → Option (Item × Bytes)
  | [] => none
  | b :: rest =>
    if b < 0x80 then some (.bytes [b], rest)
    else if b < 0xb8 then
      match split? (b.toNat - 0x80) rest with
      | some (data, rest) => if isOwnEncoding data then none else some (.bytes data, rest)
      | none => none
    else if b < 0xc0 then
      (longPayload? (b.toNat - 0xb7) rest).map fun (data, rest) => (.bytes data, rest)
    else if b < 0xf8 then
      (split? (b.toNat - 0xc0) rest).map fun (payload, rest) => (.list payload, rest)
    else (longPayload? (b.toNat - 0xf7) rest).map fun (payload, rest) => (.list payload, rest)

/-- The bytes of an item that are read again as items. -/
def Item.inner : Item → Bytes
  | bytes _ => []
  | list payload => payload

theorem length_le_of_split? {length : Nat} {data first rest : Bytes}
    (h : split? length data = some (first, rest)) : first.length + rest.length = data.length := by
  unfold split? at h
  split at h
  · cases h; simp; omega
  · simp at h

theorem length_le_of_longPayload? {size : Nat} {data first rest : Bytes}
    (h : longPayload? size data = some (first, rest)) :
    first.length + rest.length ≤ data.length := by
  unfold longPayload? at h
  split at h
  · simp at h
  · next digits tail hsplit =>
    split at h
    · simp at h
    · have h1 := length_le_of_split? hsplit
      have h2 := length_le_of_split? h
      omega

theorem length_lt_of_item? {data rest : Bytes} {item : Item} (h : item? data = some (item, rest)) :
    item.inner.length + rest.length < data.length := by
  unfold item? at h
  split at h
  · simp at h
  · next b tail =>
    rw [List.length_cons]
    split at h
    · cases h; simp [Item.inner]
    split at h
    · split at h
      · next found after hsplit =>
        split at h
        · simp at h
        · cases h
          have := length_le_of_split? hsplit
          simp [Item.inner]; omega
      · simp at h
    split at h
    · obtain ⟨⟨found, after⟩, hsplit, heq⟩ := Option.map_eq_some_iff.1 h
      cases heq
      have := length_le_of_longPayload? hsplit
      simp [Item.inner]; omega
    split at h
    · obtain ⟨⟨found, after⟩, hsplit, heq⟩ := Option.map_eq_some_iff.1 h
      cases heq
      have := length_le_of_split? hsplit
      simp [Item.inner]; omega
    · obtain ⟨⟨found, after⟩, hsplit, heq⟩ := Option.map_eq_some_iff.1 h
      cases heq
      have := length_le_of_longPayload? hsplit
      simp [Item.inner]; omega

/-- The values that a byte string encodes one behind the other. -/
def values? (data : Bytes) : Option (List Rlp) :=
  if data.isEmpty then some []
  else
    match _h : item? data with
    | none => none
    | some (.bytes content, rest) =>
      match values? rest with
      | none => none
      | some others => some (bytes content :: others)
    | some (.list payload, rest) =>
      match values? payload with
      | none => none
      | some items =>
        match values? rest with
        | none => none
        | some others => some (list items :: others)
termination_by data.length
decreasing_by
  all_goals
    have hlt := length_lt_of_item? _h
    simp only [Item.inner] at hlt
    omega

section Reading

variable [Stack]

/-- The one value that a byte string encodes, unless its lists nest too deep to be read. -/
def value? (data : Bytes) : Option Rlp :=
  match values? data with
  | some [value] => if value.nesting ≤ Stack.reading then some value else none
  | _ => none

mutual

/-- A value that `depth` lists enclose, if no list in it is enclosed by `bound` lists or more. The stack
has room for `room` steps further in. -/
def bounded (bound : Int) (depth : Nat) (room : Int) (value : Rlp) : Except Error Rlp :=
  if room < 0 then .error (.fault .stackExhausted)
  else
    match value with
    | bytes data => .ok (bytes data)
    | list items =>
      if bound ≤ depth then .error (.encoding (.rlpNesting bound))
      else (boundedAll bound (depth + 1) (room - 1) items).map list

/-- The items of a list, each within the bound. -/
def boundedAll (bound : Int) (depth : Nat) (room : Int) : List Rlp → Except Error (List Rlp)
  | [] => .ok []
  | value :: rest => do
    let first ← bounded bound depth room value
    let others ← boundedAll bound depth room rest
    return first :: others

end

/-- The value that a byte string encodes, if no list in it is enclosed by `bound` lists or more. -/
def decode (bound : Int) (data : Bytes) : Except Error Rlp :=
  match value? data with
  | none => .error (.encoding .rlpMalformed)
  | some value => bounded bound 0 Stack.checking value

/-- The items of the list that a byte string encodes. -/
def decodeList (bound : Int) (data : Bytes) : Except Error (List Rlp) :=
  match decode bound data with
  | .error error => .error error
  | .ok (bytes _) => .error (.argument .argumentsNotList)
  | .ok (list items) => .ok items

end Reading

end Rlp

end SignedRelay
