import SignedRelay.Bytes
import SignedRelay.Error

/-!
# Length-prefixed layouts

Fields stand one behind the other. A field of variable length has its length in front, in four bytes
with the least significant one first. Reading moves a cursor, which knows how many bytes it has
passed.
-/
namespace SignedRelay.Wire

structure Cursor where
  passed : Nat
  rest : Bytes

namespace Cursor

def start (data : Bytes) : Cursor := ⟨0, data⟩

end Cursor

/-- Input that is no layout: it ends before a field does, has a text field that is no UTF-8, or goes
on behind the last field. -/
inductive Error
  | short (needed available : Nat)
  | notText
  | trailing (count : Nat)
  deriving DecidableEq, Repr

/-- Reading a field gives its value and moves the cursor behind it. -/
abbrev Reader := StateT Cursor (Except Error)

/-- The next `size` bytes. -/
def take (size : Nat) : Reader Bytes := fun cursor =>
  if size ≤ cursor.rest.length then
    .ok (cursor.rest.take size, ⟨cursor.passed + size, cursor.rest.drop size⟩)
  else .error (.short (cursor.passed + size) (cursor.passed + cursor.rest.length))

/-- A number in `size` bytes, least significant first. -/
def number (size : Nat) : Reader Nat := return Bytes.toNatLE (← take size)

/-- A byte string behind its length. -/
def vector : Reader Bytes := do take (← number 4)

/-- The text that a field encodes. -/
def decoded (field : Bytes) : Reader String :=
  match Bytes.ofUtf8? field with
  | some text => return text
  | none => throw .notText

/-- A text behind the length of its encoding. -/
def text : Reader String := do decoded (← vector)

/-- What a reader reads from a whole byte string. -/
def read {α : Type} (reader : Reader α) (data : Bytes) : Except Error α :=
  match reader (.start data) with
  | .error error => .error error
  | .ok (value, cursor) =>
    if cursor.rest.isEmpty then .ok value else .error (.trailing cursor.rest.length)

/-- A byte string with its length in front. -/
def ofVector (data : Bytes) : Except Fault Bytes :=
  if data.length < Bytes.capacity 4 then .ok (Bytes.ofNatLE 4 data.length ++ data)
  else .error (.vectorLength data.length)

/-- The encoding of a text with its length in front. -/
def ofText (text : String) : Except Fault Bytes := ofVector (Bytes.utf8 text)

end SignedRelay.Wire
