import SignedRelay.Outcome
import SignedRelay.Wire

/-!
# Readers that accept exactly what is written

A reader is exact for a way of writing values if it gives a value precisely where the value's bytes
stand in front, and leaves what is behind them. Exactness is kept by reading one field after the
other. Main statements: every field reader is exact, and an exact reader accepts a whole byte string
precisely if it is what the value is written as.
-/
namespace SignedRelay.Wire

variable {α β : Type}

/-- A reader gives a value exactly where bytes that `writes` allows for it stand in front. -/
def Exact (reader : Reader α) (writes : α → Bytes → Prop) : Prop :=
  ∀ cursor value after, reader cursor = .ok (value, after) ↔
    ∃ data, writes value data ∧ cursor.rest = data ++ after.rest ∧
      after.passed = cursor.passed + data.length

namespace Exact

theorem congr {reader : Reader α} {writes writes' : α → Bytes → Prop} (h : Exact reader writes)
    (hiff : ∀ value data, writes value data ↔ writes' value data) : Exact reader writes' := by
  intro cursor value after
  rw [h]
  simp only [hiff]

theorem pure (value : α) : Exact (pure value) fun found data => found = value ∧ data = [] := by
  intro cursor found after
  constructor
  · intro h
    cases h
    exact ⟨[], ⟨rfl, rfl⟩, rfl, rfl⟩
  · rintro ⟨data, ⟨rfl, rfl⟩, hrest, hpassed⟩
    cases cursor
    cases after
    cases hrest
    cases hpassed
    rfl

theorem bind {first : Reader α} {next : α → Reader β} {writes : α → Bytes → Prop}
    {writesNext : α → β → Bytes → Prop} (hfirst : Exact first writes)
    (hnext : ∀ a, Exact (next a) (writesNext a)) :
    Exact (first >>= next) fun b data =>
      ∃ a front back, writes a front ∧ writesNext a b back ∧ data = front ++ back := by
  intro cursor b after
  show (first cursor >>= fun found => next found.1 found.2) = _ ↔ _
  rw [Outcome.bind_eq_ok]
  constructor
  · rintro ⟨⟨a, middle⟩, ha, hb⟩
    obtain ⟨front, hfront, hrest, hpassed⟩ := (hfirst _ _ _).1 ha
    obtain ⟨back, hback, hrest', hpassed'⟩ := (hnext a _ _ _).1 hb
    refine ⟨front ++ back, ⟨a, front, back, hfront, hback, rfl⟩, ?_, ?_⟩
    · rw [hrest, hrest', List.append_assoc]
    · rw [hpassed', hpassed, List.length_append, Nat.add_assoc]
  · rintro ⟨_, ⟨a, front, back, hfront, hback, rfl⟩, hrest, hpassed⟩
    refine ⟨(a, ⟨cursor.passed + front.length, back ++ after.rest⟩), ?_, ?_⟩
    · refine (hfirst _ _ _).2 ⟨front, hfront, ?_, rfl⟩
      rw [hrest, List.append_assoc]
    · refine (hnext a _ _ _).2 ⟨back, hback, rfl, ?_⟩
      rw [hpassed, List.length_append, Nat.add_assoc]

/-- An exact reader accepts a whole byte string exactly if it is written for the value. -/
theorem read_eq_ok {reader : Reader α} {writes : α → Bytes → Prop} (h : Exact reader writes)
    {data : Bytes} {value : α} : read reader data = .ok value ↔ writes value data := by
  unfold read
  constructor
  · intro hread
    split at hread
    · cases hread
    · next found after hreader =>
      obtain ⟨front, hfront, hrest, _⟩ := (h _ _ _).1 hreader
      split at hread
      · next hempty =>
        cases hread
        have hdata : data = front ++ after.rest := hrest
        rw [hdata, List.isEmpty_iff.1 hempty, List.append_nil]
        exact hfront
      · cases hread
  · intro hwrites
    have hreader : reader (.start data) = .ok (value, ⟨0 + data.length, []⟩) :=
      (h _ _ _).2 ⟨data, hwrites, (List.append_nil data).symm, rfl⟩
    rw [hreader]
    rfl

end Exact

/-- A field of fixed length is written as it is. -/
theorem exact_take (size : Nat) :
    Exact (take size) fun field data => data = field ∧ field.length = size := by
  intro cursor field after
  unfold take
  by_cases hsize : size ≤ cursor.rest.length
  · rw [if_pos hsize]
    constructor
    · intro h
      cases h
      refine ⟨cursor.rest.take size, ⟨rfl, List.length_take_of_le hsize⟩, ?_, ?_⟩
      · exact (List.take_append_drop size cursor.rest).symm
      · rw [List.length_take_of_le hsize]
    · rintro ⟨data, ⟨rfl, rfl⟩, hrest, hpassed⟩
      rw [hrest, List.take_left, List.drop_left, ← hpassed]
  · rw [if_neg hsize]
    constructor
    · intro h
      cases h
    · rintro ⟨data, ⟨rfl, rfl⟩, hrest, _⟩
      rw [hrest, List.length_append] at hsize
      omega

theorem exact_number (size : Nat) :
    Exact (number size) fun n data => n < Bytes.capacity size ∧ data = Bytes.ofNatLE size n := by
  refine ((exact_take size).bind fun found => Exact.pure (Bytes.toNatLE found)).congr ?_
  intro n data
  constructor
  · rintro ⟨found, front, back, ⟨rfl, rfl⟩, ⟨rfl, rfl⟩, rfl⟩
    refine ⟨Bytes.toNatLE_lt front, ?_⟩
    rw [Bytes.ofNatLE_toNatLE, List.append_nil]
  · rintro ⟨hlt, rfl⟩
    refine ⟨Bytes.ofNatLE size n, _, [], ⟨rfl, Bytes.length_ofNatLE size n⟩,
      ⟨(Bytes.toNatLE_ofNatLE hlt).symm, rfl⟩, (List.append_nil _).symm⟩

theorem ofVector_eq_ok {field data : Bytes} : ofVector field = .ok data ↔
    field.length < Bytes.capacity 4 ∧ Bytes.ofNatLE 4 field.length ++ field = data := by
  unfold ofVector
  by_cases h : field.length < Bytes.capacity 4
  · simp [h]
  · simp [h]

theorem exact_vector : Exact vector fun field data => ofVector field = .ok data := by
  refine ((exact_number 4).bind exact_take).congr ?_
  intro field data
  rw [ofVector_eq_ok]
  constructor
  · rintro ⟨size, front, back, ⟨hlt, rfl⟩, ⟨rfl, rfl⟩, rfl⟩
    exact ⟨hlt, rfl⟩
  · rintro ⟨hlt, rfl⟩
    exact ⟨field.length, _, field, ⟨hlt, rfl⟩, ⟨rfl, rfl⟩, rfl⟩

theorem exact_decoded (field : Bytes) :
    Exact (decoded field) fun text data => Bytes.utf8 text = field ∧ data = [] := by
  unfold decoded
  cases hutf8 : Bytes.ofUtf8? field with
  | none =>
    intro cursor text after
    constructor
    · intro h
      cases h
    · rintro ⟨_, ⟨htext, _⟩, _⟩
      rw [Bytes.ofUtf8?_eq_some_iff.2 htext] at hutf8
      cases hutf8
  | some found =>
    refine (Exact.pure found).congr ?_
    intro text data
    rw [← Bytes.ofUtf8?_eq_some_iff, hutf8, Option.some.injEq, eq_comm]

theorem exact_text : Exact text fun field data => ofText field = .ok data := by
  refine (exact_vector.bind exact_decoded).congr ?_
  intro field data
  constructor
  · rintro ⟨found, front, back, hfront, ⟨rfl, rfl⟩, rfl⟩
    rw [List.append_nil]
    exact hfront
  · intro h
    exact ⟨Bytes.utf8 field, data, [], h, ⟨rfl, rfl⟩, (List.append_nil data).symm⟩

/-- Of a value that is read from nothing but what it is written as, what is written is the one byte
string that it is read from. -/
theorem exists_encoding_iff_only {ε ε' : Type} {encoded : Except ε Bytes}
    {decode : Bytes → Except ε' α} {value : α}
    (hiff : ∀ data, decode data = .ok value ↔ encoded = .ok data) :
    (∃ data, encoded = .ok data) ↔ ∃ data, ∀ other, decode other = .ok value ↔ other = data := by
  constructor
  · rintro ⟨data, hdata⟩
    refine ⟨data, fun other => ?_⟩
    rw [hiff, hdata, Except.ok.injEq, eq_comm]
  · rintro ⟨data, honly⟩
    exact ⟨data, (hiff data).1 ((honly data).2 rfl)⟩

end SignedRelay.Wire
