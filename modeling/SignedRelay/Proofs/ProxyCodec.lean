import SignedRelay.Proofs.WireCodec
import SignedRelay.Proxy

/-!
# Reading what a proxy account is sent

An amount is written in sixteen bytes and gas in eight, and a call has its texts and its arguments
behind their lengths. Main statements: the account reads a transfer, and a call, from a byte string
exactly if it is what they are written as, and those that are written at all are those whose numbers and
texts have room in their fields.
-/
namespace SignedRelay.Proxy

open Wire (Exact exact_number exact_vector)

theorem ofNumber_eq_ok {size : Nat} {error : Int → ProxyError} {value : Int} {data : Bytes} :
    ofNumber size error value = .ok data ↔
      (0 ≤ value ∧ value < Bytes.capacity size) ∧ Bytes.ofNatLE size value.toNat = data := by
  unfold ofNumber
  by_cases h : value < 0 ∨ Bytes.capacity size ≤ value
  · rw [if_pos h]
    constructor
    · intro hok
      cases hok
    · rintro ⟨hrange, _⟩
      omega
  · rw [if_neg h, Except.ok.injEq]
    exact ⟨fun hdata => ⟨by omega, hdata⟩, fun hdata => hdata.2⟩

namespace Transfer

theorem encode_eq_ok {transfer : Transfer} {data : Bytes} : transfer.encode = .ok data ↔
    (0 ≤ transfer.amount ∧ transfer.amount < Bytes.capacity 16) ∧
      Bytes.ofNatLE 16 transfer.amount.toNat ++ Bytes.utf8 transfer.receiverId = data := by
  unfold encode ofAmount
  simp only [Outcome.bind_eq_ok, Outcome.pure_eq_ok, ofNumber_eq_ok]
  constructor
  · rintro ⟨amount, ⟨hrange, rfl⟩, hdata⟩
    exact ⟨hrange, hdata⟩
  · rintro ⟨hrange, hdata⟩
    exact ⟨_, ⟨hrange, rfl⟩, hdata⟩

/-- A transfer is read from a byte string exactly if it is written as it. -/
theorem decode_iff_encode {transfer : Transfer} {data : Bytes} :
    decode data = .ok transfer ↔ transfer.encode = .ok data := by
  rw [encode_eq_ok]
  unfold decode
  constructor
  · intro h
    split at h
    · cases h
    · next hlength =>
      split at h
      · cases h
      · next receiverId htext =>
        cases h
        have hamount : (data.take 16).length = 16 := List.length_take_of_le (Nat.not_lt.1 hlength)
        have hlt := Bytes.toNatLE_lt (data.take 16)
        rw [hamount] at hlt
        refine ⟨⟨Int.natCast_nonneg _, Int.ofNat_lt.2 hlt⟩, ?_⟩
        have hnumber := Bytes.ofNatLE_toNatLE (data.take 16)
        rw [hamount] at hnumber
        rw [Int.toNat_natCast, hnumber, Bytes.ofUtf8?_eq_some_iff.1 htext, List.take_append_drop]
  · rintro ⟨⟨hnonneg, hlt⟩, rfl⟩
    have hamount := Bytes.length_ofNatLE 16 transfer.amount.toNat
    have hlength : ¬(Bytes.ofNatLE 16 transfer.amount.toNat ++
        Bytes.utf8 transfer.receiverId).length < 16 := by
      rw [List.length_append]
      omega
    have htext : Bytes.ofUtf8? (Bytes.utf8 transfer.receiverId) = some transfer.receiverId :=
      Bytes.ofUtf8?_eq_some_iff.2 rfl
    have hvalue : transfer.amount.toNat < Bytes.capacity 16 := by omega
    rw [if_neg hlength, List.drop_left' hamount, List.take_left' hamount, htext,
      Bytes.toNatLE_ofNatLE hvalue]
    cases transfer
    simp only [Except.ok.injEq, Transfer.mk.injEq, and_true]
    exact Int.toNat_of_nonneg hnonneg

/-- The amount has room in its sixteen bytes. -/
def Fits (transfer : Transfer) : Prop := 0 ≤ transfer.amount ∧ transfer.amount < Bytes.capacity 16

theorem fits_iff_encode {transfer : Transfer} :
    transfer.Fits ↔ ∃ data, transfer.encode = .ok data := by
  simp only [encode_eq_ok]
  constructor
  · intro h
    exact ⟨_, h, rfl⟩
  · rintro ⟨_, h, _⟩
    exact h

end Transfer

namespace Call

theorem encode_eq_ok {call : Call} {data : Bytes} : call.encode = .ok data ↔
    ((0 ≤ call.gas ∧ call.gas < Bytes.capacity 8) ∧
      0 ≤ call.amount ∧ call.amount < Bytes.capacity 16) ∧
    ∃ receiverId methodName args, Wire.ofText call.receiverId = .ok receiverId ∧
      Wire.ofText call.methodName = .ok methodName ∧ Wire.ofVector call.args = .ok args ∧
      Bytes.ofNatLE 8 call.gas.toNat ++ Bytes.ofNatLE 16 call.amount.toNat ++ receiverId ++ methodName
        ++ args = data := by
  unfold encode ofGas ofAmount
  simp only [Outcome.bind_eq_ok, Outcome.pure_eq_ok, Outcome.mapError_eq_ok, ofNumber_eq_ok]
  constructor
  · rintro ⟨gas, ⟨hgas, rfl⟩, amount, ⟨hamount, rfl⟩, receiverId, hreceiver, methodName, hmethod,
      args, hargs, hdata⟩
    exact ⟨⟨hgas, hamount⟩, receiverId, methodName, args, hreceiver, hmethod, hargs, hdata⟩
  · rintro ⟨⟨hgas, hamount⟩, receiverId, methodName, args, hreceiver, hmethod, hargs, hdata⟩
    exact ⟨_, ⟨hgas, rfl⟩, _, ⟨hamount, rfl⟩, receiverId, hreceiver, methodName, hmethod, args, hargs,
      hdata⟩

/-- What the fields of a call are written as, whether or not its texts are texts. -/
def Fields.Writes (fields : Fields) (data : Bytes) : Prop :=
  (fields.gas < Bytes.capacity 8 ∧ fields.amount < Bytes.capacity 16) ∧
    ∃ receiverId methodName args, Wire.ofVector fields.receiverId = .ok receiverId ∧
      Wire.ofVector fields.methodName = .ok methodName ∧ Wire.ofVector fields.args = .ok args ∧
      Bytes.ofNatLE 8 fields.gas ++ Bytes.ofNatLE 16 fields.amount ++ receiverId ++ methodName ++ args
        = data

/-- Reading the fields in their order is exact for writing them in it. -/
theorem exact_reader : Exact reader Fields.Writes := by
  unfold reader
  refine Exact.congr ((exact_number 8).bind fun gas => (exact_number 16).bind fun amount =>
    exact_vector.bind fun receiverId => exact_vector.bind fun methodName =>
    exact_vector.bind fun args => Exact.pure _) ?_
  intro fields data
  unfold Fields.Writes
  constructor
  · rintro ⟨gas, _, _, ⟨hgas, rfl⟩, ⟨amount, _, _, ⟨hamount, rfl⟩, ⟨receiverId, _, _, hreceiver,
      ⟨methodName, _, _, hmethod, ⟨args, _, _, hargs, ⟨rfl, rfl⟩, rfl⟩, rfl⟩, rfl⟩, rfl⟩, rfl⟩
    refine ⟨⟨hgas, hamount⟩, _, _, _, hreceiver, hmethod, hargs, ?_⟩
    simp only [List.append_assoc, List.append_nil]
  · rintro ⟨⟨hgas, hamount⟩, receiverId, methodName, args, hreceiver, hmethod, hargs, rfl⟩
    refine ⟨_, _, _, ⟨hgas, rfl⟩, ⟨_, _, _, ⟨hamount, rfl⟩, ⟨_, _, _, hreceiver, ⟨_, _, _, hmethod,
      ⟨_, _, [], hargs, ⟨rfl, rfl⟩, rfl⟩, rfl⟩, rfl⟩, rfl⟩, ?_⟩
    simp only [List.append_assoc, List.append_nil]

theorem decode_eq_ok {call : Call} {data : Bytes} : decode data = .ok call ↔
    ∃ fields, Wire.read reader data = .ok fields ∧
      Bytes.utf8 call.receiverId = fields.receiverId ∧
      Bytes.utf8 call.methodName = fields.methodName ∧
      call.gas = fields.gas ∧ call.amount = fields.amount ∧ call.args = fields.args := by
  unfold decode
  rw [Outcome.bind_eq_ok]
  simp only [Outcome.mapError_eq_ok, ← Bytes.ofUtf8?_eq_some_iff]
  refine exists_congr fun fields => and_congr_right fun _ => ?_
  constructor
  · intro h
    split at h
    · next receiverId methodName hreceiver hmethod =>
      cases Outcome.pure_eq_ok.1 h
      exact ⟨hreceiver, hmethod, rfl, rfl, rfl⟩
    · exact absurd h Outcome.throw_ne_ok
  · rintro ⟨hreceiver, hmethod, hgas, hamount, hargs⟩
    rw [hreceiver, hmethod]
    refine Outcome.pure_eq_ok.2 ?_
    rw [← hgas, ← hamount, ← hargs]

/-- A call is read from a byte string exactly if it is written as it. -/
theorem decode_iff_encode {call : Call} {data : Bytes} :
    decode data = .ok call ↔ call.encode = .ok data := by
  rw [decode_eq_ok, encode_eq_ok]
  simp only [exact_reader.read_eq_ok]
  constructor
  · rintro ⟨fields, ⟨⟨hgas, hamount⟩, receiverId, methodName, args, hreceiver, hmethod, hargs, rfl⟩,
      hreceiverId, hmethodName, hgasEq, hamountEq, hargsEq⟩
    rw [← hreceiverId] at hreceiver
    rw [← hmethodName] at hmethod
    rw [← hargsEq] at hargs
    refine ⟨⟨?_, ?_⟩, receiverId, methodName, args, hreceiver, hmethod, hargs, ?_⟩
    · omega
    · omega
    · rw [hgasEq, hamountEq, Int.toNat_natCast, Int.toNat_natCast]
  · rintro ⟨⟨hgas, hamount⟩, receiverId, methodName, args, hreceiver, hmethod, hargs, hdata⟩
    refine ⟨{
      gas := call.gas.toNat
      amount := call.amount.toNat
      receiverId := Bytes.utf8 call.receiverId
      methodName := Bytes.utf8 call.methodName
      args := call.args }, ⟨⟨?_, ?_⟩, receiverId, methodName, args, hreceiver, hmethod, hargs, hdata⟩,
      rfl, rfl, (Int.toNat_of_nonneg hgas.1).symm, (Int.toNat_of_nonneg hamount.1).symm, rfl⟩
    · dsimp only
      omega
    · dsimp only
      omega

/-- Gas and amount have room in their bytes, and the length of each other field in the four bytes in
front of it. -/
structure Fits (call : Call) : Prop where
  gas : 0 ≤ call.gas ∧ call.gas < Bytes.capacity 8
  amount : 0 ≤ call.amount ∧ call.amount < Bytes.capacity 16
  receiverId : (Bytes.utf8 call.receiverId).length < Bytes.capacity 4
  methodName : (Bytes.utf8 call.methodName).length < Bytes.capacity 4
  args : call.args.length < Bytes.capacity 4

theorem fits_iff_encode {call : Call} : call.Fits ↔ ∃ data, call.encode = .ok data := by
  simp only [encode_eq_ok]
  constructor
  · intro h
    exact ⟨_, ⟨h.gas, h.amount⟩, _, _, _, Wire.ofVector_eq_ok.2 ⟨h.receiverId, rfl⟩,
      Wire.ofVector_eq_ok.2 ⟨h.methodName, rfl⟩, Wire.ofVector_eq_ok.2 ⟨h.args, rfl⟩, rfl⟩
  · rintro ⟨_, ⟨hgas, hamount⟩, _, _, _, hreceiver, hmethod, hargs, _⟩
    exact {
      gas := hgas
      amount := hamount
      receiverId := (Wire.ofVector_eq_ok.1 hreceiver).1
      methodName := (Wire.ofVector_eq_ok.1 hmethod).1
      args := (Wire.ofVector_eq_ok.1 hargs).1 }

end Call

/-- Calls and transfers are read from what they are written as and from nothing else. Those that have
room in their fields are those that are written, and those that are read from one byte string only. -/
theorem layouts_exact :
    (∀ call : Call, (∀ data, Call.decode data = .ok call ↔ call.encode = .ok data) ∧
      (call.Fits ↔ ∃ data, call.encode = .ok data) ∧
      (call.Fits ↔ ∃ data, ∀ other, Call.decode other = .ok call ↔ other = data)) ∧
    (∀ transfer : Transfer,
      (∀ data, Transfer.decode data = .ok transfer ↔ transfer.encode = .ok data) ∧
      (transfer.Fits ↔ ∃ data, transfer.encode = .ok data) ∧
      (transfer.Fits ↔ ∃ data, ∀ other, Transfer.decode other = .ok transfer ↔ other = data)) := by
  constructor
  · intro call
    have hiff (data : Bytes) : Call.decode data = .ok call ↔ call.encode = .ok data :=
      Call.decode_iff_encode
    exact ⟨hiff, Call.fits_iff_encode,
      Call.fits_iff_encode.trans (Wire.exists_encoding_iff_only hiff)⟩
  · intro transfer
    have hiff (data : Bytes) :
        Transfer.decode data = .ok transfer ↔ transfer.encode = .ok data :=
      Transfer.decode_iff_encode
    exact ⟨hiff, Transfer.fits_iff_encode,
      Transfer.fits_iff_encode.trans (Wire.exists_encoding_iff_only hiff)⟩

end SignedRelay.Proxy
