import SignedRelay.Envelope
import SignedRelay.Proofs.WireCodec

/-!
# Reading what an envelope is written as

An envelope is written exactly if its fields of fixed length have that length, its recovery byte is a
byte, and its other fields are short enough for their length. Main statements: the reader of envelopes
is exact for their writer, and so reading and writing are inverse to each other between the envelopes
that can be written and the byte strings that are read.
-/
namespace SignedRelay.Envelope

open Wire (Exact exact_take exact_number exact_vector exact_text)

theorem fixed_eq_ok {field : FixedField} {given data : Bytes} :
    fixed field given = .ok data ↔ given.length = field.size ∧ given = data := by
  unfold fixed
  by_cases h : given.length = field.size
  · simp [h]
  · simp [h]

theorem recoveryByte_eq_ok {v : Int} {data : Bytes} :
    recoveryByte v = .ok data ↔ (0 ≤ v ∧ v ≤ 255) ∧ Bytes.ofNatLE 1 v.toNat = data := by
  unfold recoveryByte
  by_cases h : v < 0 ∨ 255 < v
  · rw [if_pos h]
    constructor
    · intro hok
      cases hok
    · rintro ⟨hrange, _⟩
      omega
  · rw [if_neg h, Except.ok.injEq]
    exact ⟨fun hdata => ⟨by omega, hdata⟩, fun hdata => hdata.2⟩

/-- What success of writing says about each field. -/
theorem encode_eq_ok {envelope : Envelope} {data : Bytes} : envelope.encode = .ok data ↔
    (envelope.signature.length = 64 ∧ (0 ≤ envelope.v ∧ envelope.v ≤ 255) ∧
      envelope.nonce.length = 32 ∧ envelope.feeAmount.length = 32 ∧ envelope.value.length = 32) ∧
    ∃ feeAddress contractAddress method args, Wire.ofText envelope.feeAddress = .ok feeAddress ∧
      Wire.ofText envelope.contractAddress = .ok contractAddress ∧
      Wire.ofText envelope.method = .ok method ∧ Wire.ofVector envelope.args = .ok args ∧
      envelope.signature ++ Bytes.ofNatLE 1 envelope.v.toNat ++ envelope.nonce
        ++ envelope.feeAmount ++ feeAddress ++ contractAddress ++ envelope.value ++ method ++ args
        = data := by
  unfold encode
  constructor
  · intro h
    obtain ⟨nonce, hnonce, h⟩ := Outcome.bind_eq_ok.1 h
    obtain ⟨feeAmount, hfee, h⟩ := Outcome.bind_eq_ok.1 h
    obtain ⟨value, hvalue, h⟩ := Outcome.bind_eq_ok.1 h
    obtain ⟨signature, hsignature, h⟩ := Outcome.bind_eq_ok.1 h
    obtain ⟨v, hv, h⟩ := Outcome.bind_eq_ok.1 h
    obtain ⟨feeAddress, hfeeAddress, h⟩ := Outcome.bind_eq_ok.1 h
    obtain ⟨contractAddress, hcontract, h⟩ := Outcome.bind_eq_ok.1 h
    obtain ⟨method, hmethod, h⟩ := Outcome.bind_eq_ok.1 h
    obtain ⟨args, hargs, h⟩ := Outcome.bind_eq_ok.1 h
    obtain ⟨lnonce, rfl⟩ := fixed_eq_ok.1 hnonce
    obtain ⟨lfee, rfl⟩ := fixed_eq_ok.1 hfee
    obtain ⟨lvalue, rfl⟩ := fixed_eq_ok.1 hvalue
    obtain ⟨lsignature, rfl⟩ := fixed_eq_ok.1 hsignature
    obtain ⟨hrange, rfl⟩ := recoveryByte_eq_ok.1 hv
    exact ⟨⟨lsignature, hrange, lnonce, lfee, lvalue⟩, feeAddress, contractAddress, method, args,
      hfeeAddress, hcontract, hmethod, hargs, Outcome.pure_eq_ok.1 h⟩
  · rintro ⟨⟨hsignature, hv, hnonce, hfee, hvalue⟩, feeAddress, contractAddress, method, args,
      hfeeAddress, hcontract, hmethod, hargs, hdata⟩
    refine Outcome.bind_eq_ok.2 ⟨_, fixed_eq_ok.2 ⟨hnonce, rfl⟩, ?_⟩
    refine Outcome.bind_eq_ok.2 ⟨_, fixed_eq_ok.2 ⟨hfee, rfl⟩, ?_⟩
    refine Outcome.bind_eq_ok.2 ⟨_, fixed_eq_ok.2 ⟨hvalue, rfl⟩, ?_⟩
    refine Outcome.bind_eq_ok.2 ⟨_, fixed_eq_ok.2 ⟨hsignature, rfl⟩, ?_⟩
    refine Outcome.bind_eq_ok.2 ⟨_, recoveryByte_eq_ok.2 ⟨hv, rfl⟩, ?_⟩
    refine Outcome.bind_eq_ok.2 ⟨feeAddress, hfeeAddress, ?_⟩
    refine Outcome.bind_eq_ok.2 ⟨contractAddress, hcontract, ?_⟩
    refine Outcome.bind_eq_ok.2 ⟨method, hmethod, ?_⟩
    exact Outcome.bind_eq_ok.2 ⟨args, hargs, Outcome.pure_eq_ok.2 hdata⟩

/-- Reading the fields in their order is exact for writing them in it. -/
theorem exact_reader : Exact reader fun envelope data => envelope.encode = .ok data := by
  unfold reader
  refine Exact.congr ((exact_take 64).bind fun signature => (exact_number 1).bind fun v =>
    (exact_take 32).bind fun nonce => (exact_take 32).bind fun feeAmount =>
    exact_text.bind fun feeAddress => exact_text.bind fun contractAddress =>
    (exact_take 32).bind fun value => exact_text.bind fun method =>
    exact_vector.bind fun args => Exact.pure _) ?_
  intro envelope data
  rw [encode_eq_ok]
  constructor
  · rintro ⟨signature, _, _, ⟨rfl, hsignature⟩, ⟨v, _, _, ⟨hv, rfl⟩, ⟨nonce, _, _, ⟨rfl, hnonce⟩,
      ⟨feeAmount, _, _, ⟨rfl, hfee⟩, ⟨feeAddress, _, _, hfeeAddress, ⟨contractAddress, _, _,
      hcontract, ⟨value, _, _, ⟨rfl, hvalue⟩, ⟨method, _, _, hmethod, ⟨args, _, _, hargs,
      ⟨rfl, rfl⟩, rfl⟩, rfl⟩, rfl⟩, rfl⟩, rfl⟩, rfl⟩, rfl⟩, rfl⟩, rfl⟩
    refine ⟨⟨hsignature, ?_, hnonce, hfee, hvalue⟩, _, _, _, _, hfeeAddress, hcontract, hmethod,
      hargs, ?_⟩
    · have hbyte : v < 256 := hv
      dsimp only
      omega
    · simp [List.append_assoc]
  · rintro ⟨⟨hsignature, hv, hnonce, hfee, hvalue⟩, feeAddress, contractAddress, method, args,
      hfeeAddress, hcontract, hmethod, hargs, rfl⟩
    have hbyte : envelope.v.toNat < Bytes.capacity 1 := by
      show envelope.v.toNat < 256
      omega
    refine ⟨_, _, _, ⟨rfl, hsignature⟩, ⟨_, _, _, ⟨hbyte, rfl⟩, ⟨_, _, _, ⟨rfl, hnonce⟩,
      ⟨_, _, _, ⟨rfl, hfee⟩, ⟨_, _, _, hfeeAddress, ⟨_, _, _, hcontract, ⟨_, _, _, ⟨rfl, hvalue⟩,
      ⟨_, _, _, hmethod, ⟨_, _, [], hargs, ⟨?_, rfl⟩, rfl⟩, rfl⟩, rfl⟩, rfl⟩, rfl⟩, rfl⟩, rfl⟩,
      rfl⟩, ?_⟩
    · cases envelope
      simp only [Envelope.mk.injEq, true_and, and_true]
      exact (Int.toNat_of_nonneg hv.1).symm
    · simp only [List.append_assoc, List.append_nil]

theorem decode_eq_ok {envelope : Envelope} {data : Bytes} :
    decode data = .ok envelope ↔ Wire.read reader data = .ok envelope := Outcome.mapError_eq_ok

theorem encode_of_decode {envelope : Envelope} {data : Bytes} (h : decode data = .ok envelope) :
    envelope.encode = .ok data :=
  exact_reader.read_eq_ok.1 (decode_eq_ok.1 h)

theorem decode_of_encode {envelope : Envelope} {data : Bytes} (h : envelope.encode = .ok data) :
    decode data = .ok envelope :=
  decode_eq_ok.2 (exact_reader.read_eq_ok.2 h)

/-- The fields of fixed length have it, the recovery byte is a byte, and the length of each other field
fits the four bytes in front of it. -/
structure WellFormed (envelope : Envelope) : Prop where
  signature : envelope.signature.length = 64
  v : 0 ≤ envelope.v ∧ envelope.v ≤ 255
  nonce : envelope.nonce.length = 32
  feeAmount : envelope.feeAmount.length = 32
  feeAddress : (Bytes.utf8 envelope.feeAddress).length < Bytes.capacity 4
  contractAddress : (Bytes.utf8 envelope.contractAddress).length < Bytes.capacity 4
  value : envelope.value.length = 32
  method : (Bytes.utf8 envelope.method).length < Bytes.capacity 4
  args : envelope.args.length < Bytes.capacity 4

/-- Four bytes hold lengths up to, and without, four gibibytes. -/
example : Bytes.capacity 4 = 4294967296 := rfl

theorem wellFormed_iff_encode {envelope : Envelope} :
    envelope.WellFormed ↔ ∃ data, envelope.encode = .ok data := by
  constructor
  · intro h
    exact ⟨_, encode_eq_ok.2 ⟨⟨h.signature, h.v, h.nonce, h.feeAmount, h.value⟩, _, _, _, _,
      Wire.ofVector_eq_ok.2 ⟨h.feeAddress, rfl⟩, Wire.ofVector_eq_ok.2 ⟨h.contractAddress, rfl⟩,
      Wire.ofVector_eq_ok.2 ⟨h.method, rfl⟩, Wire.ofVector_eq_ok.2 ⟨h.args, rfl⟩, rfl⟩⟩
  · rintro ⟨data, hdata⟩
    obtain ⟨⟨hsignature, hv, hnonce, hfee, hvalue⟩, _, _, _, _, hfeeAddress, hcontract, hmethod,
      hargs, _⟩ := encode_eq_ok.1 hdata
    exact {
      signature := hsignature
      v := hv
      nonce := hnonce
      feeAmount := hfee
      feeAddress := (Wire.ofVector_eq_ok.1 hfeeAddress).1
      contractAddress := (Wire.ofVector_eq_ok.1 hcontract).1
      value := hvalue
      method := (Wire.ofVector_eq_ok.1 hmethod).1
      args := (Wire.ofVector_eq_ok.1 hargs).1 }

theorem wellFormed_of_decode {envelope : Envelope} {data : Bytes} (h : decode data = .ok envelope) :
    envelope.WellFormed :=
  wellFormed_iff_encode.2 ⟨data, encode_of_decode h⟩

/-- A byte string is read as an envelope exactly if the envelope is written as it. Every well-formed
envelope is written, and what it is written as is the one byte string that is read as it. -/
theorem decode_eq_ok_iff_encode (envelope : Envelope) :
    (∀ data, decode data = .ok envelope ↔ envelope.encode = .ok data) ∧
    (envelope.WellFormed ↔ ∃ data, envelope.encode = .ok data ∧
      ∀ other, decode other = .ok envelope ↔ other = data) := by
  have hiff (data : Bytes) : decode data = .ok envelope ↔ envelope.encode = .ok data :=
    ⟨encode_of_decode, decode_of_encode⟩
  refine ⟨hiff, ?_⟩
  constructor
  · intro h
    obtain ⟨data, hdata⟩ := wellFormed_iff_encode.1 h
    refine ⟨data, hdata, fun other => ?_⟩
    rw [hiff, hdata, Except.ok.injEq, eq_comm]
  · rintro ⟨data, hdata, _⟩
    exact wellFormed_iff_encode.2 ⟨data, hdata⟩

/-- A method with its payload in an envelope that is well formed, with nothing else filled in. -/
def blank (method : String) (args : Bytes) : Envelope where
  signature := List.replicate 64 0x00
  v := 0
  nonce := List.replicate 32 0x00
  feeAmount := List.replicate 32 0x00
  feeAddress := ""
  contractAddress := ""
  value := List.replicate 32 0x00
  method := method
  args := args

theorem exists_decode_blank {method : String} {args : Bytes}
    (hmethod : (Bytes.utf8 method).length < Bytes.capacity 4)
    (hargs : args.length < Bytes.capacity 4) :
    ∃ message, decode message = .ok (blank method args) := by
  have hv : (0 : Int) ≤ 0 ∧ (0 : Int) ≤ 255 := by decide
  have hempty : (Bytes.utf8 "").length < Bytes.capacity 4 := by decide
  have hblank : (blank method args).WellFormed := {
    signature := rfl
    v := hv
    nonce := rfl
    feeAmount := rfl
    feeAddress := hempty
    contractAddress := hempty
    value := rfl
    method := hmethod
    args := hargs }
  obtain ⟨message, hmessage⟩ := wellFormed_iff_encode.1 hblank
  exact ⟨message, decode_of_encode hmessage⟩

end SignedRelay.Envelope
