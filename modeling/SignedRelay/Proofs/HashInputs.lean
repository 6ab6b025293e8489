import SignedRelay.MetaCall.HashInputs

/-!
# What is laid out is what is hashed

Main statement: without their layouts, the hash inputs of a digest are its preimages, in order.
-/
namespace SignedRelay

@[simp] theorem HashInput.map_data_contents (data : List Bytes) :
    (contents data).map HashInput.data = data := by
  unfold contents
  rw [List.map_map]
  exact List.map_id data

theorem Domain.map_data_hashInputs (hasher : Hasher) (domain : Domain) :
    (domain.hashInputs hasher).map HashInput.data = domain.preimages hasher := by
  unfold hashInputs preimages
  rw [Outcome.map_collect]
  rfl

namespace TypedData

variable [Stack]

mutual

theorem map_data_hashInputs : ∀ (value : Rlp) (context : Context) (type : ArgType) (depth : Int),
    (hashInputs context type depth value).map HashInput.data = preimages context type depth value
  | .bytes data, context, type, depth => by
    unfold hashInputs preimages
    exact HashInput.map_data_contents _
  | .list items, context, type, depth => by
    unfold hashInputs preimages
    cases type with
    | array element length =>
      dsimp only
      rw [List.map_append, map_data_elementHashInputs items, Outcome.map_collect]
      rfl
    | struct name =>
      dsimp only
      rw [Outcome.map_collect]
      congr 1
      funext declaration
      rw [List.map_append, List.map_append, HashInput.map_data_contents,
        map_data_fieldHashInputs items, Outcome.map_collect]
      rfl
    | _ => rfl

theorem map_data_elementHashInputs : ∀ (items : List Rlp) (context : Context) (type : ArgType)
    (depth : Int), (elementHashInputs context type depth items).map HashInput.data =
      elementPreimages context type depth items
  | [], context, type, depth => by
    unfold elementHashInputs elementPreimages
    rfl
  | value :: rest, context, type, depth => by
    unfold elementHashInputs elementPreimages
    rw [List.map_append, map_data_hashInputs value, map_data_elementHashInputs rest]

theorem map_data_fieldHashInputs : ∀ (items : List Rlp) (context : Context) (params : List Param)
    (depth : Int), (fieldHashInputs context params depth items).map HashInput.data =
      fieldPreimages context params depth items
  | [], context, params, depth => by
    unfold fieldHashInputs fieldPreimages
    cases params with
    | nil => rfl
    | cons param params => rfl
  | value :: rest, context, [], depth => by
    unfold fieldHashInputs fieldPreimages
    rfl
  | value :: rest, context, param :: params, depth => by
    unfold fieldHashInputs fieldPreimages
    rw [List.map_append, map_data_hashInputs value, map_data_fieldHashInputs rest]

end

end TypedData

theorem MetaCall.map_data_hashInputs [Stack] (hasher : Hasher) (bound : Int)
    (separator gatewayId : Bytes)
    (call : MetaCall) : (call.hashInputs hasher bound separator gatewayId).map HashInput.data =
      call.preimages hasher bound separator gatewayId := by
  unfold hashInputs preimages
  rw [Outcome.map_collect]
  congr 1
  funext argumentsText
  rw [List.map_append, HashInput.map_data_contents, Outcome.map_collect]
  congr 2
  funext header
  split
  · rfl
  · rw [Outcome.map_collect]
    congr 1
    funext ⟨definition, args⟩
    have hvalues : (call.argumentHashInputs hasher bound definition).map HashInput.data =
        call.argumentPreimages hasher bound definition := by
      unfold argumentHashInputs argumentPreimages
      rw [Outcome.map_collect]
      congr 1
      funext values
      exact TypedData.map_data_fieldHashInputs _ _ _ _
    dsimp only
    rw [List.map_append, List.map_append, HashInput.map_data_contents, hvalues]
    rfl

theorem SigningContext.map_data_hashInputs [Stack] (context : SigningContext) (call : MetaCall) :
    (context.hashInputs call).map HashInput.data = context.preimages call := by
  unfold hashInputs preimages
  rw [List.map_append, Domain.map_data_hashInputs, Outcome.map_collect]
  congr 2
  funext separator
  exact call.map_data_hashInputs _ _ _ _

end SignedRelay
