import SignedRelay.Fleet
import SignedRelay.MetaCall.Sign
import SignedRelay.Proofs.Verification
import SignedRelay.Fleet.History
import SignedRelay.Proofs.Admission
import SignedRelay.Proofs.Replay
import SignedRelay.Proofs.SenderIndependence
import SignedRelay.Fleet.Answers
import SignedRelay.Proofs.ProxyCodec
import SignedRelay.Proofs.Actions
import SignedRelay.Proofs.AdmissionRule
import SignedRelay.MetaCall.Preimages
import SignedRelay.Proofs.Preparation
import SignedRelay.Proofs.Words
import SignedRelay.Proofs.DefinitionText
import SignedRelay.Proofs.DigestBinding
import SignedRelay.Proofs.WireCodec
import SignedRelay.Proofs.EnvelopeCodec
import SignedRelay.Proofs.SignVerify
import SignedRelay.Proofs.Preimages
import SignedRelay.Fleet.Authorization
import SignedRelay.Proofs.SingleUse
import SignedRelay.Proofs.DefinitionParsing
import SignedRelay.Rlp.Encode
import SignedRelay.Proofs.RlpCanonical
import SignedRelay.Proofs.RlpAcceptance
import SignedRelay.Proofs.TypeParsing
import SignedRelay.Proofs.TypeGrammar
import SignedRelay.Proofs.DefinitionGrammar
import SignedRelay.TypedData.Agreement
import SignedRelay.ArgType.Grammar
import SignedRelay.Proofs.TypedAgreement
import SignedRelay.Proofs.WordBinding
import SignedRelay.Proofs.PayloadBinding
import SignedRelay.TypedData.Conformance
import SignedRelay.Proofs.TypedAcceptance
import SignedRelay.Proofs.Faults
import SignedRelay.Proofs.LongNumerals
import SignedRelay.Proofs.VerificationFaults
import SignedRelay.Proofs.GatewayFaults
import SignedRelay.Proofs.HonestMessages
import SignedRelay.TypedData.Standard
import SignedRelay.Proofs.TypeHash
import SignedRelay.Proofs.NestingBound
import SignedRelay.Proofs.HashingFailures
import SignedRelay.Proofs.AttachedGas
import SignedRelay.Proofs.SelfDelimiting
import SignedRelay.Proofs.ArgumentsText
import SignedRelay.Proofs.StructNames
import SignedRelay.Proofs.MissingNames
import SignedRelay.Proofs.Base64Codec
import SignedRelay.Proofs.Spellings
import SignedRelay.Proofs.SignerCheck
import SignedRelay.MetaCall.HashInputs
import SignedRelay.Proofs.HashInputs
import SignedRelay.Proofs.WordAlignment
