import SmartCard.Apdu.Command
import SmartCard.Apdu.Framing
import SmartCard.Apdu.Response
import SmartCard.Apdu.StatusWord
import SmartCard.Bytes
import SmartCard.Card.Authenticator
import SmartCard.Card.Scripted
import SmartCard.Cbor.Decode
import SmartCard.Cbor.Encode
import SmartCard.Cbor.Float
import SmartCard.Cbor.Value
import SmartCard.Crypto.Aes
import SmartCard.Crypto.Block
import SmartCard.Crypto.Cbc
import SmartCard.Crypto.Cmac
import SmartCard.Crypto.Hmac
import SmartCard.Crypto.P256
import SmartCard.Crypto.Padding
import SmartCard.Crypto.Sha256
import SmartCard.Error
import SmartCard.Fido.AuthProtocol
import SmartCard.Fido.ClientPin
import SmartCard.Fido.Error
import SmartCard.Fido.Info
import SmartCard.Fido.Key
import SmartCard.Fido.Pin
import SmartCard.Fido.PinMessage
import SmartCard.Fido.Session
import SmartCard.Link
import SmartCard.OpenPgp.Algorithm
import SmartCard.OpenPgp.AlgorithmInformation
import SmartCard.OpenPgp.ApplicationData
import SmartCard.OpenPgp.Curve
import SmartCard.OpenPgp.Error
import SmartCard.OpenPgp.Fault
import SmartCard.OpenPgp.Key
import SmartCard.OpenPgp.Session.Basic
import SmartCard.OpenPgp.Session.Keys
import SmartCard.OpenPgp.Session.Operations
import SmartCard.OpenPgp.Session.Pins
import SmartCard.OpenPgp.Signature
import SmartCard.OpenPgp.Slot
import SmartCard.Proofs.Apdu.Chaining
import SmartCard.Proofs.Apdu.Frames
import SmartCard.Proofs.Apdu.Gathering
import SmartCard.Proofs.Apdu.Limits
import SmartCard.Proofs.Apdu.ShortForm
import SmartCard.Proofs.Apdu.Splitting
import SmartCard.Proofs.Crypto.Aes
import SmartCard.Proofs.Crypto.Cbc
import SmartCard.Proofs.Exchange
import SmartCard.Proofs.Fido.Agreement
import SmartCard.Proofs.Fido.Encryption
import SmartCard.Proofs.Fido.Requests
import SmartCard.Proofs.Integers
import SmartCard.Proofs.Scp03.Authenticity
import SmartCard.Proofs.Scp03.CardEnd
import SmartCard.Proofs.Scp03.Ciphertexts
import SmartCard.Proofs.Scp03.Crossing
import SmartCard.Proofs.Scp03.FailClosed
import SmartCard.Proofs.Scp03.Lockstep
import SmartCard.Proofs.Scp03.Noting
import SmartCard.Proofs.Scp03.Opening
import SmartCard.Proofs.Scp03.Reopening
import SmartCard.Proofs.Scp03.Rounds
import SmartCard.Proofs.Scp03.Vectors
import SmartCard.Scp03.Chain
import SmartCard.Scp03.Derivation
import SmartCard.Scp03.Handshake
import SmartCard.Scp03.Keys
import SmartCard.Scp03.SecureChannel
import SmartCard.Stage
import SmartCard.Terminal
import SmartCard.Text.Hex
import SmartCard.Text.Summary
import SmartCard.Text.Utf8
import SmartCard.Tlv.Field
import SmartCard.Tlv.Object
import SmartCard.Tlv.Read
import SmartCard.Version
import SmartCard.Proofs.Cbor.Canonical
import SmartCard.Proofs.Cbor.RoundTrip
import SmartCard.Proofs.Fido.Members
import SmartCard.Proofs.Fido.Messages
import SmartCard.Proofs.Curve.Group
import SmartCard.Proofs.Fido.Peer
import SmartCard.Proofs.Curve.Agreement
import SmartCard.Proofs.OpenPgp.Requests
import SmartCard.Proofs.OpenPgp.Attributes
import SmartCard.Proofs.OpenPgp.KeyOperations
import SmartCard.Proofs.ClosedSessions
import SmartCard.Proofs.OpenPgp.LateRefusals
import SmartCard.Proofs.OpenPgp.Generation
import SmartCard.Proofs.Fido.Padding
import SmartCard.Proofs.Zeros
import SmartCard.Proofs.Tlv.Fields
import SmartCard.Proofs.OpenPgp.Templates
import SmartCard.Proofs.Tlv.Objects
import SmartCard.Proofs.OpenPgp.Listing
import SmartCard.Proofs.Tlv.Written
import SmartCard.Proofs.OpenPgp.Signatures
import SmartCard.Proofs.OpenPgp.Blocking
import SmartCard.Proofs.Apdu.Whole
import SmartCard.Proofs.Scp03.Coverage
import SmartCard.Proofs.OpenPgp.Curve25519
import SmartCard.Proofs.OpenPgp.AlgorithmOctets
import SmartCard.Proofs.Numbers
import SmartCard.Proofs.Apdu.ExtendedForm
import SmartCard.Proofs.Apdu.Parts
import SmartCard.Proofs.Deliveries
import SmartCard.Proofs.OpenPgp.Challenges
import SmartCard.Proofs.OpenPgp.TouchPolicies
import SmartCard.Proofs.Tlv.ToldLengths
import SmartCard.Proofs.OpenPgp.NestedFields
import SmartCard.Proofs.OpenPgp.ApplicationObjects
import SmartCard.Proofs.Scp03.CodedCommands
