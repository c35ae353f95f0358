import Ucan.Ascii
import Ucan.Binary64
import Ucan.BuildOptions
import Ucan.Builder
import Ucan.Bytes
import Ucan.Capability
import Ucan.Cid
import Ucan.Curve.Edwards25519
import Ucan.Curve.Weierstrass
import Ucan.Delegation.Backlog
import Ucan.Delegation.Link
import Ucan.Delegation.Walk
import Ucan.Der
import Ucan.Dict
import Ucan.Did
import Ucan.Encoding.Base64Url
import Ucan.Encoding.BitGroups
import Ucan.Encoding.Multibase
import Ucan.Encoding.Positional
import Ucan.Encoding.Triples
import Ucan.Encoding.Varint
import Ucan.Hash.Algorithm
import Ucan.Hash.Blake2
import Ucan.Hash.Blake3
import Ucan.Hash.Hmac
import Ucan.Hash.Json
import Ucan.Hash.Keccak
import Ucan.Hash.Sha2
import Ucan.Header
import Ucan.Json.Basic
import Ucan.Json.Error
import Ucan.Json.Lexical
import Ucan.Json.Printer
import Ucan.Json.Reader
import Ucan.Json.Skip
import Ucan.Json.Tuple
import Ucan.KeyResolver
import Ucan.Keypair
import Ucan.Modular
import Ucan.Operations
import Ucan.Payload
import Ucan.Proof.Reference
import Ucan.Proof.Store
import Ucan.Proofs.Ascii
import Ucan.Proofs.Base58
import Ucan.Proofs.Base64Url
import Ucan.Proofs.BuildOptions
import Ucan.Proofs.Builder
import Ucan.Proofs.Candid
import Ucan.Proofs.Capability
import Ucan.Proofs.Cid
import Ucan.Proofs.Claims
import Ucan.Proofs.Delegation.Binding
import Ucan.Proofs.Delegation.Bounded
import Ucan.Proofs.Delegation.Coherence
import Ucan.Proofs.Delegation.Continuity
import Ucan.Proofs.Delegation.Extension
import Ucan.Proofs.Delegation.Line
import Ucan.Proofs.Delegation.Soundness
import Ucan.Proofs.Delegation.Timeless
import Ucan.Proofs.Did
import Ucan.Proofs.DidText
import Ucan.Proofs.Encoding
import Ucan.Proofs.Except
import Ucan.Proofs.Grouping
import Ucan.Proofs.Header
import Ucan.Proofs.Json.Alike
import Ucan.Proofs.Json.Depth
import Ucan.Proofs.Json.Mirrors
import Ucan.Proofs.Json.NormalForm
import Ucan.Proofs.Json.Reads
import Ucan.Proofs.Json.Shape
import Ucan.Proofs.Json.TakesAll
import Ucan.Proofs.Json.Yields
import Ucan.Proofs.Lossless
import Ucan.Proofs.Operations
import Ucan.Proofs.Payload
import Ucan.Proofs.PayloadText
import Ucan.Proofs.Related
import Ucan.Proofs.Requests
import Ucan.Proofs.RoundTrip
import Ucan.Proofs.Rsa
import Ucan.Proofs.Settings
import Ucan.Proofs.SignatureCheck
import Ucan.Proofs.SignedBytes
import Ucan.Proofs.Signer
import Ucan.Proofs.Signing
import Ucan.Proofs.Store
import Ucan.Proofs.Terms
import Ucan.Proofs.Wire
import Ucan.PublicKey
import Ucan.Signature.DeterministicNonce
import Ucan.Signature.Ecdsa
import Ucan.Signature.Ed25519
import Ucan.Signature.Rsa
import Ucan.Signature.Scheme
import Ucan.SignatureAlgorithm
import Ucan.Signer
import Ucan.Text.Place
import Ucan.Text.Printable
import Ucan.Text.Quoted
import Ucan.Token
import Ucan.Validator
import Ucan.Wire
