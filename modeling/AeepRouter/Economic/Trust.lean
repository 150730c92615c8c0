import AeepRouter.Economic.Pricing

/-!
# Signing keys and authorization signatures

The keys an operator trusts, and the check of a signed offer or quote against one of them. The
canonical bytes of a record, the verification of an Ed25519 signature over them and SHA-256 belong
to libraries; `Crypto` stands for them.
-/

namespace AeepRouter

open Lib

inductive SignatureAlgorithm where
  | hmacSha256
  | ed25519
  deriving DecidableEq, Repr

inductive CanonicalizationVersion where
  | legacy
  | jcs
  deriving DecidableEq, Repr

structure SignatureEnvelope where
  algorithm : SignatureAlgorithm
  keyId : String
  value : String
  canonicalizationVersion : CanonicalizationVersion
  deriving DecidableEq

inductive TrustedKeyStatus where
  | active
  | retired
  | revoked
  deriving DecidableEq, Repr

structure TrustedProviderKey where
  providerId : String
  keyId : String
  algorithm : SignatureAlgorithm
  publicKey : String
  validFrom : Int
  validUntil : Int
  revokedAt : Option Int
  status : TrustedKeyStatus
  allowedCapabilities : List String
  rest : String
  deriving DecidableEq

/-- A row of `provider_signing_keys`: the key as stored, and the columns a revocation updates. -/
structure SigningKeyRow where
  payload : TrustedProviderKey
  status : TrustedKeyStatus
  revokedAt : Option Int
  deriving DecidableEq

structure BoundedQuote where
  quoteId : String
  providerId : String
  capability : String
  executorId : String
  executorFingerprint : String
  actionDigest : String
  maximumAmount : CurrencyAmount
  issuedAt : Int
  expiresAt : Int
  signature : SignatureEnvelope
  rest : String
  deriving DecidableEq

structure SignedOffer extends CapabilityOffer where
  signature : SignatureEnvelope
  deriving DecidableEq

/-- What the cryptography libraries compute. -/
structure Crypto where
  verifyQuote : String → BoundedQuote → Bool
  verifyOffer : String → SignedOffer → Bool
  sha256 : String → String

def stableOperationId (crypto : Crypto) (name key : String) : String :=
  name ++ "_" ++ crypto.sha256 (name ++ "\x00" ++ key)

/-- What a trust store holding the one key `key` says of a signed record at `now`. `verified` is
the outcome of the signature check itself. -/
def TrustedProviderKey.verify (key : TrustedProviderKey) (signature : SignatureEnvelope)
    (expectedProvider capability : String) (now : Int) (verified : Bool) : Except String Unit := do
  raiseIf (signature.canonicalizationVersion ≠ .jcs)
    "legacy canonicalization is historical-only in AEEP 0.5"
  raiseIf (key.keyId = signature.keyId ∧ key.providerId ≠ expectedProvider)
    "signing key belongs to a different provider"
  raiseIf (key.keyId ≠ signature.keyId) "signing key is not trusted"
  raiseIf (key.algorithm ≠ signature.algorithm) "signature algorithm does not match trusted key"
  raiseIf (capability ∉ key.allowedCapabilities) "signing key is not trusted for this capability"
  raiseIf (key.status ≠ .active) "signing key is not active"
  raiseIf (¬ (key.validFrom ≤ now ∧ now ≤ key.validUntil))
    "signing key is outside its validity period"
  raiseIf (∃ revoked ∈ key.revokedAt, revoked ≤ now) "signing key was revoked at verification time"
  raiseIf (signature.algorithm ≠ .ed25519) "provider trust store accepts public-key signatures only"
  raiseIf (¬ verified) "signature verification failed"

/-- `ReceiptStore._require_valid_authorization_signature`. -/
def requireValidAuthorizationSignature (key : TrustedProviderKey) (signature : SignatureEnvelope)
    (provider capability : String) (now : Int) (verified : Bool) : Result Unit :=
  (key.verify signature provider capability now verified).mapError fun reason =>
    .configuration ("economic authorization signature verification failed: " ++ reason)

/-- `ReceiptStore._require_active_signing_key_locked`, on the row of the provider and key. -/
def requireActiveSigningKey (row : Option SigningKeyRow) (algorithm : SignatureAlgorithm) (now : Int)
    (capability : String) : Result TrustedProviderKey := do
  let row ← demand row "economic authorization signing key is not trusted"
  refuseIf (row.payload.algorithm ≠ algorithm) "economic authorization signing algorithm changed"
  refuseIf (row.status ≠ .active ∨ row.revokedAt.isSome)
    "economic authorization signing key is not active"
  refuseIf (now < row.payload.validFrom ∨ row.payload.validUntil ≤ now)
    "economic authorization signing key is not currently valid"
  refuseIf (row.payload.allowedCapabilities ≠ [] ∧ capability ∉ row.payload.allowedCapabilities)
    "economic authorization capability is not trusted for key"
  pure row.payload

end AeepRouter
