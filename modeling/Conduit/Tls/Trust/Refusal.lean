/-!
# Named reasons against a certificate

Why a certificate is not accepted although it can be read and its signature may be right.

* `Refusal.text`: the name of a reason; `Refusal.weight`: how much it says.
-/

namespace Conduit.Tls.Trust

/-- A reason with a name of its own. -/
inductive Refusal
  /-- It is of a version that is not taken. -/
  | version
  /-- It must not be used by whom does not know an extension that is not known. -/
  | criticalExtension
  /-- An extension comes twice. -/
  | repeatedExtension
  /-- It names two schemes for one signature. -/
  | twoSchemes
  /-- That of an authority is used by a server. -/
  | authorityAsServer
  /-- That of a server is used by an authority. -/
  | serverAsAuthority
  /-- More authorities follow than one allows. -/
  | longPath
  /-- A name lies outside of what an authority may name. -/
  | nameOutside
  /-- A domain in it is none. -/
  | malformedDomain
  /-- A domain that an authority may name is none. -/
  | malformedConstraint
  /-- What an authority may name has an address mask with holes. -/
  | mask
  /-- It may be used for something, but for nothing that it names. -/
  | noPurpose
  /-- A key on the wide curve is to have signed in a way that does not go with it. -/
  | keyDistrusted
  | tooDeep
  | tooManySignatures
  | tooManySteps
  | tooManyComparisons
  deriving DecidableEq, Repr

namespace Refusal

/-- Its name. -/
def text : Refusal → String
  | .version => "UnsupportedCertVersion"
  | .criticalExtension => "UnsupportedCriticalExtension"
  | .repeatedExtension => "ExtensionValueInvalid"
  | .twoSchemes => "SignatureAlgorithmMismatch"
  | .authorityAsServer => "CaUsedAsEndEntity"
  | .serverAsAuthority => "EndEntityUsedAsCa"
  | .longPath => "PathLenConstraintViolated"
  | .nameOutside => "NameConstraintViolation"
  | .malformedDomain => "MalformedDnsIdentifier"
  | .malformedConstraint => "MalformedNameConstraint"
  | .mask => "InvalidNetworkMaskConstraint"
  | .noPurpose => "EmptyEkuExtension"
  | .keyDistrusted => "CertDistrusted"
  | .tooDeep => "MaximumPathDepthExceeded"
  | .tooManySignatures => "MaximumSignatureChecksExceeded"
  | .tooManySteps => "MaximumPathBuildCallsExceeded"
  | .tooManyComparisons => "MaximumNameConstraintComparisonsExceeded"

/-- How much it says. -/
def weight : Refusal → Nat
  | .keyDistrusted => 270
  | .twoSchemes => 250
  | .noPurpose => 240
  | .nameOutside => 230
  | .longPath => 220
  | .authorityAsServer | .serverAsAuthority => 210
  | .mask => 180
  | .version | .criticalExtension => 130
  | .tooDeep => 61
  | .malformedDomain => 60
  | .malformedConstraint => 50
  | .repeatedExtension => 30
  | .tooManySignatures | .tooManySteps | .tooManyComparisons => 0

/-- Whether it ends the search. -/
def isFinal : Refusal → Bool
  | .tooManySignatures | .tooManySteps | .tooManyComparisons => true
  | _ => false

end Refusal

end Conduit.Tls.Trust
