import ScatterDex.Sdk.Claim

/-!
# Claim packages

`notes/claimPackage.ts`: what a recipient is sent to claim with. A decimal or hexadecimal string of a package is the number it spells.
-/

namespace ScatterDex

open Fallible

namespace Sdk

/-- The package of one claim: its data, and its path to the claims root. -/
structure ClaimPackage where
  chainId : ℕ
  settlementAddress : String
  claimsRoot : ℕ
  recipient : String
  token : String
  tokenSymbol : String
  tokenDecimals : ℕ
  amount : ℕ
  releaseTime : ℕ
  secret : ℕ
  leafIndex : ℤ
  pathElements : List ℕ
  pathIndices : List ℕ
  senderLabel : Option String
  runLabel : Option String
  relayerUrl : Option String

/-- The claim of a package. -/
def ClaimPackage.entry (pkg : ClaimPackage) : ClaimEntry where
  secret := pkg.secret
  recipient := pkg.recipient
  token := pkg.token
  amount := pkg.amount
  releaseTime := pkg.releaseTime

/-- The input of the claim prover, which both apps build from a package in `submitClaim`. -/
def ClaimPackage.proofInput (pkg : ClaimPackage) : Except String ClaimProofInput := do
  let recipient ← bigInt pkg.recipient
  let token ← bigInt pkg.token
  return {
    secret := pkg.secret
    recipient
    token
    amount := pkg.amount
    releaseTime := pkg.releaseTime
    leafIndex := pkg.leafIndex
    allClaimLeaves := []
    merkleProof := some { root := pkg.claimsRoot, pathElements := pkg.pathElements, pathIndices := pkg.pathIndices } }

end Sdk

end ScatterDex
