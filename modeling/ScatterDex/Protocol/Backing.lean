import ScatterDex.Circuit.Authorize
import ScatterDex.Protocol.Run

/-!
# Proofs backed by assignments

A verifier is sound when what it accepts has a satisfying assignment. Instead of speaking of verifiers, a call is `Backed` when the calldata of its proof is the public part of such an assignment.
-/

namespace ScatterDex

open Bn254

variable (C : Circomlib) (P : Poseidon)

/-- The depth of the commitment tree the circuits are compiled for. -/
def commitTreeDepth : ℕ := 20

/-- The compiled tiers: claims a side, and the depth of their tree. -/
def tiers : List (ℕ × ℕ) := [(16, 4), (64, 6), (128, 7)]

theorem tier_spec {tier depth : ℕ} (htier : (tier, depth) ∈ tiers) : tier = 2 ^ depth ∧ tier ≤ 128 := by
  simp only [tiers, List.mem_cons, Prod.mk.injEq, List.not_mem_nil, or_false] at htier
  rcases htier with ⟨rfl, rfl⟩ | ⟨rfl, rfl⟩ | ⟨rfl, rfl⟩ <;> decide

/-- The assignment behind an authorize proof, at the tier the proof names. -/
structure AuthorizeProof.Backing (ap : AuthorizeProof) (s : Circuit.AuthorizeSignals) : Prop where
  satisfied : ∃ claimsTreeDepth, (ap.tier.toNat, claimsTreeDepth) ∈ tiers ∧
    Circuit.Authorize C P commitTreeDepth ap.tier.toNat claimsTreeDepth s
  signals : s.publicInputs.map ZMod.val = SettleVerifyLib.packAuthSignals ap

def AuthorizeProof.Backed (ap : AuthorizeProof) : Prop := ∃ s, ap.Backing C P s

def CommitmentPool.WithdrawArgs.Backed (D : Deployment) (a : WithdrawArgs) : Prop :=
  [(a.token.toNat : Scalar)] ∈ D.poseidon.asked ∧
    ∃ s, Circuit.Withdraw C D.poseidon commitTreeDepth s ∧ s.publicInputs.map ZMod.val = a.pubSignals D

def PrivateSettlement.CancelParams.Backed (p : CancelParams) (sender : Address) : Prop :=
  ∃ s, Circuit.Cancel C P commitTreeDepth s ∧ s.publicInputs.map ZMod.val = p.pubSignals sender

def ExternalCall.Backed (D : Deployment) : ExternalCall → Prop
  | .pool _ (.deposit _ commitment token amount) =>
    ∃ s, Circuit.Deposit C D.poseidon s ∧ s.publicInputs.map ZMod.val = [commitment, token.toNat, amount]
  | .pool _ (.withdraw a) | .pool _ (.withdrawFor a) => a.Backed C D
  | _ => True

/-- Every proof a transaction carries, its nested calls included, is backed. -/
def Call.Backed (D : Deployment) (call : Call) : Prop :=
  (∀ e ∈ call.externals, e.Backed C D) ∧
    match call with
    | .settleAuth _ p => p.maker.Backed C D.poseidon ∧ p.taker.Backed C D.poseidon
    | .cancelPrivate env p => p.Backed C D.poseidon env.sender
    | .settleWithDex _ p _ => p.proof.Backed C D.poseidon
    | .scatterDirectAuth _ p => p.proof.Backed C D.poseidon
    | _ => True

namespace AuthorizeProof.Backing

variable {C P} {ap : AuthorizeProof} {s : Circuit.AuthorizeSignals} (hs : ap.Backing C P s)
include hs

theorem vals : s.pubKeyBind.val = ap.pubKeyBind ∧ s.commitmentRoot.val = ap.commitmentRoot ∧
    s.nullifier.val = ap.nullifier ∧ s.nonceNullifier.val = ap.nonceNullifier ∧
    s.newCommitment.val = ap.newCommitment ∧ s.sellToken.val = ap.sellToken.toNat ∧
    s.buyToken.val = ap.buyToken.toNat ∧ s.sellAmount.val = ap.sellAmount.toNat ∧
    s.buyAmount.val = ap.buyAmount.toNat ∧ s.maxFee.val = ap.maxFee.toNat ∧ s.expiry.val = ap.expiry.toNat ∧
    s.claimsRoot.val = ap.claimsRoot ∧ s.totalLocked.val = ap.totalLocked.toNat ∧
    s.relayer.val = ap.relayer.toNat ∧ s.orderHash.val = ap.orderHash := by
  have hsignals := hs.signals
  simpa only [Circuit.AuthorizeSignals.publicInputs, SettleVerifyLib.packAuthSignals, List.map_cons, List.map_nil,
    List.cons.injEq, and_true] using hsignals

theorem min_receive : ap.buyAmount.toNat * (10000 - ap.maxFee.toNat) ≤ ap.totalLocked.toNat * 10000 := by
  obtain ⟨-, -, -, -, -, -, -, -, hbuy, hfee, -, -, hlocked, -, -⟩ := hs.vals
  obtain ⟨depth, -, hsatisfied⟩ := hs.satisfied
  rw [← hbuy, ← hfee, ← hlocked]
  exact hsatisfied.min_receive

end AuthorizeProof.Backing

end ScatterDex
