import Mathlib.Data.Finset.Basic
import ScatterDex.Sdk.Commitment

/-!
# The claim resolver of the SDK

`claimProbe.ts` and `resolveSpentClaimEntries` of `resolver.ts`: which claims of a batch are spent, by the indexer in one request or by one RPC read each.
-/

namespace ScatterDex

namespace Sdk

variable (P : Poseidon)

/-- `claimNullifierHex`: it throws for an index that is no safe natural number. -/
def claimNullifierHex (secret : ℕ) (leafIndex : ℤ) (claimsRoot : ℕ) : Option ℕ :=
  if 0 ≤ leafIndex ∧ leafIndex < 2 ^ 53 then some (computeClaimNullifier P secret leafIndex.toNat claimsRoot) else none

/-- The entries of a batch are of one settlement. -/
structure ClaimEntryRef where
  key : ℕ
  secret : ℕ
  leafIndex : ℤ
  claimsRoot : ℕ

def ClaimEntryRef.nullifier (e : ClaimEntryRef) : Option ℕ := claimNullifierHex P e.secret e.leafIndex e.claimsRoot

/-- `provider` reads the nullifier mapping, with `none` for a failed read; `indexer` is the set `fetchSpentClaimNullifiers` comes back with, `none` when it throws. Both are there only when they are configured. -/
structure ResolveSpentClaimEntriesOpts where
  entries : List ClaimEntryRef
  provider : Option (ℕ → Option Bool)
  indexer : Option (Option (Finset ℕ))
  preferProvider : Bool

structure ResolveSpentClaimEntriesResult where
  spent : List ℕ
  authoritative : Bool

namespace ResolveSpentClaimEntriesOpts

/-- The keys that the indexer answers, unless it is passed over or something throws. -/
def fromIndexer (opts : ResolveSpentClaimEntriesOpts) : Option (List ℕ) := do
  let useIndexerFirst := !(opts.preferProvider && opts.provider.isSome)
  guard useIndexerFirst
  let request ← opts.indexer
  -- one entry without a nullifier fails the batch
  guard (opts.entries.all fun e => (e.nullifier P).isSome)
  let spentHex ← request
  return (opts.entries.filter fun e => (e.nullifier P).any (· ∈ spentHex)).map ClaimEntryRef.key

end ResolveSpentClaimEntriesOpts

def resolveSpentClaimEntries (opts : ResolveSpentClaimEntriesOpts) : ResolveSpentClaimEntriesResult :=
  if opts.entries = [] then ⟨[], true⟩
  else
    match opts.fromIndexer P with
    | some spent => ⟨spent, true⟩
    | none =>
      match opts.provider with
      | some probe => ⟨(opts.entries.filter fun e => ((e.nullifier P).bind probe).getD false).map ClaimEntryRef.key, false⟩
      | none => ⟨[], false⟩

variable {P}

/-- Where an answer comes from. -/
theorem resolveSpentClaimEntries_cases (opts : ResolveSpentClaimEntriesOpts) :
    (opts.entries = [] ∧ resolveSpentClaimEntries P opts = ⟨[], true⟩) ∨
    (∃ spentHex, opts.indexer = some (some spentHex) ∧ ¬(opts.preferProvider = true ∧ opts.provider.isSome = true) ∧
      resolveSpentClaimEntries P opts =
        ⟨(opts.entries.filter fun e => (e.nullifier P).any (· ∈ spentHex)).map ClaimEntryRef.key, true⟩) ∨
    (∃ probe, opts.provider = some probe ∧ resolveSpentClaimEntries P opts =
      ⟨(opts.entries.filter fun e => ((e.nullifier P).bind probe).getD false).map ClaimEntryRef.key, false⟩) ∨
    resolveSpentClaimEntries P opts = ⟨[], false⟩ := by
  rw [resolveSpentClaimEntries]
  by_cases hempty : opts.entries = []
  · exact Or.inl ⟨hempty, if_pos hempty⟩
  · rw [if_neg hempty]
    cases hfrom : opts.fromIndexer P with
    | some spent =>
      simp only [ResolveSpentClaimEntriesOpts.fromIndexer, Option.bind_eq_bind, Option.bind_eq_some_iff, Option.pure_def,
        Option.some.injEq, Option.guard_eq_some'] at hfrom
      obtain ⟨-, hfirst, request, hrequest, -, -, spentHex, hspentHex, rfl⟩ := hfrom
      refine Or.inr (Or.inl ⟨spentHex, by rw [hrequest, hspentHex], ?_, rfl⟩)
      intro hprefer
      rw [hprefer.1, hprefer.2] at hfirst
      cases hfirst
    | none =>
      cases hprovider : opts.provider with
      | some probe => exact Or.inr (Or.inr (Or.inl ⟨probe, rfl, rfl⟩))
      | none => exact Or.inr (Or.inr (Or.inr rfl))

end Sdk

end ScatterDex
