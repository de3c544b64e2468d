import ScatterDex.Library.Notes
import ScatterDex.Protocol.Backing

/-!
# The notes behind the pool

The pool stores commitments and nullifiers; what they stand for is a list of notes. `NotesInvariant` ties the two together: every leaf of the tree commits to its note, and every spent nullifier is that of some note. A backed spend opens a note of the list: its membership proof ends in a root the pool knew, that root is the root of a prefix of the log, and no collision leads anywhere but to a leaf.
-/

namespace ScatterDex

open Bn254 Fallible

/-- The number under which a note is spent. -/
def Note.nullifier (P : Poseidon) (n : Note) : ℕ := (P.hash n.nullifierPreimage).val

/-- The balance of a note, counted in a token. -/
def Note.balanceIn (token : Address) (n : Note) : ℕ := if n.token = (token.toNat : Scalar) then n.balance.val else 0

/-- The leaves of a log, padded, as field elements. -/
def fieldLeaf (log : List ℕ) (i : ℕ) : Scalar := ((MerkleTree.padded 0 log i : ℕ) : Scalar)

/-- Every pair of every tree the pool ever had was hashed. -/
structure CommitmentPool.TreesAsked (P : Poseidon) (pool : CommitmentPool) : Prop where
  pairsIn : ∀ k ≤ pool.committed.length,
    MerkleTree.PairsIn P.hashPair P.askedPairs (fieldLeaf (pool.committed.take k)) pool.tree.levels 0

/-- A list of notes behind the pool. -/
structure NotesInvariant (D : Deployment) (w : World) (notes : List Note) : Prop where
  tracks : IncrementalMerkleTree.Tracks D.poseidon w.pool.tree w.pool.committed
  authorized : w.pool.authorizedSettlement = 0 ∨ w.pool.authorizedSettlement = D.settlement
  pending : w.pool.pendingSettlement = 0 ∨ w.pool.pendingSettlement = D.settlement
  commits : List.Forall₂ (fun (leaf : ℕ) n => D.poseidon.Commits n (leaf : Scalar)) w.pool.committed notes
  spent : ∀ k, w.pool.nullifiers k = true →
    ∃ n ∈ notes, n.nullifierPreimage ∈ D.poseidon.asked ∧ n.nullifier D.poseidon = k

/-! ### A known root leads to a note -/

/-- The root of an empty subtree, from the contract's table. -/
def emptyNode (level : ℕ) : Scalar := (IncrementalMerkleTree.zeroTable.getD level 0 : ℕ)

theorem emptyNode_eq {P : Poseidon} (hzeros : P.ZeroTable IncrementalMerkleTree.zeroTable) {level : ℕ} (hlevel : level < 20) :
    emptyNode level = MerkleTree.emptyRoot P.hashPair 0 level := by
  have hnode := P.cast_node (fun _ => 0) level 0
  rw [MerkleTree.node_const P.hashWords 0, Nat.cast_zero, MerkleTree.node_const P.hashPair 0] at hnode
  rw [emptyNode, hzeros.getD rfl hlevel, hnode]

theorem CommitmentPool.treesAsked_of_layersIn {P : Poseidon} {pool : CommitmentPool} (member : Scalar → Scalar → Bool)
    (hzeros : P.ZeroTable IncrementalMerkleTree.zeroTable) (hlevels : pool.tree.levels ≤ 20)
    (hmember : ∀ left right, member left right = true → (left, right) ∈ P.askedPairs)
    (hlayers : ∀ k ≤ pool.committed.length, MerkleTree.layersIn P.hashPair member emptyNode 0 pool.tree.levels
      ((pool.committed.take k).map fun leaf : ℕ => (leaf : Scalar)) = true) : pool.TreesAsked P := by
  constructor
  intro k hk
  have hlayer : MerkleTree.IsLayer P.hashPair 0 (fieldLeaf (pool.committed.take k)) 0
      ((pool.committed.take k).map fun leaf : ℕ => (leaf : Scalar)) := by
    intro index
    have hcast := List.getD_map (l := pool.committed.take k) (d := 0) (n := index) fun leaf : ℕ => (leaf : Scalar)
    rw [Nat.cast_zero] at hcast
    exact hcast
  exact MerkleTree.pairsIn_of_layersIn hmember (fun level hlevel => emptyNode_eq hzeros (by omega)) hlayer
    (hlayers k hk) 0

/-- A nonzero leaf of a padded prefix is a leaf of the log, and a note stands behind it. -/
theorem NotesInvariant.note_of_leaf {D : Deployment} {w : World} {notes : List Note} (hnotes : NotesInvariant D w notes)
    {k i : ℕ} {leaf : Scalar} (hleaf : leaf = fieldLeaf (w.pool.committed.take k) i)
    (hne : leaf ≠ 0) : ∃ n ∈ notes, D.poseidon.Commits n leaf := by
  have hlt : i < (w.pool.committed.take k).length := by
    by_contra hge
    rw [fieldLeaf, MerkleTree.padded_of_length_le 0 (not_lt.mp hge), Nat.cast_zero] at hleaf
    exact hne hleaf
  have hlength : i < w.pool.committed.length := lt_of_lt_of_le hlt (List.length_take_le' _ _)
  have hi : i < notes.length := hnotes.commits.length_eq ▸ hlength
  refine ⟨notes.get ⟨i, hi⟩, List.get_mem _ _, ?_⟩
  have hget := hnotes.commits.get hlength hi
  rw [hleaf, fieldLeaf, MerkleTree.padded, List.getD_eq_getElem _ _ hlt, List.getElem_take]
  exact hget

/-- **Membership.** A proof over the circuit's depth that ends in a root the pool knows starts at a note of the pool, even when the pool's tree is lower than the circuit's. -/
theorem NotesInvariant.note_of_membership {C : Circomlib} {D : Deployment} {w : World} {notes : List Note}
    (hnotes : NotesInvariant D w notes) (hasked : w.pool.TreesAsked D.poseidon) {n : Note} {leaf root : Scalar}
    {pathElements pathIndices : ℕ → Scalar} (hleaf : D.poseidon.Digest n.preimage leaf)
    (hproof : Circuit.MerkleProof C D.poseidon commitTreeDepth leaf pathElements pathIndices root)
    (hknown : w.pool.tree.isKnownRoot root.val = true) : n ∈ notes := by
  obtain ⟨k, hk, hroot⟩ := IncrementalMerkleTree.root_of_isKnownRoot hnotes.tracks hknown
  obtain ⟨-, hpairs, hclimb⟩ := Circuit.merkleProof_iff.mp hproof
  have hnode : root =
      MerkleTree.node D.poseidon.hashPair (fieldLeaf (w.pool.committed.take k)) w.pool.tree.levels 0 := by
    rw [← ZMod.natCast_zmod_val root, hroot]
    exact D.poseidon.cast_node _ _ _
  -- the circuit climbs `start` levels more than the pool's tree has
  obtain ⟨start, hstart⟩ : ∃ start, commitTreeDepth = start + w.pool.tree.levels :=
    ⟨commitTreeDepth - w.pool.tree.levels, (Nat.sub_add_cancel hnotes.tracks.levels_le).symm⟩
  rw [hstart] at hpairs hclimb
  have hbelow := MerkleTree.climb_start_of_node D.poseidon.hashPair_injOn hpairs (hasked.pairsIn k hk)
    (hclimb.trans hnode)
  cases start with
  | zero =>
    obtain ⟨m, hm, hcommits⟩ := hnotes.note_of_leaf hbelow hleaf.ne_zero
    rwa [Poseidon.Commits.inj hleaf hcommits]
  | succ start =>
    -- a note is not the preimage of a pair
    have hpair := hpairs start (by omega)
    rw [MerkleTree.climb_succ] at hbelow
    obtain ⟨m, -, hcommits⟩ := hnotes.note_of_leaf hbelow (D.poseidon.ne_zero _ hpair)
    have hpreimage := Poseidon.Digest.inj hcommits ⟨hpair, rfl⟩
    simp [Note.preimage] at hpreimage

/-! ### What a backed proof opens -/

/-- Notes opened and notes created: each nullifier is that of a note behind the pool, each nonzero commitment hides a created note. -/
structure Move (D : Deployment) (notes : List Note) (nullifiers commitments : List ℕ) (spent created : List Note) :
    Prop where
  member : ∀ n ∈ spent, n ∈ notes ∧ n.nullifierPreimage ∈ D.poseidon.asked
  nullifiers : spent.map (Note.nullifier D.poseidon) = nullifiers
  commits : List.Forall₂ (fun (leaf : ℕ) n => D.poseidon.Commits n (leaf : Scalar)) (commitments.filter (· ≠ 0)) created

/-- What is created, and what is released to somebody else, is covered by what is spent. -/
def Covers (spent created : List Note) (released : Address → ℕ) : Prop :=
  ∀ token, Notes.total (Note.balanceIn token) created + released token ≤ Notes.total (Note.balanceIn token) spent

variable {C : Circomlib} {D : Deployment} {w : World} {notes : List Note}

theorem Move.append {ns cs ns' cs' : List ℕ} {spent created spent' created' : List Note}
    (hfirst : Move D notes ns cs spent created) (hsecond : Move D notes ns' cs' spent' created') :
    Move D notes (ns ++ ns') (cs ++ cs') (spent ++ spent') (created ++ created') where
  member := by
    intro n hn
    rcases List.mem_append.mp hn with hn | hn
    · exact hfirst.member n hn
    · exact hsecond.member n hn
  nullifiers := by rw [List.map_append, hfirst.nullifiers, hsecond.nullifiers]
  commits := by
    rw [List.filter_append]
    exact List.rel_append hfirst.commits hsecond.commits

theorem Covers.append {spent created spent' created' : List Note} {released released' : Address → ℕ}
    (hfirst : Covers spent created released) (hsecond : Covers spent' created' released') :
    Covers (spent ++ spent') (created ++ created') fun token => released token + released' token := by
  intro token
  have h₁ := hfirst token
  have h₂ := hsecond token
  rw [Notes.total_append, Notes.total_append]
  dsimp only
  omega

/-- The note behind a commitment, if there is one. -/
def noteOf (commitment : Scalar) (n : Note) : List Note := if commitment = 0 then [] else [n]

theorem commits_noteOf {P : Poseidon} {commitment : Scalar} {n : Note}
    (hcommits : commitment ≠ 0 → P.Commits n commitment) :
    List.Forall₂ (fun (leaf : ℕ) n => P.Commits n (leaf : Scalar)) ([commitment.val].filter (· ≠ 0))
      (noteOf commitment n) := by
  by_cases hzero : commitment = 0
  · simp [noteOf, hzero]
  · have hval : commitment.val ≠ 0 := (ZMod.val_ne_zero _).mpr hzero
    simp only [noteOf, if_neg hzero, List.filter_cons, List.filter_nil, ne_eq, hval, not_false_eq_true, decide_true,
      if_true, List.forall₂_cons, List.Forall₂.nil, and_true, ZMod.natCast_zmod_val]
    exact hcommits hzero

theorem total_noteOf_le (commitment : Scalar) (n : Note) (token : Address) :
    Notes.total (Note.balanceIn token) (noteOf commitment n) ≤ n.balanceIn token := by
  rw [noteOf]
  split
  · exact Nat.zero_le _
  · exact le_rfl

theorem nullifier_eq {P : Poseidon} {n : Note} {nullifier : Scalar}
    (hdigest : P.Digest n.nullifierPreimage nullifier) : n.nullifier P = nullifier.val := by
  rw [Note.nullifier, hdigest.2]

/-- Balances in a token, when a change note keeps the token of the note and gives up some of its balance. -/
theorem covers_of_le (n change : Note) (commitment : Scalar) {token : Address} {amount : ℕ}
    (htoken : n.token = (token.toNat : Scalar)) (hsame : change.token = n.token)
    (hle : change.balance.val + amount ≤ n.balance.val) :
    Covers [n] (noteOf commitment change) fun t => if token = t then amount else 0 := by
  intro t
  have hcreated := total_noteOf_le commitment change t
  rw [Notes.total_cons, Notes.total_nil, Nat.add_zero]
  rw [Note.balanceIn, hsame] at hcreated
  rw [Note.balanceIn]
  by_cases ht : token = t
  · subst ht
    simp only [htoken, if_true] at hcreated ⊢
    omega
  · simp only [if_neg ht, Nat.add_zero]
    split_ifs at hcreated ⊢ <;> omega

/-- A backed authorize proof opens its note and creates the residual; what it sells is released. -/
theorem AuthorizeProof.Backed.opens {ap : AuthorizeProof} (hbacked : ap.Backed C D.poseidon)
    (hnotes : NotesInvariant D w notes) (hasked : w.pool.TreesAsked D.poseidon)
    (hknown : w.pool.tree.isKnownRoot ap.commitmentRoot = true) :
    ∃ spent created, Move D notes [ap.nullifier] [ap.newCommitment] spent created ∧
      Covers spent created fun token => if ap.sellToken = token then ap.sellAmount.toNat else 0 := by
  obtain ⟨s, hs⟩ := hbacked
  obtain ⟨-, hroot, hnullifier, -, hnew, hsellToken, -, hsellAmount, -⟩ := hs.vals
  obtain ⟨depth, -, hsat⟩ := hs.satisfied
  obtain ⟨leaf, hleaf, hproof⟩ := hsat.membership
  rw [← hroot] at hknown
  have hmember := hnotes.note_of_membership hasked hleaf hproof hknown
  have htoken : s.note.token = (ap.sellToken.toNat : Scalar) := by
    rw [← hsellToken, ZMod.natCast_zmod_val]
    rfl
  refine ⟨[s.note], noteOf s.newCommitment s.residual, ⟨?_, ?_, ?_⟩, ?_⟩
  · simpa using ⟨hmember, hsat.nullifier.1⟩
  · rw [List.map_singleton, nullifier_eq hsat.nullifier, hnullifier]
  · rw [← hnew]
    exact commits_noteOf hsat.newCommitment_spec.2
  · apply covers_of_le s.note s.residual s.newCommitment htoken rfl
    have hval := hsat.newBalance_val
    have hle := hsat.sellAmount_le
    rw [← hsellAmount]
    change s.newBalance.val + s.sellAmount.val ≤ s.balance.val
    omega

theorem PrivateSettlement.CancelParams.Backed.opens {p : CancelParams} {sender : Address}
    (hbacked : p.Backed C D.poseidon sender) (hnotes : NotesInvariant D w notes)
    (hasked : w.pool.TreesAsked D.poseidon) (hknown : w.pool.tree.isKnownRoot p.commitmentRoot = true) :
    ∃ spent created, Move D notes [p.oldNullifier] [p.newCommitment] spent created ∧
      Covers spent created fun _ => 0 := by
  obtain ⟨s, hsat, hsignals⟩ := hbacked
  simp only [Circuit.CancelSignals.publicInputs, pubSignals, List.map_cons, List.map_nil, List.cons.injEq,
    and_true] at hsignals
  obtain ⟨hroot, hnullifier, -, hnew, -⟩ := hsignals
  obtain ⟨leaf, hleaf, hproof⟩ := hsat.membership
  rw [← hroot] at hknown
  have hmember := hnotes.note_of_membership hasked hleaf hproof hknown
  refine ⟨[s.note], noteOf s.newCommitment s.rotated, ⟨?_, ?_, ?_⟩, fun token => ?_⟩
  · simpa using ⟨hmember, hsat.escrowNull.1⟩
  · rw [List.map_singleton, nullifier_eq hsat.escrowNull, hnullifier]
  · rw [← hnew]
    exact commits_noteOf fun _ => hsat.newCommitment
  · exact total_noteOf_le s.newCommitment s.rotated token

/-- A backed withdrawal opens its note and creates the change. The amount is released, if it is one a token can have. -/
theorem CommitmentPool.WithdrawArgs.Backed.opens {a : WithdrawArgs} (hbacked : a.Backed C D)
    (hnotes : NotesInvariant D w notes) (hasked : w.pool.TreesAsked D.poseidon)
    (hknown : w.pool.tree.isKnownRoot a.root = true) :
    ∃ spent created, Move D notes [a.nullifierHash] [a.newCommitment] spent created ∧
      (a.amount < 2 ^ 128 → Covers spent created fun token => if a.token = token then a.amount else 0) := by
  obtain ⟨htokenAsked, s, hsat, hsignals⟩ := hbacked
  simp only [Circuit.WithdrawSignals.publicInputs, pubSignals, List.map_cons, List.map_nil, List.cons.injEq,
    and_true] at hsignals
  obtain ⟨hroot, hnullifier, hnew, htokenHash, hamount, -⟩ := hsignals
  obtain ⟨leaf, hleaf, hproof⟩ := hsat.membership
  rw [← hroot] at hknown
  have hmember := hnotes.note_of_membership hasked hleaf hproof hknown
  have htoken : s.note.token = (a.token.toNat : Scalar) := by
    have hdigest : D.poseidon.Digest [(a.token.toNat : Scalar)] s.tokenHash :=
      ⟨htokenAsked, (ZMod.val_injective _ htokenHash).symm⟩
    exact List.singleton_injective (Poseidon.Digest.inj hsat.tokenHash hdigest)
  have hchange : s.newCommitment ≠ 0 → D.poseidon.Commits s.change s.newCommitment := by
    obtain ⟨changeHash, isZeroChange, hhash, hisZero, heq⟩ := hsat.change
    obtain ⟨hzero, hkept⟩ := Circuit.masked_commitment hhash.ne_zero hisZero heq
    intro hne
    rw [hkept (mt hzero.mpr hne)]
    exact hhash
  refine ⟨[s.note], noteOf s.newCommitment s.change, ⟨?_, ?_, ?_⟩, fun hsmall => ?_⟩
  · simpa using ⟨hmember, hsat.nullifier.1⟩
  · rw [List.map_singleton, nullifier_eq hsat.nullifier, hnullifier]
  · rw [← hnew]
    exact commits_noteOf hchange
  · apply covers_of_le s.note s.change s.newCommitment htoken rfl
    rw [← hamount] at hsmall ⊢
    obtain ⟨hle, hval, -⟩ := hsat.change_spec hsmall
    rw [hval]
    omega

end ScatterDex
