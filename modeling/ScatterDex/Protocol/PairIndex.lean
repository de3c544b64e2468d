import ScatterDex.Protocol.OrderLifecycle

/-!
# The index by token pair

The relayer lists a nullifier in the bucket of its order's directed pair by hand, at each place that changes the map. Same-token orders are never listed. In every run the bucket of a pair lists all orders of the map that exchange it. It lists no others either, unless a failed order is submitted again while the map still holds it: that path deletes the entry and leaves its bucket as it is.
-/

namespace ScatterDex

open Transactions

namespace Relayer

/-- `ordersByPair` -/
def World.ordersByPair (w : World) (pair : DirectedPair) : Set ℕ := {n | (w.cells n).pairs pair = true}

/-- The map holds an order under the nullifier that exchanges the pair. -/
def World.Exchanges (w : World) (n : ℕ) (pair : DirectedPair) : Prop :=
  ∃ e ∈ (w.cells n).entry, ¬e.order.SameToken ∧ e.order.directedPair = pair

/-- No order that failed is submitted again while the map still holds it. -/
def World.Purged (w : World) : Step → Prop
  | .post order _ _ => ∀ row ∈ (w.cells order.nullifier).row, row.status = .failed → (w.cells order.nullifier).entry = none
  | _ => True

section

variable {w w' : World} {a : Step} {n id : ℕ} {c c' : Cell} {t' : Option Task} {order : AuthorizeOrderFile} {pair : DirectedPair}

theorem Cell.indexOrder_pairs :
    (c.indexOrder order).pairs pair = true ↔ c.pairs pair = true ∨ ¬order.SameToken ∧ order.directedPair = pair := by
  unfold Cell.indexOrder
  split
  · rename_i hsame
    exact ⟨Or.inl, fun h => h.elim id fun h => absurd hsame h.1⟩
  · rename_i hcross
    by_cases hpair : order.directedPair = pair
    · subst hpair
      show Function.update c.pairs _ true _ = true ↔ _
      rw [Function.update_self]
      exact ⟨fun _ => Or.inr ⟨hcross, rfl⟩, fun _ => rfl⟩
    · show Function.update c.pairs _ true _ = true ↔ _
      rw [Function.update_of_ne (Ne.symm hpair)]
      exact ⟨Or.inl, fun h => h.elim id fun h => absurd h.2 hpair⟩

theorem Cell.unindexOrder_pairs :
    (c.unindexOrder order).pairs pair = true ↔ c.pairs pair = true ∧ ¬(¬order.SameToken ∧ order.directedPair = pair) := by
  unfold Cell.unindexOrder
  split
  · rename_i hsame
    exact ⟨fun h => ⟨h, fun h' => h'.1 hsame⟩, And.left⟩
  · rename_i hcross
    by_cases hpair : order.directedPair = pair
    · subst hpair
      show Function.update c.pairs _ false _ = true ↔ _
      rw [Function.update_self]
      exact ⟨fun h => (by cases h), fun h => absurd ⟨hcross, rfl⟩ h.2⟩
    · show Function.update c.pairs _ false _ = true ↔ _
      rw [Function.update_of_ne (Ne.symm hpair)]
      exact ⟨fun h => ⟨h, fun h' => hpair h'.2⟩, And.left⟩

/-- The bucket of each pair lists the nullifier if the entry of the map exchanges it, and an entry has a row. -/
structure Cell.Listed (c : Cell) : Prop where
  listed : ∀ e ∈ c.entry, ¬e.order.SameToken → c.pairs e.order.directedPair = true
  hasRow : c.row = none → c.entry = none

/-- No bucket lists the nullifier without such an entry. -/
def Cell.Unlisted (c : Cell) : Prop :=
  ∀ pair, c.pairs pair = true → ∃ e ∈ c.entry, ¬e.order.SameToken ∧ e.order.directedPair = pair

theorem Moves.index (hmove : Moves w n a c' t') :
    (c'.entry = (w.cells n).entry ∧ c'.pairs = (w.cells n).pairs ∧ (c'.row = none → (w.cells n).row = none)) ∨
      (c'.entry = none ∧ c'.pairs = (w.cells n).pairs ∧ (w.Purged a → (w.cells n).entry = none)) ∨
      ((w.cells n).row = none ∧ ∃ id post, c' = (w.cells n).postInsert id post) ∨
      (∃ e, (w.cells n).entry = some e ∧ c'.entry = none ∧ c'.pairs = ((w.cells n).unindexOrder e.order).pairs) ∨
      ∃ id, c' = (w.cells n).restart id := by
  cases hmove with
  | keep => exact Or.inl ⟨rfl, rfl, id⟩
  | @forget order relayerAddress pubKey row hn hrow hfailed =>
    subst hn
    exact Or.inr (Or.inl ⟨rfl, rfl, fun hpurged => hpurged row hrow hfailed⟩)
  | insert hpost hn hrow => exact Or.inr (Or.inr (Or.inl ⟨hrow, _, _, rfl⟩))
  | start hidle hrow' hdue hgone =>
    exact Or.inl ⟨Cell.mark_entry, Cell.mark_pairs, fun h => Option.map_eq_none_iff.mp (Cell.mark_row.symm.trans h)⟩
  | matched hidle hentry hlive => exact Or.inl ⟨rfl, rfl, id⟩
  | park hidle hrow' hdue => exact Or.inl ⟨rfl, rfl, Option.map_eq_none_iff.mp⟩
  | ownSettled hjob hn hmined =>
    exact Or.inl ⟨Cell.mark_entry, Cell.mark_pairs, fun h => Option.map_eq_none_iff.mp (Cell.mark_row.symm.trans h)⟩
  | partnerSettled hjob hpair hmined =>
    exact Or.inl ⟨Cell.mark_entry, Cell.mark_pairs, fun h => Option.map_eq_none_iff.mp (Cell.mark_row.symm.trans h)⟩
  | ownFailed hjob hn herr =>
    exact Or.inl ⟨Cell.mark_entry, Cell.mark_pairs, fun h => Option.map_eq_none_iff.mp (Cell.mark_row.symm.trans h)⟩
  | partnerFailed hjob hpair herr => exact Or.inl ⟨rfl, rfl, id⟩
  | offer hentry hlive hnow => exact Or.inl ⟨rfl, rfl, Option.map_eq_none_iff.mp⟩
  | accept hv hn => exact Or.inl ⟨rfl, rfl, Option.map_eq_none_iff.mp⟩
  | holdSettled hhold ha hmined => exact Or.inl ⟨rfl, rfl, Option.map_eq_none_iff.mp⟩
  | restore hhold ha => exact Or.inl ⟨rfl, rfl, Option.map_eq_none_iff.mp⟩
  | release hhold hstatus => exact Or.inl ⟨rfl, rfl, id⟩
  | @cancel a e hentry ha =>
    refine Or.inr (Or.inr (Or.inr (Or.inl ⟨e, hentry, rfl, ?_⟩)))
    have hpairs : ((w.cells n).cancel e).pairs = ((w.cells n).unindexOrder e.order).pairs := by
      unfold Cell.cancel Cell.removeEntry Cell.unindexOrder
      split <;> split <;> rfl
    exact hpairs
  | purge hentry hstatus => exact Or.inr (Or.inr (Or.inr (Or.inl ⟨_, hentry, rfl, rfl⟩)))
  | sweep => exact Or.inl ⟨rfl, rfl, Option.map_eq_none_iff.mp⟩
  | restart => exact Or.inr (Or.inr (Or.inr (Or.inr ⟨_, rfl⟩)))

theorem Cell.postInsert_pairs {post : Post} : (c.postInsert id post).pairs pair = true ↔
    c.pairs pair = true ∨ ¬post.order.SameToken ∧ post.order.directedPair = pair := indexOrder_pairs

theorem Cell.postInsert_entry {post : Post} : (c.postInsert id post).entry = some ⟨id, post.order, post.pubKey⟩ :=
  indexOrder_entry

theorem Cell.restart_pairs : (c.restart id).pairs pair = true ↔
    ∃ e ∈ (c.restart id).entry, ¬e.order.SameToken ∧ e.order.directedPair = pair := by
  rw [restart_entry]
  unfold restart
  cases hrow : c.row.filter fun row => row.status.isActive with
  | none => simp
  | some row => simp [indexOrder_pairs]

theorem Cell.Listed.moves (hc : (w.cells n).Listed) (hmove : Moves w n a c' t') : c'.Listed := by
  rcases hmove.index with ⟨hentry, hpairs, hrow⟩ | ⟨hentry, hpairs, -⟩ | ⟨hrow, id, post, rfl⟩ | ⟨e, he, hentry, hpairs⟩ | ⟨id, rfl⟩
  · refine ⟨fun e he hcross => ?_, fun h => ?_⟩
    · rw [hentry] at he
      rw [hpairs]
      exact hc.listed e he hcross
    · rw [hentry]
      exact hc.hasRow (hrow h)
  · refine ⟨fun e he => ?_, fun _ => hentry⟩
    rw [hentry] at he
    cases he
  · refine ⟨fun e he hcross => ?_, fun h => ?_⟩
    · rw [Cell.postInsert_entry, Option.mem_some_iff] at he
      subst he
      exact Cell.postInsert_pairs.mpr (Or.inr ⟨hcross, rfl⟩)
    · rw [Cell.postInsert, Cell.indexOrder_row] at h
      cases h
  · refine ⟨fun e he => ?_, fun _ => hentry⟩
    rw [hentry] at he
    cases he
  · refine ⟨fun e he hcross => Cell.restart_pairs.mpr ⟨e, he, hcross, rfl⟩, fun h => ?_⟩
    rw [Cell.restart_row, Option.map_eq_none_iff] at h
    rw [Cell.restart_entry, h]
    rfl

theorem Cell.Unlisted.moves (hc : (w.cells n).Unlisted) (hlisted : (w.cells n).Listed) (ha : w.Purged a)
    (hmove : Moves w n a c' t') : c'.Unlisted := by
  intro pair hpair
  rcases hmove.index with ⟨hentry, hpairs, -⟩ | ⟨-, hpairs, hnone⟩ | ⟨hrow, id, post, rfl⟩ | ⟨e, he, -, hpairs⟩ | ⟨id, rfl⟩
  · rw [hpairs] at hpair
    rw [hentry]
    exact hc pair hpair
  · rw [hpairs] at hpair
    obtain ⟨e, he, -⟩ := hc pair hpair
    rw [hnone ha] at he
    cases he
  · rcases Cell.postInsert_pairs.mp hpair with hpair | ⟨hcross, hpair⟩
    · obtain ⟨e, he, -⟩ := hc pair hpair
      rw [hlisted.hasRow hrow] at he
      cases he
    · exact ⟨_, Cell.postInsert_entry, hcross, hpair⟩
  · rw [hpairs, Cell.unindexOrder_pairs] at hpair
    obtain ⟨e', he', hother⟩ := hc pair hpair.1
    obtain rfl := Option.some.inj (he.symm.trans he')
    exact absurd hother hpair.2
  · exact Cell.restart_pairs.mp hpair

end

/-! ### Runs -/

structure World.Indexed (w : World) : Prop where
  distinct : w.Distinct
  listed : ∀ n, (w.cells n).Listed

theorem World.indexed_start (nowMs : ℕ) : (World.start nowMs).Indexed where
  distinct := (World.sound_start nowMs).distinct
  listed n := ⟨fun e he => (by cases he), fun _ => rfl⟩

theorem World.Indexed.step {w w' : World} {a : Step} (hw : w.Indexed) (hstep : run a w = .ok w') : w'.Indexed where
  distinct := hw.distinct.step hstep
  listed n := (hw.listed n).moves (World.moves hw.distinct hstep n)

/-- In every run an order of the map is listed under its pair, and in a run that submits no failed order again before it left the map, nothing else is. -/
theorem orders_indexed (nowMs : ℕ) (as : List Step) :
    (∀ n pair, (after run (World.start nowMs) as).Exchanges n pair → n ∈ (after run (World.start nowMs) as).ordersByPair pair) ∧
      (Along run World.Purged (World.start nowMs) as → ∀ n pair,
        n ∈ (after run (World.start nowMs) as).ordersByPair pair ↔ (after run (World.start nowMs) as).Exchanges n pair) := by
  have hlisted : (after run (World.start nowMs) as).Indexed :=
    invariant (fun a _ w w' hw hstep => hw.step hstep) (World.indexed_start nowMs)
  have hin : ∀ n pair, (after run (World.start nowMs) as).Exchanges n pair →
      n ∈ (after run (World.start nowMs) as).ordersByPair pair := by
    intro n pair hexchanges
    obtain ⟨e, he, hcross, rfl⟩ := hexchanges
    exact (hlisted.listed n).listed e he hcross
  refine ⟨hin, fun halong n pair => ⟨?_, hin n pair⟩⟩
  have hunlisted : (after run (World.start nowMs) as).Indexed ∧ ∀ n, ((after run (World.start nowMs) as).cells n).Unlisted := by
    apply invariant_along (I := fun w : World => w.Indexed ∧ ∀ n, (w.cells n).Unlisted) _ _ halong
    · intro w a w' hw ha hstep
      exact ⟨hw.1.step hstep, fun n => (hw.2 n).moves (hw.1.listed n) ha (World.moves hw.1.distinct hstep n)⟩
    · exact ⟨World.indexed_start nowMs, fun n pair h => (by cases h)⟩
  exact hunlisted.2 n pair

theorem orders_indexed_submitted : 5 ∈ (after run (World.start 0) (submitted (plainOrder 5 7 8 100) (1, 2))).ordersByPair (7, 8) := by
  have hpurged : Along run World.Purged (World.start 0) (submitted (plainOrder 5 7 8 100) (1, 2)) :=
    ⟨fun row hrow => (by cases hrow), trivial, trivial, trivial⟩
  apply ((orders_indexed 0 _).2 hpurged 5 (7, 8)).mpr
  exact ⟨⟨0, plainOrder 5 7 8 100, (1, 2)⟩, by decide +kernel, by decide, rfl⟩

/-- A same-token order is in the map and in no bucket. -/
theorem same_token_unindexed :
    ¬∀ nowMs as n pair, n ∈ (after run (World.start nowMs) as).ordersByPair pair ↔
      ∃ e ∈ ((after run (World.start nowMs) as).cells n).entry, e.order.directedPair = pair := by
  intro h
  have hlisted := (h 0 (submitted (plainOrder 5 7 7 100) (1, 2)) 5 (7, 7)).mpr ⟨⟨0, plainOrder 5 7 7 100, (1, 2)⟩, by decide +kernel, rfl⟩
  have hnot : ((after run (World.start 0) (submitted (plainOrder 5 7 7 100) (1, 2))).cells 5).pairs (7, 7) = false := by
    decide +kernel
  exact absurd (hnot.symm.trans hlisted) Bool.false_ne_true

end Relayer

end ScatterDex
