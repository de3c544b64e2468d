import Mathlib.Data.List.Nodup

/-!
# Tables with a primary key

A table is the list of its rows in the order they were inserted, and no two rows share a key. The statements of a database (insert unless the key is taken, delete where, update where) are operations that keep this; each comes with the rows it leaves.
-/

variable {α κ : Type}

/-- A table whose rows are told apart by a key. -/
@[ext] structure Table (key : α → κ) where
  rows : List α
  distinct : (rows.map key).Nodup

namespace Table

variable {key : α → κ}

def empty : Table key := ⟨[], List.nodup_nil⟩

theorem eq_of_key (t : Table key) {a b : α} (ha : a ∈ t.rows) (hb : b ∈ t.rows) (hkey : key a = key b) : a = b :=
  List.inj_on_of_nodup_map t.distinct ha hb hkey

/-- `DELETE … WHERE`. -/
def delete (t : Table key) (p : α → Bool) : Table key where
  rows := t.rows.filter fun a => !p a
  distinct := t.distinct.sublist (List.filter_sublist.map key)

theorem mem_delete {t : Table key} {p : α → Bool} {a : α} : a ∈ (t.delete p).rows ↔ a ∈ t.rows ∧ p a = false := by
  simp [delete]

/-- `UPDATE … WHERE`, for an update that does not touch the key. -/
def update (t : Table key) (p : α → Bool) (f : α → α) (hf : ∀ a, key (f a) = key a) : Table key where
  rows := t.rows.map fun a => if p a then f a else a
  distinct := by
    have hkeys : (fun a => key (if p a then f a else a)) = key := by
      funext a
      split
      · exact hf a
      · rfl
    rw [List.map_map, Function.comp_def, hkeys]
    exact t.distinct

theorem mem_update {t : Table key} {p : α → Bool} {f : α → α} {hf : ∀ a, key (f a) = key a} {a : α} :
    a ∈ (t.update p f hf).rows ↔ ∃ b ∈ t.rows, (if p b then f b else b) = a :=
  List.mem_map

theorem foldl_update_rows {β : Type} {p : β → α → Bool} {f : β → α → α} {hf : ∀ b a, key (f b a) = key a} (bs : List β)
    (t : Table key) : (bs.foldl (fun t b => t.update (p b) (f b) (hf b)) t).rows =
      t.rows.map fun a => bs.foldl (fun a b => if p b a then f b a else a) a := by
  induction bs generalizing t with
  | nil => exact (List.map_id _).symm
  | cons b bs ih =>
    rw [List.foldl_cons, ih]
    exact List.map_map

/-! ### Rewriting rows -/

/-- Every row of the one table was rewritten into a row of the other, and there are no other rows. -/
structure Rewrites (R : α → α → Prop) (t t' : Table key) : Prop where
  source : ∀ a' ∈ t'.rows, ∃ a ∈ t.rows, R a a'
  target : ∀ a ∈ t.rows, ∃ a' ∈ t'.rows, R a a'

variable {R : α → α → Prop} {t t' t'' : Table key}

theorem Rewrites.refl (hrefl : ∀ a, R a a) : Rewrites R t t :=
  ⟨fun a ha => ⟨a, ha, hrefl a⟩, fun a ha => ⟨a, ha, hrefl a⟩⟩

theorem Rewrites.trans (htrans : ∀ a b c, R a b → R b c → R a c) (hfirst : Rewrites R t t')
    (hsecond : Rewrites R t' t'') : Rewrites R t t'' where
  source := by
    intro c hc
    obtain ⟨b, hb, hbc⟩ := hsecond.source c hc
    obtain ⟨a, ha, hab⟩ := hfirst.source b hb
    exact ⟨a, ha, htrans a b c hab hbc⟩
  target := by
    intro a ha
    obtain ⟨b, hb, hab⟩ := hfirst.target a ha
    obtain ⟨c, hc, hbc⟩ := hsecond.target b hb
    exact ⟨c, hc, htrans a b c hab hbc⟩

theorem rewrites_update {p : α → Bool} {f : α → α} {hf : ∀ a, key (f a) = key a} (hrefl : ∀ a, R a a)
    (hwrite : ∀ a, p a = true → R a (f a)) : Rewrites R t (t.update p f hf) := by
  have hrow : ∀ a, R a (if p a then f a else a) := by
    intro a
    split
    · exact hwrite a (by assumption)
    · exact hrefl a
  constructor
  · intro a' ha'
    obtain ⟨a, ha, rfl⟩ := mem_update.mp ha'
    exact ⟨a, ha, hrow a⟩
  · exact fun a ha => ⟨_, mem_update.mpr ⟨a, ha, rfl⟩, hrow a⟩

theorem rewrites_foldl {β : Type} {step : Table key → β → Table key} (hrefl : ∀ a, R a a)
    (htrans : ∀ a b c, R a b → R b c → R a c) {bs : List β} (hstep : ∀ b ∈ bs, ∀ t, Rewrites R t (step t b)) :
    Rewrites R t (bs.foldl step t) := by
  induction bs generalizing t with
  | nil => exact .refl hrefl
  | cons b bs ih =>
    exact (hstep b List.mem_cons_self t).trans htrans (ih fun b' hb' => hstep b' (List.mem_cons_of_mem b hb'))

variable [DecidableEq κ]

/-- `SELECT … WHERE key = ?`. -/
def lookup (t : Table key) (k : κ) : Option α := t.rows.find? fun a => key a = k

theorem lookup_eq_some {t : Table key} {k : κ} {a : α} : t.lookup k = some a ↔ a ∈ t.rows ∧ key a = k := by
  constructor
  · intro hfind
    exact ⟨List.mem_of_find?_eq_some hfind, of_decide_eq_true (List.find?_some (p := fun a => key a = k) hfind)⟩
  · rintro ⟨ha, rfl⟩
    cases hfind : t.lookup (key a) with
    | none => exact absurd rfl (of_decide_eq_false (eq_false_of_ne_true (List.find?_eq_none.mp hfind a ha)))
    | some b =>
      have hb : key b = key a := of_decide_eq_true (List.find?_some (p := fun b => key b = key a) hfind)
      rw [t.eq_of_key (List.mem_of_find?_eq_some hfind) ha hb]

theorem lookup_eq_none {t : Table key} {k : κ} : t.lookup k = none ↔ ∀ a ∈ t.rows, key a ≠ k := by
  simp [lookup]

/-- `INSERT`, unless the key is taken. -/
def insert (t : Table key) (a : α) : Option (Table key) :=
  if hfree : key a ∈ t.rows.map key then none
  else some
    { rows := t.rows ++ [a]
      distinct := by
        rw [List.map_append]
        exact t.distinct.append (List.nodup_singleton _) (by simpa using hfree) }

theorem insert_eq_some {t t' : Table key} {a : α} :
    t.insert a = some t' ↔ key a ∉ t.rows.map key ∧ t'.rows = t.rows ++ [a] := by
  unfold insert
  split
  · simp_all
  · rename_i hfree
    constructor
    · rintro ⟨⟩
      exact ⟨hfree, rfl⟩
    · rintro ⟨-, hrows⟩
      cases t'
      simp_all

theorem insert_eq_none {t : Table key} {a : α} : t.insert a = none ↔ ∃ b ∈ t.rows, key b = key a := by
  unfold insert
  split
  · rename_i htaken
    simpa using htaken
  · rename_i hfree
    simpa using hfree

/-- `INSERT OR IGNORE`, and whether it inserted. -/
def insertOrIgnore (t : Table key) (a : α) : Table key × Bool :=
  match t.insert a with
  | some t' => (t', true)
  | none => (t, false)

/-- `Map.set`: the row under a key is replaced where it stands, a new one goes last. -/
def put (t : Table key) (a : α) : Table key :=
  if hfree : key a ∈ t.rows.map key then
    { rows := t.rows.map fun b => if key b = key a then a else b
      distinct := by
        have hkeys : (fun b => key (if key b = key a then a else b)) = key := by
          funext b
          split
          · exact Eq.symm (by assumption)
          · rfl
        rw [List.map_map, Function.comp_def, hkeys]
        exact t.distinct }
  else
    { rows := t.rows ++ [a]
      distinct := by
        rw [List.map_append]
        exact t.distinct.append (List.nodup_singleton _) (by simpa using hfree) }

theorem mem_put {t : Table key} {a b : α} : b ∈ (t.put a).rows ↔ b = a ∨ b ∈ t.rows ∧ key b ≠ key a := by
  unfold put
  split
  · rename_i htaken
    obtain ⟨c, hc, hkey⟩ := List.mem_map.mp htaken
    simp only [List.mem_map]
    constructor
    · rintro ⟨d, hd, rfl⟩
      split
      · exact Or.inl rfl
      · exact Or.inr ⟨hd, by assumption⟩
    · rintro (rfl | ⟨hb, hne⟩)
      · exact ⟨c, hc, if_pos hkey⟩
      · exact ⟨b, hb, if_neg hne⟩
  · rename_i hfree
    have hne : ∀ c ∈ t.rows, key c ≠ key a := fun c hc hkey => hfree (List.mem_map.mpr ⟨c, hc, hkey⟩)
    simp only [List.mem_append, List.mem_singleton]
    constructor
    · rintro (hb | rfl)
      · exact Or.inr ⟨hb, hne b hb⟩
      · exact Or.inl rfl
    · rintro (rfl | ⟨hb, -⟩)
      · exact Or.inr rfl
      · exact Or.inl hb

theorem mem_foldl_put {t : Table key} {as : List α} {b : α} (hdistinct : (as.map key).Nodup) :
    b ∈ (as.foldl put t).rows ↔ b ∈ as ∨ b ∈ t.rows ∧ key b ∉ as.map key := by
  induction as generalizing t with
  | nil => simp
  | cons a as ih =>
    rw [List.map_cons, List.nodup_cons] at hdistinct
    rw [List.foldl_cons, ih hdistinct.2, mem_put, List.mem_cons, List.map_cons, List.mem_cons, not_or]
    constructor
    · rintro (hb | ⟨rfl | ⟨hb, hne⟩, hfree⟩)
      · exact Or.inl (Or.inr hb)
      · exact Or.inl (Or.inl rfl)
      · exact Or.inr ⟨hb, hne, hfree⟩
    · rintro ((rfl | hb) | ⟨hb, hne, hfree⟩)
      · exact Or.inr ⟨Or.inl rfl, hdistinct.1⟩
      · exact Or.inl hb
      · exact Or.inr ⟨Or.inr ⟨hb, hne⟩, hfree⟩

theorem countP_delete (t : Table key) (p : α → Bool) {a : α} (ha : a ∈ t.rows) :
    t.rows.countP p = (t.delete fun b => key b = key a).rows.countP p + if p a then 1 else 0 := by
  have hrow : t.rows.filter (fun b => key b = key a) = [a] := by
    have hnodup : t.rows.Nodup := t.distinct.of_map
    have hmem : ∀ b, b ∈ t.rows.filter (fun b => key b = key a) ↔ b ∈ [a] := by
      intro b
      rw [List.mem_filter, List.mem_singleton]
      constructor
      · exact fun h => t.eq_of_key h.1 ha (of_decide_eq_true h.2)
      · rintro rfl
        exact ⟨ha, decide_eq_true rfl⟩
    exact List.perm_singleton.mp ((List.perm_ext_iff_of_nodup (hnodup.filter _) (List.nodup_singleton a)).mpr hmem)
  rw [List.countP_eq_countP_filter_add t.rows p fun b => key b = key a, hrow, List.countP_singleton, Nat.add_comm]
  simp [delete]

end Table
