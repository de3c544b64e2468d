import ScatterDex.Library.Program

/-!
# Programs that can be cut anywhere

A program meets the outcomes of its operations one after another, until it ends or is cut: what it has done by then stays done. A program put together from two is cut in the first, or it finishes the first and is cut in the second.
-/

namespace Program

variable {ω : Type} {ans : ω → Type} {ε α β σ τ : Type}

theorem bind_assoc {γ : Type} (p : Program ω ans ε α) (f : α → Program ω ans ε β) (g : β → Program ω ans ε γ) :
    p >>= f >>= g = p >>= fun a => f a >>= g := by
  induction p with
  | done a => rfl
  | fail e => rfl
  | await o next ih =>
    show await o _ = await o _
    congr 1
    funext answer
    exact ih answer

/-- The memory once a program has met a list of outcomes and was cut, unless the outcomes are not those of its operations. -/
def meet (act : (o : ω) → τ → σ → Option (ans o × σ)) : Program ω ans ε α → List τ → σ → Option σ
  | _, [], m => some m
  | await o next, t :: ts, m => (act o t m).bind fun r => meet act (next r.1) ts r.2
  | _, _ :: _, _ => none

/-- The result of a program that meets exactly the outcomes it waits for. -/
def finish (act : (o : ω) → τ → σ → Option (ans o × σ)) : Program ω ans ε α → List τ → σ → Option (α × σ)
  | done a, [], m => some (a, m)
  | await o next, t :: ts, m => (act o t m).bind fun r => finish act (next r.1) ts r.2
  | _, _, _ => none

/-- Every operation the program can come to satisfies `P`. -/
inductive Only (P : ω → Prop) : Program ω ans ε α → Prop
  | done (a : α) : Only P (done a)
  | fail (e : ε) : Only P (fail e)
  | await {o : ω} {next : ans o → Program ω ans ε α} (ho : P o) (hnext : ∀ answer, Only P (next answer)) :
      Only P (await o next)

variable {act : (o : ω) → τ → σ → Option (ans o × σ)} {P : ω → Prop}

theorem Only.bind {p : Program ω ans ε α} {f : α → Program ω ans ε β} (hp : Only P p) (hf : ∀ a, Only P (f a)) :
    Only P (p >>= f) := by
  induction hp with
  | done a => exact hf a
  | fail e => exact .fail e
  | await ho _ ih => exact .await ho ih

theorem Only.mono {Q : ω → Prop} (hPQ : ∀ o, P o → Q o) {p : Program ω ans ε α} (hp : Only P p) : Only Q p := by
  induction hp with
  | done a => exact .done a
  | fail e => exact .fail e
  | await ho _ ih => exact .await (hPQ _ ho) ih

/-- What the operations of a program keep of the memory, and what they ask of their outcomes, however far it comes. -/
theorem Only.meet {I : σ → Prop} {Q : τ → Prop}
    (hact : ∀ o t m r, P o → act o t m = some r → I m → I r.2 ∧ Q t) {p : Program ω ans ε α} (hp : Only P p) {ts : List τ}
    {m m' : σ} (hI : I m) (hmeet : p.meet act ts m = some m') : I m' ∧ ∀ t ∈ ts, Q t := by
  induction hp generalizing ts m with
  | done a =>
    cases ts with
    | nil =>
      cases hmeet
      exact ⟨hI, fun _ h => absurd h List.not_mem_nil⟩
    | cons t ts => cases hmeet
  | fail e =>
    cases ts with
    | nil =>
      cases hmeet
      exact ⟨hI, fun _ h => absurd h List.not_mem_nil⟩
    | cons t ts => cases hmeet
  | @await o next ho _ ih =>
    cases ts with
    | nil =>
      cases hmeet
      exact ⟨hI, fun _ h => absurd h List.not_mem_nil⟩
    | cons t ts =>
      obtain ⟨r, hr, hnext⟩ := Option.bind_eq_some_iff.mp (show (act o t m).bind _ = some m' from hmeet)
      obtain ⟨hr', ht⟩ := hact o t m r ho hr hI
      obtain ⟨hend, hts⟩ := ih r.1 hr' hnext
      refine ⟨hend, fun u hu => ?_⟩
      rcases List.mem_cons.mp hu with rfl | hu
      · exact ht
      · exact hts u hu

end Program
