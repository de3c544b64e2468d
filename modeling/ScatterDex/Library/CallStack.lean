import Mathlib.Init

/-!
# Calls inside calls

A machine whose calls nest: a call that begins puts the state from before it on a stack, and one that fails puts that state back. A property of states that the steps keep holds of every state such a machine can be in, if it holds of the saved ones as well.
-/

/-- The state, and for each open call what is left of it to do and the state from before it. -/
structure CallStack (σ κ : Type*) where
  state : σ
  frames : List (κ × σ)

namespace CallStack

variable {σ κ : Type*} {c c' : CallStack σ κ} {I : σ → Prop}

/-- A machine without an open call. -/
def idle (state : σ) : CallStack σ κ := ⟨state, []⟩

/-- The state moves on. -/
def goto (c : CallStack σ κ) (state : σ) : CallStack σ κ := { c with state }

/-- A call begins and leaves a state to the code it calls. -/
def enter (c : CallStack σ κ) (pending : κ) (state : σ) : CallStack σ κ :=
  ⟨state, (pending, c.state) :: c.frames⟩

/-- The innermost call ends: it does what was left, or everything since its beginning is undone. -/
def leave (resume : κ → σ → σ) (c : CallStack σ κ) (success : Bool) : Option (CallStack σ κ) :=
  match c.frames with
  | [] => none
  | (pending, saved) :: frames => some ⟨if success then resume pending c.state else saved, frames⟩

/-- The state and all saved ones have a property. -/
structure Everywhere (I : σ → Prop) (c : CallStack σ κ) : Prop where
  state : I c.state
  saved : ∀ frame ∈ c.frames, I frame.2

theorem everywhere_idle {state : σ} (hstate : I state) : Everywhere (κ := κ) I (idle state) where
  state := hstate
  saved frame hframe := by cases hframe

theorem Everywhere.goto (hc : Everywhere I c) {state : σ} (hstate : I state) : Everywhere I (c.goto state) where
  state := hstate
  saved := hc.saved

theorem Everywhere.enter (hc : Everywhere I c) (pending : κ) {state : σ} (hstate : I state) :
    Everywhere I (c.enter pending state) where
  state := hstate
  saved := by
    intro frame hframe
    rcases List.mem_cons.mp hframe with rfl | hold
    · exact hc.state
    · exact hc.saved frame hold

theorem Everywhere.leave {resume : κ → σ → σ} (hresume : ∀ pending state, I state → I (resume pending state))
    (hc : Everywhere I c) {success : Bool} (hleave : c.leave resume success = some c') : Everywhere I c' := by
  unfold CallStack.leave at hleave
  split at hleave
  · cases hleave
  · rename_i pending saved frames hframes
    obtain rfl := Option.some.inj hleave
    have hsaved := hc.saved
    rw [hframes] at hsaved
    refine ⟨?_, fun frame hframe => hsaved frame (List.mem_cons_of_mem _ hframe)⟩
    cases success with
    | true => exact hresume pending _ hc.state
    | false => exact hsaved (pending, saved) List.mem_cons_self

end CallStack
