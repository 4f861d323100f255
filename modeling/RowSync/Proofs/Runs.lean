/-!
# Runs

A step takes a state and an input to an output and the next state. A run makes a step for each input
of a list (`runAll`). Runs of two kinds of steps have the same outputs if their states stay related
(`runAll_alike`), where the relation may speak of the inputs that are still to come.
-/

namespace RowSync

variable {σ τ ι ο : Type}

/-- Take the inputs one after the other: the outputs, and the state after the last input. -/
def runAll (step : σ → ι → ο × σ) (state : σ) : List ι → List ο × σ
  | [] => ([], state)
  | input :: rest =>
    let (output, state) := step state input
    let (outputs, state) := runAll step state rest
    (output :: outputs, state)

variable {step : σ → ι → ο × σ} {step' : τ → ι → ο × τ} {state : σ} {state' : τ} {inputs : List ι}

/-- A run makes a step, and then a run from where the step led. -/
theorem runAll_cons (step : σ → ι → ο × σ) (state : σ) (input : ι) (rest : List ι) :
    runAll step state (input :: rest) =
      ((step state input).1 :: (runAll step (step state input).2 rest).1,
        (runAll step (step state input).2 rest).2) := rfl

/-- If steps of related states have the same output and lead to related states, then so do runs. -/
theorem runAll_alike (related : List ι → σ → τ → Prop)
    (hstep : ∀ {input rest state state'}, related (input :: rest) state state' →
      (step state input).1 = (step' state' input).1 ∧
        related rest (step state input).2 (step' state' input).2)
    (h : related inputs state state') :
    (runAll step state inputs).1 = (runAll step' state' inputs).1 ∧
      related [] (runAll step state inputs).2 (runAll step' state' inputs).2 := by
  induction inputs generalizing state state' with
  | nil => exact ⟨rfl, h⟩
  | cons input rest ih =>
    obtain ⟨houtput, hafter⟩ := hstep h
    obtain ⟨houtputs, hlast⟩ := ih hafter
    refine ⟨?_, hlast⟩
    rw [runAll_cons, runAll_cons, houtput, houtputs]

/-- If every input has the same output and leaves the state as it is, then so does a run. -/
theorem runAll_of_fixed {output : ο} (hstep : ∀ input, step state input = (output, state))
    (inputs : List ι) : runAll step state inputs = (inputs.map fun _ => output, state) := by
  induction inputs with
  | nil => rfl
  | cons input rest ih => rw [runAll_cons, hstep, ih, List.map_cons]

end RowSync
