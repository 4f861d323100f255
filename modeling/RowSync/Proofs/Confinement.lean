import RowSync.Proofs.Runs

/-!
# Confinement

The states of a system have parts under keys. An action is confined to a part (`ConfinedTo`) if this
part alone decides what the action tells and what becomes of the part, and if all other parts stay
as they are. In a run of inputs each of which is confined, the inputs that are about other parts can
be left out: the rest of the run has the same outputs and leaves the same part
(`runAll_filter_of_confined`).
-/

namespace RowSync

variable {σ κ ν ι ο α β : Type}

/-- From sound states, the action is told and done by the part under a key alone. -/
structure ConfinedTo (sound : σ → Prop) (part : κ → σ → ν) (key : κ) (action : σ → α × σ) :
    Prop where
  /-- States with the same part have the same result and the same part after the action. -/
  alike : ∀ {state other : σ}, sound state → sound other → part key state = part key other →
    (action state).1 = (action other).1 ∧ part key (action state).2 = part key (action other).2
  /-- All other parts stay as they are. -/
  others : ∀ {state : σ} {other : κ}, sound state → other ≠ key →
    part other (action state).2 = part other state
  /-- Sound states stay sound. -/
  sound : ∀ {state : σ}, sound state → sound (action state).2

section Actions

variable {sound : σ → Prop} {part : κ → σ → ν} {key : κ} {action : σ → α × σ}

/-- An action that leaves every state as it is, and tells the same of states with the same part. -/
theorem confinedTo_of_reads (hstate : ∀ state, (action state).2 = state)
    (htold : ∀ state other, part key state = part key other →
      (action state).1 = (action other).1) : ConfinedTo sound part key action where
  alike {state other} _ _ hpart := by
    rw [hstate, hstate]
    exact ⟨htold state other hpart, hpart⟩
  others {state _} _ _ := by rw [hstate]
  sound {state} h := by rwa [hstate]

/-- An action stays confined when its result is told as something else. -/
theorem ConfinedTo.map (h : ConfinedTo sound part key action) (f : α → β) :
    ConfinedTo sound part key fun state => (f (action state).1, (action state).2) where
  alike hstate hother hpart :=
    ⟨congrArg f (h.alike hstate hother hpart).1, (h.alike hstate hother hpart).2⟩
  others := h.others
  sound := h.sound

end Actions

/-! ## Runs -/

/-- The outputs of those inputs that are kept. -/
def outputsOf (keep : ι → Bool) (inputs : List ι) (outputs : List ο) : List ο :=
  ((inputs.zip outputs).filter fun entry => keep entry.1).map Prod.snd

theorem outputsOf_cons (keep : ι → Bool) (input : ι) (output : ο) (inputs : List ι)
    (outputs : List ο) : outputsOf keep (input :: inputs) (output :: outputs) =
      if keep input then output :: outputsOf keep inputs outputs
      else outputsOf keep inputs outputs := by
  rw [outputsOf, List.zip_cons_cons, List.filter_cons]
  split <;> rfl

variable {sound : σ → Prop} {part : κ → σ → ν} {step : σ → ι → ο × σ} {keep : ι → Bool} {key : κ}

/-- A run from which inputs are left out that are confined to other parts has the same outputs
otherwise, and leaves the same part, if the inputs that are kept are confined to this part. -/
theorem runAll_filter_of_confined
    (hkept : ∀ input, keep input → ConfinedTo sound part key fun state => step state input)
    (hleft : ∀ input, keep input = false →
      ∃ other, other ≠ key ∧ ConfinedTo sound part other fun state => step state input)
    {state other : σ} (hstate : sound state) (hother : sound other)
    (hpart : part key state = part key other) (inputs : List ι) :
    outputsOf keep inputs (runAll step state inputs).1 =
        (runAll step other (inputs.filter keep)).1 ∧
      part key (runAll step state inputs).2 =
        part key (runAll step other (inputs.filter keep)).2 := by
  -- The state of the shorter run stands still while an input is left out; the parts stay the same.
  induction inputs generalizing state other with
  | nil => exact ⟨rfl, hpart⟩
  | cons input rest ih =>
    rw [runAll_cons, outputsOf_cons, List.filter_cons]
    cases hkeep : keep input with
    | true =>
      have hinput := hkept input hkeep
      obtain ⟨houtput, hafter⟩ := hinput.alike hstate hother hpart
      obtain ⟨houtputs, hlast⟩ := ih (hinput.sound hstate) (hinput.sound hother) hafter
      refine ⟨?_, hlast⟩
      simp only [↓reduceIte, runAll_cons, houtput, houtputs]
    | false =>
      obtain ⟨elsewhere, hne, hinput⟩ := hleft input hkeep
      exact ih (hinput.sound hstate) hother ((hinput.others hstate hne.symm).trans hpart)

end RowSync
