import Mathlib.Tactic.Common

/-!
# Properties along a run

A process reacts to a list of inputs one after the other. `Along` says that a property of the state
and of the input to be consumed holds at every step of the run; the rules below reduce statements
about runs to one step.
-/

namespace Process

universe u v

variable {State : Type u} {Input : Type v} {step : State → Input → State}

/-- `property` holds at every step of the run that consumes `inputs` from `state` on. -/
def Along (step : State → Input → State) (property : State → Input → Prop) :
    State → List Input → Prop
  | _, [] => True
  | state, input :: inputs =>
      property state input ∧ Along step property (step state input) inputs

@[simp]
theorem along_nil {property : State → Input → Prop} {state : State} :
    Along step property state [] :=
  trivial

@[simp]
theorem along_cons {property : State → Input → Prop} {state : State} {input : Input}
    {inputs : List Input} :
    Along step property state (input :: inputs) ↔
      property state input ∧ Along step property (step state input) inputs :=
  Iff.rfl

/-- A property that does not depend on the state holds along a run when the inputs have it. -/
theorem along_iff_forall_mem {property : Input → Prop} {state : State} {inputs : List Input} :
    Along step (fun _ input => property input) state inputs ↔ ∀ input ∈ inputs, property input := by
  induction inputs generalizing state with
  | nil => simp
  | cons input inputs ih => simp only [along_cons, ih, List.forall_mem_cons]

/-- The rule for runs: an invariant that every permitted step preserves turns a guard that holds
along the run into a property that holds along it. -/
theorem Along.of_invariant {guard property : State → Input → Prop} (invariant : State → Prop)
    (preserved : ∀ {state input}, invariant state → guard state input →
      invariant (step state input))
    (justified : ∀ {state input}, invariant state → guard state input → property state input)
    {state : State} {inputs : List Input} (initially : invariant state)
    (guarded : Along step guard state inputs) : Along step property state inputs := by
  induction inputs generalizing state with
  | nil => trivial
  | cons input inputs ih =>
      rcases guarded with ⟨first, rest⟩
      exact ⟨justified initially first, ih (preserved initially first) rest⟩

/-- An invariant that every permitted step preserves holds at the end of a run. -/
theorem Along.foldl_invariant {guard : State → Input → Prop} (invariant : State → Prop)
    (preserved : ∀ {state input}, invariant state → guard state input →
      invariant (step state input))
    {state : State} {inputs : List Input} (initially : invariant state)
    (guarded : Along step guard state inputs) : invariant (inputs.foldl step state) := by
  induction inputs generalizing state with
  | nil => exact initially
  | cons input inputs ih =>
      rcases guarded with ⟨first, rest⟩
      exact ih (preserved initially first) rest

/-- Two properties that agree for permitted inputs wherever an invariant holds agree along the runs
whose inputs are all permitted. The invariant has to survive the steps that satisfy the guard. -/
theorem along_iff_of_permitted {guard property : State → Input → Prop} (permitted : Input → Prop)
    (invariant : State → Prop)
    (preserved : ∀ {state input}, invariant state → permitted input → guard state input →
      invariant (step state input))
    (agree : ∀ {state input}, invariant state → permitted input →
      (property state input ↔ guard state input))
    {state : State} {inputs : List Input} (initially : invariant state)
    (allowed : ∀ input ∈ inputs, permitted input) :
    Along step property state inputs ↔ Along step guard state inputs := by
  induction inputs generalizing state with
  | nil => simp
  | cons input inputs ih =>
      have first := allowed input (List.mem_cons_self ..)
      have later : ∀ other ∈ inputs, permitted other := by
        intro other mem
        exact allowed other (List.mem_cons_of_mem _ mem)
      have same := agree initially first
      constructor
      · rintro ⟨holds, rest⟩
        have guarded := same.mp holds
        exact ⟨guarded, (ih (preserved initially first guarded) later).mp rest⟩
      · rintro ⟨guarded, rest⟩
        exact ⟨same.mpr guarded, (ih (preserved initially first guarded) later).mpr rest⟩

/-- Two properties that agree wherever an invariant holds agree along runs. -/
theorem along_iff_of_invariant {guard property : State → Input → Prop}
    (invariant : State → Prop)
    (preserved : ∀ {state input}, invariant state → guard state input →
      invariant (step state input))
    (agree : ∀ {state input}, invariant state → (property state input ↔ guard state input))
    {state : State} {inputs : List Input} (initially : invariant state) :
    Along step property state inputs ↔ Along step guard state inputs := by
  apply along_iff_of_permitted (fun _ => True) invariant
  · intro state input holds _ guarded
    exact preserved holds guarded
  · intro state input holds _
    exact agree holds
  · exact initially
  · intro input _
    trivial

variable {Failure : Type*}

/-- Actions joined by `&&`: the first that is false is the last that is carried out. -/
def conjunction (action : State → Input → Except Failure Bool × State) :
    State → List Input → Except Failure Bool × State
  | state, [] => (.ok true, state)
  | state, input :: inputs =>
      match action state input with
      | (.error failure, after) => (.error failure, after)
      | (.ok false, after) => (.ok false, after)
      | (.ok true, after) => conjunction action after inputs

/-- The rule for conjunctions: either all the actions were true, and what each of them adds holds, or
the conjunction ends after the first that was not. -/
theorem conjunction_cases {action : State → Input → Except Failure Bool × State}
    {inputs : List Input} (invariant : List Input → State → Prop)
    (broken : List Input → Input → State → Prop)
    (acts : ∀ {done input state}, done ++ [input] <+: inputs → invariant done state →
      (∃ after, action state input = (.ok true, after) ∧ invariant (done ++ [input]) after) ∨
        ∃ after, action state input = (.ok false, after) ∧ broken done input after)
    {state : State} (initially : invariant [] state) :
    (∃ after, conjunction action state inputs = (.ok true, after) ∧ invariant inputs after) ∨
      ∃ done input after, done ++ [input] <+: inputs ∧
        conjunction action state inputs = (.ok false, after) ∧ broken done input after := by
  -- The induction is on what is left, after the actions `done` were true.
  have onward : ∀ (left done : List Input) (state : State), done ++ left = inputs →
      invariant done state →
        (∃ after, conjunction action state left = (.ok true, after) ∧ invariant inputs after) ∨
          ∃ done input after, done ++ [input] <+: inputs ∧
            conjunction action state left = (.ok false, after) ∧ broken done input after := by
    intro left
    induction left with
    | nil =>
        intro done state all holds
        rw [List.append_nil] at all
        exact Or.inl ⟨state, rfl, all ▸ holds⟩
    | cons input left ih =>
        intro done state all holds
        have next : done ++ [input] <+: inputs := ⟨left, by simp [← all]⟩
        rcases acts next holds with ⟨after, acted, kept⟩ | ⟨after, failed, left_over⟩
        · rcases ih (done ++ [input]) after (by simp [← all]) kept with
            ⟨last, run, complete⟩ | ⟨reached, first, last, within, run, ended⟩
          · exact Or.inl ⟨last, by simp only [conjunction, acted, run], complete⟩
          · exact Or.inr ⟨reached, first, last, within, by simp only [conjunction, acted, run], ended⟩
        · exact Or.inr ⟨done, input, after, next, by simp only [conjunction, failed], left_over⟩
  exact onward inputs [] state rfl initially

universe w x

variable {Abstract : Type w} {Answer : Type x}

/-- Along a run a machine answers like an abstract one, and their states stay related. -/
def Alike (relation : State → Abstract → Prop) (machine : State → Input → Answer × State)
    (abstract : Abstract → Input → Answer × Abstract) : State → Abstract → List Input → Prop
  | _, _, [] => True
  | state, spec, input :: inputs =>
      (machine state input).1 = (abstract spec input).1 ∧
        relation (machine state input).2 (abstract spec input).2 ∧
          Alike relation machine abstract (machine state input).2 (abstract spec input).2 inputs

/-- The rule for simulations: it is enough that each permitted input is answered alike in related
states and leaves related states. -/
theorem alike_of_simulation {relation : State → Abstract → Prop}
    {machine : State → Input → Answer × State} {abstract : Abstract → Input → Answer × Abstract}
    (permitted : Input → Prop)
    (simulates : ∀ {state spec input}, relation state spec → permitted input →
      (machine state input).1 = (abstract spec input).1 ∧
        relation (machine state input).2 (abstract spec input).2)
    {state : State} {spec : Abstract} {inputs : List Input} (initially : relation state spec)
    (allowed : ∀ input ∈ inputs, permitted input) :
    Alike relation machine abstract state spec inputs := by
  induction inputs generalizing state spec with
  | nil => trivial
  | cons input inputs ih =>
      rcases simulates initially (allowed input (List.mem_cons_self ..)) with ⟨answers, related⟩
      refine ⟨answers, related, ih related ?_⟩
      intro later mem
      exact allowed later (List.mem_cons_of_mem _ mem)

end Process
