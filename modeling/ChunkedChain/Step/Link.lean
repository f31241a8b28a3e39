import ChunkedChain.Log
import ChunkedChain.Step

/-!
# Links between steps

A step is made to run after another one by requiring it, under the name by which states refer to each
other: the state module and the state id. `StateRef.of?` reads that name off the data block, so it holds
for the step as it will be written.
-/

namespace ChunkedChain

/-- How other states refer to a state. -/
structure StateRef where
  module : String
  id : String
  deriving DecidableEq, Repr

namespace StateRef

/-- The parts of a dotted name, without empty parts at its end. -/
def nameParts (name : String) : List (List Char) :=
  let parts := name.toList.splitOn '.'
  match (parts.reverse.dropWhile List.isEmpty).reverse with
  | [] => parts.take 1
  | trimmed => trimmed

/-- The state module of a state function such as `module.run`: the first of exactly two parts. -/
def moduleOfFunction? (function : String) : Option String :=
  match nameParts function with
  | [module, _] => some (String.ofList module)
  | _ => none

/-- The state module of a state body, taken from its first key. -/
def moduleOfBody? (body : Value) : Option String := do
  let fields ← body.fields?
  let (function, _) ← fields.head?
  moduleOfFunction? function

/-- How other states refer to a step. The module is empty if the body does not tell it. -/
def of? (step : Step) : Option StateRef :=
  step.data.head?.map fun (id, body) => ⟨(moduleOfBody? body).getD "", id⟩

def log (step : Step) : Log :=
  match step.data.head? with
  | some (id, body) =>
    if (moduleOfBody? body).isSome then [] else
      [⟨.debug, .requisites,
        "Could not derive state module for '" ++ id ++ "', using an empty module name"⟩]
  | none => []

def requirement (ref : StateRef) : Requisite := ⟨.require, ref.module, ref.id⟩

end StateRef

namespace Step

/-- The last step that has a data block. -/
def lastReal? (steps : List Step) : Option Step := steps.reverse.find? (·.state?.isSome)

/-- How other states refer to the last step that has a data block. -/
def lastRef? (steps : List Step) : Option StateRef := (lastReal? steps).bind StateRef.of?

/-- Makes `step` require `previous`. Nothing changes if there is no previous step, if that is a mark, or
if `step` is one. -/
def after (previous : Option Step) (step : Step) : Step :=
  match previous.bind StateRef.of? with
  | some ref => step.mapState (·.addRequisite ref.requirement)
  | none => step

end Step

end ChunkedChain
