import ChunkedChain.Log
import ChunkedChain.Requisite

/-!
# Steps

One step of an action chain is a state of the managed node (a module run, a script or a reboot) or a bare
mark that the node reboots here. A state has an id, a task and requisites; its data block maps the id to
the state body, which maps the state function to its argument list.

A document maps state ids to state bodies. The data blocks of its steps are merged in order: an id that
comes again keeps its first place and takes the last body, and every repetition is reported.
-/

namespace ChunkedChain

/-- A shell script run on the node. Its text is kept in a file of its own, to which `source` points once
the file has a name. -/
structure Script where
  action : UInt64
  contents : String
  user : Option String := none
  timeout : Option UInt64 := none
  source : Option String := none
  deriving DecidableEq, Repr

inductive Task where
  /-- Run a function of an execution module. -/
  | run (function : String) (args : Entries Value) (kwargs : Option (Entries Value))
  /-- Run a script. -/
  | script (script : Script)
  /-- Reboot the node after `delay` minutes. -/
  | reboot (delay : UInt32)

namespace Task

def rebootFunction : String := "system.reboot"

def stateFunction : Task → String
  | .run .. => "module.run"
  | .script _ => "cmd.script"
  | .reboot _ => "module.run"

/-- The arguments of the state function, without the requisites. An argument that is absent is not
written; keyword arguments are written also when there are none in them. -/
def arguments : Task → List Value
  | .run function args kwargs =>
    .entry "name" (.text function) :: args.map (fun (key, value) => .entry key value)
      ++ (kwargs.map fun fields => Value.entry "kwargs" (.object fields)).toList
  | .script s =>
    (s.source.map fun source => Value.entry "name" (.text source)).toList
      ++ (s.user.map fun user => Value.entry "runas" (.text user)).toList
      ++ (s.timeout.map fun seconds => Value.entry "timeout" (.int seconds.toNat)).toList
  | .reboot delay => [.entry "name" (.text rebootFunction), .entry "at_time" (.int delay.toNat)]

/-- Whether the node reboots when the task is done. Running the reboot function counts, in any letter
case. -/
def reboots : Task → Bool
  | .run function _ _ => function.map Char.toLower == rebootFunction
  | .script _ => false
  | .reboot _ => true

/-- Whether two tasks are the same; arguments are compared without regard to their order. -/
def same : Task → Task → Bool
  | .run f xs kx, .run g ys ky =>
    f == g && Value.sameObject xs ys &&
      match kx, ky with
      | none, none => true
      | some k, some l => Value.sameObject k l
      | _, _ => false
  | .script s, .script t => s == t
  | .reboot a, .reboot b => a == b
  | _, _ => false

end Task

/-- A named state with its requisites. -/
structure State where
  id : String
  task : Task
  requisites : Requisites := .empty

namespace State

/-- The body of the state: its function, with the arguments and the requisites. -/
def body (state : State) : Value :=
  .object [(state.task.stateFunction, .list (state.task.arguments ++ state.requisites.render))]

/-- Adds a requisite, unless the state has it already. -/
def addRequisite (state : State) (requisite : Requisite) : State :=
  { state with requisites := state.requisites.add requisite }

def same (a b : State) : Bool :=
  a.id == b.id && a.task.same b.task && a.requisites == b.requisites

end State

inductive Step where
  | state (state : State)
  /-- The node reboots here; nothing is written into a document. -/
  | rebootMark

namespace Step

def state? : Step → Option State
  | .state s => some s
  | .rebootMark => none

def id? (step : Step) : Option String := step.state?.map State.id

def requisites? (step : Step) : Option Requisites := step.state?.map State.requisites

def data : Step → Entries Value
  | .state s => [(s.id, s.body)]
  | .rebootMark => []

def reboots : Step → Bool
  | .state s => s.task.reboots
  | .rebootMark => true

def mapState (f : State → State) : Step → Step
  | .state s => .state (f s)
  | .rebootMark => .rebootMark

/-- Adds a requisite to the state of a step, and tells whether it was added. A mark takes none. -/
def tryAddRequisite (step : Step) (requisite : Requisite) : Bool × Step :=
  match step with
  | .state s =>
    let (added, requisites) := s.requisites.tryAdd requisite
    (added, .state { s with requisites })
  | .rebootMark => (false, .rebootMark)

def same : Step → Step → Bool
  | .state s, .state t => s.same t
  | .rebootMark, .rebootMark => true
  | _, _ => false

@[simp] theorem mapState_state (f : State → State) (s : State) :
    mapState f (.state s) = .state (f s) := rfl

@[simp] theorem mapState_rebootMark (f : State → State) : mapState f .rebootMark = .rebootMark := rfl

@[simp] theorem tryAddRequisite_snd (step : Step) (requisite : Requisite) :
    (step.tryAddRequisite requisite).2 = step.mapState (·.addRequisite requisite) := by
  cases step with
  | state s =>
    exact congrArg (fun requisites => state { s with requisites }) (s.requisites.tryAdd_snd requisite)
  | rebootMark => rfl

theorem tryAddRequisite_fst (step : Step) (requisite : Requisite) :
    (step.tryAddRequisite requisite).1 = true ↔ ∃ set ∈ step.requisites?, requisite ∉ set.toList := by
  cases step <;> simp [tryAddRequisite, requisites?, state?]

@[simp] theorem state?_mapState (f : State → State) (step : Step) :
    (step.mapState f).state? = step.state?.map f := by cases step <;> rfl

end Step

namespace Document

def entries (steps : List Step) : Entries Value :=
  steps.foldl (fun doc step => Entries.insertAll doc step.data) []

/-- The ids that come when the document holds them already, one for each repetition. -/
def repeatedFrom (doc : Entries Value) : List Step → List String
  | [] => []
  | step :: rest =>
    (step.data.filter fun (id, _) => doc.contains id).map Prod.fst
      ++ repeatedFrom (Entries.insertAll doc step.data) rest

def repeated (steps : List Step) : List String := repeatedFrom [] steps

/-- What is logged when `steps` are merged: a warning for each repetition. -/
def log (steps : List Step) : Log :=
  (repeated steps).map fun id =>
    ⟨.warn, .documents, "Duplicate state id '" ++ id ++ "' in SLS document, keeping the last one"⟩

/-- The document of `steps` as one value. -/
def value (steps : List Step) : Value := .object (entries steps)

end Document

end ChunkedChain
