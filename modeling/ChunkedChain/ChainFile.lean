import ChunkedChain.Chunk
import ChunkedChain.Failure
import ChunkedChain.FileTree.Operations
import ChunkedChain.Toml.Document

/-!
# Chain files

A chain file describes one action chain and the targets it is scheduled on. A step may set its own state
id; otherwise the id is made from the chain and the action. A target may also be written as a list of its
two ids, and a step as a list of its kind and its fields in order.
-/

namespace ChunkedChain

/-- A step as it is written in a chain file. -/
inductive StepDefinition where
  | run (action : UInt64) (id : Option String) (function : String) (args : Entries Value)
      (kwargs : Option (Entries Value))
  | script (action : UInt64) (id : Option String) (contents : String) (user : Option String)
      (timeout : Option UInt64)
  | reboot (action : UInt64) (id : Option String) (delay : UInt32)
  | rebootMark

/-- A chain and the targets it is scheduled on. -/
structure ChainFile where
  id : UInt64
  targets : List Target := []
  steps : List StepDefinition := []

namespace StepDefinition

/-- The state id of an action's step: the step's own, or the one made from the chain and the action. -/
def stateId (chain action : UInt64) (id : Option String) : String :=
  id.getD (StateId.ofAction chain action)

def toStep (chain : UInt64) : StepDefinition → Step
  | .run action id function args kwargs =>
    .state { id := stateId chain action id, task := .run function args kwargs }
  | .script action id contents user timeout =>
    .state { id := stateId chain action id, task := .script { action, contents, user, timeout } }
  | .reboot action id delay =>
    .state { id := stateId chain action id, task := .reboot delay }
  | .rebootMark => .rebootMark

def word64? : Value → Option UInt64
  | .int n => if 0 ≤ n ∧ n.toNat < UInt64.size then some (UInt64.ofNat n.toNat) else none
  | _ => none

def word32? : Value → Option UInt32
  | .int n => if 0 ≤ n ∧ n.toNat < UInt32.size then some (UInt32.ofNat n.toNat) else none
  | _ => none

def required {α : Type} (read : Value → Option α) (name : String) (fields : Entries Value) : Option α :=
  (Entries.get? name fields).bind read

def optional {α : Type} (read : Value → Option α) (name : String) (fields : Entries Value) :
    Option (Option α) :=
  match Entries.get? name fields with
  | none => some none
  | some value => (read value).map some

/-- The step that fields describe; fields that a kind does not know are ignored. -/
def ofFields? (kind : String) (fields : Entries Value) : Option StepDefinition :=
  match kind with
  | "module" => do
    return .run (← required word64? "action_id" fields) (← optional Value.text? "id" fields)
      (← required Value.text? "function" fields) ((← optional Value.fields? "args" fields).getD [])
      (← optional Value.fields? "kwargs" fields)
  | "script" => do
    return .script (← required word64? "action_id" fields) (← optional Value.text? "id" fields)
      (← required Value.text? "contents" fields) (← optional Value.text? "runas" fields)
      (← optional word64? "timeout" fields)
  | "reboot" => do
    return .reboot (← required word64? "action_id" fields) (← optional Value.text? "id" fields)
      ((← optional word32? "at_time" fields).getD 0)
  | "reboot-marker" => some .rebootMark
  | _ => none

/-- The fields of each kind in the order in which a list gives them. -/
def fieldOrder : String → List String
  | "module" => ["action_id", "id", "function", "args", "kwargs"]
  | "script" => ["action_id", "id", "contents", "runas", "timeout"]
  | "reboot" => ["action_id", "id", "at_time"]
  | _ => []

/-- The step that a value describes. All numbers in it are kept until its kind is known, so all of them
must be in range. -/
def ofValue? (value : Value) : Option StepDefinition := do
  guard (Toml.inRange Toml.keptBits value)
  match value with
  | .object fields => ofFields? (← required Value.text? "kind" fields) fields
  | .list (kind :: items) =>
    let kind ← kind.text?
    let order := fieldOrder kind
    guard (items.length ≤ order.length)
    ofFields? kind (order.zip items)
  | _ => none

end StepDefinition

namespace ChainFile

/-- The target that a value describes. Other fields of an object are passed over, and other items of a
list are not looked at. -/
def target? : Value → Option Target
  | .object fields => do
    guard (Toml.fieldsInRange Toml.ignoredBits fields)
    return ⟨← StepDefinition.required Value.text? "minion_id" fields,
      ← StepDefinition.required Value.text? "machine_id" fields⟩
  | .list (minion :: machine :: _) => do return ⟨← minion.text?, ← machine.text?⟩
  | _ => none

def each {α : Type} (read : Value → Option α) : Value → Option (List α)
  | .list items => items.mapM read
  | _ => none

/-- The chain file that a document holds. It may not hold anything else. -/
def ofValue? (value : Value) : Option ChainFile := do
  let fields ← value.fields?
  guard (fields.all fun (key, _) => key == "id" || key == "targets" || key == "steps")
  return {
    id := ← StepDefinition.required StepDefinition.word64? "id" fields
    targets := (← StepDefinition.optional (each target?) "targets" fields).getD []
    steps := (← StepDefinition.optional (each StepDefinition.ofValue?) "steps" fields).getD [] }

def load (tree : FileTree) (path : FilePath) : Except Failure ChainFile :=
  match tree.readText? path with
  | none => .error (.unreadable path)
  | some text =>
    match (Toml.parse? text).bind ofValue? with
    | some file => .ok file
    | none => .error (.badChainFile path)

def toSteps (file : ChainFile) : List Step := file.steps.map (StepDefinition.toStep file.id)

/-- The targets chosen by minion ids; all of them if none is named. -/
def chosen (file : ChainFile) (only : List String) : List Target :=
  file.targets.filter fun target => only.isEmpty || only.contains target.minion

/-- One chain for each chosen target. Every minion that is named must be a target, and there must be
targets at all. -/
def chains (file : ChainFile) (only : List String) : Except Failure (List Chain) :=
  if file.targets.isEmpty then .error (.noTargets file.id)
  else
    match only.find? fun minion => !file.targets.any (·.minion == minion) with
    | some unknown => .error (.notATarget unknown file.id)
    | none => .ok ((file.chosen only).map fun target => ⟨file.id, target, file.toSteps⟩)

end ChainFile

end ChunkedChain
