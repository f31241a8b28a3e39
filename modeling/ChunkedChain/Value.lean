import ChunkedChain.Entries

/-!
# Values

The data that steps carry and reports hold: scalars, lists and ordered objects. An integer is never the
same value as a double, and two objects are the same when they hold the same values under the same keys,
in whatever order.
-/

namespace ChunkedChain

/-- A value of a step argument, a chain file or a report. -/
inductive Value where
  | null
  | bool (b : Bool)
  | int (n : Int)
  | float (x : Float)
  | text (s : String)
  | list (items : List Value)
  | object (fields : List (String × Value))
  deriving Inhabited

namespace Value

/-- An object with a single entry, the shape of every item of a state's argument list. -/
def entry (key : String) (value : Value) : Value := .object [(key, value)]

def fields? : Value → Option (Entries Value)
  | .object fields => some fields
  | _ => none

def text? : Value → Option String
  | .text s => some s
  | _ => none

def bool? : Value → Option Bool
  | .bool b => some b
  | _ => none

def field? (key : String) (value : Value) : Option Value := value.fields?.bind (Entries.get? key)

mutual

/-- Whether two values are the same: lists item by item, objects key by key without regard to order,
doubles as numbers. -/
def same : Value → Value → Bool
  | .null, .null => true
  | .bool a, .bool b => a == b
  | .int a, .int b => a == b
  | .float a, .float b => a == b
  | .text a, .text b => a == b
  | .list xs, .list ys => sameItems xs ys
  | .object xs, .object ys => xs.length == ys.length && sameFields xs ys
  | _, _ => false

def sameItems : List Value → List Value → Bool
  | [], [] => true
  | x :: xs, y :: ys => same x y && sameItems xs ys
  | _, _ => false

def sameFields : List (String × Value) → List (String × Value) → Bool
  | [], _ => true
  | field :: rest, ys => sameField field ys && sameFields rest ys

def sameField : String × Value → List (String × Value) → Bool
  | (key, x), ys =>
    match Entries.get? key ys with
    | some y => same x y
    | none => false

end

instance : BEq Value := ⟨same⟩

/-- Whether two sets of fields are the same, in whatever order. -/
def sameObject (xs ys : Entries Value) : Bool := xs.length == ys.length && sameFields xs ys

end Value

end ChunkedChain
