import ChunkedChain.Value

/-!
# Tables in TOML

A document is a table of tables that grows line by line. A table is defined once: by a header of its own,
or by the dotted keys that first name it. Headers may add tables inside any table that was not written
inline. A header that only leads to a table deeper inside does not define the tables on its way: a header
of their own may, or dotted keys that go through them. Dotted keys add to no table that a header has
defined. What is written inline is closed.
-/

namespace ChunkedChain.Toml

/-- What has made a table so far. -/
inductive TableKind where
  /-- A header of its own. -/
  | defined
  /-- A header of a table inside it. -/
  | implied
  /-- A dotted key. -/
  | dotted
  deriving DecidableEq, Repr

inductive Item where
  /-- A value that was written inline. -/
  | value (v : Value)
  | table (kind : TableKind) (entries : List (String × Item))
  /-- An array of tables, one for each header in double brackets. -/
  | tables (elements : List (List (String × Item)))

namespace Table

/-- Puts a value under a dotted key. The tables that the key goes through are its own from then on. -/
def add : (key : List String) → Value → Entries Item → Option (Entries Item)
  | [], _, _ => none
  | [name], v, entries =>
    if entries.contains name then none else some (Entries.insert name (.value v) entries)
  | name :: next :: rest, v, entries =>
    match Entries.get? name entries with
    | none => (add (next :: rest) v []).map fun inner =>
        Entries.insert name (.table .dotted inner) entries
    | some (.table .defined _) => none
    | some (.table _ inner) => (add (next :: rest) v inner).map fun inner =>
        Entries.insert name (.table .dotted inner) entries
    | some (.tables elements) =>
      match rest, elements.getLast? with
      | _ :: _, some inner => (add (next :: rest) v inner).map fun inner =>
          Entries.insert name (.tables (elements.dropLast ++ [inner])) entries
      | _, _ => none
    | some (.value _) => none

/-- Changes the table that a path leads to; tables that are missing on the way are implied. The last
element of an array of tables stands for the array. -/
def within (change : Entries Item → Option (Entries Item)) :
    (path : List String) → Entries Item → Option (Entries Item)
  | [], entries => change entries
  | name :: rest, entries =>
    match Entries.get? name entries with
    | none => (within change rest []).map fun inner =>
        Entries.insert name (.table .implied inner) entries
    | some (.table kind inner) => (within change rest inner).map fun inner =>
        Entries.insert name (.table kind inner) entries
    | some (.tables elements) =>
      match elements.getLast? with
      | some inner => (within change rest inner).map fun inner =>
          Entries.insert name (.tables (elements.dropLast ++ [inner])) entries
      | none => none
    | some (.value _) => none

def define (name : String) (entries : Entries Item) : Option (Entries Item) :=
  match Entries.get? name entries with
  | none => some (Entries.insert name (.table .defined []) entries)
  | some (.table .implied inner) => some (Entries.insert name (.table .defined inner) entries)
  | _ => none

def append (name : String) (entries : Entries Item) : Option (Entries Item) :=
  match Entries.get? name entries with
  | none => some (Entries.insert name (.tables [[]]) entries)
  | some (.tables elements) => some (Entries.insert name (.tables (elements ++ [[]])) entries)
  | _ => none

end Table

def sortFields (fields : List (String × Value)) : List (String × Value) :=
  fields.mergeSort fun a b => a.1 ≤ b.1

theorem sortFields_of_sorted {fields : List (String × Value)}
    (sorted : (fields.map Prod.fst).Pairwise (· ≤ ·)) : sortFields fields = fields :=
  List.mergeSort_of_pairwise (by simpa [List.pairwise_map] using sorted)

mutual

/-- The value of an item; the keys of a table come in order. -/
def Item.toValue : Item → Value
  | .value v => v
  | .table _ entries => .object (sortFields (fieldsOf entries))
  | .tables elements => .list (objectsOf elements)

def fieldsOf : List (String × Item) → List (String × Value)
  | [] => []
  | entry :: rest => fieldOf entry :: fieldsOf rest

def fieldOf : String × Item → String × Value
  | (name, item) => (name, item.toValue)

def objectsOf : List (List (String × Item)) → List Value
  | [] => []
  | entries :: rest => .object (sortFields (fieldsOf entries)) :: objectsOf rest

end

end ChunkedChain.Toml
