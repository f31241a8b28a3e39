/-!
# Ordered entries

A mapping that keeps its keys in the order in which they first came, as a list of pairs. A value put
under a key that is already there takes over the place of the old one, so `insert` never moves a key and
never repeats one.
-/

namespace ChunkedChain

universe u

/-- Pairs of a key and a value, in the order of the keys' first insertion. -/
abbrev Entries (α : Type u) := List (String × α)

namespace Entries

variable {α : Type u}

def keys (entries : Entries α) : List String := entries.map Prod.fst

def get? (key : String) : Entries α → Option α
  | [] => none
  | (k, v) :: rest => if k = key then some v else get? key rest

def contains (entries : Entries α) (key : String) : Bool := (get? key entries).isSome

/-- Puts `value` under `key`: in the place of the old value if there is one, else at the end. -/
def insert (key : String) (value : α) : Entries α → Entries α
  | [] => [(key, value)]
  | (k, v) :: rest => if k = key then (k, value) :: rest else (k, v) :: insert key value rest

def insertAll (entries new : Entries α) : Entries α :=
  new.foldl (fun acc pair => insert pair.1 pair.2 acc) entries

theorem insertAll_nil (entries : Entries α) : insertAll entries [] = entries := rfl

theorem insertAll_cons (entries : Entries α) (pair : String × α) (new : Entries α) :
    insertAll entries (pair :: new) = insertAll (insert pair.1 pair.2 entries) new := rfl

theorem get?_insert_self (key : String) (value : α) (entries : Entries α) :
    get? key (insert key value entries) = some value := by
  induction entries with
  | nil => simp [insert, get?]
  | cons pair rest ih => by_cases h : pair.1 = key <;> simp [insert, get?, h, ih]

theorem get?_insert_of_ne {key other : String} (h : key ≠ other) (value : α) (entries : Entries α) :
    get? other (insert key value entries) = get? other entries := by
  induction entries with
  | nil => simp [insert, get?, h]
  | cons pair rest ih =>
    by_cases hk : pair.1 = key
    · simp [insert, get?, hk, h]
    · simp [insert, get?, hk, ih]

end Entries

end ChunkedChain
