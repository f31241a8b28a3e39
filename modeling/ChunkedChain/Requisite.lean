import ChunkedChain.Value

/-!
# Requisites

A state is ordered by the requisites it declares, not by its place in the document. `Requisites` is the
ordered, duplicate-free set of them on one state; `render` groups the set by kind, the kinds in the
order of their first appearance.
-/

namespace ChunkedChain

/-- The kinds of dependency on another state. -/
inductive RequisiteKind where
  /-- Run after the target, only if it succeeded. -/
  | require
  /-- Run after the target, and react to its changes. -/
  | watch
  /-- Run only if the target changed something. -/
  | onchanges
  /-- Run only if the target failed. -/
  | onfail
  deriving DecidableEq, Repr

namespace RequisiteKind

def keyword : RequisiteKind → String
  | .require => "require"
  | .watch => "watch"
  | .onchanges => "onchanges"
  | .onfail => "onfail"

def ofKeyword? : String → Option RequisiteKind
  | "require" => some .require
  | "watch" => some .watch
  | "onchanges" => some .onchanges
  | "onfail" => some .onfail
  | _ => none

end RequisiteKind

/-- A dependency on the state `id` of the state module `module`. -/
structure Requisite where
  kind : RequisiteKind
  module : String
  id : String
  deriving DecidableEq, Repr

/-- The requisites of one state, in the order in which they were added. -/
structure Requisites where
  toList : List Requisite := []
  deriving DecidableEq, Repr, Inhabited

namespace Requisites

def empty : Requisites := ⟨[]⟩

def add (set : Requisites) (requisite : Requisite) : Requisites :=
  if requisite ∈ set.toList then set else ⟨set.toList ++ [requisite]⟩

/-- Adds a requisite at the end, unless the set holds it already, and tells whether it was added. -/
def tryAdd (set : Requisites) (requisite : Requisite) : Bool × Requisites :=
  if requisite ∈ set.toList then (false, set) else (true, ⟨set.toList ++ [requisite]⟩)

def addAll (set : Requisites) (new : List Requisite) : Requisites := new.foldl add set

/-- Adds requisites one after the other, and tells of each whether it was added. -/
def tryAddAll (set : Requisites) : List Requisite → List Bool × Requisites
  | [] => ([], set)
  | requisite :: rest =>
    let (added, next) := set.tryAdd requisite
    let (answers, last) := next.tryAddAll rest
    (added :: answers, last)

def ofKind (set : Requisites) (kind : RequisiteKind) : List Requisite :=
  set.toList.filter (·.kind = kind)

def newKinds (seen : List RequisiteKind) : List Requisite → List RequisiteKind
  | [] => []
  | r :: rest =>
    if r.kind ∈ seen then newKinds seen rest else r.kind :: newKinds (r.kind :: seen) rest

/-- The kinds that occur, in order of first appearance. -/
def kinds (set : Requisites) : List RequisiteKind := newKinds [] set.toList

/-- How a requisite names its target. -/
def target (requisite : Requisite) : Value := .entry requisite.module (.text requisite.id)

/-- The entries of a state's argument list: one for each kind, listing its targets. -/
def render (set : Requisites) : List Value :=
  set.kinds.map fun kind => .entry kind.keyword (.list ((set.ofKind kind).map target))

theorem add_of_mem {set : Requisites} {requisite : Requisite} (h : requisite ∈ set.toList) :
    set.add requisite = set := if_pos h

theorem toList_add_of_not_mem {set : Requisites} {requisite : Requisite} (h : requisite ∉ set.toList) :
    (set.add requisite).toList = set.toList ++ [requisite] := by simp [add, h]

@[simp] theorem tryAdd_snd (set : Requisites) (requisite : Requisite) :
    (set.tryAdd requisite).2 = set.add requisite := by
  unfold tryAdd add
  split <;> rfl

@[simp] theorem tryAdd_fst (set : Requisites) (requisite : Requisite) :
    (set.tryAdd requisite).1 = decide (requisite ∉ set.toList) := by
  by_cases held : requisite ∈ set.toList <;> simp [tryAdd, held]

@[simp] theorem tryAddAll_snd (set : Requisites) (new : List Requisite) :
    (set.tryAddAll new).2 = set.addAll new := by
  induction new generalizing set with
  | nil => rfl
  | cons requisite rest ih => simp [tryAddAll, addAll, ih]

end Requisites

end ChunkedChain
