import ChunkedChain.Proofs.Documents
import ChunkedChain.Proofs.Linking
import Mathlib.Data.Fintype.EquivFin
import Mathlib.Data.Fintype.Sets
import Mathlib.Data.List.Chain
import Mathlib.Data.List.Nodup
import Mathlib.Logic.Relation

/-!
# The order that a document asks for

An entry of a document requires another one if the body kept for it lists the other's key under
`require`. A line of states, each of which requires the one before it, keeps this shape in its document
only if no id is repeated: a repetition leaves an entry from which one requirement after the other leads
back to it.
-/

namespace ChunkedChain

namespace Value

/-- The states listed in `[{module: id}]`, each with the name of its state module. -/
def targets : Value → List (String × String)
  | .list items => items.flatMap fun item =>
      (item.fields?.getD []).filterMap fun (module, id) => id.text?.map fun id => (module, id)
  | _ => []

/-- The states listed under `require` in one argument of a state function. -/
def requiredBy (argument : Value) : List (String × String) :=
  (argument.fields?.getD []).flatMap fun (key, value) => if key = "require" then value.targets else []

/-- The states listed under `require` in a state body. -/
def requires (body : Value) : List (String × String) :=
  (body.fields?.getD []).flatMap fun (_, arguments) =>
    match arguments with
    | .list items => items.flatMap requiredBy
    | _ => []

theorem requiredBy_entry (key : String) (value : Value) :
    (entry key value).requiredBy = if key = "require" then value.targets else [] := by
  simp [requiredBy, entry, fields?]

end Value

namespace Task

/-- The states that a module run lists by itself, in arguments with the name `require`. -/
def listed : Task → List (String × String)
  | .run _ args _ => args.flatMap fun (key, value) => if key = "require" then value.targets else []
  | _ => []

theorem requiredBy_arguments (task : Task) : task.arguments.flatMap Value.requiredBy = task.listed := by
  cases task with
  | run function args kwargs =>
    have own : (args.map fun (key, value) => Value.entry key value).flatMap Value.requiredBy =
        (Task.run function args kwargs).listed := by
      rw [List.flatMap_map]
      exact congrArg (args.flatMap ·) (funext fun pair => Value.requiredBy_entry pair.1 pair.2)
    have rest : ((kwargs.map fun fields => Value.entry "kwargs" (.object fields)).toList).flatMap
        Value.requiredBy = [] := by
      cases kwargs <;> simp [Value.requiredBy_entry]
    rw [arguments, List.cons_append, List.flatMap_cons, List.flatMap_append, own, rest,
      Value.requiredBy_entry]
    simp
  | script s =>
    cases h₁ : s.source <;> cases h₂ : s.user <;> cases h₃ : s.timeout <;>
      simp [arguments, listed, Value.requiredBy_entry, h₁, h₂, h₃]
  | reboot delay => simp [arguments, listed, Value.requiredBy_entry]

theorem dotless (task : Task) : '.' ∉ task.stateModule.toList ∧ '.' ∉ task.moduleFunction.toList := by
  cases task <;> simp [stateModule, moduleFunction]

end Task

namespace State

/-- The state requires `s`, and has no other requisite. -/
def Follows (s t : State) : Prop := t.requisites.toList = [s.requirement]

theorem follows_follow (p : State) {s : State} (plain : s.requisites.toList = []) :
    Follows p (s.follow (some p)) := by
  rw [Follows, follow_some_requisites, plain]
  simp

theorem requires_body (s : State) :
    s.body.requires = s.task.listed ++ s.requisites.render.flatMap Value.requiredBy := by
  simp [Value.requires, body, Value.fields?, ← s.task.requiredBy_arguments]

theorem requires_of_nil {s : State} (h : s.requisites.toList = []) : s.body.requires = s.task.listed := by
  simp [requires_body, Requisites.render, Requisites.kinds, Requisites.newKinds, h]

theorem requires_of_follows {s t : State} (h : Follows s t) :
    t.body.requires = t.task.listed ++ [(s.task.stateModule, s.id)] := by
  have render : t.requisites.render =
      [.entry "require" (.list [.entry s.task.stateModule (.text s.id)])] := by
    unfold Requisites.render Requisites.kinds Requisites.ofKind
    rw [h]
    rfl
  rw [requires_body, render, List.flatMap_singleton, Value.requiredBy_entry]
  rfl

end State

namespace Document

/-- The body kept for `x` lists the entry `y` under `require`. -/
def Requires (doc : Entries Value) (x y : String) : Prop :=
  y ∈ Entries.keys doc ∧ ∃ body, Entries.get? x doc = some body ∧ ∃ module, (module, y) ∈ body.requires

/-- No entry leads back to itself. -/
def Acyclic (doc : Entries Value) : Prop := ∀ x, ¬ Relation.TransGen (Requires doc) x x

/-- Every entry but the first requires exactly the one right before it, under the module that stands
before the dot of its state function. -/
structure Path (doc : Entries Value) : Prop where
  edges : ∀ x y, Requires doc x y ↔
    ∃ i, (Entries.keys doc)[i]? = some y ∧ (Entries.keys doc)[i + 1]? = some x
  modules : ∀ x body module y, Entries.get? x doc = some body → (module, y) ∈ body.requires →
    y ∈ Entries.keys doc → ∃ function arguments name,
      Entries.get? y doc = some (.object [(function, arguments)]) ∧ function = module ++ "." ++ name ∧
        '.' ∉ module.toList ∧ '.' ∉ name.toList

/-- A path leads back to no entry if no key is repeated. -/
theorem Path.acyclic {doc : Entries Value} (path : Path doc) (nodup : (Entries.keys doc).Nodup) :
    Acyclic doc := by
  have back {x y : String} (h : Relation.TransGen (Requires doc) x y) :
      ∃ i j : Nat, j < i ∧ (Entries.keys doc)[i]? = some x ∧ (Entries.keys doc)[j]? = some y := by
    induction h with
    | single edge =>
      obtain ⟨i, at_y, at_x⟩ := (path.edges _ _).mp edge
      exact ⟨i + 1, i, Nat.lt_succ_self i, at_x, at_y⟩
    | tail _ edge ih =>
      obtain ⟨i, j, less, at_x, at_y⟩ := ih
      obtain ⟨k, at_z, at_y'⟩ := (path.edges _ _).mp edge
      have same : j = k + 1 := by
        have inside := (List.getElem?_eq_some_iff.mp at_y).1
        exact (List.getElem?_inj inside nodup).mp (at_y.trans at_y'.symm)
      exact ⟨i, k, by omega, at_x, at_z⟩
  intro x cycle
  obtain ⟨i, j, less, at_i, at_j⟩ := back cycle
  have inside := (List.getElem?_eq_some_iff.mp at_i).1
  have same := (List.getElem?_inj inside nodup).mp (at_i.trans at_j.symm)
  omega

end Document

/-- In a finite set in which every element leads to an element, one leads back to itself. -/
theorem exists_cycle_of_succ {α : Type} [DecidableEq α] {R : α → α → Prop} {elements : List α} {start : α}
    (mem : start ∈ elements) (succ : ∀ x ∈ elements, ∃ y ∈ elements, R x y) :
    ∃ x, Relation.TransGen R x x := by
  by_contra none
  let Behind (b a : { x // x ∈ elements }) : Prop := Relation.TransGen R a.1 b.1
  have : IsTrans _ Behind := ⟨fun _ _ _ h g => Relation.TransGen.trans g h⟩
  have : Std.Irrefl Behind := ⟨fun x h => none ⟨x.1, h⟩⟩
  have founded : WellFounded Behind := Finite.wellFounded_of_trans_of_irrefl Behind
  refine founded.induction (C := fun _ => False) ⟨start, mem⟩ fun x ih => ?_
  obtain ⟨y, hy, edge⟩ := succ x.1 x.2
  exact ih ⟨y, hy⟩ (.single edge)

/-- States of which the first one has no requisite, and every later one has only that to run after the
state before it. -/
structure StateLine (states : List State) : Prop where
  first : ∀ s ∈ states.head?, s.requisites.toList = []
  follows : states.IsChain State.Follows

namespace StateLine

variable {states : List State}

/-- A state that follows the last one continues the line. -/
theorem concat (line : StateLine states) {s : State} (plain : s.requisites.toList = []) :
    StateLine (states ++ [s.follow states.getLast?]) := by
  cases last : states.getLast? with
  | none =>
    rw [List.getLast?_eq_none_iff.mp last]
    exact ⟨by simpa [State.follow] using plain, .singleton _⟩
  | some p =>
    have full : states ≠ [] := by
      rintro rfl
      cases last
    refine ⟨?_, ?_⟩
    · rw [List.head?_append_of_ne_nil _ full]
      exact line.first
    · rw [List.isChain_append]
      refine ⟨line.follows, .singleton _, ?_⟩
      intro x hx y hy
      obtain rfl : p = x := Option.some.inj (last.symm.trans hx)
      obtain rfl : s.follow (some p) = y := by simpa using hy
      exact State.follows_follow p plain

theorem follows_at (line : StateLine states) {i : Nat} {s t : State} (hs : states[i]? = some s)
    (ht : states[i + 1]? = some t) : State.Follows s t := by
  obtain ⟨_, rfl⟩ := List.getElem?_eq_some_iff.mp hs
  obtain ⟨hi, rfl⟩ := List.getElem?_eq_some_iff.mp ht
  exact line.follows.getElem i hi

/-- The body kept for the id of a later state requires the id of the state before the last one with
this id. -/
theorem exists_requires (line : StateLine states) {i : Nat} {s : State} (h : states[i + 1]? = some s) :
    ∃ j p, i ≤ j ∧ states[j]? = some p ∧
      Document.Requires (Document.entries (states.map Step.state)) s.id p.id := by
  obtain ⟨k, t, later, at_k, -, kept⟩ := Document.get?_entries h
  obtain ⟨j, rfl⟩ : ∃ j, k = j + 1 := ⟨k - 1, by omega⟩
  have inside : j < states.length := by
    have := (List.getElem?_eq_some_iff.mp at_k).1
    omega
  have at_j : states[j]? = some states[j] := List.getElem?_eq_getElem inside
  refine ⟨j, states[j], by omega, at_j, ?_, t.body, kept, states[j].task.stateModule, ?_⟩
  · rw [Document.mem_keys_entries]
    exact List.mem_map_of_mem (List.getElem_mem inside)
  · rw [State.requires_of_follows (line.follows_at at_j at_k)]
    exact List.mem_append_right _ List.mem_cons_self

/-- From a repeated id, one requirement after the other stays among the later states, so that it comes
back at last. -/
theorem nodup_of_acyclic (line : StateLine states)
    (acyclic : Document.Acyclic (Document.entries (states.map Step.state))) :
    (states.map State.id).Nodup := by
  rw [List.nodup_iff_getElem?_ne_getElem?]
  intro i j less inside same
  have inside : j < states.length := by simpa using inside
  let later := (states.drop (i + 1)).map State.id
  have mem_later {p : State} {k : Nat} (after : i + 1 ≤ k) (at_k : states[k]? = some p) :
      p.id ∈ later := by
    refine List.mem_map_of_mem (List.mem_of_getElem? (i := k - (i + 1)) ?_)
    rw [List.getElem?_drop, Nat.add_sub_cancel' after]
    exact at_k
  have repeated : states[j].id ∈ later := mem_later less (List.getElem?_eq_getElem inside)
  obtain ⟨x, cycle⟩ := exists_cycle_of_succ
    (R := Document.Requires (Document.entries (states.map Step.state))) repeated (by
      intro x hx
      obtain ⟨s, hs, rfl⟩ := List.mem_map.mp hx
      obtain ⟨k, at_k⟩ := List.mem_iff_getElem?.mp hs
      rw [List.getElem?_drop, Nat.add_right_comm] at at_k
      obtain ⟨r, p, least, at_r, edge⟩ := line.exists_requires at_k
      refine ⟨p.id, ?_, edge⟩
      by_cases after : i + 1 ≤ r
      · exact mem_later after at_r
      · -- the walk has come back to the first of the two states, whose id the second one has too
        obtain rfl : r = i := by omega
        have same_id : p.id = states[j].id := by
          simpa [at_r, List.getElem?_eq_getElem inside] using same
        exact same_id ▸ repeated)
  exact acyclic x cycle

/-- What a kept body requires, if no id is repeated and no argument lists an entry. -/
theorem requires_inv (line : StateLine states) (nodup : (states.map State.id).Nodup)
    (quiet : ∀ s ∈ states, ∀ module y, (module, y) ∈ s.task.listed → y ∉ states.map State.id)
    {x y module : String} {body : Value}
    (kept : Entries.get? x (Document.entries (states.map Step.state)) = some body)
    (lists : (module, y) ∈ body.requires) (entry : y ∈ states.map State.id) :
    ∃ i p s, states[i]? = some p ∧ states[i + 1]? = some s ∧ s.id = x ∧ p.id = y ∧
      p.task.stateModule = module := by
  rw [Document.entries_of_nodup nodup] at kept
  obtain ⟨s, hs, eq⟩ := List.mem_map.mp (Entries.mem_of_get? kept)
  obtain ⟨rfl, rfl⟩ := Prod.mk.inj eq
  obtain ⟨k, at_k⟩ := List.mem_iff_getElem?.mp hs
  cases k with
  | zero =>
    have bare := line.first s (by rw [List.head?_eq_getElem?]; exact at_k)
    rw [State.requires_of_nil bare] at lists
    exact absurd entry (quiet s hs module y lists)
  | succ i =>
    have inside : i < states.length := by
      have := (List.getElem?_eq_some_iff.mp at_k).1
      omega
    have at_i : states[i]? = some states[i] := List.getElem?_eq_getElem inside
    rw [State.requires_of_follows (line.follows_at at_i at_k)] at lists
    rcases List.mem_append.mp lists with own | link
    · exact absurd entry (quiet s hs module y own)
    · obtain ⟨rfl, rfl⟩ := Prod.mk.inj (List.mem_singleton.mp link)
      exact ⟨i, states[i], s, at_i, at_k, rfl, rfl, rfl⟩

theorem get?_of_nodup (nodup : (states.map State.id).Nodup) {i : Nat} {s : State}
    (h : states[i]? = some s) :
    Entries.get? s.id (Document.entries (states.map Step.state)) = some s.body := by
  obtain ⟨j, t, -, at_j, same, kept⟩ := Document.get?_entries h
  have : t = s := List.inj_on_of_nodup_map nodup (List.mem_of_getElem? at_j) (List.mem_of_getElem? h) same
  rw [kept, this]

/-- Without a repeated id, the document of a line is a path. -/
theorem path_of_nodup (line : StateLine states) (nodup : (states.map State.id).Nodup)
    (quiet : ∀ s ∈ states, ∀ module y, (module, y) ∈ s.task.listed → y ∉ states.map State.id) :
    Document.Path (Document.entries (states.map Step.state)) := by
  have keys : Entries.keys (Document.entries (states.map Step.state)) = states.map State.id := by
    rw [Document.entries_of_nodup nodup, Entries.keys, List.map_map]
    rfl
  refine ⟨?_, ?_⟩
  · intro x y
    rw [keys]
    constructor
    · rintro ⟨entry, body, kept, module, lists⟩
      obtain ⟨i, p, s, at_p, at_s, rfl, rfl, -⟩ :=
        line.requires_inv nodup quiet kept lists (keys ▸ entry)
      exact ⟨i, by simp [at_p], by simp [at_s]⟩
    · rintro ⟨i, at_y, at_x⟩
      rw [List.getElem?_map, Option.map_eq_some_iff] at at_y at_x
      obtain ⟨p, at_p, rfl⟩ := at_y
      obtain ⟨s, at_s, rfl⟩ := at_x
      refine ⟨?_, s.body, get?_of_nodup nodup at_s, p.task.stateModule, ?_⟩
      · rw [keys]
        exact List.mem_map_of_mem (List.mem_of_getElem? at_p)
      · rw [State.requires_of_follows (line.follows_at at_p at_s)]
        exact List.mem_append_right _ List.mem_cons_self
  · intro x body module y kept lists entry
    obtain ⟨i, p, s, at_p, -, -, rfl, rfl⟩ := line.requires_inv nodup quiet kept lists (keys ▸ entry)
    obtain ⟨dotless_module, dotless_name⟩ := p.task.dotless
    exact ⟨p.task.stateFunction, _, p.task.moduleFunction, get?_of_nodup nodup at_p,
      p.task.stateFunction_eq, dotless_module, dotless_name⟩

end StateLine

end ChunkedChain
