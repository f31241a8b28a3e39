import ChunkedChain.Step
import Mathlib.Data.List.Induction

/-!
# What a document keeps

A document has one entry for each id, and under it stands the body of the last state with that id. If
all ids differ, the document is the list of the states.
-/

namespace ChunkedChain

namespace Entries

variable {α : Type}

theorem mem_of_get? {key : String} {value : α} {entries : Entries α}
    (h : get? key entries = some value) : (key, value) ∈ entries := by
  induction entries with
  | nil => cases h
  | cons pair rest ih =>
    rw [get?] at h
    split at h
    · rename_i same
      obtain rfl := Option.some.inj h
      exact same ▸ List.mem_cons_self
    · exact List.mem_cons_of_mem _ (ih h)

theorem get?_eq_none {key : String} {entries : Entries α} (h : key ∉ keys entries) :
    get? key entries = none := by
  cases found : get? key entries with
  | none => rfl
  | some value => exact absurd (List.mem_map_of_mem (mem_of_get? found)) h

theorem mem_keys_insert {key other : String} {value : α} {entries : Entries α} :
    other ∈ keys (insert key value entries) ↔ other = key ∨ other ∈ keys entries := by
  induction entries with
  | nil => simp [insert, keys]
  | cons pair rest ih =>
    by_cases same : pair.1 = key
    · simp [insert, keys, same]
    · simp only [keys] at ih
      simp only [insert, if_neg same, keys, List.map_cons, List.mem_cons, ih]
      exact or_left_comm

/-- A new key is put at the end. -/
theorem insert_of_not_mem {key : String} {value : α} {entries : Entries α} (h : key ∉ keys entries) :
    insert key value entries = entries ++ [(key, value)] := by
  induction entries with
  | nil => rfl
  | cons pair rest ih =>
    have apart : pair.1 ≠ key := fun same => h (same ▸ List.mem_cons_self)
    have rest_new : key ∉ keys rest := fun mem => h (List.mem_cons_of_mem _ mem)
    rw [insert, if_neg apart, ih rest_new, List.cons_append]

end Entries

namespace Document

theorem entries_append_step (steps : List Step) (step : Step) :
    entries (steps ++ [step]) = Entries.insertAll (entries steps) step.data := by
  rw [entries, List.foldl_append]
  rfl

theorem entries_append_state (steps : List Step) (s : State) :
    entries (steps ++ [.state s]) = Entries.insert s.id s.body (entries steps) :=
  entries_append_step steps (.state s)

/-- Marks leave nothing in a document. -/
theorem entries_filterMap (steps : List Step) :
    entries ((steps.filterMap Step.state?).map Step.state) = entries steps := by
  have from_any (doc : Entries Value) :
      ((steps.filterMap Step.state?).map Step.state).foldl
          (fun doc step => Entries.insertAll doc step.data) doc =
        steps.foldl (fun doc step => Entries.insertAll doc step.data) doc := by
    induction steps generalizing doc with
    | nil => rfl
    | cons step rest ih =>
      cases step with
      | state s => exact ih _
      | rebootMark => exact ih doc
  exact from_any []

theorem mem_keys_entries {states : List State} {key : String} :
    key ∈ Entries.keys (entries (states.map Step.state)) ↔ key ∈ states.map State.id := by
  induction states using List.reverseRecOn with
  | nil => simp [entries, Entries.keys]
  | append_singleton states s ih =>
    rw [List.map_append, List.map_singleton, entries_append_state, Entries.mem_keys_insert, ih]
    simp [or_comm]

/-- The body kept for an id is that of the last state with this id. -/
theorem get?_entries {states : List State} {i : Nat} {s : State} (h : states[i]? = some s) :
    ∃ j t, i ≤ j ∧ states[j]? = some t ∧ t.id = s.id ∧
      Entries.get? s.id (entries (states.map Step.state)) = some t.body := by
  induction states using List.reverseRecOn with
  | nil => simp at h
  | append_singleton states last ih =>
    rw [List.map_append, List.map_singleton, entries_append_state]
    have bound : i < states.length + 1 := by
      simpa using (List.getElem?_eq_some_iff.mp h).1
    by_cases same : last.id = s.id
    · refine ⟨states.length, last, by omega, by simp, same, ?_⟩
      rw [← same]
      exact Entries.get?_insert_self _ _ _
    · have inside : i < states.length := by
        by_cases inside : i < states.length
        · exact inside
        · obtain rfl : i = states.length := by omega
          have here : last = s := by simpa using h
          exact absurd (congrArg State.id here) same
      rw [List.getElem?_append_left inside] at h
      obtain ⟨j, t, later, at_j, id, kept⟩ := ih h
      refine ⟨j, t, later, ?_, id, ?_⟩
      · rw [List.getElem?_append_left (List.getElem?_eq_some_iff.mp at_j).1]
        exact at_j
      · rw [Entries.get?_insert_of_ne same]
        exact kept

theorem entries_of_nodup {states : List State} (h : (states.map State.id).Nodup) :
    entries (states.map Step.state) = states.map fun s => (s.id, s.body) := by
  induction states using List.reverseRecOn with
  | nil => rfl
  | append_singleton states last ih =>
    rw [List.map_append, List.map_singleton] at h
    obtain ⟨before, -, apart⟩ := List.nodup_append.mp h
    have new : last.id ∉ Entries.keys (entries (states.map Step.state)) := by
      rw [mem_keys_entries]
      exact fun mem => apart _ mem _ (List.mem_singleton.mpr rfl) rfl
    rw [List.map_append, List.map_singleton, entries_append_state, Entries.insert_of_not_mem new,
      ih before, List.map_append, List.map_singleton]

end Document

end ChunkedChain
