import ChunkedChain.Proofs.DocumentKeys

/-!
# Merging steps into a document

A document takes the data blocks of its steps one after the other. An id stands where it first came, its
body is that of the last state with this id, and each time an id comes again there is a warning. So two
lists of steps can be merged each on its own, and the second document inserted into the first.
-/

namespace ChunkedChain

namespace Entries

variable {α : Type} {key : String} {entries : Entries α}

theorem get?_insert (key other : String) (value : α) (entries : Entries α) :
    get? other (insert key value entries) = if key = other then some value else get? other entries := by
  by_cases same : key = other
  · rw [if_pos same, ← same, get?_insert_self]
  · rw [if_neg same, get?_insert_of_ne same]

theorem get?_eq_some_iff (nodup : (keys entries).Nodup) {value : α} :
    get? key entries = some value ↔ (key, value) ∈ entries := by
  constructor
  · exact mem_of_get?
  · intro mem
    induction entries with
    | nil => cases mem
    | cons pair rest ih =>
      obtain ⟨new, rest_nodup⟩ := List.nodup_cons.mp nodup
      rcases List.mem_cons.mp mem with rfl | mem
      · rw [get?, if_pos rfl]
      · have apart : pair.1 ≠ key := fun same => new (same ▸ List.mem_map_of_mem mem)
        rw [get?, if_neg apart]
        exact ih rest_nodup mem

theorem contains_iff : contains entries key = true ↔ key ∈ keys entries := by
  unfold contains
  constructor
  · intro found
    obtain ⟨value, there⟩ := Option.isSome_iff_exists.mp found
    exact List.mem_map_of_mem (mem_of_get? there)
  · intro mem
    induction entries with
    | nil => cases mem
    | cons pair rest ih =>
      by_cases same : pair.1 = key
      · rw [get?, if_pos same]
        rfl
      · rw [get?, if_neg same]
        exact ih ((List.mem_cons.mp mem).resolve_left (Ne.symm same))

/-- Only the last value put under a key is kept. -/
theorem insert_insert (key : String) (value old : α) (entries : Entries α) :
    insert key value (insert key old entries) = insert key value entries := by
  induction entries with
  | nil => simp [insert]
  | cons pair rest ih =>
    by_cases same : pair.1 = key
    · simp [insert, same]
    · simp [insert, same, ih]

/-- A key that has its place can be given its value before or after another one comes. -/
theorem insert_comm (there : key ∈ keys entries) {other : String} (apart : key ≠ other)
    (value otherValue : α) :
    insert key value (insert other otherValue entries) =
      insert other otherValue (insert key value entries) := by
  induction entries with
  | nil => cases there
  | cons pair rest ih =>
    by_cases same : pair.1 = key
    · obtain rfl := same
      simp [insert, apart]
    · have later : key ∈ keys rest := (List.mem_cons.mp there).resolve_left (Ne.symm same)
      by_cases same_other : pair.1 = other
      · obtain rfl := same_other
        simp [insert, same]
      · simp [insert, same, same_other, ih later]

theorem insert_insertAll {new : Entries α} (there : key ∈ keys entries) (absent : key ∉ keys new)
    (value : α) : insert key value (insertAll entries new) = insertAll (insert key value entries) new := by
  induction new generalizing entries with
  | nil => rfl
  | cons pair new ih =>
    obtain ⟨apart, absent⟩ := not_or.mp (mt List.mem_cons.mpr absent)
    have still_there : key ∈ keys (insert pair.1 pair.2 entries) := mem_keys_insert.mpr (.inr there)
    rw [insertAll_cons, insertAll_cons, ih still_there absent, insert_comm there apart]

/-- It is all one whether a pair comes last into the entries to insert, or is inserted last. -/
theorem insertAll_insert {new : Entries α} (nodup : (keys new).Nodup) (entries : Entries α) (key : String)
    (value : α) : insertAll entries (insert key value new) = insert key value (insertAll entries new) := by
  induction new generalizing entries with
  | nil => rfl
  | cons pair new ih =>
    obtain ⟨absent, rest_nodup⟩ := List.nodup_cons.mp nodup
    by_cases same : pair.1 = key
    · obtain rfl := same
      have there : pair.1 ∈ keys (insert pair.1 pair.2 entries) := mem_keys_insert.mpr (.inl rfl)
      rw [insert, if_pos rfl, insertAll_cons, insertAll_cons, insert_insertAll there absent, insert_insert]
    · rw [insert, if_neg same, insertAll_cons, insertAll_cons, ih rest_nodup]

end Entries

namespace Document

/-- `s` is the last of the steps' states with its id. -/
def LastWithId (steps : List Step) (s : State) : Prop :=
  ∃ before after, steps = before ++ .state s :: after ∧ s.id ∉ after.filterMap Step.id?

theorem lastWithId_concat {steps : List Step} {step : Step} {s : State} :
    LastWithId (steps ++ [step]) s ↔ step = .state s ∨ (step.id? ≠ some s.id ∧ LastWithId steps s) := by
  constructor
  · rintro ⟨before, after, eq, last⟩
    rcases List.eq_nil_or_concat after with rfl | ⟨after, final, rfl⟩
    · obtain ⟨-, same⟩ := List.append_inj' eq rfl
      exact .inl (List.singleton_inj.mp same)
    · rw [List.concat_eq_append] at eq last
      rw [← List.cons_append, ← List.append_assoc] at eq
      obtain ⟨rfl, same⟩ := List.append_inj' eq rfl
      obtain rfl := List.singleton_inj.mp same
      rw [List.filterMap_append, List.mem_append, not_or] at last
      refine .inr ⟨fun again => last.2 ?_, before, after, rfl, last.1⟩
      exact List.mem_filterMap.mpr ⟨step, List.mem_singleton_self step, again⟩
  · rintro (rfl | ⟨apart, before, after, rfl, last⟩)
    · exact ⟨steps, [], rfl, List.not_mem_nil⟩
    · refine ⟨before, after ++ [step], by rw [List.append_assoc, List.cons_append], fun mem => ?_⟩
      rw [List.filterMap_append, List.mem_append] at mem
      obtain ⟨_, only, again⟩ := List.mem_filterMap.mp (mem.resolve_left last)
      exact apart (List.mem_singleton.mp only ▸ again)

theorem nodup_keys_entries (steps : List Step) : (Entries.keys (entries steps)).Nodup := by
  rw [keys_entries]
  exact nodup_eraseDups _

/-- The document of more steps is that of the first ones with the entries for the others inserted. -/
theorem entries_append (xs ys : List Step) :
    entries (xs ++ ys) = Entries.insertAll (entries xs) (entries ys) := by
  induction ys using List.reverseRecOn with
  | nil => rw [List.append_nil]; rfl
  | append_singleton ys step ih =>
    rw [← List.append_assoc, entries_append_step, entries_append_step, ih]
    cases step with
    | rebootMark => rfl
    | state s =>
      -- One step puts at most one pair into the document, and the keys of the second one are distinct.
      exact (Entries.insertAll_insert (nodup_keys_entries ys) (entries xs) s.id s.body).symm

theorem get?_entries_eq_some_iff {steps : List Step} {id : String} {body : Value} :
    Entries.get? id (entries steps) = some body ↔ ∃ s, LastWithId steps s ∧ s.id = id ∧ s.body = body := by
  induction steps using List.reverseRecOn with
  | nil =>
    constructor
    · intro there
      cases there
    · rintro ⟨s, ⟨before, after, eq, -⟩, -, -⟩
      cases before <;> cases eq
  | append_singleton steps step ih =>
    cases step with
    | rebootMark =>
      have same : entries (steps ++ [.rebootMark]) = entries steps := entries_append_step steps .rebootMark
      simp [same, ih, lastWithId_concat, Step.id?, Step.state?]
    | state t =>
      rw [entries_append_state, Entries.get?_insert]
      by_cases same : t.id = id
      · rw [if_pos same]
        constructor
        · intro eq
          exact ⟨t, lastWithId_concat.mpr (.inl rfl), same, Option.some.inj eq⟩
        · rintro ⟨s, last, id_eq, rfl⟩
          rcases lastWithId_concat.mp last with eq | ⟨apart, -⟩
          · obtain rfl := Step.state.inj eq
            rfl
          · exact absurd (congrArg some (same.trans id_eq.symm)) apart
      · rw [if_neg same, ih]
        constructor
        · rintro ⟨s, last, rfl, body_eq⟩
          refine ⟨s, lastWithId_concat.mpr (.inr ⟨fun again => ?_, last⟩), rfl, body_eq⟩
          exact same (Option.some.inj again)
        · rintro ⟨s, last, rfl, body_eq⟩
          rcases lastWithId_concat.mp last with eq | ⟨-, last⟩
          · exact absurd (congrArg State.id (Step.state.inj eq)) same
          · exact ⟨s, last, rfl, body_eq⟩

theorem repeatedFrom_append (doc : Entries Value) (xs ys : List Step) :
    repeatedFrom doc (xs ++ ys) = repeatedFrom doc xs ++
      repeatedFrom (xs.foldl (fun doc step => Entries.insertAll doc step.data) doc) ys := by
  induction xs generalizing doc with
  | nil => rfl
  | cons step rest ih => rw [List.cons_append, repeatedFrom, repeatedFrom, ih, List.append_assoc]; rfl

theorem repeatedFrom_state (doc : Entries Value) (s : State) :
    repeatedFrom doc [.state s] = if s.id ∈ Entries.keys doc then [s.id] else [] := by
  by_cases there : s.id ∈ Entries.keys doc
  · simp [repeatedFrom, Step.data, there, Entries.contains_iff.mpr there]
  · simp [repeatedFrom, Step.data, there, Bool.eq_false_iff.mpr (mt Entries.contains_iff.mp there)]

theorem repeated_append_state (steps : List Step) (s : State) :
    repeated (steps ++ [.state s]) =
      repeated steps ++ if s.id ∈ Entries.keys (entries steps) then [s.id] else [] := by
  rw [repeated, repeatedFrom_append, repeatedFrom_state]
  rfl

/-- An id is reported each time it comes again. -/
theorem repeated_eq (steps : List Step) : repeated steps = repeatedIds (steps.filterMap Step.id?) := by
  induction steps using List.reverseRecOn with
  | nil => rfl
  | append_singleton steps step ih =>
    rw [List.filterMap_append]
    cases step with
    | rebootMark =>
      have same : repeated (steps ++ [.rebootMark]) = repeated steps ++ [] :=
        repeatedFrom_append [] steps [.rebootMark]
      have no_id : [Step.rebootMark].filterMap Step.id? = [] := rfl
      rw [same, no_id, List.append_nil, List.append_nil, ih]
    | state s =>
      have id : [Step.state s].filterMap Step.id? = [s.id] := rfl
      rw [repeated_append_state, id, repeatedIds_concat, ih, keys_entries]
      simp only [List.mem_eraseDups]

theorem length_log_add (steps : List Step) :
    (log steps).length + (steps.filterMap Step.id?).eraseDups.length =
      (steps.filterMap Step.state?).length := by
  rw [log, List.length_map, repeated_eq, length_repeatedIds, add_comm, length_eraseDups_add_repetitions,
    filterMap_id?, List.length_map]

/-- A document is a merge of its steps. It has the ids of the states as keys, each where it came first, and
under each the body of the last state with this id; the log has a warning for each state whose id came
before, in order. The document of two lists of steps is that of the first with the entries for the second
inserted one after the other, where a key that is there keeps its place and takes the new body. -/
theorem entries_merges_steps :
    (∀ steps : List Step,
      Entries.keys (entries steps) = (steps.filterMap Step.id?).eraseDups ∧
      (∀ (id : String) (body : Value), (id, body) ∈ entries steps ↔
        ∃ s, LastWithId steps s ∧ s.id = id ∧ s.body = body) ∧
      (log steps = (repeatedIds (steps.filterMap Step.id?)).map fun id =>
        ⟨.warn, .documents, "Duplicate state id '" ++ id ++ "' in SLS document, keeping the last one"⟩) ∧
      (log steps).length + (steps.filterMap Step.id?).eraseDups.length =
        (steps.filterMap Step.state?).length) ∧
    (∀ xs ys : List Step, entries (xs ++ ys) = Entries.insertAll (entries xs) (entries ys)) ∧
    ∀ (key : String) (value : Value) (doc : Entries Value),
      Entries.keys (Entries.insert key value doc) =
        (if key ∈ Entries.keys doc then Entries.keys doc else Entries.keys doc ++ [key]) ∧
      ∀ other, Entries.get? other (Entries.insert key value doc) =
        if key = other then some value else Entries.get? other doc := by
  refine ⟨fun steps => ⟨keys_entries steps, ?bodies, ?warnings, length_log_add steps⟩, entries_append, ?insert⟩
  case bodies =>
    intro id body
    rw [← Entries.get?_eq_some_iff (nodup_keys_entries steps), get?_entries_eq_some_iff]
  case warnings => rw [log, repeated_eq]
  case insert =>
    intro key value doc
    constructor
    · exact Entries.keys_insert key value doc
    · intro other
      exact Entries.get?_insert key other value doc

end Document

end ChunkedChain
