import ChunkedChain.Proofs.DocumentKeys

/-!
# Requisites grouped by kind

A set of requisites grows at its end, and no addition repeats what it holds. The rendering of a set regroups
it: a group for each kind, in the order in which the kinds first came, with the targets of that kind in the
order of the set. No requisite is lost or repeated on the way, and a group can be read off the entry that
is written for it. So a rendering tells all about a set but how its kinds were mixed.
-/

namespace ChunkedChain

/-- A list that is regrouped by keys keeps each of its items as often as it is there. -/
theorem perm_flatMap_filter {α κ : Type} [DecidableEq κ] (key : α → κ) {keys : List κ}
    (nodup : keys.Nodup) {xs : List α} (covered : ∀ x ∈ xs, key x ∈ keys) :
    (keys.flatMap fun k => xs.filter (key · = k)).Perm xs := by
  induction keys generalizing xs with
  | nil =>
    have nothing : xs = [] := by
      apply List.eq_nil_iff_forall_not_mem.mpr
      intro x mem
      exact List.not_mem_nil (covered x mem)
    rw [nothing]
    exact .nil
  | cons k keys ih =>
    obtain ⟨new, nodup⟩ := List.nodup_cons.mp nodup
    -- The first group takes away no item of the others, since its key does not come again.
    have others : (keys.flatMap fun other => xs.filter (key · = other)) =
        keys.flatMap fun other => (xs.filter fun x => !decide (key x = k)).filter (key · = other) := by
      apply List.flatMap_congr
      intro other mem
      have apart : other ≠ k := fun same => new (same ▸ mem)
      rw [List.filter_filter]
      apply List.filter_congr
      intro x _
      by_cases same : key x = other <;> simp [same, apart]
    have rest : (keys.flatMap fun other =>
        (xs.filter fun x => !decide (key x = k)).filter (key · = other)).Perm
          (xs.filter fun x => !decide (key x = k)) := by
      apply ih nodup
      intro x mem
      obtain ⟨mem, apart⟩ := List.mem_filter.mp mem
      exact (List.mem_cons.mp (covered x mem)).resolve_left (by simpa using apart)
    rw [List.flatMap_cons, others]
    exact (rest.append_left _).trans (List.filter_append_perm _ xs)

namespace Value

theorem same_entry (key key' : String) (value value' : Value) :
    (entry key value).same (entry key' value') = (decide (key' = key) && value.same value') := by
  by_cases keys : key' = key <;>
    simp [entry, same, sameFields, sameField, Entries.get?, keys]

theorem beq_eq_same (value value' : Value) : (value == value') = value.same value' := rfl

theorem sameItems_eq_beq (xs ys : List Value) : sameItems xs ys = (xs == ys) := by
  induction xs generalizing ys with
  | nil => cases ys <;> simp [sameItems]
  | cons x xs ih =>
    cases ys with
    | nil => simp [sameItems]
    | cons y ys =>
      rw [sameItems, ih, List.cons_beq_cons, beq_eq_same]

end Value

theorem beq_map_iff {α β : Type} [BEq β] {f : α → β} (same : ∀ a b, (f a == f b) = true ↔ a = b)
    (xs ys : List α) : (xs.map f == ys.map f) = true ↔ xs = ys := by
  induction xs generalizing ys with
  | nil => cases ys <;> simp
  | cons x xs ih => cases ys <;> simp [same, ih]

namespace RequisiteKind

theorem ofKeyword?_keyword (kind : RequisiteKind) : ofKeyword? kind.keyword = some kind := by
  cases kind <;> rfl

theorem keyword_injective : Function.Injective keyword := by
  intro kind other same
  apply Option.some.inj
  rw [← ofKeyword?_keyword, same, ofKeyword?_keyword]

end RequisiteKind

namespace Requisites

variable {set : Requisites}

theorem nodup_add (nodup : set.toList.Nodup) (requisite : Requisite) :
    (set.add requisite).toList.Nodup := by
  by_cases held : requisite ∈ set.toList
  · rw [add_of_mem held]
    exact nodup
  · rw [toList_add_of_not_mem held, ← List.concat_eq_append]
    exact nodup.concat held

theorem nodup_addAll (nodup : set.toList.Nodup) (new : List Requisite) :
    (set.addAll new).toList.Nodup := by
  induction new generalizing set with
  | nil => exact nodup
  | cons requisite rest ih => exact ih (nodup_add nodup requisite)

theorem mem_add {requisite other : Requisite} :
    other ∈ (set.add requisite).toList ↔ other ∈ set.toList ∨ other = requisite := by
  by_cases held : requisite ∈ set.toList
  · rw [add_of_mem held]
    constructor
    · exact Or.inl
    · rintro (mem | rfl)
      · exact mem
      · exact held
  · simp [toList_add_of_not_mem held]

theorem addAll_concat (set : Requisites) (new : List Requisite) (requisite : Requisite) :
    set.addAll (new ++ [requisite]) = (set.addAll new).add requisite :=
  List.foldl_concat add set requisite new

/-- What is added to the empty set stays where it first came. -/
theorem toList_addAll_empty (new : List Requisite) : (empty.addAll new).toList = new.eraseDups := by
  induction new using List.reverseRecOn with
  | nil => rfl
  | append_singleton new requisite ih =>
    have held_iff : requisite ∈ (empty.addAll new).toList ↔ requisite ∈ new := by
      rw [ih, List.mem_eraseDups]
    rw [addAll_concat, eraseDups_concat, ← ih]
    by_cases again : requisite ∈ new
    · rw [add_of_mem (held_iff.mpr again), if_pos again]
    · rw [toList_add_of_not_mem (mt held_iff.mp again), if_neg again]

/-- An addition is made unless the requisite was there from the start or was added before. -/
theorem getElem?_answers (set : Requisites) (new : List Requisite) (i : Nat) :
    (set.tryAddAll new).1[i]? =
      new[i]?.map fun requisite => decide (requisite ∉ set.toList ++ new.take i) := by
  induction new generalizing set i with
  | nil => rfl
  | cons first rest ih =>
    cases i with
    | zero => simp [tryAddAll]
    | succ i => simp [tryAddAll, ih, mem_add, or_assoc]

theorem newKinds_eq (seen : List RequisiteKind) (requisites : List Requisite) :
    newKinds seen requisites = ((requisites.map Requisite.kind).filter (· ∉ seen)).eraseDups := by
  induction requisites generalizing seen with
  | nil => rfl
  | cons r rest ih =>
    by_cases again : r.kind ∈ seen
    · simp [newKinds, again, ih]
    · have later : (rest.map Requisite.kind).filter (· ∉ r.kind :: seen) =
          ((rest.map Requisite.kind).filter (· ∉ seen)).filter (fun kind => !kind == r.kind) := by
        rw [List.filter_filter]
        apply List.filter_congr
        intro kind _
        by_cases same : kind = r.kind <;> simp [same]
      have first : ((r :: rest).map Requisite.kind).filter (· ∉ seen) =
          r.kind :: (rest.map Requisite.kind).filter (· ∉ seen) := by
        simp [again]
      rw [newKinds, if_neg again, ih, later, first, List.eraseDups_cons]

theorem kinds_eq (set : Requisites) : set.kinds = (set.toList.map Requisite.kind).eraseDups := by
  rw [kinds, newKinds_eq]
  simp

/-- The targets of requisites of one kind: the state module and the state id of each. -/
structure Group where
  kind : RequisiteKind
  targets : List (String × String)

namespace Group

def value (group : Group) : Value :=
  .entry group.kind.keyword (.list (group.targets.map fun (module, id) => .entry module (.text id)))

def requisites (group : Group) : List Requisite :=
  group.targets.map fun (module, id) => ⟨group.kind, module, id⟩

/-- A group can be read off its entry, also by one who compares values without regard to the order of
their fields. -/
theorem same_value (group other : Group) : (group.value == other.value) = true ↔ group = other := by
  obtain ⟨kind, targets⟩ := group
  obtain ⟨kind', targets'⟩ := other
  have target (a b : String × String) :
      (Value.entry a.1 (.text a.2) == Value.entry b.1 (.text b.2)) = true ↔ a = b := by
    rw [Value.beq_eq_same, Value.same_entry, Value.same, Bool.and_eq_true, decide_eq_true_iff,
      beq_iff_eq, Prod.ext_iff, eq_comm]
  rw [value, value, Value.beq_eq_same, Value.same_entry, Value.same, Value.sameItems_eq_beq,
    Bool.and_eq_true, beq_map_iff target, decide_eq_true_iff, RequisiteKind.keyword_injective.eq_iff,
    mk.injEq, eq_comm]

theorem value_injective : Function.Injective value := by
  intro group other equal
  apply (same_value group other).mp
  rw [← equal]
  exact (same_value group group).mpr rfl

end Group

/-- The groups into which `requisites` fall: one for each kind that occurs, in the order in which the
kinds first came, with the targets of that kind in their order. -/
structure Grouped (requisites : List Requisite) (groups : List Group) : Prop where
  kinds : groups.map Group.kind = (requisites.map Requisite.kind).eraseDups
  targets : ∀ group ∈ groups, group.targets =
    (requisites.filter (·.kind = group.kind)).map fun r => (r.module, r.id)

namespace Grouped

variable {requisites : List Requisite} {groups : List Group}

theorem requisites_eq (grouped : Grouped requisites groups) {group : Group} (mem : group ∈ groups) :
    group.requisites = requisites.filter (·.kind = group.kind) := by
  have back : ∀ r ∈ requisites.filter (·.kind = group.kind),
      (⟨group.kind, r.module, r.id⟩ : Requisite) = r := by
    intro r mem
    have kind : r.kind = group.kind := of_decide_eq_true (List.mem_filter.mp mem).2
    rw [← kind]
  rw [Group.requisites, grouped.targets group mem, List.map_map]
  exact (List.map_congr_left back).trans (List.map_id _)

/-- The groups hold what was grouped, nothing lost and nothing repeated. -/
theorem perm (grouped : Grouped requisites groups) :
    (groups.flatMap Group.requisites).Perm requisites := by
  have regrouped : groups.flatMap Group.requisites =
      (groups.map Group.kind).flatMap fun kind => requisites.filter (·.kind = kind) := by
    rw [List.flatMap_map]
    apply List.flatMap_congr
    intro group mem
    exact grouped.requisites_eq mem
  rw [regrouped, grouped.kinds]
  apply perm_flatMap_filter Requisite.kind (nodup_eraseDups _)
  intro r mem
  exact List.mem_eraseDups.mpr (List.mem_map_of_mem mem)

/-- The requisites of each kind can be found in the groups. -/
theorem filter_eq {others : List Requisite} (grouped : Grouped requisites groups)
    (grouped' : Grouped others groups) (kind : RequisiteKind) :
    requisites.filter (·.kind = kind) = others.filter (·.kind = kind) := by
  by_cases occurs : kind ∈ groups.map Group.kind
  · obtain ⟨group, mem, rfl⟩ := List.mem_map.mp occurs
    rw [← grouped.requisites_eq mem, grouped'.requisites_eq mem]
  · have none {requisites : List Requisite} (grouped : Grouped requisites groups) :
        requisites.filter (·.kind = kind) = [] := by
      apply List.filter_eq_nil_iff.mpr
      intro r mem same
      apply occurs
      rw [grouped.kinds, List.mem_eraseDups, ← of_decide_eq_true same]
      exact List.mem_map_of_mem mem
    rw [none grouped, none grouped']

end Grouped

theorem exists_grouped (set : Requisites) :
    ∃ groups, set.render = groups.map Group.value ∧ Grouped set.toList groups := by
  refine ⟨set.kinds.map fun kind => ⟨kind, (set.ofKind kind).map fun r => (r.module, r.id)⟩, ?_, ?_, ?_⟩
  · rw [render, List.map_map]
    apply List.map_congr_left
    intro kind _
    rw [Function.comp_apply, Group.value, List.map_map]
    rfl
  · rw [List.map_map, ← kinds_eq]
    exact List.map_id _
  · intro group mem
    obtain ⟨kind, -, rfl⟩ := List.mem_map.mp mem
    rfl

/-- The sets have the same kinds, which came in the same order, and the same requisites of each kind. -/
def SameByKind (s t : Requisites) : Prop :=
  (s.toList.map Requisite.kind).eraseDups = (t.toList.map Requisite.kind).eraseDups ∧
    ∀ kind, s.ofKind kind = t.ofKind kind

theorem SameByKind.render_eq {s t : Requisites} (same : SameByKind s t) : s.render = t.render := by
  obtain ⟨kinds, each⟩ := same
  rw [render, render, kinds_eq, kinds_eq, kinds]
  simp only [each]

theorem render_eq_iff {s t : Requisites} : s.render = t.render ↔ SameByKind s t := by
  constructor
  · intro equal
    obtain ⟨groups, rendered, grouped⟩ := s.exists_grouped
    obtain ⟨groups', rendered', grouped'⟩ := t.exists_grouped
    rw [rendered, rendered'] at equal
    obtain rfl := List.map_injective_iff.mpr Group.value_injective equal
    exact ⟨grouped.kinds.symm.trans grouped'.kinds, grouped.filter_eq grouped'⟩
  · exact SameByKind.render_eq

theorem render_beq_iff {s t : Requisites} : (s.render == t.render) = true ↔ s.render = t.render := by
  obtain ⟨groups, rendered, -⟩ := s.exists_grouped
  obtain ⟨groups', rendered', -⟩ := t.exists_grouped
  rw [rendered, rendered', beq_map_iff Group.same_value,
    (List.map_injective_iff.mpr Group.value_injective).eq_iff]

/-- `set` is what the additions `new`, answered by `answers`, have made of the empty set. -/
structure Collected (new : List Requisite) (answers : List Bool) (set : Requisites) : Prop where
  nodup : set.toList.Nodup
  /-- Every requisite that was added stands where it first came. -/
  toList_eq : set.toList = new.eraseDups
  /-- An addition was made if the requisite had not been added before. -/
  answers_eq : ∀ i, answers[i]? = new[i]?.map fun requisite => decide (requisite ∉ new.take i)
  /-- One more addition puts a new requisite at the end, and does nothing else. -/
  next : ∀ requisite,
    ((set.tryAdd requisite).1 = true ∧ requisite ∉ set.toList ∧
      (set.tryAdd requisite).2.toList = set.toList ++ [requisite]) ∨
    ((set.tryAdd requisite).1 = false ∧ requisite ∈ set.toList ∧ (set.tryAdd requisite).2 = set)
  /-- The rendering has an entry for each group, and the groups hold the set. -/
  rendered : ∃ groups, set.render = groups.map Group.value ∧ Grouped set.toList groups ∧
    (groups.flatMap Group.requisites).Perm set.toList ∧ (groups.flatMap Group.requisites).Nodup ∧
    (groups.flatMap Group.requisites).length = set.toList.length

theorem tryAdd_cases (set : Requisites) (requisite : Requisite) :
    ((set.tryAdd requisite).1 = true ∧ requisite ∉ set.toList ∧
      (set.tryAdd requisite).2.toList = set.toList ++ [requisite]) ∨
    ((set.tryAdd requisite).1 = false ∧ requisite ∈ set.toList ∧
      (set.tryAdd requisite).2 = set) := by
  by_cases held : requisite ∈ set.toList
  · exact .inr ⟨by simp [held], held, by simp [add_of_mem held]⟩
  · exact .inl ⟨by simp [held], held, by simp [toList_add_of_not_mem held]⟩

theorem collected_tryAddAll (new : List Requisite) :
    Collected new (empty.tryAddAll new).1 (empty.tryAddAll new).2 := by
  have nodup : (empty.tryAddAll new).2.toList.Nodup := by
    rw [tryAddAll_snd]
    exact nodup_addAll .nil new
  refine ⟨nodup, ?_, ?_, tryAdd_cases _, ?_⟩
  · rw [tryAddAll_snd, toList_addAll_empty]
  · intro i
    exact getElem?_answers empty new i
  · obtain ⟨groups, rendered, grouped⟩ := (empty.tryAddAll new).2.exists_grouped
    exact ⟨groups, rendered, grouped, grouped.perm, grouped.perm.nodup_iff.mpr nodup,
      grouped.perm.length_eq⟩

/-- Requisites that are added one after the other make a set without repetitions, and each addition tells
whether it changed the set. The rendering of the set has one entry for each kind, in the order in which
the kinds first came, which lists the targets of this kind in order; taken together, the entries list each
requisite of the set once. Two such sets have the same rendering exactly if they have the same kinds in
the same order and the same requisites of each kind. -/
theorem render_groups_additions :
    (∀ new : List Requisite, Collected new (empty.tryAddAll new).1 (empty.tryAddAll new).2) ∧
    ∀ new others : List Requisite,
      ((empty.tryAddAll new).2.render = (empty.tryAddAll others).2.render ↔
        SameByKind (empty.tryAddAll new).2 (empty.tryAddAll others).2) ∧
      (((empty.tryAddAll new).2.render == (empty.tryAddAll others).2.render) = true ↔
        SameByKind (empty.tryAddAll new).2 (empty.tryAddAll others).2) := by
  refine ⟨collected_tryAddAll, fun new others => ⟨render_eq_iff, ?_⟩⟩
  rw [render_beq_iff, render_eq_iff]

example : (empty.tryAddAll [⟨.require, "module", "a"⟩, ⟨.onfail, "cmd", "b"⟩, ⟨.require, "module", "a"⟩,
      ⟨.require, "module", "c"⟩]).2.render =
    [.entry "require" (.list [.entry "module" (.text "a"), .entry "module" (.text "c")]),
      .entry "onfail" (.list [.entry "cmd" (.text "b")])] := by rfl

end Requisites

end ChunkedChain
