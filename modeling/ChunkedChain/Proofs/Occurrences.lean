import ChunkedChain.Proofs.FileNames

/-!
# Occurrences in a key

An occurrence is told by its text alone: a bar, the opening of ids and three numerals between marks, the
last of which goes on as long as there are digits. The scan of a line finds the last place where one
starts, and a key is read at the first line in which the scan finds any.
-/

namespace ChunkedChain

namespace Numeral

theorem leading?_append {digits : List Char} (numeral : isNumeral digits = true) {rest : List Char}
    (h : ∀ c ∈ rest.head?, c.isDigit = false) : leading? (digits ++ rest) = some (digits, rest) := by
  have all : ∀ c ∈ digits, c.isDigit = true := fun c => isDigit_of_isNumeral numeral
  have none : rest.takeWhile Char.isDigit = [] ∧ rest.dropWhile Char.isDigit = rest := by
    cases rest with
    | nil => exact ⟨rfl, rfl⟩
    | cons c rest => simp [h c rfl]
  have full : digits.isEmpty = false := by
    rw [isNumeral, Bool.and_eq_true, Bool.not_eq_true'] at numeral
    exact numeral.1
  simp [leading?, List.takeWhile_append_of_pos all, List.dropWhile_append_of_pos all, none, full]

theorem leading?_eq_some_iff {text digits rest : List Char} :
    leading? text = some (digits, rest) ↔
      isNumeral digits = true ∧ text = digits ++ rest ∧ ∀ c ∈ rest.head?, c.isDigit = false := by
  constructor
  · intro h
    unfold leading? at h
    dsimp only at h
    split at h
    · cases h
    · rename_i full
      obtain ⟨rfl, rfl⟩ := Prod.mk.inj (Option.some.inj h)
      refine ⟨?_, List.takeWhile_append_dropWhile.symm, ?_⟩
      · simp only [isNumeral, full, Bool.not_false, Bool.true_and, List.all_takeWhile]
      · intro c head
        have := List.head?_dropWhile_not Char.isDigit text
        rw [head] at this
        simpa using this
  · rintro ⟨numeral, rfl, ends⟩
    exact leading?_append numeral ends

theorem exists_digit_of_isNumeral {digits : List Char} (numeral : isNumeral digits = true) :
    ∃ c rest, digits = c :: rest ∧ c.isDigit = true := by
  cases digits with
  | nil => cases numeral
  | cons c rest => exact ⟨c, rest, rfl, isDigit_of_isNumeral numeral List.mem_cons_self⟩

end Numeral

namespace StateId

namespace Occurrence

def text (found : Occurrence) : List Char :=
  "|-mgr_actionchain_".toList ++ (found.chain ++ ("_action_".toList ++ (found.action ++
    ("_chunk_".toList ++ found.chunk))))

/-- The occurrence stands in the line behind `before`: its runs of digits are numerals, and the last one
ends where the digits end. -/
structure StandsIn (found : Occurrence) (before line : List Char) : Prop where
  chain : Numeral.isNumeral found.chain = true
  action : Numeral.isNumeral found.action = true
  chunk : Numeral.isNumeral found.chunk = true
  line_eq : ∃ after, line = before ++ (found.text ++ after) ∧ ∀ c ∈ after.head?, c.isDigit = false

/-- The occurrence stands in the line, and none stands further behind in it. -/
def LastIn (found : Occurrence) (line : List Char) : Prop :=
  ∃ before, found.StandsIn before line ∧
    ∀ (other : Occurrence) (before' : List Char), other.StandsIn before' line →
      before'.length ≤ before.length

/-- The occurrence is the last one in the first line of the key that has one. -/
def ReadIn (found : Occurrence) (key : String) : Prop :=
  ∃ (earlier : List (List Char)) (line : List Char) (later : List (List Char)),
    key.toList.splitOn '\n' = earlier ++ line :: later ∧ found.LastIn line ∧
    ∀ other ∈ earlier, ∀ (occurrence : Occurrence) (before : List Char),
      ¬ occurrence.StandsIn before other

/-- The chain and the action are 64-bit numbers, and the chunk is a 32-bit number. -/
def Fits (found : Occurrence) : Prop :=
  Numeral.value found.chain < UInt64.size ∧ Numeral.value found.action < UInt64.size ∧
    Numeral.value found.chunk < UInt32.size

/-- The reasons why the occurrence is refused: one for each number that does not fit. -/
def refusals (found : Occurrence) : List String :=
  ([(found.chain, UInt64.size), (found.action, UInt64.size), (found.chunk, UInt32.size)].filter
    fun (digits, size) => size ≤ Numeral.value digits).map
      fun _ => "number too large to fit in target type"

theorem bar_eq : bar = "|-mgr_actionchain_" := by decide

theorem text_append (found : Occurrence) (after : List Char) :
    found.text ++ after = bar.toList ++ (found.chain ++ (actionMark.toList ++ (found.action ++
      (chunkMark.toList ++ (found.chunk ++ after))))) := by
  unfold text
  rw [bar_eq, actionMark, chunkMark]
  -- The texts of the marks are of no account here, and must not be unfolded.
  generalize "|-mgr_actionchain_".toList = start
  generalize "_action_".toList = action
  generalize "_chunk_".toList = chunk
  simp only [List.append_assoc]

/-- The digits before a mark end right there, for a mark does not start with a digit. -/
theorem no_digit_of_mark {mark : List Char} (starts : mark.head? = some '_') (rest : List Char) :
    ∀ c ∈ (mark ++ rest).head?, c.isDigit = false := by
  intro c head
  obtain rfl : '_' = c := by simpa [starts] using head
  rfl

/-- What is read at the start of a text is the occurrence that stands there. -/
theorem at?_eq_some_iff {line : List Char} {found : Occurrence} :
    at? line = some found ↔ found.StandsIn [] line := by
  have before_action := @no_digit_of_mark actionMark.toList (by decide)
  have before_chunk := @no_digit_of_mark chunkMark.toList (by decide)
  unfold at?
  simp only [Option.bind_eq_bind, Option.bind_eq_some_iff, List.isPrefixOf?_eq_some_iff_append_eq,
    Prod.exists, Numeral.leading?_eq_some_iff, Option.pure_def, Option.some.injEq]
  constructor
  · rintro ⟨_, rfl, chain, _, ⟨chains, rfl, -⟩, _, rfl, action, _, ⟨actions, rfl, -⟩, _, rfl, chunk, after,
      ⟨chunks, rfl, ends⟩, rfl⟩
    exact ⟨chains, actions, chunks, after, (text_append ⟨chain, action, chunk⟩ after).symm, ends⟩
  · rintro ⟨chains, actions, chunks, after, rfl, ends⟩
    rw [List.nil_append, text_append]
    exact ⟨_, rfl, _, _, ⟨chains, rfl, before_action _⟩, _, rfl, _, _, ⟨actions, rfl, before_chunk _⟩,
      _, rfl, _, _, ⟨chunks, rfl, ends⟩, rfl⟩

/-- Where an occurrence stands, the text behind it is read as that occurrence. -/
theorem standsIn_iff {found : Occurrence} {before line : List Char} :
    found.StandsIn before line ↔ ∃ rest, line = before ++ rest ∧ at? rest = some found := by
  constructor
  · rintro ⟨chain, action, chunk, after, line_eq, ends⟩
    exact ⟨_, line_eq, at?_eq_some_iff.mpr ⟨chain, action, chunk, after, rfl, ends⟩⟩
  · rintro ⟨rest, rfl, read⟩
    obtain ⟨chain, action, chunk, after, line_eq, ends⟩ := at?_eq_some_iff.mp read
    exact ⟨chain, action, chunk, after, congrArg (before ++ ·) line_eq, ends⟩

/-- An occurrence in a line stands at its start or in the rest. -/
theorem standsIn_cons {found : Occurrence} {c : Char} {before rest : List Char} :
    found.StandsIn before (c :: rest) ↔
      (before = [] ∧ at? (c :: rest) = some found) ∨
        ∃ between, before = c :: between ∧ found.StandsIn between rest := by
  rw [standsIn_iff]
  constructor
  · rintro ⟨piece, line_eq, read⟩
    cases before with
    | nil => exact .inl ⟨rfl, line_eq ▸ read⟩
    | cons d between =>
      obtain ⟨rfl, rest_eq⟩ := List.cons.inj line_eq
      exact .inr ⟨between, rfl, standsIn_iff.mpr ⟨piece, rest_eq, read⟩⟩
  · rintro (⟨rfl, read⟩ | ⟨between, rfl, stands⟩)
    · exact ⟨c :: rest, rfl, read⟩
    · obtain ⟨piece, rfl, read⟩ := standsIn_iff.mp stands
      exact ⟨piece, rfl, read⟩

/-- Two occurrences that stand equally far behind in a line are the same. -/
theorem StandsIn.eq_of_length_eq {found other : Occurrence} {before before' line : List Char}
    (stands : found.StandsIn before line) (stands' : other.StandsIn before' line)
    (length_eq : before.length = before'.length) : found = other := by
  obtain ⟨rest, rfl, read⟩ := standsIn_iff.mp stands
  obtain ⟨rest', line_eq, read'⟩ := standsIn_iff.mp stands'
  obtain ⟨-, rfl⟩ := List.append_inj line_eq length_eq
  exact Option.some.inj (read.symm.trans read')

theorem LastIn.unique {found other : Occurrence} {line : List Char} (last : found.LastIn line)
    (last' : other.LastIn line) : found = other := by
  obtain ⟨before, stands, furthest⟩ := last
  obtain ⟨before', stands', furthest'⟩ := last'
  exact stands.eq_of_length_eq stands'
    (Nat.le_antisymm (furthest' found before stands) (furthest other before' stands'))

/-- The scan of a line finds the last occurrence in it, and nothing only where there is none. -/
theorem last?_cases (line : List Char) :
    (last? line = none ∧ ∀ (found : Occurrence) (before : List Char), ¬ found.StandsIn before line) ∨
      ∃ found, last? line = some found ∧ found.LastIn line := by
  induction line with
  | nil =>
    refine .inl ⟨rfl, fun found before stands => ?_⟩
    obtain ⟨rest, line_eq, read⟩ := standsIn_iff.mp stands
    obtain ⟨rfl, rfl⟩ := List.append_eq_nil_iff.mp line_eq.symm
    cases read
  | cons c rest ih =>
    rw [last?]
    rcases ih with ⟨nothing, no_later⟩ | ⟨found, later, before, stands, furthest⟩
    · -- Nothing starts in the rest, so an occurrence can only start right here.
      rw [nothing]
      dsimp only
      cases here : at? (c :: rest) with
      | none =>
        refine .inl ⟨rfl, fun found before stands => ?_⟩
        rcases standsIn_cons.mp stands with ⟨-, read⟩ | ⟨between, -, inner⟩
        · rw [here] at read
          cases read
        · exact no_later found between inner
      | some found =>
        refine .inr ⟨found, rfl, [], standsIn_cons.mpr (.inl ⟨rfl, here⟩), fun other before stands => ?_⟩
        rcases standsIn_cons.mp stands with ⟨rfl, -⟩ | ⟨between, -, inner⟩
        · exact Nat.le_refl 0
        · exact absurd inner (no_later other between)
    · rw [later]
      refine .inr ⟨found, rfl, c :: before, standsIn_cons.mpr (.inr ⟨before, rfl, stands⟩), ?_⟩
      intro other before' stands'
      rcases standsIn_cons.mp stands' with ⟨rfl, -⟩ | ⟨between, rfl, inner⟩
      · exact Nat.zero_le _
      · exact Nat.succ_le_succ (furthest other between inner)

theorem last?_eq_none_iff {line : List Char} :
    last? line = none ↔ ∀ (found : Occurrence) (before : List Char), ¬ found.StandsIn before line := by
  rcases last?_cases line with ⟨nothing, none_stands⟩ | ⟨found, some_found, before, stands, -⟩
  · exact ⟨fun _ => none_stands, fun _ => nothing⟩
  · rw [some_found]
    constructor
    · intro h
      cases h
    · intro none_stands
      exact absurd stands (none_stands found before)

theorem last?_eq_some_iff {line : List Char} {found : Occurrence} :
    last? line = some found ↔ found.LastIn line := by
  rcases last?_cases line with ⟨nothing, none_stands⟩ | ⟨other, some_other, last⟩
  · rw [nothing]
    constructor
    · intro h
      cases h
    · rintro ⟨before, stands, -⟩
      exact absurd stands (none_stands found before)
  · rw [some_other, Option.some.injEq]
    constructor
    · rintro rfl
      exact last
    · exact last.unique

/-- A key has an occurrence to read exactly where one of its lines has one. -/
theorem inKey?_eq_none_iff {key : String} :
    inKey? key = none ↔ ∀ line ∈ key.toList.splitOn '\n', ∀ (found : Occurrence) (before : List Char),
      ¬ found.StandsIn before line := by
  simp only [inKey?, List.findSome?_eq_none_iff, last?_eq_none_iff]

theorem inKey?_eq_some_iff {key : String} {found : Occurrence} :
    inKey? key = some found ↔ found.ReadIn key := by
  simp only [inKey?, List.findSome?_eq_some_iff, last?_eq_none_iff, last?_eq_some_iff, ReadIn]

/-- An occurrence is read as its numbers if all of them fit, and is refused with a reason for each one that
does not. -/
theorem read_cases (found : Occurrence) :
    (found.Fits ∧ ∃ c, found.read = .decoded c ∧ c.chain.toNat = Numeral.value found.chain ∧
      c.action.toNat = Numeral.value found.action ∧ c.chunk.toNat = Numeral.value found.chunk) ∨
    (¬ found.Fits ∧ ∃ parts : List Part, found.read = .outOfRange parts ∧
      parts.map (fun _ => tooLarge) = found.refusals) := by
  by_cases fits : found.Fits
  · obtain ⟨chain, action, chunk⟩ := id fits
    refine .inl ⟨fits, ⟨.ofNat (Numeral.value found.chain), .ofNat (Numeral.value found.action),
      .ofNat (Numeral.value found.chunk)⟩, ?_, UInt64.toNat_ofNat_of_lt' chain,
      UInt64.toNat_ofNat_of_lt' action, UInt32.toNat_ofNat_of_lt' chunk⟩
    simp only [read, Numeral.word64?, Numeral.word32?, if_pos chain, if_pos action, if_pos chunk]
  · refine .inr ⟨fits, ?_⟩
    unfold Fits at fits
    unfold read Numeral.word64? Numeral.word32? refusals
    by_cases chain : Numeral.value found.chain < UInt64.size <;>
      by_cases action : Numeral.value found.action < UInt64.size <;>
        by_cases chunk : Numeral.value found.chunk < UInt32.size <;>
          simp_all [Nat.not_le.mpr, tooLarge]

end Occurrence

end StateId

end ChunkedChain
