import ChunkedChain.Proofs.Occurrences

/-!
# The pattern of keys

The grammar of keys as a search pattern: anything in a line, the bar and the opening, three groups of
digits between marks, anything in the line. A search goes through the places where a match can start from
the left, and at each of them through the ways in which the repetitions can share the text, the longest
first, and stops at the first way that fits the whole pattern. What it captures is the last occurrence of
the first line that has one, which is what a key is read at.
-/

namespace ChunkedChain

inductive Piece where
  /-- This text. -/
  | text (text : List Char)
  /-- Characters of a kind, as many as possible. -/
  | many (kind : Char → Bool)
  /-- A group of characters of a kind, as many as possible and at least one. -/
  | group (kind : Char → Bool)

namespace Piece

/-- The ways to take characters of a kind from the start of a text, the longest first, each with what it
leaves. -/
def takes (kind : Char → Bool) : List Char → List (List Char × List Char)
  | [] => [([], [])]
  | c :: rest =>
    (if kind c then (takes kind rest).map fun (taken, left) => (c :: taken, left) else [])
      ++ [([], c :: rest)]

/-- The groups of the first way in which the pieces fit the start of a text. -/
def groupsAt? : List Piece → List Char → Option (List (List Char))
  | [], _ => some []
  | .text piece :: pieces, line => (piece.isPrefixOf? line).bind (groupsAt? pieces)
  | .many kind :: pieces, line => (takes kind line).findSome? fun (_, left) => groupsAt? pieces left
  | .group kind :: pieces, line =>
    (takes kind line).findSome? fun (taken, left) =>
      if taken.isEmpty then none else (groupsAt? pieces left).map (taken :: ·)

/-- The groups of the leftmost match of the pieces. -/
def search? (pieces : List Piece) : List Char → Option (List (List Char))
  | [] => groupsAt? pieces []
  | c :: rest => (groupsAt? pieces (c :: rest)).or (search? pieces rest)

/-- The longest way comes first. Any other leaves a character that could have been taken. -/
theorem takes_eq_cons (kind : Char → Bool) (line : List Char) :
    ∃ shorter, takes kind line = (line.takeWhile kind, line.dropWhile kind) :: shorter ∧
      ∀ way ∈ shorter, ∃ c rest, way.2 = c :: rest ∧ kind c = true := by
  induction line with
  | nil => exact ⟨[], rfl, fun _ mem => absurd mem List.not_mem_nil⟩
  | cons c rest ih =>
    rw [takes]
    by_cases of_kind : kind c = true
    · obtain ⟨shorter, longest, leaves⟩ := ih
      rw [if_pos of_kind, longest, List.takeWhile_cons_of_pos of_kind, List.dropWhile_cons_of_pos of_kind]
      refine ⟨_, rfl, fun way mem => ?_⟩
      rcases List.mem_append.mp mem with extended | nothing
      · obtain ⟨other, shorter_mem, rfl⟩ := List.mem_map.mp extended
        exact leaves other shorter_mem
      · obtain rfl := List.mem_singleton.mp nothing
        exact ⟨c, rest, rfl, of_kind⟩
    · rw [if_neg of_kind, List.takeWhile_cons_of_neg of_kind, List.dropWhile_cons_of_neg of_kind]
      exact ⟨[], rfl, fun _ mem => absurd mem List.not_mem_nil⟩

theorem takes_of_takeWhile_eq_nil {kind : Char → Bool} {line : List Char}
    (nothing : line.takeWhile kind = []) : takes kind line = [([], line)] := by
  cases line with
  | nil => rfl
  | cons c rest =>
    have no_kind : ¬ kind c = true := by
      intro of_kind
      rw [List.takeWhile_cons_of_pos of_kind] at nothing
      cases nothing
    rw [takes, if_neg no_kind, List.nil_append]

/-- Where the rest of a pattern cannot start with a character of the kind, only the longest way counts. -/
theorem findSome?_takes {β : Type} {kind : Char → Bool} (line : List Char)
    {f : List Char × List Char → Option β}
    (stops : ∀ (taken : List Char) (c : Char) (rest : List Char), kind c = true →
      f (taken, c :: rest) = none) :
    (takes kind line).findSome? f = f (line.takeWhile kind, line.dropWhile kind) := by
  obtain ⟨shorter, longest, leaves⟩ := takes_eq_cons kind line
  have none_else : shorter.findSome? f = none := by
    refine List.findSome?_eq_none_iff.mpr fun way mem => ?_
    obtain ⟨c, rest, left, of_kind⟩ := leaves way mem
    have stopped := stops way.1 c rest of_kind
    rwa [← left] at stopped
  rw [longest, List.findSome?_cons, none_else]
  cases f (line.takeWhile kind, line.dropWhile kind) <;> rfl

/-- The ways to take at least one character come before the way to take none. -/
theorem findSome?_takes_cons {β : Type} (kind : Char → Bool) (f : List Char → Option β) (c : Char)
    (rest : List Char) :
    (takes kind (c :: rest)).findSome? (fun way => f way.2) =
      (if kind c then (takes kind rest).findSome? fun way => f way.2 else none).or (f (c :: rest)) := by
  rw [takes, List.findSome?_append, List.findSome?_singleton]
  split
  · rw [List.findSome?_map]
    rfl
  · rfl

theorem groupsAt?_text (piece : List Char) (pieces : List Piece) (line : List Char) :
    groupsAt? (.text piece :: pieces) line = (piece.isPrefixOf? line).bind (groupsAt? pieces) := rfl

/-- A repetition at the end of a pattern always fits. -/
theorem groupsAt?_many (kind : Char → Bool) (line : List Char) : groupsAt? [.many kind] line = some [] := by
  obtain ⟨shorter, longest, -⟩ := takes_eq_cons kind line
  rw [groupsAt?, longest]
  rfl

/-- A group of digits before a mark is the numeral that the text starts with. -/
theorem groupsAt?_group {mark : List Char} (starts : mark.head? = some '_') (pieces : List Piece)
    (line : List Char) :
    groupsAt? (.group Char.isDigit :: .text mark :: pieces) line =
      (Numeral.leading? line).bind fun (digits, rest) =>
        (groupsAt? (.text mark :: pieces) rest).map (digits :: ·) := by
  obtain ⟨tail, rfl⟩ : ∃ tail, mark = '_' :: tail := by
    cases mark with
    | nil => cases starts
    | cons c tail =>
      obtain rfl := Option.some.inj starts
      exact ⟨tail, rfl⟩
  rw [groupsAt?, findSome?_takes]
  · rw [Numeral.leading?]
    dsimp only
    split <;> rfl
  · intro taken c rest digit
    have no_mark : groupsAt? (.text ('_' :: tail) :: pieces) (c :: rest) = none := by
      have apart : ('_' == c) = false := by
        rw [beq_eq_false_iff_ne]
        rintro rfl
        cases digit
      rw [groupsAt?, List.isPrefixOf?, apart]
      rfl
    simp only [no_mark, Option.map_none, ite_self]

/-- So is a group of digits at the end of a pattern, if only a repetition follows. -/
theorem groupsAt?_last_group (kind : Char → Bool) (line : List Char) :
    groupsAt? [.group Char.isDigit, .many kind] line =
      (Numeral.leading? line).map fun (digits, _) => [digits] := by
  rw [groupsAt?]
  simp only [groupsAt?_many, Option.map_some]
  by_cases nothing : line.takeWhile Char.isDigit = []
  · rw [takes_of_takeWhile_eq_nil nothing, Numeral.leading?, nothing]
    rfl
  · obtain ⟨shorter, longest, -⟩ := takes_eq_cons Char.isDigit line
    rw [longest, Numeral.leading?]
    simp [nothing]

end Piece

namespace StateId

def inLine (c : Char) : Bool := c != '\n'

/-- What the pattern holds behind the start of a line. -/
def keyTail : List Piece :=
  [.text "|-mgr_actionchain_".toList, .group Char.isDigit, .text "_action_".toList, .group Char.isDigit,
    .text "_chunk_".toList, .group Char.isDigit, .many inLine]

/-- The pattern that a key of an action chain holds. -/
def keyPattern : List Piece := .many inLine :: keyTail

namespace Occurrence

def groups (found : Occurrence) : List (List Char) := [found.chain, found.action, found.chunk]

theorem groupsAt?_keyTail (line : List Char) : Piece.groupsAt? keyTail line = (at? line).map groups := by
  have texts : keyTail = [.text bar.toList, .group Char.isDigit, .text actionMark.toList,
      .group Char.isDigit, .text chunkMark.toList, .group Char.isDigit, .many inLine] := by
    rw [bar_eq, actionMark, chunkMark, keyTail]
  have action_starts : actionMark.toList.head? = some '_' := by decide
  have chunk_starts : chunkMark.toList.head? = some '_' := by decide
  rw [texts, at?]
  generalize bar.toList = bar
  generalize actionMark.toList = action at action_starts ⊢
  generalize chunkMark.toList = chunk at chunk_starts ⊢
  simp only [Piece.groupsAt?_text, Piece.groupsAt?_group action_starts, Piece.groupsAt?_group chunk_starts,
    Piece.groupsAt?_last_group, Option.bind_eq_bind, Option.pure_def, Option.map_eq_bind,
    Option.bind_assoc, Function.comp_def, Option.bind_some, groups]

/-- No occurrence goes on beyond the end of a line. -/
theorem StandsIn.inLine_of_mem {found : Occurrence} {before line : List Char}
    (stands : found.StandsIn before line) {c : Char} (mem : c ∈ found.text) : inLine c = true := by
  have digits {run : List Char} (numeral : Numeral.isNumeral run = true) (mem : c ∈ run) :
      inLine c = true := by
    have digit := Numeral.isDigit_of_isNumeral numeral mem
    rw [inLine, bne_iff_ne]
    rintro rfl
    cases digit
  have bar_inLine : ∀ d ∈ bar.toList, inLine d = true := List.all_eq_true.mp (by decide)
  have action_inLine : ∀ d ∈ actionMark.toList, inLine d = true := List.all_eq_true.mp (by decide)
  have chunk_inLine : ∀ d ∈ chunkMark.toList, inLine d = true := List.all_eq_true.mp (by decide)
  rw [← List.append_nil found.text, text_append, List.append_nil] at mem
  simp only [List.mem_append] at mem
  rcases mem with start | chain | mark | action | mark | chunk
  · exact bar_inLine c start
  · exact digits stands.chain chain
  · exact action_inLine c mark
  · exact digits stands.action action
  · exact chunk_inLine c mark
  · exact digits stands.chunk chunk

/-- What starts at a place depends on the line alone. -/
theorem at?_takeWhile (text : List Char) : at? (text.takeWhile inLine) = at? text := by
  refine Option.ext fun found => ?_
  rw [at?_eq_some_iff, at?_eq_some_iff]
  have breaks (rest : List Char) : ∀ c ∈ (rest.dropWhile inLine).head?, c.isDigit = false := by
    intro c head
    have no_inLine := List.head?_dropWhile_not inLine rest
    rw [head] at no_inLine
    obtain rfl : c = '\n' := by simpa [inLine] using no_inLine
    rfl
  constructor
  · intro stands
    obtain ⟨chain, action, chunk, after, line_eq, ends⟩ := stands
    refine ⟨chain, action, chunk, after ++ text.dropWhile inLine, ?_, ?_⟩
    · rw [List.nil_append] at line_eq ⊢
      rw [← List.append_assoc, ← line_eq, List.takeWhile_append_dropWhile]
    · cases after with
      | nil => exact breaks text
      | cons c after => exact ends
  · intro stands
    have inside : ∀ c ∈ found.text, inLine c = true := fun c => stands.inLine_of_mem
    obtain ⟨chain, action, chunk, after, rfl, ends⟩ := stands
    refine ⟨chain, action, chunk, after.takeWhile inLine, ?_, ?_⟩
    · rw [List.nil_append, List.takeWhile_append_of_pos inside, List.nil_append]
    · intro c head
      rw [List.head?_takeWhile] at head
      exact ends c (Option.filter_eq_some_iff.mp head).1

/-- From any place, the pattern fits as far behind as it can in the line: the first repetition is tried
with all of the line, and gives way from there. -/
theorem groupsAt?_keyPattern (text : List Char) :
    Piece.groupsAt? keyPattern text = (last? (text.takeWhile inLine)).map groups := by
  rw [keyPattern, Piece.groupsAt?]
  simp only [groupsAt?_keyTail]
  induction text with
  | nil => rfl
  | cons c rest ih =>
    rw [Piece.findSome?_takes_cons inLine fun left => (at? left).map groups, ih, ← at?_takeWhile (c :: rest)]
    by_cases inside : inLine c = true
    · rw [if_pos inside, List.takeWhile_cons_of_pos inside, last?]
      cases last? (rest.takeWhile inLine) <;> rfl
    · rw [if_neg inside, List.takeWhile_cons_of_neg inside]
      rfl

theorem splitOn_cons (c : Char) (rest : List Char) :
    (c :: rest).splitOn '\n' =
      if inLine c then (rest.splitOn '\n').modifyHead (c :: ·) else [] :: rest.splitOn '\n' := by
  rw [List.splitOn_eq_splitOnP, List.splitOn_eq_splitOnP, List.splitOnP_cons_eq_if_modifyHead]
  by_cases ends : c = '\n' <;> simp [inLine, ends]

/-- The first line of a text, and the other ones. -/
theorem exists_splitOn_eq (text : List Char) :
    ∃ later, text.splitOn '\n' = text.takeWhile inLine :: later := by
  induction text with
  | nil => exact ⟨[], List.splitOn_nil _⟩
  | cons c rest ih =>
    obtain ⟨later, lines⟩ := ih
    rw [splitOn_cons, lines]
    by_cases inside : inLine c = true
    · rw [if_pos inside, List.takeWhile_cons_of_pos inside]
      exact ⟨later, rfl⟩
    · rw [if_neg inside, List.takeWhile_cons_of_neg inside]
      exact ⟨_, rfl⟩

/-- A search for the pattern finds the last occurrence of the first line that has one. -/
theorem search?_keyPattern (text : List Char) :
    Piece.search? keyPattern text = ((text.splitOn '\n').findSome? last?).map groups := by
  induction text with
  | nil => rfl
  | cons c rest ih =>
    obtain ⟨later, lines⟩ := exists_splitOn_eq rest
    rw [Piece.search?, groupsAt?_keyPattern, ih, splitOn_cons, lines]
    by_cases inside : inLine c = true
    · -- The search goes on inside the line, where it could only find what it has found already.
      rw [if_pos inside, List.takeWhile_cons_of_pos inside, List.modifyHead_cons, List.findSome?_cons,
        List.findSome?_cons, last?]
      cases last? (rest.takeWhile inLine) with
      | some found => rfl
      | none => cases at? (c :: rest.takeWhile inLine) <;> rfl
    · rw [if_neg inside, List.takeWhile_cons_of_neg inside]
      rfl

theorem search?_eq_inKey? (key : String) :
    Piece.search? keyPattern key.toList = (inKey? key).map groups := search?_keyPattern key.toList

end Occurrence

/-- A key is read by its grammar: at the last occurrence of the first line that has one, as its three
numbers if all of them fit, else as nothing and with an error that gives a reason for each one that does
not. This is the occurrence that a search for the pattern finds, and a key without any is passed over. -/
theorem decode?_reads_last_occurrence (key : String) :
    ((∀ line ∈ key.toList.splitOn '\n', ∀ (found : Occurrence) (before : List Char),
        ¬ found.StandsIn before line) ∧
      Piece.search? keyPattern key.toList = none ∧ decode? key = none ∧ log key = []) ∨
    ∃ found : Occurrence, found.ReadIn key ∧ (∀ other : Occurrence, other.ReadIn key → other = found) ∧
      Piece.search? keyPattern key.toList = some [found.chain, found.action, found.chunk] ∧
      (found.Fits ∧
          (∃ c, decode? key = some c ∧ c.chain.toNat = Numeral.value found.chain ∧
            c.action.toNat = Numeral.value found.action ∧ c.chunk.toNat = Numeral.value found.chunk) ∧
          log key = [] ∨
        ¬ found.Fits ∧ decode? key = none ∧
          log key = [⟨.error, .stateIds, "Error parsing action chain state id: " ++ key ++ ": "
            ++ ", ".intercalate found.refusals⟩]) := by
  have searched := Occurrence.search?_eq_inKey? key
  cases inKey : Occurrence.inKey? key with
  | none =>
    rw [inKey] at searched
    have foreign : read key = .foreign := by rw [read, inKey]
    refine .inl ⟨Occurrence.inKey?_eq_none_iff.mp inKey, searched, ?_, ?_⟩
    · rw [decode?, foreign]
    · rw [log, foreign]
  | some found =>
    rw [inKey] at searched
    have reading : read key = found.read := by rw [read, inKey]
    refine .inr ⟨found, Occurrence.inKey?_eq_some_iff.mp inKey, fun other other_read => ?_, searched, ?_⟩
    · have other_inKey := Occurrence.inKey?_eq_some_iff.mpr other_read
      exact Option.some.inj (other_inKey.symm.trans inKey)
    · rcases found.read_cases with ⟨fits, c, decoded, numbers⟩ | ⟨unfit, parts, refused, refusals⟩
      · refine .inl ⟨fits, ⟨c, ?_, numbers⟩, ?_⟩
        · rw [decode?, reading, decoded]
        · rw [log, reading, decoded]
      · refine .inr ⟨unfit, ?_, ?_⟩
        · rw [decode?, reading, refused]
        · rw [log, reading, refused, ← refusals]

/-- The last occurrence decides, even if it is refused and another one would not be. -/
example : decode? ("module_|-mgr_actionchain_1_action_2_chunk_3_|-" ++
    "mgr_actionchain_1_action_2_chunk_99999999999_|-run") = none := by cbv

end StateId

end ChunkedChain
