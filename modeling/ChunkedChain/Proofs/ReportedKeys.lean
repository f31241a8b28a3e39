import ChunkedChain.Proofs.Linking
import ChunkedChain.Proofs.Occurrences

/-!
# Reading reported keys

The id of a compiled state stands in its key right after a bar, and a text that does not follow it ends
the numbers in it. Wherever else an occurrence started in the key, the opening of ids would stand in the
parts that the node adds. So the key of a compiled state is read back to its coordinates, and the key of
a continuation is nobody's.
-/

namespace ChunkedChain

/-- A word stands inside one of the texts beside a character that it does not hold. -/
theorem infix_of_not_mem {α : Type} {c : α} {word xs ys : List α} (h : c ∉ word)
    (inside : word <:+: xs ++ c :: ys) : word <:+: xs ∨ word <:+: ys := by
  rcases List.infix_append_iff.mp inside with left | right | ⟨front, back, rfl, ends, starts⟩
  · exact .inl left
  · rcases List.infix_cons_iff.mp right with starts | right
    · cases word with
      | nil => exact .inl List.nil_infix
      | cons d word =>
        obtain ⟨rfl, -⟩ := List.cons_prefix_cons.mp starts
        exact absurd List.mem_cons_self h
    · exact .inr right
  · cases back with
    | nil => exact .inl (by simpa using ends.isInfix)
    | cons d back =>
      obtain ⟨rfl, -⟩ := List.cons_prefix_cons.mp starts
      exact absurd (List.mem_append_right _ List.mem_cons_self) h

/-- The first line of a text, if what stands at its start has no line break. -/
theorem splitOn_append_eq {c : Char} {xs : List Char} (h : c ∉ xs) (ys : List Char) :
    ∃ line rest, (xs ++ ys).splitOn c = (xs ++ line) :: rest ∧ line <+: ys := by
  by_cases mem : c ∈ ys
  · obtain ⟨line, rest, rfl, new⟩ := List.eq_append_cons_of_mem mem
    have whole : c ∉ xs ++ line := by simp [h, new]
    refine ⟨line, rest.splitOn c, ?_, List.prefix_append _ _⟩
    rw [← List.append_assoc, List.splitOn_append_cons_self, List.splitOn_eq_singleton whole]
    rfl
  · have whole : c ∉ xs ++ ys := by simp [h, mem]
    exact ⟨ys, [], List.splitOn_eq_singleton whole, List.prefix_rfl⟩

theorem infix_intercalate {α : Type} {line : List α} {lines : List (List α)} (h : line ∈ lines)
    (separator : List α) : line <:+: separator.intercalate lines := by
  induction lines with
  | nil => cases h
  | cons first rest ih =>
    cases rest with
    | nil =>
      obtain rfl := List.mem_singleton.mp h
      simp [List.intercalate_singleton]
    | cons second rest =>
      rw [List.intercalate_cons_cons, List.append_assoc]
      rcases List.mem_cons.mp h with rfl | later
      · exact List.infix_append_left
      · exact (ih later).trans (List.infix_append_right.trans List.infix_append_right)

/-- A line is a piece of its text. -/
theorem infix_of_mem_splitOn {c : Char} {line text : List Char} (h : line ∈ text.splitOn c) :
    line <:+: text := by
  have piece := infix_intercalate h [c]
  rwa [List.intercalate_splitOn] at piece

namespace StateId

/-- No id of an action's state starts in the text. -/
def Quiet (text : List Char) : Prop :=
  ∀ digit : Char, digit.isDigit = true → ¬ opening.toList ++ [digit] <:+: text

/-- A part of a key that has nothing of an id in it. -/
def Foreign (part : String) : Prop := ¬ opening.toList <:+: part.toList

/-- The key under which a node reports a state: its module, its id, the name that the module was given
and the function that it ran. -/
def key (module id name function : String) : String :=
  module ++ "_|-" ++ id ++ "_|-" ++ name ++ "_|-" ++ function

namespace Quiet

theorem of_not_mem {text : List Char} {c : Char} (part : c ∈ opening.toList) (h : c ∉ text) :
    Quiet text := by
  intro digit _ inside
  exact h (inside.subset (List.mem_append_left _ part))

theorem piece {text piece : List Char} (quiet : Quiet text) (inside : piece <:+: text) :
    Quiet piece :=
  fun digit isDigit starts => quiet digit isDigit (starts.trans inside)

theorem append_cons {xs ys : List Char} {c : Char} (no_part : c ∉ opening.toList)
    (no_digit : c.isDigit = false) (left : Quiet xs) (right : Quiet ys) : Quiet (xs ++ c :: ys) := by
  intro digit isDigit inside
  have new : c ∉ opening.toList ++ [digit] := by
    simp only [List.mem_append, List.mem_singleton, not_or]
    refine ⟨no_part, ?_⟩
    rintro rfl
    rw [isDigit] at no_digit
    cases no_digit
  rcases infix_of_not_mem new inside with left_of | right_of
  · exact left digit isDigit left_of
  · exact right digit isDigit right_of

theorem concat {text : List Char} (quiet : Quiet text) {c : Char} (no_digit : c.isDigit = false) :
    Quiet (text ++ [c]) := by
  intro digit isDigit inside
  rcases List.infix_concat_iff.mp inside with ⟨front, ends⟩ | inside
  · rw [← List.append_assoc] at ends
    obtain ⟨-, same⟩ := List.append_inj' ends rfl
    obtain rfl := List.singleton_inj.mp same
    rw [isDigit] at no_digit
    cases no_digit
  · exact quiet digit isDigit inside

end Quiet

theorem Foreign.quiet {part : String} (foreign : Foreign part) : Quiet part.toList :=
  fun _ _ inside => foreign (List.infix_append_left.trans inside)

def keyEnd (name function : String) : List Char :=
  '_' :: '|' :: '-' :: name.toList ++ '_' :: '|' :: '-' :: function.toList

theorem toList_key (module id name function : String) :
    (key module id name function).toList =
      module.toList ++ '_' :: '|' :: '-' :: id.toList ++ keyEnd name function := by
  simp [key, keyEnd]

theorem quiet_keyEnd {name function : String} (foreign_name : Foreign name)
    (foreign_function : Foreign function) : Quiet (keyEnd name function) := by
  have split : keyEnd name function =
      ['_'] ++ '|' :: ([] ++ '-' :: ((name.toList ++ ['_']) ++ '|' :: ([] ++ '-' :: function.toList))) := by
    simp [keyEnd]
  have nothing : Quiet [] := .of_not_mem (c := 'g') (by decide) (by decide)
  rw [split]
  refine .append_cons (by decide) (by decide) (.of_not_mem (c := 'g') (by decide) (by decide)) ?_
  refine .append_cons (by decide) (by decide) nothing ?_
  refine .append_cons (by decide) (by decide) (foreign_name.quiet.concat (by decide)) ?_
  exact .append_cons (by decide) (by decide) nothing foreign_function.quiet

namespace Occurrence

theorem toList_bar : bar.toList = '|' :: '-' :: opening.toList := by decide

/-- An occurrence starts with a bar, the opening and a digit. -/
theorem shape_of_at? {text : List Char} {found : Occurrence} (h : at? text = some found) :
    ∃ digit rest, digit.isDigit = true ∧ text = '|' :: '-' :: opening.toList ++ digit :: rest := by
  obtain ⟨chain, -, -, after, rfl, -⟩ := at?_eq_some_iff.mp h
  obtain ⟨digit, rest, digits, isDigit⟩ := Numeral.exists_digit_of_isNumeral chain
  rw [List.nil_append, text_append, toList_bar, digits]
  exact ⟨digit, _, isDigit, rfl⟩

theorem at?_of_quiet {text : List Char} (quiet : Quiet text) : at? text = none := by
  refine Option.eq_none_iff_forall_ne_some.mpr fun found h => ?_
  obtain ⟨digit, rest, isDigit, rfl⟩ := shape_of_at? h
  refine quiet digit isDigit ⟨['|', '-'], rest, ?_⟩
  simp

theorem at?_of_ne_bar {c : Char} (h : c ≠ '|') (rest : List Char) : at? (c :: rest) = none := by
  refine Option.eq_none_iff_forall_ne_some.mpr fun found starts => ?_
  obtain ⟨_, _, -, shape⟩ := shape_of_at? starts
  exact h (List.cons.inj shape).1

theorem last?_of_quiet {line : List Char} (quiet : Quiet line) : last? line = none := by
  induction line with
  | nil => rfl
  | cons c rest ih =>
    rw [last?, ih (quiet.piece (List.suffix_cons c rest).isInfix)]
    exact at?_of_quiet quiet

/-- No occurrence starts in a text without bars. -/
theorem last?_append {before : List Char} (no_bar : '|' ∉ before) (rest : List Char) :
    last? (before ++ rest) = last? rest := by
  induction before with
  | nil => rfl
  | cons c before ih =>
    obtain ⟨apart, no_bar⟩ := not_or.mp (mt List.mem_cons.mpr no_bar)
    rw [List.cons_append, last?, ih no_bar, at?_of_ne_bar (Ne.symm apart)]
    cases last? rest <;> rfl

/-- The occurrence that an id makes behind a bar. -/
def of (c : Coordinates) : Occurrence where
  chain := (decimal c.chain.toNat).toList
  action := (decimal c.action.toNat).toList
  chunk := (decimal c.chunk.toNat).toList

theorem read_of (c : Coordinates) : (of c).read = .decoded c := by
  simp only [read, of, Numeral.word64?_decimal, Numeral.word32?_decimal]

theorem at?_ofCoordinates (c : Coordinates) {rest : List Char}
    (ends : ∀ d ∈ rest.head?, d.isDigit = false) :
    at? ('|' :: '-' :: (ofCoordinates c).toList ++ rest) = some (of c) := by
  refine at?_eq_some_iff.mpr ⟨Numeral.isNumeral_decimal _, Numeral.isNumeral_decimal _,
    Numeral.isNumeral_decimal _, rest, ?_, ends⟩
  rw [List.nil_append, text_append]
  simp [of, ofCoordinates, ofAction, chunkSuffix, toList_bar]

end Occurrence

theorem not_mem_ofCoordinates {c : Char} (no_digit : c.isDigit = false)
    (no_text : c ∉ opening.toList ∧ c ∉ actionMark.toList ∧ c ∉ chunkMark.toList)
    (coordinates : Coordinates) : c ∉ (ofCoordinates coordinates).toList := by
  simp only [ofCoordinates, ofAction, chunkSuffix, String.toList_append, List.mem_append, not_or]
  exact ⟨⟨⟨⟨no_text.1, not_mem_decimal no_digit _⟩, no_text.2.1⟩, not_mem_decimal no_digit _⟩,
    no_text.2.2, not_mem_decimal no_digit _⟩

/-- The id is the last thing that is found in its line: what follows holds no occurrence, and in the id
itself there is no second bar. -/
theorem Occurrence.last?_ofCoordinates {front line : List Char} (no_bar : '|' ∉ front)
    (c : Coordinates) (quiet : Quiet line) (ends : ∀ d ∈ line.head?, d.isDigit = false) :
    last? (front ++ ('|' :: '-' :: (ofCoordinates c).toList ++ line)) = some (of c) := by
  have no_second : '|' ∉ '-' :: (ofCoordinates c).toList := by
    simp [not_mem_ofCoordinates (c := '|') (by decide) (by decide) c]
  have later : last? ('-' :: (ofCoordinates c).toList ++ line) = none := by
    rw [last?_append no_second, last?_of_quiet quiet]
  rw [last?_append no_bar, List.cons_append, last?, later]
  exact at?_ofCoordinates c ends

/-- A state module has neither bars nor line breaks, and nothing of it could be part of an opening. -/
theorem plain_stateModule (task : Task) :
    '|' ∉ task.stateModule.toList ∧ '\n' ∉ task.stateModule.toList ∧ 'g' ∉ task.stateModule.toList := by
  have plain : ∀ module ∈ ["module", "cmd"],
      '|' ∉ module.toList ∧ '\n' ∉ module.toList ∧ 'g' ∉ module.toList := by decide
  cases task with
  | run function args kwargs => exact plain "module" (by simp)
  | script script => exact plain "cmd" (by simp)
  | reboot delay => exact plain "module" (by simp)

section Keys

variable (task : Task) {name function : String} (foreign_name : Foreign name)
  (foreign_function : Foreign function)

include foreign_name foreign_function

/-- The key of a compiled state tells its coordinates, whatever else stands in it. -/
theorem decode?_key (c : Coordinates) :
    decode? (key task.stateModule (ofCoordinates c) name function) = some c := by
  obtain ⟨no_bar, no_break, -⟩ := plain_stateModule task
  have no_break_id := not_mem_ofCoordinates (c := '\n') (by decide) (by decide) c
  have one_line : '\n' ∉ task.stateModule.toList ++ '_' :: '|' :: '-' :: (ofCoordinates c).toList := by
    simp [no_break, no_break_id]
  -- Line breaks can only stand behind the id, so the id is in the first line.
  obtain ⟨line, rest, lines, starts⟩ := splitOn_append_eq one_line (keyEnd name function)
  have ends : ∀ d ∈ line.head?, d.isDigit = false := by
    intro d hd
    obtain ⟨more, whole⟩ := starts
    cases line with
    | nil => cases hd
    | cons e line =>
      obtain rfl : e = d := Option.some.inj hd
      obtain rfl : e = '_' := (List.cons.inj whole).1
      rfl
  have front : '|' ∉ task.stateModule.toList ++ ['_'] := by simp [no_bar]
  have found := Occurrence.last?_ofCoordinates front c
    ((quiet_keyEnd foreign_name foreign_function).piece starts.isInfix) ends
  have inKey : Occurrence.inKey? (key task.stateModule (ofCoordinates c) name function) =
      some (Occurrence.of c) := by
    rw [Occurrence.inKey?, toList_key, lines, List.findSome?_cons]
    simp only [List.append_assoc, List.cons_append, List.nil_append] at found ⊢
    rw [found]
  rw [decode?, read, inKey]
  simp only [Occurrence.read_of]

/-- The key of a continuation tells nothing. -/
theorem decode?_key_nextId : decode? (key task.stateModule Chunk.nextId name function) = none := by
  obtain ⟨-, -, no_part⟩ := plain_stateModule task
  have next : 'g' ∉ Chunk.nextId.toList := by decide
  have front : Quiet (task.stateModule.toList ++ '_' :: '|' :: '-' :: Chunk.nextId.toList) :=
    .of_not_mem (c := 'g') (by decide) (by simp [no_part, next])
  have tail : Quiet ('-' :: name.toList ++ '_' :: '|' :: '-' :: function.toList) :=
    (quiet_keyEnd foreign_name foreign_function).piece ⟨['_', '|'], [], by simp [keyEnd]⟩
  have whole : Quiet (key task.stateModule Chunk.nextId name function).toList := by
    have joined := (front.concat (c := '_') (by decide)).append_cons (c := '|') (by decide) (by decide)
      tail
    simpa [toList_key, keyEnd] using joined
  have inKey : Occurrence.inKey? (key task.stateModule Chunk.nextId name function) = none := by
    rw [Occurrence.inKey?, List.findSome?_eq_none_iff]
    intro line mem
    exact Occurrence.last?_of_quiet (whole.piece (infix_of_mem_splitOn mem))
  rw [decode?, read, inKey]

end Keys

end StateId

end ChunkedChain
