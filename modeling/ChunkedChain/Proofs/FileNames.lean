import ChunkedChain.Cleanup
import ChunkedChain.Proofs.Naming
import ChunkedChain.Proofs.Paths
import Mathlib.Data.List.Basic
import Mathlib.Data.Option.Basic

/-!
# Names of the files of a chain

The name of a document or script is put together from texts without slashes around the machine, so it is
a plain name as soon as the machine has no slash.
-/

namespace ChunkedChain

theorem Text.append_of_splitFirst? {separator text before after : List Char}
    (h : splitFirst? separator text = some (before, after)) : before ++ separator ++ after = text := by
  induction text generalizing before with
  | nil =>
    rw [splitFirst?, Option.map_eq_some_iff] at h
    obtain ⟨rest, cut, eq⟩ := h
    obtain ⟨rfl, rfl⟩ := Prod.mk.inj eq
    exact List.isPrefixOf?_eq_some_iff_append_eq.mp cut
  | cons c rest ih =>
    rw [splitFirst?] at h
    split at h
    · rename_i cut
      obtain ⟨rfl, rfl⟩ := Prod.mk.inj (Option.some.inj h)
      exact List.isPrefixOf?_eq_some_iff_append_eq.mp cut
    · rw [Option.map_eq_some_iff] at h
      obtain ⟨⟨front, back⟩, cut, eq⟩ := h
      obtain ⟨rfl, rfl⟩ := Prod.mk.inj eq
      rw [List.cons_append, List.cons_append, ih cut]

theorem Numeral.isDigit_of_isNumeral {digits : List Char} (h : isNumeral digits = true) {c : Char}
    (mem : c ∈ digits) : c.isDigit = true := by
  rw [isNumeral, Bool.and_eq_true] at h
  exact List.all_eq_true.mp h.2 c mem

/-- The text holds a character that separates the pieces of a path on one system or another. -/
def HoldsSeparator (text : List Char) : Prop := '/' ∈ text ∨ '\\' ∈ text

instance (text : List Char) : Decidable (HoldsSeparator text) :=
  inferInstanceAs (Decidable (_ ∨ _))

theorem not_holdsSeparator_append {before after : List Char} (first : ¬ HoldsSeparator before)
    (second : ¬ HoldsSeparator after) : ¬ HoldsSeparator (before ++ after) := by
  rintro (slash | backslash)
  · exact (List.mem_append.mp slash).elim (fun mem => first (.inl mem)) fun mem => second (.inl mem)
  · exact (List.mem_append.mp backslash).elim (fun mem => first (.inr mem)) fun mem => second (.inr mem)

theorem HoldsSeparator.mono {text other : List Char} (h : HoldsSeparator text) (sub : text ⊆ other) :
    HoldsSeparator other := h.imp (fun mem => sub mem) fun mem => sub mem

/-- Plain texts around a text bring no separator to it. -/
theorem holdsSeparator_around {before after : List Char} (first : ¬ HoldsSeparator before)
    (second : ¬ HoldsSeparator after) (text : List Char) :
    HoldsSeparator (before ++ (text ++ after)) ↔ HoldsSeparator text := by
  constructor
  · intro h
    by_contra plain
    exact not_holdsSeparator_append first (not_holdsSeparator_append plain second) h
  · intro h
    exact h.mono fun c mem => List.mem_append_right _ (List.mem_append_left _ mem)

/-- A name of some length is refused for its separators only. -/
theorem isFileName_iff_of_length {name : String} (long : 2 < name.toList.length) :
    isFileName name = true ↔ ¬ HoldsSeparator name.toList := by
  have full : name ≠ "" := by
    rintro rfl
    exact absurd long (by decide)
  have not_here : name ≠ "." := by
    rintro rfl
    exact absurd long (by decide)
  have not_up : name ≠ ".." := by
    rintro rfl
    exact absurd long (by decide)
  simp [isFileName, HoldsSeparator, full, not_here, not_up]

theorem not_mem_decimal {c : Char} (h : c.isDigit = false) (n : Nat) : c ∉ (decimal n).toList := by
  intro mem
  rw [isDigit_of_mem_decimal mem] at h
  cases h

theorem not_holdsSeparator_decimal (n : Nat) : ¬ HoldsSeparator (decimal n).toList := by
  rintro (slash | backslash)
  · exact not_mem_decimal (by decide) n slash
  · exact not_mem_decimal (by decide) n backslash

namespace ScriptFile

/-- The parts of a name that is a script's. -/
theorem toList_of_chunk? {name machine : String} {chain : UInt64} {number : UInt32}
    (h : chunk? name chain machine = some number) :
    ∃ chunk action : List Char,
      name.toList = (stem chain machine).toList ++
        (chunk ++ StateId.actionMark.toList ++ action ++ extension.toList) ∧
      Numeral.isNumeral chunk = true ∧ Numeral.isNumeral action = true ∧
      Numeral.word32? chunk = some number := by
  unfold chunk? at h
  simp only [Option.bind_eq_bind, Option.bind_eq_some_iff] at h
  obtain ⟨rest, after_stem, middle, before_end, ⟨chunk, action⟩, cut, _, numerals, word⟩ := h
  rw [Option.guard_eq_some', Bool.and_eq_true] at numerals
  refine ⟨chunk, action, ?_, numerals.1, numerals.2, word⟩
  rw [Text.append_of_splitFirst? cut, List.isSuffixOf?_eq_some_iff_append_eq.mp before_end,
    List.isPrefixOf?_eq_some_iff_append_eq.mp after_stem]

theorem no_slash_stem {machine : String} (no_slash : '/' ∉ machine.toList) (chain : UInt64) :
    '/' ∉ (stem chain machine).toList := by
  simp only [stem, String.toList_append, List.mem_append, not_or]
  exact ⟨⟨⟨⟨by decide, not_mem_decimal (by decide) _⟩, by decide⟩, no_slash⟩, by decide⟩

theorem plainName_of_chunk? {name machine : String} (no_slash : '/' ∉ machine.toList) {chain : UInt64}
    {number : UInt32} (h : chunk? name chain machine = some number) : PlainName name := by
  obtain ⟨chunk, action, eq, chunk_digits, action_digits, -⟩ := toList_of_chunk? h
  have digits {text : List Char} (numeral : Numeral.isNumeral text = true) : '/' ∉ text :=
    fun mem => absurd (Numeral.isDigit_of_isNumeral numeral mem) (by decide)
  refine .of_length ?_ ?_
  · rw [eq]
    simp only [List.mem_append, not_or]
    exact ⟨no_slash_stem no_slash chain, ⟨⟨digits chunk_digits, by decide⟩, digits action_digits⟩,
      by decide⟩
  · have long : 2 < opening.toList.length := by decide
    simp only [eq, stem, String.toList_append, List.length_append]
    omega

end ScriptFile

namespace Chunk

variable (chain : UInt64) {machine : String} (number : UInt32)

theorem no_slash_fileNameOf (no_slash : '/' ∉ machine.toList) :
    '/' ∉ (fileNameOf chain machine number).toList := by
  unfold fileNameOf
  simp only [String.toList_append, List.mem_append, not_or]
  exact ⟨⟨⟨⟨⟨⟨by decide, not_mem_decimal (by decide) _⟩, by decide⟩, no_slash⟩, by decide⟩,
    not_mem_decimal (by decide) _⟩, by decide⟩

theorem toList_fileNameOf (machine : String) :
    (fileNameOf chain machine number).toList = "actionchain_".toList ++ ((decimal chain.toNat).toList ++
      '_' :: (machine.toList ++ '_' :: ((decimal number.toNat).toList ++ ".sls".toList))) := by
  have bar : "_".toList = ['_'] := rfl
  unfold fileNameOf
  generalize ".sls" = extension
  generalize "actionchain_" = opening
  simp only [String.toList_append, bar, List.append_assoc, List.cons_append, List.nil_append]

/-- The name of a document tells the chain, the machine and the chunk, whatever the machine is called. -/
theorem fileNameOf_inj {chain chain' : UInt64} {machine machine' : String} {number number' : UInt32}
    (h : fileNameOf chain machine number = fileNameOf chain' machine' number') :
    chain = chain' ∧ machine = machine' ∧ number = number' := by
  have lists := congrArg String.toList h
  rw [toList_fileNameOf, toList_fileNameOf] at lists
  -- The chain ends at the first character that is no digit, the chunk starts at the last one.
  obtain ⟨chains, -, lists⟩ := cut_first_inj (fun _ => isDigit_of_mem_decimal)
    (fun _ => isDigit_of_mem_decimal) (by decide) (by decide)
    (List.append_cancel_left lists)
  have fronts : machine.toList ++ '_' :: (decimal number.toNat).toList =
      machine'.toList ++ '_' :: (decimal number'.toNat).toList := by
    refine List.append_cancel_right (?_ : _ ++ ".sls".toList = _ ++ ".sls".toList)
    rw [List.append_assoc, List.append_assoc]
    exact lists
  obtain ⟨machines, -, numbers⟩ := cut_last_inj (fun _ => isDigit_of_mem_decimal)
    (fun _ => isDigit_of_mem_decimal) (by decide) (by decide) fronts
  exact ⟨UInt64.toNat_inj.mp (decimal_injective chains),
    String.toList_inj.mp machines, UInt32.toNat_inj.mp (decimal_injective numbers)⟩

theorem length_fileNameOf (machine : String) : 2 < (fileNameOf chain machine number).toList.length := by
  have long : 2 < "actionchain_".toList.length := by decide
  unfold fileNameOf
  simp only [String.toList_append, List.length_append]
  omega

/-- Everything in the name of a document but the machine takes 48 bytes at most. -/
theorem utf8ByteSize_fileNameOf_le (machine : String) :
    (fileNameOf chain machine number).utf8ByteSize ≤ machine.utf8ByteSize + 48 := by
  have chain_le : (decimal chain.toNat).utf8ByteSize ≤ 20 :=
    utf8ByteSize_decimal_le (by decide) (Nat.lt_trans chain.toNat_lt_size (by decide))
  have number_le : (decimal number.toNat).utf8ByteSize ≤ 10 :=
    utf8ByteSize_decimal_le (by decide) (Nat.lt_trans number.toNat_lt_size (by decide))
  have texts : "actionchain_".utf8ByteSize = 12 ∧ "_".utf8ByteSize = 1 ∧ ".sls".utf8ByteSize = 4 := by
    decide
  unfold fileNameOf
  simp only [String.utf8ByteSize_append]
  omega

theorem plainName_fileNameOf (no_slash : '/' ∉ machine.toList) :
    PlainName (fileNameOf chain machine number) :=
  .of_length (no_slash_fileNameOf chain number no_slash)
    (length_fileNameOf chain number machine)

/-- The name of a document is refused exactly if the machine holds a separator. -/
theorem isFileName_fileNameOf_iff (machine : String) :
    isFileName (fileNameOf chain machine number) = true ↔ ¬ HoldsSeparator machine.toList := by
  have opening : ¬ HoldsSeparator ("actionchain_".toList ++ ((decimal chain.toNat).toList ++ ['_'])) :=
    not_holdsSeparator_append (by decide)
      (not_holdsSeparator_append (not_holdsSeparator_decimal _) (by decide))
  have bar : ¬ HoldsSeparator ['_'] := by decide
  have ending : ¬ HoldsSeparator (['_'] ++ ((decimal number.toNat).toList ++ ".sls".toList)) :=
    not_holdsSeparator_append bar
      (not_holdsSeparator_append (not_holdsSeparator_decimal _) (by decide))
  rw [isFileName_iff_of_length (length_fileNameOf chain number machine),
    ← holdsSeparator_around opening ending machine.toList, toList_fileNameOf]
  simp only [List.append_assoc, List.cons_append, List.nil_append]

end Chunk

end ChunkedChain
