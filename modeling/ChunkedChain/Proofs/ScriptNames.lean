import ChunkedChain.Proofs.FileNames

/-!
# Reading script names back

A machine id may hold every part of the grammar of script names, so a name is read from both ends: what
follows the machine holds nothing but two numerals and the texts around them, and what stands before it
is a numeral. This leaves one reading of a name, and `chunk?` finds it.
-/

namespace ChunkedChain

/-- A text that begins with a character new to what stands before it is found right there. -/
theorem Text.splitFirst?_append {c : Char} {before : List Char} (new : c ∉ before)
    (mark after : List Char) :
    splitFirst? (c :: mark) (before ++ c :: mark ++ after) = some (before, after) := by
  induction before with
  | nil =>
    have cut : (c :: mark).isPrefixOf? (c :: mark ++ after) = some after :=
      List.isPrefixOf?_eq_some_iff_append_eq.mpr rfl
    rw [List.nil_append, List.cons_append, splitFirst?, ← List.cons_append, cut]
  | cons d rest ih =>
    obtain ⟨apart, new⟩ := not_or.mp (mt List.mem_cons.mpr new)
    have cut : (c :: mark).isPrefixOf? (d :: (rest ++ c :: mark ++ after)) = none := by
      rw [List.isPrefixOf?, if_neg]
      simpa using apart
    rw [List.cons_append, List.cons_append, splitFirst?, cut]
    simp only [ih new, Option.map_some]

namespace ScriptFile

/-- What follows the machine in a script name, with the chunk and the action as they are written. -/
def ending (chunk action : List Char) : List Char :=
  StateId.chunkMark.toList ++ (chunk ++ StateId.actionMark.toList ++ action ++ extension.toList)

theorem ending_eq (chunk action : List Char) :
    ending chunk action =
      "_chunk".toList ++ '_' :: (chunk ++ ("_action".toList ++ '_' :: (action ++ ".sh".toList))) := by
  simp [ending, StateId.chunkMark, StateId.actionMark, extension]

/-- What stands before an ending can be told from the name, whatever it is. -/
theorem append_ending_inj {front front' chunk chunk' action action' : List Char}
    (hc : Numeral.isNumeral chunk = true) (hc' : Numeral.isNumeral chunk' = true)
    (ha : Numeral.isNumeral action = true) (ha' : Numeral.isNumeral action' = true)
    (h : front ++ ending chunk action = front' ++ ending chunk' action') :
    front = front' ∧ chunk = chunk' ∧ action = action' := by
  have texts : (front ++ "_chunk".toList ++ '_' :: chunk ++ "_action".toList ++ '_' :: action)
        ++ ".sh".toList =
      (front' ++ "_chunk".toList ++ '_' :: chunk' ++ "_action".toList ++ '_' :: action')
        ++ ".sh".toList := by
    simpa [ending_eq] using h
  obtain ⟨before_action, -, same_action⟩ := cut_last_inj
    (fun _ => Numeral.isDigit_of_isNumeral ha) (fun _ => Numeral.isDigit_of_isNumeral ha')
    (by decide) (by decide) (List.append_cancel_right texts)
  obtain ⟨before_chunk, -, same_chunk⟩ := cut_last_inj
    (fun _ => Numeral.isDigit_of_isNumeral hc) (fun _ => Numeral.isDigit_of_isNumeral hc')
    (by decide) (by decide) (List.append_cancel_right before_action)
  exact ⟨List.append_cancel_right before_chunk, same_chunk, same_action⟩

/-- The start of a script name, up to the machine. -/
theorem toList_stem (chain : UInt64) (machine : String) :
    (stem chain machine).toList =
      opening.toList ++ ((decimal chain.toNat).toList ++ '_' :: machine.toList)
        ++ StateId.chunkMark.toList := by
  simp [stem]

theorem stem_append (chain : UInt64) (machine : String) (chunk action : List Char) :
    (stem chain machine).toList ++
        (chunk ++ StateId.actionMark.toList ++ action ++ extension.toList) =
      opening.toList ++ ((decimal chain.toNat).toList ++ '_' :: machine.toList)
        ++ ending chunk action := by
  rw [toList_stem, ending, List.append_assoc]

/-- A script name tells the chain, the machine, the chunk and the action. -/
theorem parts_inj {chain chain' : UInt64} {machine machine' : String}
    {chunk chunk' action action' : List Char}
    (hc : Numeral.isNumeral chunk = true) (hc' : Numeral.isNumeral chunk' = true)
    (ha : Numeral.isNumeral action = true) (ha' : Numeral.isNumeral action' = true)
    (h : (stem chain machine).toList ++
        (chunk ++ StateId.actionMark.toList ++ action ++ extension.toList) =
      (stem chain' machine').toList ++
        (chunk' ++ StateId.actionMark.toList ++ action' ++ extension.toList)) :
    (chain = chain' ∧ machine = machine') ∧ chunk = chunk' ∧ action = action' := by
  rw [stem_append, stem_append] at h
  obtain ⟨fronts, chunks, actions⟩ := append_ending_inj hc hc' ha ha' h
  obtain ⟨chains, -, machines⟩ := cut_first_inj
    (fun _ => isDigit_of_mem_decimal) (fun _ => isDigit_of_mem_decimal) (by decide) (by decide)
    (List.append_cancel_left fronts)
  exact ⟨⟨UInt64.toNat_inj.mp (decimal_injective chains), String.toList_inj.mp machines⟩, chunks,
    actions⟩

theorem toList_nameOf (chain : UInt64) (machine : String) (chunk : UInt32) (action : UInt64) :
    (nameOf chain machine chunk action).toList =
      (stem chain machine).toList ++ ((decimal chunk.toNat).toList ++ StateId.actionMark.toList
        ++ (decimal action.toNat).toList ++ extension.toList) := by
  simp [nameOf]

/-- The name of a script is refused exactly if the machine holds a separator. -/
theorem isFileName_nameOf_iff (chain : UInt64) (machine : String) (chunk : UInt32) (action : UInt64) :
    isFileName (nameOf chain machine chunk action) = true ↔ ¬ HoldsSeparator machine.toList := by
  have long : 2 < (nameOf chain machine chunk action).toList.length := by
    have long : 2 < opening.toList.length := by decide
    simp only [nameOf, stem, String.toList_append, List.length_append]
    omega
  have front : ¬ HoldsSeparator (opening.toList ++ ((decimal chain.toNat).toList ++ ['_'])) :=
    not_holdsSeparator_append (by decide)
      (not_holdsSeparator_append (not_holdsSeparator_decimal _) (by decide))
  have back : ¬ HoldsSeparator (ending (decimal chunk.toNat).toList (decimal action.toNat).toList) :=
    not_holdsSeparator_append (by decide) <| not_holdsSeparator_append (not_holdsSeparator_append
      (not_holdsSeparator_append (not_holdsSeparator_decimal _) (by decide))
      (not_holdsSeparator_decimal _)) (by decide)
  rw [isFileName_iff_of_length long, ← holdsSeparator_around front back machine.toList, toList_nameOf,
    stem_append]
  simp only [List.append_assoc, List.cons_append, List.nil_append]

/-- The script of another chunk or action has another name. -/
theorem nameOf_inj {chain chain' : UInt64} {machine machine' : String} {chunk chunk' : UInt32}
    {action action' : UInt64}
    (h : nameOf chain machine chunk action = nameOf chain' machine' chunk' action') :
    (chain = chain' ∧ machine = machine') ∧ chunk = chunk' ∧ action = action' := by
  have lists := congrArg String.toList h
  rw [toList_nameOf, toList_nameOf] at lists
  obtain ⟨owner, chunks, actions⟩ := parts_inj (Numeral.isNumeral_decimal _)
    (Numeral.isNumeral_decimal _) (Numeral.isNumeral_decimal _) (Numeral.isNumeral_decimal _) lists
  exact ⟨owner, UInt32.toNat_inj.mp (decimal_injective chunks),
    UInt64.toNat_inj.mp (decimal_injective actions)⟩

/-- A name that is put together of the right parts is read. -/
theorem chunk?_of_toList {name machine : String} {chain : UInt64} {chunk action : List Char}
    {number : UInt32}
    (parts : name.toList = (stem chain machine).toList ++
      (chunk ++ StateId.actionMark.toList ++ action ++ extension.toList))
    (hc : Numeral.isNumeral chunk = true) (ha : Numeral.isNumeral action = true)
    (fits : Numeral.word32? chunk = some number) : chunk? name chain machine = some number := by
  have after_stem := List.isPrefixOf?_eq_some_iff_append_eq.mpr parts.symm
  have before_end : extension.toList.isSuffixOf?
      (chunk ++ StateId.actionMark.toList ++ action ++ extension.toList) =
        some (chunk ++ StateId.actionMark.toList ++ action) :=
    List.isSuffixOf?_eq_some_iff_append_eq.mpr rfl
  have new : '_' ∉ chunk := fun mem =>
    absurd (Numeral.isDigit_of_isNumeral hc mem) (by decide)
  have cut : Text.splitFirst? StateId.actionMark.toList
      (chunk ++ StateId.actionMark.toList ++ action) = some (chunk, action) :=
    Text.splitFirst?_append new "action_".toList action
  simp only [chunk?, after_stem, before_end, cut, hc, ha, fits, Bool.and_true, guard_true,
    Option.bind_eq_bind, Option.bind_some, Option.pure_def]

theorem chunk?_eq_some_iff {name machine : String} {chain : UInt64} {number : UInt32} :
    chunk? name chain machine = some number ↔ ∃ chunk action : String,
      Numeral.isNumeral chunk.toList = true ∧ Numeral.isNumeral action.toList = true ∧
      Numeral.value chunk.toList = number.toNat ∧
      name = stem chain machine ++ chunk ++ "_action_" ++ action ++ ".sh" := by
  constructor
  · intro h
    obtain ⟨chunk, action, parts, hc, ha, fits⟩ := toList_of_chunk? h
    refine ⟨String.ofList chunk, String.ofList action, ?_⟩
    simp only [String.toList_ofList]
    refine ⟨hc, ha, Numeral.word32?_eq_some.mp fits, String.toList_inj.mp ?_⟩
    simpa [StateId.actionMark, extension] using parts
  · rintro ⟨chunk, action, hc, ha, value, rfl⟩
    refine chunk?_of_toList ?_ hc ha (Numeral.word32?_eq_some.mpr value)
    simp [StateId.actionMark, extension]

theorem chunk?_nameOf (chain chain' : UInt64) (machine machine' : String) (chunk : UInt32)
    (action : UInt64) :
    chunk? (nameOf chain machine chunk action) chain' machine' =
      if chain = chain' ∧ machine = machine' then some chunk else none := by
  split
  · rename_i owner
    obtain ⟨rfl, rfl⟩ := owner
    exact chunk?_of_toList (toList_nameOf _ _ _ _) (Numeral.isNumeral_decimal _)
      (Numeral.isNumeral_decimal _) (Numeral.word32?_decimal _)
  · rename_i foreign
    refine Option.eq_none_iff_forall_ne_some.mpr fun number read => ?_
    obtain ⟨_, _, parts, hc, ha, -⟩ := toList_of_chunk? read
    rw [toList_nameOf] at parts
    exact foreign
      (parts_inj (Numeral.isNumeral_decimal _) hc (Numeral.isNumeral_decimal _) ha parts).1

/-- The name of a script that is for no machine in particular. -/
def sharedNameOf (chain : UInt64) (chunk : UInt32) (action : UInt64) : String :=
  opening ++ decimal chain.toNat ++ StateId.chunkMark ++ decimal chunk.toNat ++ StateId.actionMark
    ++ decimal action.toNat ++ extension

theorem toList_sharedNameOf (chain : UInt64) (chunk : UInt32) (action : UInt64) :
    (sharedNameOf chain chunk action).toList =
      opening.toList ++ (decimal chain.toNat).toList
        ++ ending (decimal chunk.toNat).toList (decimal action.toNat).toList := by
  simp only [sharedNameOf, ending, String.toList_append, List.append_assoc]

/-- A shared script is no machine's: a bar would have to stand in the number of its chain. -/
theorem chunk?_sharedNameOf (chain chain' : UInt64) (machine : String) (chunk : UInt32)
    (action : UInt64) : chunk? (sharedNameOf chain chunk action) chain' machine = none := by
  refine Option.eq_none_iff_forall_ne_some.mpr fun number read => ?_
  obtain ⟨_, _, parts, hc, ha, -⟩ := toList_of_chunk? read
  rw [toList_sharedNameOf, stem_append] at parts
  obtain ⟨fronts, -, -⟩ := append_ending_inj (Numeral.isNumeral_decimal _) hc
    (Numeral.isNumeral_decimal _) ha parts
  have bar : '_' ∈ (decimal chain.toNat).toList := by
    rw [List.append_cancel_left fronts]
    simp
  exact not_mem_decimal (by decide) _ bar

/-- A script name is read exactly if it is one of this chain on this machine. So no script of another
chain or machine is taken for one of them, and neither is a shared one. -/
theorem chunk?_reads_own_names (chain : UInt64) (machine : String) :
    (∀ (name : String) (number : UInt32),
      chunk? name chain machine = some number ↔ ∃ chunk action : String,
        Numeral.isNumeral chunk.toList = true ∧ Numeral.isNumeral action.toList = true ∧
        Numeral.value chunk.toList = number.toNat ∧
        name = stem chain machine ++ chunk ++ "_action_" ++ action ++ ".sh") ∧
    (∀ (chain' : UInt64) (machine' : String) (chunk : UInt32) (action : UInt64),
      chunk? (nameOf chain' machine' chunk action) chain machine =
        if chain' = chain ∧ machine' = machine then some chunk else none) ∧
    ∀ (chain' : UInt64) (chunk : UInt32) (action : UInt64),
      chunk? (sharedNameOf chain' chunk action) chain machine = none := by
  refine ⟨fun _ _ => chunk?_eq_some_iff, ?_, ?_⟩
  · intro chain' machine' chunk action
    exact chunk?_nameOf chain' chain machine' machine chunk action
  · intro chain' chunk action
    exact chunk?_sharedNameOf chain' chain machine chunk action

example : chunk? (nameOf 1 "m1_chunk_5" 2 10) 1 "m1" = none := by cbv

/-- The names of documents and of scripts begin with different letters. -/
theorem nameOf_ne_fileNameOf (chain chain' : UInt64) (machine machine' : String) (chunk chunk' : UInt32)
    (action : UInt64) : nameOf chain machine chunk action ≠ Chunk.fileNameOf chain' machine' chunk' := by
  intro same
  have heads := congrArg (·.toList.head?) same
  rw [toList_nameOf, toList_stem, Chunk.toList_fileNameOf] at heads
  simp [opening] at heads

end ScriptFile

/-- A file name tells its owner, whatever the machine is called: a document its chain, machine and chunk, a
script also its action. And no document has the name of a script. -/
theorem fileNames_tell_owners :
    (∀ (chain chain' : UInt64) (machine machine' : String) (chunk chunk' : UInt32),
      Chunk.fileNameOf chain machine chunk = Chunk.fileNameOf chain' machine' chunk' ↔
        chain = chain' ∧ machine = machine' ∧ chunk = chunk') ∧
    (∀ (chain chain' : UInt64) (machine machine' : String) (chunk chunk' : UInt32) (action action' : UInt64),
      ScriptFile.nameOf chain machine chunk action = ScriptFile.nameOf chain' machine' chunk' action' ↔
        chain = chain' ∧ machine = machine' ∧ chunk = chunk' ∧ action = action') ∧
    ∀ (chain chain' : UInt64) (machine machine' : String) (chunk chunk' : UInt32) (action : UInt64),
      ScriptFile.nameOf chain machine chunk action ≠ Chunk.fileNameOf chain' machine' chunk' := by
  refine ⟨?documents, ?scripts, ScriptFile.nameOf_ne_fileNameOf⟩
  case documents =>
    intro chain chain' machine machine' chunk chunk'
    constructor
    · exact Chunk.fileNameOf_inj
    · rintro ⟨rfl, rfl, rfl⟩
      rfl
  case scripts =>
    intro chain chain' machine machine' chunk chunk' action action'
    constructor
    · intro same
      obtain ⟨⟨chains, machines⟩, chunks, actions⟩ := ScriptFile.nameOf_inj same
      exact ⟨chains, machines, chunks, actions⟩
    · rintro ⟨rfl, rfl, rfl, rfl⟩
      rfl

end ChunkedChain
