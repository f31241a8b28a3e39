import ChunkedChain.FileTree.Path

/-!
# Paths of files in a directory

A plain name is one piece of a path, and stands for a name. A plain name seen from a directory adds one
step to those of the directory, however the path of the directory is written.
-/

namespace ChunkedChain

namespace FileName

theorem bytes_ofString (text : String) : (⟨(ofString text).toArray⟩ : ByteArray) = text.toByteArray := by
  simp [ofString]

theorem ofString_injective {a b : String} (h : ofString a = ofString b) : a = b := by
  have bytes : a.toByteArray = b.toByteArray := by rw [← bytes_ofString, ← bytes_ofString, h]
  exact String.toByteArray_inj.mp bytes

theorem eq_of_append_ofString {dir : Location} {a b : String}
    (h : dir ++ [ofString a] = dir ++ [ofString b]) : a = b :=
  ofString_injective (List.singleton_inj.mp (List.append_cancel_left h))

/-- A name is a text exactly if it is the name that the text is. -/
theorem text?_eq_some {name : FileName} {text : String} :
    name.text? = some text ↔ ofString text = name := by
  unfold text? String.fromUTF8?
  constructor
  · intro h
    split at h
    · obtain rfl := Option.some.inj h
      simp [ofString, String.fromUTF8]
    · cases h
  · rintro rfl
    have valid : (⟨(ofString text).toArray⟩ : ByteArray).IsValidUTF8 := by
      rw [bytes_ofString]
      exact text.isValidUTF8
    rw [dif_pos valid]
    refine congrArg some (String.toByteArray_inj.mp ?_)
    exact bytes_ofString text

end FileName

/-- A text that is the name of something in a directory: one piece, and neither `.` nor `..`. -/
structure PlainName (name : String) : Prop where
  no_slash : '/' ∉ name.toList
  component : FilePath.component? name.toList = some (.name (FileName.ofString name))

namespace PlainName

variable {name : String}

theorem of_length (no_slash : '/' ∉ name.toList) (long : 2 < name.toList.length) : PlainName name := by
  refine ⟨no_slash, ?_⟩
  unfold FilePath.component?
  split
  · simp_all
  · simp_all
  · simp_all
  · rw [String.ofList_toList]

theorem ne_nil (plain : PlainName name) : name.toList ≠ [] := by
  intro h
  have component := plain.component
  rw [h] at component
  cases component

end PlainName

namespace FilePath

def steps (text : List Char) : List Component := (text.splitOn '/').filterMap component?

theorem steps_append (before after : List Char) :
    steps (before ++ '/' :: after) = steps before ++ steps after := by
  simp [steps, List.splitOn_append_cons_self]

theorem steps_nil : steps [] = [] := by simp [steps, component?]

theorem steps_plain {name : String} (plain : PlainName name) :
    steps name.toList = [.name (FileName.ofString name)] := by
  simp [steps, List.splitOn_eq_singleton plain.no_slash, plain.component]

theorem components_eq (path : FilePath) : path.components = steps path.text.toList := rfl

variable (dir : FilePath) {name : String}

/-- A joined path ends with a slash and the name, unless nothing stands before the name. -/
theorem join_shape (plain : PlainName name) :
    (dir.text.toList = [] ∧ (dir / name).text.toList = name.toList) ∨
    ∃ front, (dir / name).text.toList = front ++ '/' :: name.toList ∧
      (dir.text.toList = front ∧ front ≠ [] ∨ dir.text.toList = front ++ ['/']) := by
  change (_ ∧ (join dir name).text.toList = _) ∨ ∃ front, (join dir name).text.toList = _ ∧ _
  have relative : name.toList.head? ≠ some '/' :=
    fun h => plain.no_slash (List.mem_of_head? h)
  rw [join, if_neg relative]
  cases last : dir.text.toList.getLast? with
  | none =>
    have empty := List.getLast?_eq_none_iff.mp last
    exact .inl ⟨empty, by simp [empty]⟩
  | some c =>
    obtain ⟨front, shape⟩ := List.getLast?_eq_some_iff.mp last
    by_cases slash : c = '/'
    · exact .inr ⟨front, by simp [slash, shape], .inr (by rw [shape, slash])⟩
    · refine .inr ⟨dir.text.toList, by simp [slash], .inl ⟨rfl, ?_⟩⟩
      rw [shape]
      simp

/-- The name is one more step after those of the directory. -/
theorem components_join (plain : PlainName name) :
    (dir / name).components = dir.components ++ [.name (FileName.ofString name)] := by
  rw [components_eq, components_eq]
  rcases dir.join_shape plain with ⟨empty, text⟩ | ⟨front, text, ⟨written, -⟩ | written⟩
  · rw [text, empty, steps_plain plain, steps_nil, List.nil_append]
  · rw [text, written, steps_append, steps_plain plain]
  · rw [text, written, steps_append, steps_append, steps_plain plain, steps_nil, List.append_nil]

theorem isAbsolute_join (plain : PlainName name) : (dir / name).isAbsolute = dir.isAbsolute := by
  rw [isAbsolute, isAbsolute]
  rcases dir.join_shape plain with ⟨empty, text⟩ | ⟨front, text, ⟨written, full⟩ | written⟩
  · have relative : name.toList.head? ≠ some '/' :=
      fun h => plain.no_slash (List.mem_of_head? h)
    simp [text, empty, relative]
  · obtain ⟨c, rest, rfl⟩ := List.exists_cons_of_ne_nil full
    simp [text, written]
  · cases front <;> simp [text, written]

theorem asksDirectory_join (plain : PlainName name) : (dir / name).asksDirectory = false := by
  have named : (dir / name).text.toList.getLast? = name.toList.getLast? := by
    rcases dir.join_shape plain with ⟨-, text⟩ | ⟨front, text, -⟩
    · rw [text]
    · rw [text, List.getLast?_append, List.getLast?_cons_of_ne_nil plain.ne_nil]
      cases last : name.toList.getLast? with
      | none => exact absurd (List.getLast?_eq_none_iff.mp last) plain.ne_nil
      | some c => rfl
  have apart : name.toList.getLast? ≠ some '/' :=
    fun h => plain.no_slash (List.mem_of_getLast? h)
  simp [asksDirectory, named, apart]

theorem join_not_empty (plain : PlainName name) : (dir / name).text.isEmpty = false := by
  have full : (dir / name).text.toList ≠ [] := by
    rcases dir.join_shape plain with ⟨-, text⟩ | ⟨front, text, -⟩
    · exact text ▸ plain.ne_nil
    · rw [text]
      simp
  rw [Bool.eq_false_iff]
  simpa using full

end FilePath

end ChunkedChain
