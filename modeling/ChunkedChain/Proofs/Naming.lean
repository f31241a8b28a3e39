import ChunkedChain.Chunk
import Mathlib.Data.Nat.Digits.Defs

/-!
# Names with numbers

A numeral is determined by its digits, and a text that ends in one can be cut in only one way right
before it, whatever stands there. So the suffix of a chunk can be read off an id again, and no id with a
suffix is that of a continuation.
-/

namespace ChunkedChain

/-- A list is cut in one way only at its first element that is not in a class. -/
theorem cut_first_inj {α : Type} {p : α → Bool} {xs ys as bs : List α} {c d : α}
    (hx : ∀ x ∈ xs, p x = true) (hy : ∀ y ∈ ys, p y = true) (hc : p c = false) (hd : p d = false)
    (h : xs ++ c :: as = ys ++ d :: bs) : xs = ys ∧ c = d ∧ as = bs := by
  induction xs generalizing ys with
  | nil =>
    cases ys with
    | nil => exact ⟨rfl, List.cons.inj h⟩
    | cons y ys =>
      obtain ⟨rfl, -⟩ := List.cons.inj h
      have := hy c List.mem_cons_self
      rw [hc] at this
      cases this
  | cons x xs ih =>
    cases ys with
    | nil =>
      obtain ⟨rfl, -⟩ := List.cons.inj h
      have := hx x List.mem_cons_self
      rw [hd] at this
      cases this
    | cons y ys =>
      obtain ⟨rfl, tails⟩ := List.cons.inj h
      obtain ⟨rfl, rest⟩ := ih (fun z hz => hx z (List.mem_cons_of_mem _ hz))
        (fun z hz => hy z (List.mem_cons_of_mem _ hz)) tails
      exact ⟨rfl, rest⟩

/-- A list is cut in one way only at its last element that is not in a class. -/
theorem cut_last_inj {α : Type} {p : α → Bool} {xs ys as bs : List α} {c d : α}
    (hx : ∀ x ∈ as, p x = true) (hy : ∀ y ∈ bs, p y = true) (hc : p c = false) (hd : p d = false)
    (h : xs ++ c :: as = ys ++ d :: bs) : xs = ys ∧ c = d ∧ as = bs := by
  have reversed : as.reverse ++ c :: xs.reverse = bs.reverse ++ d :: ys.reverse := by
    simpa using congrArg List.reverse h
  obtain ⟨tails, same, heads⟩ := cut_first_inj (fun x hm => hx x (List.mem_reverse.mp hm))
    (fun y hm => hy y (List.mem_reverse.mp hm)) hc hd reversed
  exact ⟨List.reverse_inj.mp heads, same, List.reverse_inj.mp tails⟩

@[simp] theorem toList_decimal (n : Nat) : (decimal n).toList = Nat.toDigits 10 n :=
  String.toList_ofList

theorem isDigit_of_mem_decimal {n : Nat} {c : Char} (h : c ∈ (decimal n).toList) :
    c.isDigit = true := by
  rw [toList_decimal] at h
  exact Nat.isDigit_of_mem_toDigits (by decide) (by decide) h

theorem decimal_injective {m n : Nat} (h : (decimal m).toList = (decimal n).toList) : m = n := by
  rw [toList_decimal, toList_decimal] at h
  rw [← Numeral.value_toDigits m, h, Numeral.value_toDigits]

/-- A digit takes one byte. -/
theorem utf8ByteSize_decimal_le {n digits : Nat} (some_digit : 0 < digits) (small : n < 10 ^ digits) :
    (decimal n).utf8ByteSize ≤ digits := by
  have one_each (text : List Char) (h : ∀ c ∈ text, c.isDigit = true) :
      (String.ofList text).utf8ByteSize = text.length := by
    induction text with
    | nil => rfl
    | cons c rest ih =>
      have digit := h c List.mem_cons_self
      have ascii : c.val ≤ 127 := by
        rw [Char.isDigit, Bool.and_eq_true, decide_eq_true_eq, decide_eq_true_eq] at digit
        exact UInt32.le_trans digit.2 (by decide)
      rw [String.ofList_cons, String.utf8ByteSize_append, String.utf8ByteSize_singleton,
        Char.utf8Size_eq_one_iff.mpr ascii, ih fun d mem => h d (List.mem_cons_of_mem _ mem),
        List.length_cons, Nat.add_comm]
  rw [decimal, one_each _ fun c mem => isDigit_of_mem_decimal (toList_decimal n ▸ mem)]
  exact Nat.toDigits_length 10 n digits some_digit small

namespace Numeral

theorem isNumeral_decimal (n : Nat) : isNumeral (decimal n).toList = true := by
  have digits : (decimal n).toList.all Char.isDigit = true :=
    List.all_eq_true.mpr fun _ => isDigit_of_mem_decimal
  have some_digit : (decimal n).toList ≠ [] := by
    rw [toList_decimal]
    exact Nat.toDigits_ne_nil
  rw [isNumeral, digits, Bool.and_true, Bool.not_eq_true', List.isEmpty_eq_false_iff]
  exact some_digit

theorem value_decimal (n : Nat) : value (decimal n).toList = n := by
  rw [toList_decimal, value_toDigits]

theorem word32?_eq_some {digits : List Char} {number : UInt32} :
    word32? digits = some number ↔ value digits = number.toNat := by
  unfold word32?
  constructor
  · intro h
    split at h
    · rename_i fits
      obtain rfl := Option.some.inj h
      exact (UInt32.toNat_ofNat_of_lt' fits).symm
    · cases h
  · intro h
    rw [h, if_pos number.toNat_lt_size, UInt32.ofNat_toNat]

theorem word32?_decimal (n : UInt32) : word32? (decimal n.toNat).toList = some n :=
  word32?_eq_some.mpr (value_decimal n.toNat)

theorem word64?_decimal (n : UInt64) : word64? (decimal n.toNat).toList = some n := by
  rw [word64?, value_decimal, if_pos n.toNat_lt_size, UInt64.ofNat_toNat]

end Numeral

namespace StateId

theorem toList_chunkSuffix (chunk : UInt32) :
    (chunkSuffix chunk).toList = "_chunk".toList ++ '_' :: (decimal chunk.toNat).toList := by
  simp [chunkSuffix, chunkMark]

/-- An id with a chunk's suffix tells both the id and the chunk. -/
theorem append_chunkSuffix_inj {a b : String} {m n : UInt32}
    (h : a ++ chunkSuffix m = b ++ chunkSuffix n) : a = b ∧ m = n := by
  have lists := congrArg String.toList h
  simp only [String.toList_append, toList_chunkSuffix, ← List.append_assoc] at lists
  obtain ⟨front, -, digits⟩ := cut_last_inj (fun _ => isDigit_of_mem_decimal)
    (fun _ => isDigit_of_mem_decimal) (by decide) (by decide) lists
  exact ⟨String.toList_inj.mp (List.append_cancel_right front),
    UInt32.toNat_inj.mp (decimal_injective digits)⟩

/-- No id with a suffix is the id of a continuation: that does not end in a digit. -/
theorem append_chunkSuffix_ne_nextId (a : String) (n : UInt32) : a ++ chunkSuffix n ≠ Chunk.nextId := by
  intro h
  have lists := congrArg String.toList h
  simp only [String.toList_append, toList_chunkSuffix, ← List.append_assoc] at lists
  have next : Chunk.nextId.toList = "schedule_next_chun".toList ++ 'k' :: [] := by decide
  rw [next] at lists
  obtain ⟨-, same, -⟩ := cut_last_inj (fun _ => isDigit_of_mem_decimal)
    (fun _ hm => absurd hm List.not_mem_nil) (by decide) (by decide) lists
  exact absurd same (by decide)

end StateId

end ChunkedChain
