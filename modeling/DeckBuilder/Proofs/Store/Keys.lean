import DeckBuilder.Store.Basic
import Mathlib.Data.List.Basic

/-! # Keys and their files

Different keys have different files, and a listing finds the key of a file again. The file system
takes the file of a valid key if the key has at most 250 characters.
-/

namespace DeckBuilder

namespace FileName

/-- The last point parts the stem from the extension. -/
theorem split?_append {stem extension : List Char} (named : stem ≠ [])
    (plain : '.' ∉ extension) : split? (stem ++ '.' :: extension) = some (stem, extension) := by
  have passed : ∀ c ∈ extension.reverse, decide (c ≠ '.') = true := by
    intro c member
    exact decide_eq_true fun isPoint => plain (isPoint ▸ List.mem_reverse.mp member)
  have backwards : (stem ++ '.' :: extension).reverse =
      extension.reverse ++ '.' :: stem.reverse := by
    simp
  have occupied : stem.reverse.isEmpty = false := by
    simpa using named
  rw [split?, backwards, List.dropWhile_append_of_pos passed, List.takeWhile_append_of_pos passed]
  simp [occupied]

theorem split?_eq_some_iff {name stem extension : List Char} :
    split? name = some (stem, extension) ↔
      stem ≠ [] ∧ '.' ∉ extension ∧ name = stem ++ '.' :: extension := by
  constructor
  · intro found
    have parts := List.takeWhile_append_dropWhile (p := (· ≠ '.')) (l := name.reverse)
    rw [split?] at found
    split at found
    · rename_i before point
      obtain ⟨named, found⟩ := Option.ite_none_left_eq_some.mp found
      obtain ⟨rfl, rfl⟩ := Prod.mk.inj (Option.some_inj.mp found)
      rw [point] at parts
      refine ⟨by simpa using named, ?_, ?_⟩
      · intro member
        have passed := List.all_eq_true.mp List.all_takeWhile _ (List.mem_reverse.mp member)
        exact of_decide_eq_true passed rfl
      · have whole := congrArg List.reverse parts.symm
        rwa [List.reverse_reverse, List.reverse_append, List.reverse_cons, List.append_assoc]
          at whole
    · cases found
  · rintro ⟨named, plain, rfl⟩
    exact split?_append named plain

end FileName

namespace FilterStore

theorem fileName_injective {first second : String} (same : fileName first = fileName second) :
    first = second := by
  have chars : first.toList ++ ".json".toList = second.toList ++ ".json".toList := by
    simpa only [fileName, String.toList_append] using congrArg String.toList same
  exact String.toList_inj.mp (List.append_cancel_right chars)

theorem ne_empty_of_isKey {key : String} (valid : isKey key) : key.toList ≠ [] := by
  intro none
  simp [isKey, none] at valid

/-- A listing finds a text in the name of its file, valid or not, if there is any text. -/
theorem stem?_eq_some_iff {name key : String} :
    FileName.stem? "json" name = some key ↔ key.toList ≠ [] ∧ name = fileName key := by
  have chars (stem : String) : (fileName stem).toList = stem.toList ++ '.' :: "json".toList := by
    rw [fileName, String.toList_append]
    rfl
  constructor
  · intro found
    obtain ⟨⟨stem, extension⟩, parted, found⟩ := Option.bind_eq_some_iff.mp found
    obtain ⟨same, found⟩ := Option.ite_none_right_eq_some.mp found
    obtain ⟨named, -, parts⟩ := FileName.split?_eq_some_iff.mp parted
    obtain rfl := Option.some_inj.mp found
    have written : extension = "json".toList := by
      rw [← same, String.toList_ofList]
    refine ⟨by rwa [String.toList_ofList], String.toList_inj.mp ?_⟩
    rw [chars, String.toList_ofList, parts, written]
  · rintro ⟨named, rfl⟩
    rw [FileName.stem?, chars, FileName.split?_append named (by decide)]
    simp only [Option.bind_some, String.ofList_toList, ↓reduceIte]

/-! ## Usable names -/

/-- Keys have letters, digits, dashes and underscores only. -/
theorem toNat_of_isKeyChar {c : Char} (valid : isKeyChar c) :
    45 ≤ c.toNat ∧ c.toNat ≤ 122 ∧ c.toNat ≠ 47 := by
  have within {first last : UInt32} (inside : first ≤ c.val ∧ c.val ≤ last) :
      first.toNat ≤ c.toNat ∧ c.toNat ≤ last.toNat :=
    ⟨UInt32.le_iff_toNat_le.mp inside.1, UInt32.le_iff_toNat_le.mp inside.2⟩
  simp only [isKeyChar, Bool.or_eq_true, beq_iff_eq] at valid
  rcases valid with (alphanumeric | rfl) | rfl
  · rcases Bool.or_eq_true_iff.mp alphanumeric with letter | digit
    · rcases Bool.or_eq_true_iff.mp letter with upper | lower
      · have range : 65 ≤ c.toNat ∧ c.toNat ≤ 90 := within (of_decide_eq_true upper)
        omega
      · obtain ⟨low, high⟩ := Bool.and_eq_true_iff.mp lower
        have range : 97 ≤ c.toNat ∧ c.toNat ≤ 122 :=
          within ⟨of_decide_eq_true low, of_decide_eq_true high⟩
        omega
    · have range : 48 ≤ c.toNat ∧ c.toNat ≤ 57 := Char.isDigit_iff_toNat.mp digit
      omega
  · decide
  · decide

theorem isNameChar_of_isKeyChar {c : Char} (valid : isKeyChar c) : FileName.isNameChar c := by
  obtain ⟨low, -, noSlash⟩ := toNat_of_isKeyChar valid
  have apart : c ≠ '/' := by
    rintro rfl
    exact noSlash rfl
  simp only [FileName.isNameChar, Bool.and_eq_true, bne_iff_ne]
  exact ⟨apart, by omega⟩

theorem utf8Size_of_isKeyChar {c : Char} (valid : isKeyChar c) : c.utf8Size = 1 := by
  obtain ⟨-, high, -⟩ := toNat_of_isKeyChar valid
  have small : c.val ≤ 0x7f := by
    rw [UInt32.le_iff_toNat_le]
    exact Nat.le_trans high (by decide)
  simp [Char.utf8Size, small]

theorem utf8ByteSize_eq_length {text : String} (single : ∀ c ∈ text.toList, c.utf8Size = 1) :
    text.utf8ByteSize = text.length := by
  have sizes : text.toList.map (fun c => (String.utf8EncodeChar c).length) =
      text.toList.map fun _ => 1 :=
    List.map_congr_left fun c member => by rw [String.length_utf8EncodeChar, single c member]
  rw [← String.size_toByteArray, ← String.utf8Encode_toList, List.utf8Encode,
    List.size_toByteArray, List.length_flatMap, sizes]
  simp [String.length_toList]

/-- There can be a file for a valid key if the key is short enough. -/
theorem isUsable_fileName {key : String} (valid : isKey key) :
    FileName.isUsable (fileName key) = decide (key.length ≤ 250) := by
  have keyChars : ∀ c ∈ key.toList, isKeyChar c := by
    simp only [isKey, Bool.and_eq_true, List.all_eq_true] at valid
    exact valid.2
  have extension : ".json".utf8ByteSize = 5 ∧ ".json".length = 5 := by
    decide
  have free : fileName key ∉ FileName.reserved := by
    have short : ∀ name ∈ FileName.reserved, name.length ≤ 2 := by
      decide
    intro taken
    have length := short _ taken
    rw [fileName, String.length_append, extension.2] at length
    omega
  have plain : (fileName key).toList.all FileName.isNameChar = true := by
    rw [fileName, String.toList_append, List.all_append, Bool.and_eq_true, List.all_eq_true]
    exact ⟨fun c member => isNameChar_of_isKeyChar (keyChars c member), by decide⟩
  have size : (fileName key).utf8ByteSize = key.length + 5 := by
    rw [fileName, String.utf8ByteSize_append, extension.1,
      utf8ByteSize_eq_length fun c member => utf8Size_of_isKeyChar (keyChars c member)]
  have bound : key.length + 5 ≤ FileName.maxSize ↔ key.length ≤ 250 := by
    rw [FileName.maxSize]
    omega
  simp only [FileName.isUsable, plain, size, bound]
  simp [free]

end FilterStore

end DeckBuilder
