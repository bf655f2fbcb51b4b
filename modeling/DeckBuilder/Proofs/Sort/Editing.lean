import DeckBuilder.Sort.Spec
import Mathlib.Data.List.InsertIdx

/-! # Editing sort specifications

An edit moves an entry, or changes the flag or the direction of a key. After any run of edits the
entries are those of the start in some order, each with the changes that were made to its key, so no
key is lost or repeated. A move carries one entry past the others, and the move back undoes it.
-/

namespace DeckBuilder

/-- An edit of a sort specification. -/
inductive SortEdit where
  | move (start target : Nat)
  | enable (key : SortKey) (enabled : Bool)
  | reverse (key : SortKey)

/-- What an edit does to an entry, wherever it stands. -/
def SortEntry.edit (entry : SortEntry) : SortEdit → SortEntry
  | .move _ _ => entry
  | .enable key enabled => if entry.key = key then { entry with enabled } else entry
  | .reverse key =>
    if entry.key = key then { entry with direction := entry.direction.reversed } else entry

/-- One entry goes from one place to another, and the others stay in their order. -/
structure SortEntry.Moved (start target : Nat) (before after : List SortEntry) : Prop where
  entry : after[target]? = before[start]?
  others : after.eraseIdx target = before.eraseIdx start
  contents : after.Perm before

theorem SortEntry.key_edit (entry : SortEntry) (edit : SortEdit) :
    (entry.edit edit).key = entry.key := by
  cases edit with
  | move => rfl
  | enable key | reverse key => by_cases same : entry.key = key <;> simp [SortEntry.edit, same]

theorem SortEntry.key_foldl_edit (edits : List SortEdit) (entry : SortEntry) :
    (edits.foldl SortEntry.edit entry).key = entry.key := by
  induction edits generalizing entry with
  | nil => rfl
  | cons edit edits ih => rw [List.foldl_cons, ih, entry.key_edit]

namespace SortSpec

/-- A sort specification after an edit. -/
def edit (spec : SortSpec) : SortEdit → SortSpec
  | .move start target => spec.moveEntry start target
  | .enable key enabled => spec.setEnabled key enabled
  | .reverse key => spec.toggleDirection key

/-- A sort specification after some edits. -/
def editAll (spec : SortSpec) (edits : List SortEdit) : SortSpec :=
  edits.foldl edit spec

variable {spec : SortSpec}

/-! ## Moving an entry -/

section

variable {start target : Nat} (inside : start < spec.entries.length)
  (alsoInside : target < spec.entries.length)

include inside alsoInside

theorem entries_moveEntry : (spec.moveEntry start target).entries =
    (spec.entries.eraseIdx start).insertIdx target spec.entries[start] := by
  simp only [moveEntry, List.getElem?_eq_getElem inside, alsoInside, ↓reduceIte]

/-- There is room for the entry among the others. -/
theorem le_length_eraseIdx : target ≤ (spec.entries.eraseIdx start).length := by
  rw [List.length_eraseIdx_of_lt inside]
  omega

theorem moved_moveEntry :
    SortEntry.Moved start target spec.entries (spec.moveEntry start target).entries := by
  have room := le_length_eraseIdx inside alsoInside
  rw [entries_moveEntry inside alsoInside]
  refine ⟨?_, List.eraseIdx_insertIdx_self _, ?_⟩
  · rw [List.getElem?_insertIdx_self, if_pos room, List.getElem?_eq_getElem inside]
  · -- Both lists are the entry and the others, with the entry put in at different places.
    have before := List.perm_insertIdx spec.entries[start] (spec.entries.eraseIdx start)
      (le_length_eraseIdx inside inside)
    rw [List.insertIdx_eraseIdx_getElem inside] at before
    exact (List.perm_insertIdx _ _ room).trans before.symm

/-- The move back undoes a move. -/
theorem moveEntry_moveEntry : (spec.moveEntry start target).moveEntry target start = spec := by
  have moved := moved_moveEntry inside alsoInside
  have length := moved.contents.length_eq
  have entry := moved.entry
  rw [← length] at inside alsoInside
  have back := entries_moveEntry alsoInside inside
  rw [List.getElem?_eq_getElem alsoInside, List.getElem?_eq_getElem (length ▸ inside),
    Option.some_inj] at entry
  rw [entry, moved.others, List.insertIdx_eraseIdx_getElem] at back
  exact congrArg SortSpec.mk back

end

theorem moveEntry_of_not_inside {start target : Nat}
    (outside : ¬ (start < spec.entries.length ∧ target < spec.entries.length)) :
    spec.moveEntry start target = spec := by
  unfold moveEntry
  split
  · rename_i found
    have inside := (List.getElem?_eq_some_iff.mp found).1
    exact if_neg fun alsoInside => outside ⟨inside, alsoInside⟩
  · rfl

theorem entries_moveEntry_perm (start target : Nat) :
    (spec.moveEntry start target).entries.Perm spec.entries := by
  by_cases inside : start < spec.entries.length ∧ target < spec.entries.length
  · exact (moved_moveEntry inside.1 inside.2).contents
  · rw [moveEntry_of_not_inside inside]

/-! ## Changing a key -/

theorem getElem?_changeKey (key : SortKey) (change : SortEntry → SortEntry) (place : Nat) :
    (spec.changeKey key change).entries[place]? =
      spec.entries[place]?.map fun entry => if entry.key = key then change entry else entry :=
  List.getElem?_map

/-! ## Runs -/

/-- An edit changes the entries one by one, and then at most their order. -/
theorem entries_edit_perm (edit : SortEdit) :
    (spec.edit edit).entries.Perm (spec.entries.map (·.edit edit)) := by
  cases edit with
  | move start target =>
    have unchanged : spec.entries.map (·.edit (.move start target)) = spec.entries :=
      List.map_id _
    rw [unchanged]
    exact entries_moveEntry_perm start target
  | enable | reverse => exact .refl _

theorem entries_editAll_perm (edits : List SortEdit) :
    (spec.editAll edits).entries.Perm (spec.entries.map (edits.foldl SortEntry.edit ·)) := by
  induction edits generalizing spec with
  | nil => exact .of_eq (List.map_id _).symm
  | cons edit edits ih =>
    have rest : (spec.entries.map (·.edit edit)).map (edits.foldl SortEntry.edit ·) =
        spec.entries.map ((edit :: edits).foldl SortEntry.edit ·) :=
      List.map_map
    exact rest ▸ ih.trans (entries_edit_perm edit |>.map _)

theorem keys_editAll_perm (edits : List SortEdit) :
    ((spec.editAll edits).entries.map (·.key)).Perm (spec.entries.map (·.key)) := by
  have keys : (spec.entries.map (edits.foldl SortEntry.edit ·)).map (·.key) =
      spec.entries.map (·.key) := by
    rw [List.map_map]
    exact List.map_congr_left fun entry _ => entry.key_foldl_edit edits
  exact keys ▸ (entries_editAll_perm edits).map (·.key)

theorem count_keys_standard (key : SortKey) : (standard.entries.map (·.key)).count key = 1 := by
  cases key <;> rfl

/-- **Edits only rearrange and flip.** After any run of edits the entries are those of the start,
each with the changes made to its key, in some order. So the keys stay the same, and from the
standard specification on there is one entry for each key. A move inside the list takes one entry to
its new place past the others and is undone by the move back, and any other move changes nothing.
Enabling and reversing a key change nothing but the flag or the direction of its entries. -/
theorem editAll_rearranges (spec : SortSpec) :
    (∀ edits, (spec.editAll edits).entries.Perm
      (spec.entries.map (edits.foldl SortEntry.edit ·))) ∧
    (∀ edits, ((spec.editAll edits).entries.map (·.key)).Perm (spec.entries.map (·.key))) ∧
    (∀ edits key, ((standard.editAll edits).entries.map (·.key)).count key = 1) ∧
    -- Moves.
    (∀ start target, start < spec.entries.length → target < spec.entries.length →
      SortEntry.Moved start target spec.entries (spec.moveEntry start target).entries ∧
        (spec.moveEntry start target).moveEntry target start = spec) ∧
    (∀ start target, ¬ (start < spec.entries.length ∧ target < spec.entries.length) →
      spec.moveEntry start target = spec) ∧
    -- Flips.
    (∀ key enabled (place : Nat), (spec.setEnabled key enabled).entries[place]? =
      spec.entries[place]?.map fun entry : SortEntry =>
        if entry.key = key then ⟨entry.key, entry.direction, enabled⟩ else entry) ∧
    (∀ key (place : Nat), (spec.toggleDirection key).entries[place]? =
      spec.entries[place]?.map fun entry : SortEntry =>
        if entry.key = key then ⟨entry.key, entry.direction.reversed, entry.enabled⟩
        else entry) := by
  refine ⟨entries_editAll_perm, keys_editAll_perm, ?_, ?_, ?_, ?_, ?_⟩
  · intro edits key
    rw [(keys_editAll_perm edits).count_eq, count_keys_standard]
  · intro start target inside alsoInside
    exact ⟨moved_moveEntry inside alsoInside, moveEntry_moveEntry inside alsoInside⟩
  · exact fun start target => moveEntry_of_not_inside
  · exact fun key enabled => getElem?_changeKey key _
  · exact fun key => getElem?_changeKey key _

/-- The last of the seven standard keys becomes the second one, and a move to a place that is not
there changes nothing. -/
theorem editAll_rearranges_standard :
    (6 < standard.entries.length ∧ 1 < standard.entries.length ∧
      SortEntry.Moved 6 1 standard.entries (standard.moveEntry 6 1).entries ∧
      (standard.moveEntry 6 1).moveEntry 1 6 = standard) ∧
    ¬ (0 < standard.entries.length ∧ 99 < standard.entries.length) ∧
      standard.moveEntry 0 99 = standard := by
  obtain ⟨-, -, -, moves, refuses, -⟩ := editAll_rearranges standard
  exact ⟨⟨by decide, by decide, moves 6 1 (by decide) (by decide)⟩, by decide,
    refuses 0 99 (by decide)⟩

end SortSpec

end DeckBuilder
