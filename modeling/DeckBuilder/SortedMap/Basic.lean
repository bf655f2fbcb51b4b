import DeckBuilder.OrderCode

/-! # Sorted finite maps

A map is its list of entries in strictly increasing key order. The order is part of the type, so a
map has one representation: equal look-ups make equal maps, and listing the entries is
deterministic.
-/

namespace DeckBuilder

/-- Finitely many keys with a value each, listed in increasing key order. -/
structure SortedMap (κ ν : Type) [OrderKey κ] where
  entries : List (κ × ν)
  sorted : entries.Pairwise fun first second => OrderKey.Before first.1 second.1

namespace SortedMap

variable {κ ν μ : Type} [OrderKey κ]

/-- Places an entry among sorted entries, replacing the value of an equal key. -/
def place (key : κ) (value : ν) : List (κ × ν) → List (κ × ν)
  | [] => [(key, value)]
  | entry :: rest =>
    match OrderKey.compare key entry.1 with
    | .lt => (key, value) :: entry :: rest
    | .eq => (key, value) :: rest
    | .gt => entry :: place key value rest

theorem mem_place {key : κ} {value : ν} {entries : List (κ × ν)} {entry : κ × ν}
    (member : entry ∈ place key value entries) : entry = (key, value) ∨ entry ∈ entries := by
  induction entries with
  | nil => exact .inl (List.mem_singleton.1 member)
  | cons head rest ih =>
    simp only [place] at member
    split at member
    · simpa using member
    · rcases List.mem_cons.1 member with here | there
      · exact .inl here
      · exact .inr (List.mem_cons_of_mem _ there)
    · rcases List.mem_cons.1 member with here | there
      · exact .inr (here ▸ List.mem_cons_self)
      · exact (ih there).imp_right (List.mem_cons_of_mem _)

theorem place_sorted (key : κ) (value : ν) {entries : List (κ × ν)}
    (sorted : entries.Pairwise fun first second => OrderKey.Before first.1 second.1) :
    (place key value entries).Pairwise fun first second => OrderKey.Before first.1 second.1 := by
  induction entries with
  | nil => exact List.pairwise_singleton _ _
  | cons head rest ih =>
    obtain ⟨ahead, tail⟩ := List.pairwise_cons.1 sorted
    simp only [place]
    split
    · rename_i order
      refine List.pairwise_cons.2 ⟨fun entry member => ?_, sorted⟩
      rcases List.mem_cons.1 member with here | there
      · exact here ▸ order
      · exact OrderCode.Before.trans order (ahead entry there)
    · rename_i order
      have same : OrderKey.code key = OrderKey.code head.1 := OrderCode.eq_of_compare_eq order
      refine List.pairwise_cons.2 ⟨fun entry member => ?_, tail⟩
      have before := ahead entry member
      simp only [OrderKey.Before] at before ⊢
      rw [same]
      exact before
    · rename_i order
      refine List.pairwise_cons.2 ⟨fun entry member => ?_, ih tail⟩
      rcases mem_place member with here | there
      · subst here
        have swapped := OrderCode.compare_swap (OrderKey.code key) (OrderKey.code head.1)
        simp only [OrderKey.Before, OrderCode.Before, swapped]
        simp only [OrderKey.compare] at order
        simp [order]
      · exact ahead entry there

def empty : SortedMap κ ν :=
  ⟨[], List.Pairwise.nil⟩

instance : EmptyCollection (SortedMap κ ν) :=
  ⟨empty⟩

instance : Inhabited (SortedMap κ ν) :=
  ⟨empty⟩

instance [DecidableEq κ] [DecidableEq ν] : DecidableEq (SortedMap κ ν) := fun first second =>
  if same : first.entries = second.entries then
    .isTrue (by cases first; cases second; simp_all)
  else
    .isFalse fun equal => same (equal ▸ rfl)

/-- Gives a key a value, replacing the one it had. -/
def insert (map : SortedMap κ ν) (key : κ) (value : ν) : SortedMap κ ν :=
  ⟨place key value map.entries, place_sorted key value map.sorted⟩

/-- The value of a key. -/
def get? (map : SortedMap κ ν) (key : κ) : Option ν :=
  (map.entries.find? fun entry => OrderKey.code entry.1 == OrderKey.code key).map (·.2)

/-- The value of a key, or the given one for a key that is not in the map. -/
def getD (map : SortedMap κ ν) (key : κ) (fallback : ν) : ν :=
  (map.get? key).getD fallback

/-- Whether a key has a value. -/
def contains (map : SortedMap κ ν) (key : κ) : Bool :=
  (map.get? key).isSome

/-- Gives a key a value unless it has one. -/
def insertIfNew (map : SortedMap κ ν) (key : κ) (value : ν) : SortedMap κ ν :=
  if map.contains key then map else map.insert key value

/-- Changes the value of a key, which starts from the given one when it is new. -/
def update (map : SortedMap κ ν) (key : κ) (start : ν) (change : ν → ν) : SortedMap κ ν :=
  map.insert key (change (map.getD key start))

def erase (map : SortedMap κ ν) (key : κ) : SortedMap κ ν :=
  ⟨map.entries.filter fun entry => OrderKey.code entry.1 != OrderKey.code key,
    map.sorted.filter _⟩

/-- Changes every value and no key. -/
def mapValues (map : SortedMap κ ν) (change : ν → μ) : SortedMap κ μ :=
  ⟨map.entries.map fun entry => (entry.1, change entry.2), List.pairwise_map.2 map.sorted⟩

/-- Collects entries in order; of equal keys the last one counts. -/
def ofList (entries : List (κ × ν)) : SortedMap κ ν :=
  entries.foldl (fun map entry => map.insert entry.1 entry.2) empty

def keys (map : SortedMap κ ν) : List κ :=
  map.entries.map (·.1)

/-- Sorts keys and drops repeated ones. -/
def distinctSorted (keys : List κ) : List κ :=
  (ofList (keys.map fun key => (key, ()))).keys

end SortedMap

end DeckBuilder
