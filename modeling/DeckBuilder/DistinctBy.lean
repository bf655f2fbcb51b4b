/-! # The first value of each key

Nodes with repeated IDs and cards with repeated slots are treated alike: the first one counts.
-/

namespace DeckBuilder

variable {β κ : Type} [BEq κ]

/-- Keeps the first value of each key. -/
def distinctBy (key : β → κ) : List β → List β
  | [] => []
  | value :: rest => value :: (distinctBy key rest).filter fun other => key other != key value

variable {key : β → κ}

theorem distinctBy_sublist (values : List β) : (distinctBy key values).Sublist values := by
  induction values with
  | nil => exact .slnil
  | cons value rest ih => exact (List.filter_sublist.trans ih).cons_cons value

section

variable [LawfulBEq κ]

theorem nodup_distinctBy (values : List β) : ((distinctBy key values).map key).Nodup := by
  induction values with
  | nil => exact List.nodup_nil
  | cons value rest ih =>
    refine List.nodup_cons.mpr ⟨fun member => ?_, ih.sublist (List.filter_sublist.map _)⟩
    obtain ⟨other, kept, same⟩ := List.mem_map.mp member
    exact bne_iff_ne.mp (List.mem_filter.mp kept).2 same

theorem find?_distinctBy (values : List β) (wanted : κ) :
    (distinctBy key values).find? (key · == wanted) = values.find? (key · == wanted) := by
  induction values with
  | nil => rfl
  | cons value rest ih =>
    by_cases here : key value = wanted
    · simp [distinctBy, here]
    · have passed : (key value == wanted) = false := beq_false_of_ne here
      simp only [distinctBy, List.find?_cons, passed, List.find?_filter]
      rw [← ih]
      refine congrArg (List.find? · _) (funext fun other => ?_)
      by_cases same : key other = wanted
      · simp [same, Ne.symm here]
      · simp [same]

/-- Among values with distinct keys a value is found by its key. -/
theorem find?_eq_some_of_mem {values : List β} (distinct : (values.map key).Nodup) {value : β}
    (member : value ∈ values) : values.find? (key · == key value) = some value := by
  induction values with
  | nil => cases member
  | cons head rest ih =>
    obtain ⟨fresh, tail⟩ := List.nodup_cons.mp distinct
    rcases List.mem_cons.mp member with rfl | later
    · simp
    · have passed : (key head == key value) = false :=
        beq_false_of_ne fun same => fresh (List.mem_map.mpr ⟨value, later, same.symm⟩)
      simp only [List.find?_cons, passed]
      exact ih tail later

theorem find?_of_mem_distinctBy {values : List β} {value : β}
    (member : value ∈ distinctBy key values) : values.find? (key · == key value) = some value := by
  rw [← find?_distinctBy]
  exact find?_eq_some_of_mem (nodup_distinctBy values) member

theorem distinctBy_eq_self {values : List β} (distinct : (values.map key).Nodup) :
    distinctBy key values = values := by
  induction values with
  | nil => rfl
  | cons value rest ih =>
    obtain ⟨fresh, tail⟩ := List.nodup_cons.mp distinct
    rw [distinctBy, ih tail, List.filter_eq_self.mpr fun other member => ?_]
    exact bne_iff_ne.mpr fun same => fresh (List.mem_map.mpr ⟨other, member, same⟩)

/-- A value that comes last is kept when its key is new. -/
theorem distinctBy_append_singleton (values : List β) (value : β) :
    distinctBy key (values ++ [value]) =
      if key value ∈ values.map key then distinctBy key values
      else distinctBy key values ++ [value] := by
  induction values with
  | nil => rfl
  | cons head rest ih =>
    rw [List.cons_append, distinctBy, distinctBy, ih, List.map_cons]
    by_cases listed : key value ∈ rest.map key
    · rw [if_pos listed, if_pos (List.mem_cons_of_mem _ listed)]
    · rw [if_neg listed]
      by_cases here : key value = key head
      · simp [here]
      · simp [here, listed]

/-- Which occurrence of a value comes first does not depend on other values. -/
theorem eraseDups_filter (values : List κ) (keep : κ → Bool) :
    (values.filter keep).eraseDups = values.eraseDups.filter keep := by
  match values with
  | [] => rfl
  | value :: rest =>
    have tail := eraseDups_filter (rest.filter fun other => !other == value) keep
    rw [List.eraseDups_cons]
    by_cases kept : keep value
    · rw [List.filter_cons_of_pos kept, List.filter_cons_of_pos kept, List.eraseDups_cons,
        List.filter_filter, ← tail, List.filter_filter]
      simp only [Bool.and_comm]
    · rw [List.filter_cons_of_neg kept, List.filter_cons_of_neg kept, ← tail,
        List.filter_filter]
      congr 1
      refine List.filter_congr fun other _ => ?_
      by_cases same : other = value <;> simp_all
termination_by values.length
decreasing_by exact Nat.lt_succ_of_le (List.length_filter_le _ _)

/-- The keys of the first values are the keys in the order of their first occurrences. -/
theorem map_distinctBy (values : List β) :
    (distinctBy key values).map key = (values.map key).eraseDups := by
  induction values with
  | nil => rfl
  | cons value rest ih =>
    rw [distinctBy, List.map_cons, List.map_cons, List.eraseDups_cons, eraseDups_filter, ← ih,
      List.filter_map]
    rfl

end

end DeckBuilder
