import DeckBuilder.DistinctBy
import Mathlib.Data.List.Nodup
import Mathlib.Data.List.Pairwise

/-! # Lists

What the development uses of association lists, first occurrences, reading lists item by item and
stable sorting.
-/

namespace DeckBuilder.Lists

/-- In a list of entries with distinct keys every entry is found. -/
theorem lookup_eq_some_iff_mem {κ ν : Type} [BEq κ] [LawfulBEq κ] {entries : List (κ × ν)}
    (distinct : (entries.map Prod.fst).Nodup) {key : κ} {value : ν} :
    entries.lookup key = some value ↔ (key, value) ∈ entries := by
  rw [List.lookup_eq_some_iff]
  constructor
  · rintro ⟨before, after, rfl, -⟩
    exact List.mem_append_right _ List.mem_cons_self
  · intro member
    obtain ⟨before, after, rfl⟩ := List.append_of_mem member
    refine ⟨before, after, rfl, fun entry earlier => ?_⟩
    rw [List.map_append, List.map_cons] at distinct
    have apart := (List.nodup_append.mp distinct).2.2 entry.1
      (List.mem_map_of_mem earlier) key List.mem_cons_self
    exact bne_iff_ne.mpr apart.symm

/-- The last value of a kind is the last of those that are left when the others are dropped. -/
theorem find?_reverse_eq_getLast? {β : Type} (values : List β) (keep : β → Bool) :
    values.reverse.find? keep = (values.filter keep).getLast? := by
  rw [← List.head?_filter, List.filter_reverse, List.head?_reverse]

section

variable {κ : Type} [BEq κ] [LawfulBEq κ]

theorem takeWhile_ne {before after : List κ} {value : κ} (fresh : value ∉ before) :
    (before ++ value :: after).takeWhile (· != value) = before := by
  have apart : ∀ other ∈ before, (other != value) = true := by
    intro other member
    exact bne_iff_ne.mpr fun same => fresh (same ▸ member)
  rw [List.takeWhile_append_of_pos apart]
  simp

/-- Of two members of a list one comes before the other. -/
theorem mem_takeWhile_ne_or {values : List κ} {first second : κ} (apart : first ≠ second)
    (left : first ∈ values) (right : second ∈ values) :
    first ∈ values.takeWhile (· != second) ∨ second ∈ values.takeWhile (· != first) := by
  induction values with
  | nil => cases left
  | cons value rest ih =>
    by_cases isFirst : value = first
    · subst isFirst
      exact .inl (by simp [apart])
    · by_cases isSecond : value = second
      · subst isSecond
        exact .inr (by simp [isFirst])
      · simp only [List.takeWhile_cons, bne_iff_ne.mpr isFirst, bne_iff_ne.mpr isSecond, ↓reduceIte]
        refine (ih ?_ ?_).imp (List.mem_cons_of_mem _) (List.mem_cons_of_mem _)
        · exact (List.mem_cons.mp left).resolve_left (Ne.symm isFirst)
        · exact (List.mem_cons.mp right).resolve_left (Ne.symm isSecond)

/-- Among values with distinct keys at most one has a given key. -/
theorem filter_key {β : Type} {key : β → κ} {values : List β} (distinct : (values.map key).Nodup)
    (wanted : κ) :
    values.filter (key · == wanted) = (values.find? (key · == wanted)).toList := by
  induction values with
  | nil => rfl
  | cons value rest ih =>
    obtain ⟨fresh, tail⟩ := List.nodup_cons.mp distinct
    by_cases here : key value = wanted
    · subst here
      have none : rest.filter (key · == key value) = [] := by
        refine List.filter_eq_nil_iff.mpr fun other member same => fresh ?_
        exact List.mem_map.mpr ⟨other, member, beq_iff_eq.mp same⟩
      simp [none]
    · simp [here, ih tail]

/-- Among values with distinct keys a look-up from the end finds the same. -/
theorem find?_reverse {β : Type} {key : β → κ} {values : List β}
    (distinct : (values.map key).Nodup) (wanted : κ) :
    values.reverse.find? (key · == wanted) = values.find? (key · == wanted) := by
  rw [find?_reverse_eq_getLast?, filter_key distinct]
  cases values.find? (key · == wanted) <;> rfl

/-- Values with distinct keys are told by their keys and by the value of each key. -/
theorem eq_of_find?_key {β : Type} {key : β → κ} {first second : List β}
    (distinct : (first.map key).Nodup) (keys : first.map key = second.map key)
    (same : ∀ wanted, first.find? (key · == wanted) = second.find? (key · == wanted)) :
    first = second := by
  have rebuilt (values : List β) (apart : (values.map key).Nodup) :
      (values.map key).filterMap (fun wanted => values.find? (key · == wanted)) = values := by
    rw [List.filterMap_map]
    refine (List.filterMap_congr fun value member => ?_).trans List.filterMap_some
    exact find?_eq_some_of_mem apart member
  rw [← rebuilt first distinct, ← rebuilt second (keys ▸ distinct), keys]
  exact List.filterMap_congr fun wanted _ => same wanted

end

/-- What is dropped is not what is left. -/
theorem mem_dropWhile_iff {β : Type} {drops : β → Bool} {values : List β} (distinct : values.Nodup)
    {value : β} :
    value ∈ values.dropWhile drops ↔ value ∈ values ∧ value ∉ values.takeWhile drops := by
  have parts := List.takeWhile_append_dropWhile (p := drops) (l := values)
  rw [← parts] at distinct
  have apart := (List.nodup_append.mp distinct).2.2
  constructor
  · intro left
    exact ⟨(List.dropWhile_sublist _).subset left, fun taken => apart _ taken _ left rfl⟩
  · rintro ⟨member, fresh⟩
    rw [← parts, List.mem_append] at member
    exact member.resolve_left fresh

/-- What is left after dropping values starts with one that is kept. -/
theorem of_mem_head?_dropWhile {β : Type} {drops : β → Bool} {values : List β} {value : β}
    (first : value ∈ (values.dropWhile drops).head?) : drops value = false := by
  have stopped := List.head?_dropWhile_not drops values
  rwa [Option.mem_def.mp first] at stopped

/-- Where what is kept comes first, dropping the others cuts them off. -/
theorem filter_append_filter_not {β : Type} {keep : β → Bool} {values : List β}
    (ordered : values.Pairwise fun first second => keep second → keep first) :
    values.filter keep ++ values.filter (!keep ·) = values := by
  induction values with
  | nil => rfl
  | cons value rest ih =>
    obtain ⟨first, others⟩ := List.pairwise_cons.mp ordered
    by_cases kept : keep value
    · simpa [kept] using ih others
    · have none : ∀ other ∈ rest, keep other = false := fun other later =>
        Bool.eq_false_iff.mpr fun isKept => kept (first other later isKept)
      have dropped : rest.filter keep = [] := by simpa using none
      have left : rest.filter (!keep ·) = rest := by simpa using none
      simp [kept, dropped, left]

/-- Two tests keep the same of a list exactly when they agree on its values. -/
theorem filter_eq_filter_iff {β : Type} {first second : β → Bool} {values : List β} :
    values.filter first = values.filter second ↔ ∀ value ∈ values, first value = second value := by
  refine ⟨fun same value member => Bool.eq_iff_iff.mpr ?_, List.filter_congr⟩
  have kept : value ∈ values.filter first ↔ value ∈ values.filter second := by rw [same]
  simpa only [List.mem_filter, member, true_and] using kept

/-- What is behind the first part of a list is behind the first of the values in that part. -/
theorem suffix_of_append_cons_eq {β : Type} {before after first second : List β} {value : β}
    (same : before ++ value :: after = first ++ second) (fresh : value ∉ before)
    (member : value ∈ first) : second <:+ after := by
  rcases List.append_eq_append_iff.mp same with ⟨extra, rfl, behind⟩ | ⟨extra, rfl, -⟩
  · cases extra with
    | nil =>
      rw [List.append_nil] at member
      exact absurd member fresh
    | cons other extra =>
      rw [List.cons_append] at behind
      exact ⟨extra, (List.cons.inj behind).2.symm⟩
  · exact absurd (List.mem_append_left _ member) fresh

/-- There is one way to part a list at the last place of a value. -/
theorem append_cons_inj {β : Type} {before after first second : List β} {value : β}
    (same : before ++ value :: after = first ++ value :: second) (last : value ∉ after)
    (alsoLast : value ∉ second) : before = first ∧ after = second := by
  rcases List.append_eq_append_iff.mp same with ⟨extra, rfl, behind⟩ | ⟨extra, rfl, behind⟩
  all_goals
    cases extra with
    | nil => simp_all
    | cons other extra =>
      obtain ⟨-, rest⟩ := List.cons.inj behind
      simp [rest] at last alsoLast

theorem nodup_map_append_singleton {β γ : Type} {image : β → γ} {values : List β} {value : β}
    (distinct : (values.map image).Nodup) (fresh : ∀ other ∈ values, image other ≠ image value) :
    ((values ++ [value]).map image).Nodup := by
  rw [List.map_append, List.map_singleton, ← List.concat_eq_append, List.nodup_concat]
  refine ⟨fun member => ?_, distinct⟩
  obtain ⟨other, isOther, same⟩ := List.mem_map.mp member
  exact fresh other isOther same

/-- Every value has a place. -/
theorem exists_place {β : Type} {values : List β} {value : β} (member : value ∈ values) :
    ∃ place, (value, place) ∈ values.zipIdx := by
  obtain ⟨place, found⟩ := List.mem_iff_getElem?.mp member
  exact ⟨place, List.mk_mem_zipIdx_iff_getElem?.mpr found⟩

/-- A property of earlier and later values, by their places. -/
theorem pairwise_iff_places {β : Type} {values : List β} {holds : β → β → Prop} :
    values.Pairwise holds ↔
      ∀ first ∈ values.zipIdx, ∀ second ∈ values.zipIdx, first.2 < second.2 →
        holds first.1 second.1 := by
  rw [List.pairwise_iff_getElem]
  simp only [Prod.forall, List.mk_mem_zipIdx_iff_getElem?, List.getElem?_eq_some_iff]
  constructor
  · rintro ordered _ i ⟨left, rfl⟩ _ j ⟨right, rfl⟩ before
    exact ordered i j left right before
  · intro ordered i j left right before
    exact ordered _ i ⟨left, rfl⟩ _ j ⟨right, rfl⟩ before

/-- Numbering the images of values and putting the numbers to use gives the values back when each
value is rebuilt from its image and its place. -/
theorem map_zipIdx_map {β γ : Type} {values : List β} {image : β → γ} {rebuild : γ × Nat → β}
    (rebuilt : ∀ place value, values[place]? = some value → rebuild (image value, place) = value) :
    (values.map image).zipIdx.map rebuild = values := by
  apply List.ext_getElem?
  intro place
  rw [List.getElem?_map, List.getElem?_zipIdx, List.getElem?_map]
  cases found : values[place]? with
  | none => rfl
  | some value => simp [rebuilt place value found]

/-- A concatenation has no duplicates when no part has and every member tells its part. -/
theorem nodup_flatMap_of_key {β γ κ : Type} {values : List β} {part : β → List γ} {key : β → κ}
    (owner : γ → κ) (distinct : (values.map key).Nodup)
    (parts : ∀ value ∈ values, (part value).Nodup)
    (owned : ∀ value ∈ values, ∀ item ∈ part value, owner item = key value) :
    (values.flatMap part).Nodup := by
  refine List.nodup_flatMap.mpr ⟨parts, ?_⟩
  refine (List.pairwise_map.mp distinct).imp_of_mem fun left right apart => ?_
  intro item first second
  exact apart ((owned _ left item first).symm.trans (owned _ right item second))

/-- A part of the state that no step of a fold changes is kept. -/
theorem foldl_kept {σ β γ : Type} (part : σ → γ) {step : σ → β → σ} {items : List β}
    (kept : ∀ state, ∀ item ∈ items, part (step state item) = part state) (start : σ) :
    part (items.foldl step start) = part start := by
  induction items generalizing start with
  | nil => rfl
  | cons item items ih =>
    rw [List.foldl_cons, ih fun state other later => kept state other (.tail _ later),
      kept start item List.mem_cons_self]

/-- A fold whose steps leave the start as it is ends with the start. -/
theorem foldl_eq_self {σ β : Type} {step : σ → β → σ} {items : List β} {start : σ}
    (fixed : ∀ item ∈ items, step start item = start) : items.foldl step start = start := by
  induction items with
  | nil => rfl
  | cons item items ih =>
    rw [List.foldl_cons, fixed item List.mem_cons_self]
    exact ih fun other later => fixed other (.tail _ later)

/-- A property that the steps of a fold bring about or keep holds at the end when it held at the
start or some item brings it about. -/
theorem foldl_iff {σ β : Type} (holds : σ → Prop) {brings : β → Prop} {step : σ → β → σ}
    (adds : ∀ state item, holds (step state item) ↔ brings item ∨ holds state) (items : List β)
    (start : σ) : holds (items.foldl step start) ↔ (∃ item ∈ items, brings item) ∨ holds start := by
  induction items generalizing start with
  | nil => simp
  | cons item items ih =>
    rw [List.foldl_cons, ih, adds]
    simp only [List.mem_cons, exists_eq_or_imp]
    exact or_left_comm.trans or_assoc.symm

/-! ## The first of the highest -/

/-- The value scores higher than all values before it, and no lower than those after it. -/
def FirstHighest {β : Type} (score : β → Nat) (values : List β) (highest : β) : Prop :=
  ∃ before after, values = before ++ highest :: after ∧
    (∀ value ∈ before, score value < score highest) ∧ ∀ value ∈ after, score value ≤ score highest

namespace FirstHighest

variable {β : Type} {score : β → Nat} {values : List β} {highest value first : β}

theorem mem (isHighest : FirstHighest score values highest) : highest ∈ values := by
  obtain ⟨before, after, rfl, -, -⟩ := isHighest
  exact List.mem_append_right _ List.mem_cons_self

theorem le (isHighest : FirstHighest score values highest) (member : value ∈ values) :
    score value ≤ score highest := by
  obtain ⟨before, after, rfl, lower, noHigher⟩ := isHighest
  rcases List.mem_append.mp member with earlier | later
  · exact Nat.le_of_lt (lower value earlier)
  · rcases List.mem_cons.mp later with rfl | later
    · exact Nat.le_refl _
    · exact noHigher value later

/-- A lower value may come first. -/
theorem cons (isHighest : FirstHighest score values highest) (lower : score value < score highest) :
    FirstHighest score (value :: values) highest := by
  obtain ⟨before, after, rfl, others, noHigher⟩ := isHighest
  exact ⟨value :: before, after, rfl, List.forall_mem_cons.mpr ⟨lower, others⟩, noHigher⟩

/-- A value that is no higher may come after the first one. -/
theorem cons_cons (isHighest : FirstHighest score (first :: values) highest)
    (noHigher : score value ≤ score first) :
    FirstHighest score (first :: value :: values) highest := by
  obtain ⟨before, after, split, lower, others⟩ := isHighest
  cases before with
  | nil =>
    obtain ⟨rfl, rfl⟩ := List.cons.inj split
    exact ⟨[], value :: values, rfl, lower, List.forall_mem_cons.mpr ⟨noHigher, others⟩⟩
  | cons other before =>
    obtain ⟨rfl, rfl⟩ := List.cons.inj split
    obtain ⟨firstLower, rest⟩ := List.forall_mem_cons.mp lower
    have valueLower := Nat.lt_of_le_of_lt noHigher firstLower
    exact ⟨first :: value :: before, after, rfl,
      List.forall_mem_cons.mpr ⟨firstLower, List.forall_mem_cons.mpr ⟨valueLower, rest⟩⟩, others⟩

/-- Among the values that are kept it is the first of the highest, wherever the others are. -/
theorem exists_split_of_filter {keep : β → Bool}
    (isHighest : FirstHighest score (values.filter keep) highest) :
    ∃ before after, values = before ++ highest :: after ∧
      (∀ value ∈ before, keep value → score value < score highest) ∧
      ∀ value ∈ after, keep value → score value ≤ score highest := by
  obtain ⟨keptBefore, keptAfter, split, lower, noHigher⟩ := isHighest
  obtain ⟨before, rest, rfl, rfl, keptRest⟩ := List.filter_eq_append_iff.mp split
  obtain ⟨dropped, after, rfl, none, -, rfl⟩ := List.filter_eq_cons_iff.mp keptRest
  refine ⟨before ++ dropped, after, (List.append_assoc ..).symm, fun value earlier kept => ?_,
    fun value later kept => noHigher value (List.mem_filter.mpr ⟨later, kept⟩)⟩
  rcases List.mem_append.mp earlier with isBefore | isDropped
  · exact lower value (List.mem_filter.mpr ⟨isBefore, kept⟩)
  · exact absurd kept (none value isDropped)

end FirstHighest

/-- Going through values while keeping the highest one that was met ends with the first of them. -/
theorem firstHighest_foldl {β : Type} (score : β → Nat) (values : List β) (first : β) :
    FirstHighest score (first :: values)
      (values.foldl (fun best other => if score best < score other then other else best)
        first) := by
  induction values generalizing first with
  | nil => exact ⟨[], [], rfl, by simp, by simp⟩
  | cons value values ih =>
    rw [List.foldl_cons]
    split
    · rename_i higher
      have most := ih value
      exact most.cons (Nat.lt_of_lt_of_le higher (most.le List.mem_cons_self))
    · rename_i noHigher
      exact (ih first).cons_cons (Nat.le_of_not_lt noHigher)

/-! ## Reading item by item -/

section

variable {β γ : Type} {values : List β} {encode : β → γ} {decode : γ → Option β}

theorem mapM_map_eq_some (each : ∀ value ∈ values, decode (encode value) = some value) :
    (values.map encode).mapM decode = some values := by
  induction values with
  | nil => rfl
  | cons value rest ih =>
    rw [List.map_cons, List.mapM_cons, each value List.mem_cons_self,
      ih fun other later => each other (.tail _ later)]
    rfl

/-- One item that cannot be read makes the list unreadable. -/
theorem mapM_eq_none {items : List γ} {item : γ} (member : item ∈ items)
    (unread : decode item = none) : items.mapM decode = none := by
  induction items with
  | nil => cases member
  | cons head rest ih =>
    rw [List.mapM_cons]
    rcases List.mem_cons.mp member with rfl | later
    · rw [unread]
      rfl
    · rw [ih later]
      cases decode head <;> rfl

end

/-! ## Stable sorting -/

section

variable {β : Type} {before : β → β → Bool}

/-- Sorting keeps the order of values that are not told apart. -/
theorem filter_mergeSort (trans : ∀ a b c, before a b → before b c → before a c)
    (total : ∀ a b, (before a b || before b a) = true) (values : List β) {keep : β → Bool}
    (tied : ∀ a b, keep a → keep b → before a b) :
    (values.mergeSort before).filter keep = values.filter keep := by
  have ordered : (values.filter keep).Pairwise (before · ·) := by
    apply List.pairwise_of_forall_mem_list
    intro a left b right
    exact tied a b (List.mem_filter.mp left).2 (List.mem_filter.mp right).2
  have inside : (values.filter keep).Sublist (values.mergeSort before) :=
    List.sublist_mergeSort trans total ordered List.filter_sublist
  have again := inside.filter keep
  rw [List.filter_filter] at again
  simp only [Bool.and_self] at again
  exact (again.eq_of_length ((List.mergeSort_perm values before).symm.filter keep).length_eq).symm

/-- The values are not told apart. -/
def tied (before : β → β → Bool) (first second : β) : Bool :=
  before first second && before second first

/-- A sorted list is told by the values that are tied with each one, in their order. -/
theorem eq_of_filter_tied (total : ∀ a b, (before a b || before b a) = true) {first second : List β}
    (left : first.Pairwise (before · ·)) (right : second.Pairwise (before · ·))
    (same : ∀ value, first.filter (tied before value) = second.filter (tied before value)) :
    first = second := by
  have self (value : β) : tied before value value := by simpa [tied] using total value value
  have mem_iff (value : β) : value ∈ first ↔ value ∈ second := by
    have filtered : value ∈ first.filter (tied before value) ↔
        value ∈ second.filter (tied before value) := by rw [same]
    simpa [self] using filtered
  induction first generalizing second with
  | nil =>
    cases second with
    | nil => rfl
    | cons value rest => exact absurd ((mem_iff value).mpr List.mem_cons_self) List.not_mem_nil
  | cons value rest ih =>
    cases second with
    | nil => exact absurd ((mem_iff value).mp List.mem_cons_self) List.not_mem_nil
    | cons other others =>
      obtain ⟨leftHead, leftTail⟩ := List.pairwise_cons.mp left
      obtain ⟨rightHead, rightTail⟩ := List.pairwise_cons.mp right
      have headsTied : tied before value other := by
        rcases List.mem_cons.mp ((mem_iff value).mp List.mem_cons_self) with rfl | later
        · exact self value
        · rcases List.mem_cons.mp ((mem_iff other).mpr List.mem_cons_self) with rfl | alsoLater
          · exact self other
          · simp [tied, leftHead other alsoLater, rightHead value later]
      have heads : value = other := by
        have first := same value
        rw [List.filter_cons_of_pos (self value), List.filter_cons_of_pos headsTied] at first
        exact (List.cons.inj first).1
      subst heads
      have tails (wanted : β) :
          rest.filter (tied before wanted) = others.filter (tied before wanted) := by
        have whole := same wanted
        by_cases here : tied before wanted value
        · rw [List.filter_cons_of_pos here, List.filter_cons_of_pos here] at whole
          exact (List.cons.inj whole).2
        · rwa [List.filter_cons_of_neg here, List.filter_cons_of_neg here] at whole
      rw [ih leftTail rightTail tails fun wanted => ?_]
      have filtered : wanted ∈ rest.filter (tied before wanted) ↔
          wanted ∈ others.filter (tied before wanted) := by rw [tails]
      simpa [self] using filtered

/-- **Values can be dropped before sorting or after it.** -/
theorem mergeSort_filter (trans : ∀ a b c, before a b → before b c → before a c)
    (total : ∀ a b, (before a b || before b a) = true) (values : List β) (keep : β → Bool) :
    (values.mergeSort before).filter keep = (values.filter keep).mergeSort before := by
  refine eq_of_filter_tied total ((List.pairwise_mergeSort trans total values).filter keep)
    (List.pairwise_mergeSort trans total _) fun value => ?_
  have untold (a b : β) (left : tied before value a) (right : tied before value b) :
      before a b := by
    rw [tied, Bool.and_eq_true] at left right
    exact trans a value b left.2 right.1
  rw [List.filter_filter, filter_mergeSort trans total values, ← List.filter_filter,
    filter_mergeSort trans total _ untold]
  intro a b left right
  rw [Bool.and_eq_true] at left right
  exact untold a b left.1 right.1

end

end DeckBuilder.Lists
