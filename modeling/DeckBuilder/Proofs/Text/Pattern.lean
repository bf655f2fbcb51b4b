import Mathlib.Data.List.TakeWhile

/-! # Patterns

A pattern says what a text looks like and which parts of it are captured. Where a text can be
matched in several ways, they come in an order: a run that takes as much as it can tries the longest
first, one that takes as little as it can the shortest. A whole text is captured in the first way
that leaves nothing of it.
-/

namespace DeckBuilder.Text

/-- A pattern of texts. -/
inductive Pattern where
  /-- One character. -/
  | char (c : Char)
  /-- Characters of a kind, at least one, and as many as possible. -/
  | most (kind : Char → Bool)
  /-- Characters of a kind, at least one, and as few as possible. -/
  | fewest (kind : Char → Bool)
  /-- One pattern and then another. -/
  | seq (first second : Pattern)
  /-- A pattern, or nothing if need be. -/
  | optional (pattern : Pattern)
  /-- A pattern of which the text is captured. -/
  | group (pattern : Pattern)

namespace Pattern

/-- A way of matching the start of a text: what is taken, which parts of it are captured, and what
is left. -/
structure Way where
  taken : List Char
  captured : List (List Char)
  rest : List Char
deriving DecidableEq, Repr

/-- The ways of taking characters of a kind, at least one, the shortest first. -/
def runs (kind : Char → Bool) : List Char → List Way
  | [] => []
  | c :: rest =>
    if kind c then
      ⟨[c], [], rest⟩ :: (runs kind rest).map fun run => { run with taken := c :: run.taken }
    else []

/-- The ways of matching the start of a text, in the order in which they are tried. -/
def ways : Pattern → List Char → List Way
  | char _, [] => []
  | char c, d :: rest => if d = c then [⟨[c], [], rest⟩] else []
  | most kind, text => (runs kind text).reverse
  | fewest kind, text => runs kind text
  | seq first second, text =>
    (first.ways text).flatMap fun before =>
      (second.ways before.rest).map fun after =>
        ⟨before.taken ++ after.taken, before.captured ++ after.captured, after.rest⟩
  | optional pattern, text => pattern.ways text ++ [⟨[], [], text⟩]
  | group pattern, text =>
    (pattern.ways text).map fun way => { way with captured := way.taken :: way.captured }

/-- What is captured of a whole text. -/
def captures? (pattern : Pattern) (text : List Char) : Option (List (List Char)) :=
  ((pattern.ways text).find? (·.rest.isEmpty)).map (·.captured)

/-- The texts of a pattern. -/
def Accepts : Pattern → List Char → Prop
  | char c, text => text = [c]
  | most kind, text => text ≠ [] ∧ ∀ c ∈ text, kind c
  | fewest kind, text => text ≠ [] ∧ ∀ c ∈ text, kind c
  | seq first second, text =>
    ∃ before after, text = before ++ after ∧ first.Accepts before ∧ second.Accepts after
  | optional pattern, text => pattern.Accepts text ∨ text = []
  | group pattern, text => pattern.Accepts text

variable {pattern first second : Pattern} {kind : Char → Bool} {text taken rest : List Char}

/-! ## Ways and texts -/

theorem exists_run_iff :
    (∃ run ∈ runs kind text, run.taken = taken ∧ run.rest = rest) ↔
      text = taken ++ rest ∧ taken ≠ [] ∧ ∀ c ∈ taken, kind c := by
  induction text generalizing taken with
  | nil => simp +contextual [runs]
  | cons c text ih =>
    constructor
    · rintro ⟨run, member, rfl, rfl⟩
      obtain ⟨isKind, member⟩ := List.mem_ite_nil_right.mp member
      rcases List.mem_cons.mp member with rfl | longer
      · simpa using isKind
      · obtain ⟨run, shorter, rfl⟩ := List.mem_map.mp longer
        obtain ⟨rfl, -, others⟩ := ih.mp ⟨run, shorter, rfl, rfl⟩
        exact ⟨rfl, List.cons_ne_nil _ _, List.forall_mem_cons.mpr ⟨isKind, others⟩⟩
    · rintro ⟨split, some, all⟩
      obtain ⟨first, more, rfl⟩ := List.exists_cons_of_ne_nil some
      obtain ⟨rfl, rfl⟩ := List.cons.inj split
      obtain ⟨isKind, others⟩ := List.forall_mem_cons.mp all
      rw [runs, if_pos isKind]
      cases more with
      | nil => exact ⟨_, List.mem_cons_self, rfl, rfl⟩
      | cons second more =>
        obtain ⟨run, shorter, same, left⟩ := ih.mpr ⟨rfl, List.cons_ne_nil second more, others⟩
        exact ⟨_, .tail _ (List.mem_map_of_mem shorter), congrArg (c :: ·) same, left⟩

/-- The ways of matching take the texts of the pattern. -/
theorem exists_way_iff :
    (∃ way ∈ pattern.ways text, way.taken = taken ∧ way.rest = rest) ↔
      text = taken ++ rest ∧ pattern.Accepts taken := by
  induction pattern generalizing text taken rest with
  | char c =>
    cases text with
    | nil => simp +contextual [ways, Accepts]
    | cons d text =>
      rw [ways, Accepts]
      constructor
      · rintro ⟨way, member, rfl, rfl⟩
        obtain ⟨rfl, member⟩ := List.mem_ite_nil_right.mp member
        obtain rfl := List.mem_singleton.mp member
        exact ⟨rfl, rfl⟩
      · rintro ⟨split, rfl⟩
        obtain ⟨rfl, rfl⟩ := List.cons.inj split
        exact ⟨_, List.mem_ite_nil_right.mpr ⟨rfl, List.mem_cons_self⟩, rfl, rfl⟩
  | most kind => simp only [ways, Accepts, List.mem_reverse, exists_run_iff]
  | fewest kind => simp only [ways, Accepts, exists_run_iff]
  | seq first second ihFirst ihSecond =>
    constructor
    · rintro ⟨way, member, rfl, rfl⟩
      obtain ⟨before, isFirst, other⟩ := List.mem_flatMap.mp member
      obtain ⟨after, isSecond, rfl⟩ := List.mem_map.mp other
      obtain ⟨split, left⟩ := ihFirst.mp ⟨before, isFirst, rfl, rfl⟩
      obtain ⟨splitRest, right⟩ := ihSecond.mp ⟨after, isSecond, rfl, rfl⟩
      refine ⟨?_, before.taken, after.taken, rfl, left, right⟩
      rw [split, splitRest, List.append_assoc]
    · rintro ⟨rfl, front, back, rfl, left, right⟩
      obtain ⟨before, isFirst, rfl, others⟩ := ihFirst.mpr ⟨List.append_assoc front back rest, left⟩
      obtain ⟨after, isSecond, rfl, rfl⟩ := ihSecond.mpr ⟨others, right⟩
      exact ⟨_, List.mem_flatMap.mpr ⟨before, isFirst, List.mem_map_of_mem isSecond⟩, rfl, rfl⟩
  | optional pattern ih =>
    simp only [ways, Accepts, List.mem_append, or_and_right, exists_or, ih, and_or_left,
      List.mem_singleton, exists_eq_left]
    refine or_congr_right ?_
    constructor
    · rintro ⟨rfl, rfl⟩
      exact ⟨rfl, rfl⟩
    · rintro ⟨rfl, rfl⟩
      exact ⟨rfl, rfl⟩
  | group pattern ih =>
    rw [Accepts, ← ih]
    simp [ways]

/-- A whole text is captured when it is a text of the pattern. -/
theorem isSome_captures?_iff : (pattern.captures? text).isSome ↔ pattern.Accepts text := by
  rw [captures?, Option.isSome_map, List.find?_isSome]
  constructor
  · rintro ⟨way, member, whole⟩
    obtain ⟨split, accepts⟩ := exists_way_iff.mp ⟨way, member, rfl, rfl⟩
    rw [List.isEmpty_iff.mp whole, List.append_nil] at split
    exact split ▸ accepts
  · intro accepts
    obtain ⟨way, member, -, whole⟩ := exists_way_iff.mpr ⟨(List.append_nil text).symm, accepts⟩
    exact ⟨way, member, List.isEmpty_iff.mpr whole⟩

/-- The number of groups. -/
def groups : Pattern → Nat
  | char _ => 0
  | most _ => 0
  | fewest _ => 0
  | seq first second => first.groups + second.groups
  | optional pattern => pattern.groups
  | group pattern => pattern.groups + 1

theorem captured_of_mem_runs {run : Way} (member : run ∈ runs kind text) : run.captured = [] := by
  induction text generalizing run with
  | nil => cases member
  | cons c text ih =>
    rcases List.mem_cons.mp (List.mem_ite_nil_right.mp member).2 with rfl | longer
    · rfl
    · obtain ⟨run, shorter, rfl⟩ := List.mem_map.mp longer
      exact (ih shorter :)

/-- No more is captured than there are groups. -/
theorem length_captured_le {way : Way} (member : way ∈ pattern.ways text) :
    way.captured.length ≤ pattern.groups := by
  induction pattern generalizing text way with
  | char c =>
    cases text with
    | nil => cases member
    | cons d text =>
      obtain rfl := List.mem_singleton.mp (List.mem_ite_nil_right.mp member).2
      exact Nat.le_refl _
  | most kind =>
    rw [captured_of_mem_runs (List.mem_reverse.mp member)]
    exact Nat.le_refl _
  | fewest kind =>
    rw [captured_of_mem_runs member]
    exact Nat.le_refl _
  | seq first second ihFirst ihSecond =>
    obtain ⟨before, isFirst, other⟩ := List.mem_flatMap.mp member
    obtain ⟨after, isSecond, rfl⟩ := List.mem_map.mp other
    rw [List.length_append]
    exact Nat.add_le_add (ihFirst isFirst) (ihSecond isSecond)
  | optional pattern ih =>
    rcases List.mem_append.mp member with isWay | none
    · exact ih isWay
    · rw [List.mem_singleton.mp none]
      exact Nat.zero_le _
  | group pattern ih =>
    obtain ⟨way, isWay, rfl⟩ := List.mem_map.mp member
    exact Nat.succ_le_succ (ih isWay)

/-- A pattern without groups captures nothing. -/
theorem captures?_of_groups_eq_zero (ungrouped : pattern.groups = 0)
    (accepts : pattern.Accepts text) : pattern.captures? text = some [] := by
  obtain ⟨captured, captures⟩ := Option.isSome_iff_exists.mp (isSome_captures?_iff.mpr accepts)
  obtain ⟨way, found, rfl⟩ := Option.map_eq_some_iff.mp captures
  have few := length_captured_le (List.mem_of_find?_eq_some found)
  rw [ungrouped, Nat.le_zero, List.length_eq_zero_iff] at few
  rw [captures, few]

/-! ## The preferred way -/

variable {way : Way}

theorem captures?_seq : (seq first second).captures? text =
    (first.ways text).findSome? fun before =>
      (second.captures? before.rest).map (before.captured ++ ·) := by
  simp [captures?, ways, List.find?_flatMap, Function.comp_def]

/-- The second pattern is matched after the preferred way of matching the first one. -/
theorem captures?_seq_of_head? {captured : List (List Char)}
    (preferred : (first.ways text).head? = some way)
    (goesOn : second.captures? way.rest = some captured) :
    (seq first second).captures? text = some (way.captured ++ captured) := by
  obtain ⟨others, split⟩ := List.head?_eq_some_iff.mp preferred
  rw [captures?_seq, split, List.findSome?_cons, goesOn]
  rfl

/-- The longest run ends where the characters of the kind end. -/
theorem head?_ways_most (some : taken ≠ []) (all : ∀ c ∈ taken, kind c)
    (ends : ∀ c ∈ rest.head?, kind c = false) :
    ((most kind).ways (taken ++ rest)).head? = .some ⟨taken, [], rest⟩ := by
  rw [ways, List.head?_reverse]
  induction taken with
  | nil => exact absurd rfl some
  | cons c taken ih =>
    obtain ⟨isKind, others⟩ := List.forall_mem_cons.mp all
    rw [List.cons_append, runs, if_pos isKind, List.getLast?_cons, List.getLast?_map]
    cases taken with
    | nil =>
      have stops : runs kind rest = [] := by
        cases rest with
        | nil => rfl
        | cons d rest => rw [runs, if_neg (by simp [ends d rfl])]
      rw [List.nil_append, stops]
      rfl
    | cons d taken =>
      rw [ih (List.cons_ne_nil d taken) others]
      rfl

theorem head?_ways_group : ((group pattern).ways text).head? =
    (pattern.ways text).head?.map fun way =>
      { way with captured := way.taken :: way.captured } := by
  rw [ways, List.head?_map]

/-- As few characters as possible are one if what follows goes on from there, or else some more. -/
theorem captures?_fewest_cons {c : Char} (isKind : kind c) :
    (seq (group (fewest kind)) second).captures? (c :: text) =
      ((second.captures? text).map ([c] :: ·)).or
        (((seq (group (fewest kind)) second).captures? text).map (List.modifyHead (c :: ·))) := by
  have longer (run : Way) :
      (second.captures? run.rest).map (((c :: run.taken) :: run.captured) ++ ·) =
        ((second.captures? run.rest).map ((run.taken :: run.captured) ++ ·)).map
          (List.modifyHead (c :: ·)) := by
    cases second.captures? run.rest <;> rfl
  simp only [captures?_seq, ways, runs, if_pos isKind, List.map_cons, List.findSome?_cons,
    List.findSome?_map, List.map_findSome?, Function.comp_def, longer]
  cases second.captures? text <;> rfl

end Pattern

end DeckBuilder.Text
