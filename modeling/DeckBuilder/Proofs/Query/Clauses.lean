import DeckBuilder.Proofs.Filter.Acceptance
import DeckBuilder.Proofs.Query.RoundTrip

/-! # The algebra of search texts

A search text is the conjunction of its clauses. So texts with semicolons between them keep the
cards that each of the texts keeps, in whatever order they stand. An exclamation mark in front of a
clause that is not negated negates it, be it a test with an opening, or free text for want of an
opening or of a number.
-/

namespace DeckBuilder

open Text

namespace Query

/-! ## Texts with semicolons between them -/

theorem parseAll_append (first second : List Char) :
    parseAll (first ++ ';' :: second) = parseAll first ++ parseAll second := by
  have split : splitWhere (· = ';') (first ++ ';' :: second) =
      splitWhere (· = ';') first ++ splitWhere (· = ';') second := by
    simp only [splitWhere_eq_splitOnP]
    exact List.splitOnP_append_cons first second (decide_eq_true rfl)
  rw [parseAll, split, List.filter_append, List.map_append, parseAll, parseAll]

theorem parseAll_semicolon (first second : String) :
    parseAll (first ++ ";" ++ second).toList = parseAll first.toList ++ parseAll second.toList := by
  have joined : (first ++ ";" ++ second).toList = first.toList ++ ';' :: second.toList := by simp
  rw [joined, parseAll_append]

theorem parseAll_intercalate (searches : List (List Char)) :
    parseAll ([';'].intercalate searches) = searches.flatMap parseAll := by
  induction searches with
  | nil => rfl
  | cons search rest ih =>
    cases rest with
    | nil => simp
    | cons next rest =>
      rw [List.intercalate_cons_cons, List.append_assoc, List.singleton_append, parseAll_append, ih]
      exact List.flatMap_cons.symm

/-- A text without semicolons is one clause, unless it is blank. -/
theorem parseAll_of_single {clause : List Char} (single : ';' ∉ clause) :
    parseAll clause = if trim clause = [] then [] else [parse clause] := by
  have whole : splitWhere (· = ';') clause = [clause] := by
    rw [splitWhere_eq_splitOnP]
    refine List.splitOnP_eq_singleton fun c member => ?_
    exact decide_eq_false (ne_of_mem_of_not_mem member single)
  rw [parseAll, whole]
  by_cases blank : trim clause = [] <;> simp [blank]

/-! ## Exclamation marks -/

/-- A mark outside a clause with an opening changes nothing but the negation. -/
theorem prefixed?_true (text : List Char) :
    prefixed? true text = (prefixed? false text).map fun query => ⟨query.predicate, true⟩ := by
  rw [prefixed?, prefixed?]
  cases opening? text with
  | none => rfl
  | some opened =>
    cases read : opened.1.predicate? (trim (stripBang (trim opened.2)).2) <;> simp [read]

theorem negated_of_marked {clause text : List Char}
    (marked : stripBang (trim (lower clause)) = (true, text)) : (parse clause).negated := by
  rw [parse_of_stripBang marked, prefixed?_true]
  cases prefixed? false text <;> rfl

theorem lower_bang (clause : List Char) : lower ('!' :: clause) = '!' :: lower clause := by
  have ends : EndsWord '!' := by decide +kernel
  have same : lowerChar '!' = ['!'] := by decide +kernel
  rw [lower, lowerAfter_cons_of_endsWord ends, same, List.singleton_append]

/-- **A mark in front negates a clause** that is not negated, and keeps what it tests. -/
theorem parse_bang {clause : List Char} (plain : (parse clause).negated = false) :
    parse ('!' :: clause) = ⟨(parse clause).predicate, true⟩ := by
  have unmarked : (trim (lower clause)).head? ≠ some '!' := by
    intro first
    obtain ⟨rest, whole⟩ := List.head?_eq_some_iff.mp first
    have marked : stripBang (trim (lower clause)) = (true, trimStart rest) := by
      rw [whole]
      rfl
    exact Bool.false_ne_true (plain.symm.trans (negated_of_marked marked))
  have inside := stripBang_of_unmarked unmarked
  have outside : stripBang (trim (lower ('!' :: clause))) = (true, trim (lower clause)) := by
    rw [lower_bang]
    exact @stripBang_trim [] [] (lower clause) true (by simp) (by simp) unmarked
  rw [parse_of_stripBang inside] at plain ⊢
  rw [parse_of_stripBang outside, prefixed?_true]
  cases prefixed? false (trim (lower clause)) <;> rfl

theorem accepts_negated (predicate : Predicate) (card : Card) :
    (Query.mk predicate true).accepts card = !(Query.mk predicate false).accepts card := by
  simp [accepts]

theorem accepts_bang {clause : List Char} (plain : (parse clause).negated = false) (card : Card) :
    (parse ('!' :: clause)).accepts card = !(parse clause).accepts card := by
  rw [parse_bang plain, accepts_negated, ← plain]

end Query

/-! ## Searches of a filter -/

namespace FilterSpec

variable {spec : FilterSpec} {context : FilterContext} {card : Card}

theorem passesSearch_append (spec : FilterSpec) (first second : String) (card : Card) :
    { spec with search := first ++ ";" ++ second }.passesSearch card =
      ({ spec with search := first }.passesSearch card &&
        { spec with search := second }.passesSearch card) := by
  rw [passesSearch, Query.parseAll_semicolon, List.all_append, passesSearch, passesSearch]

theorem passesSearch_of_single {clause : String} (single : ';' ∉ clause.toList)
    (visible : trim clause.toList ≠ []) :
    { spec with search := clause }.passesSearch card =
      (Query.parse clause.toList).accepts card := by
  rw [passesSearch, Query.parseAll_of_single single, if_neg visible, List.all_cons, List.all_nil,
    Bool.and_true]

/-- The order of texts with semicolons between them does not matter. -/
theorem passesSearch_intercalate (spec : FilterSpec) {searches others : List String}
    (same : searches.Perm others) (card : Card) :
    { spec with search := ";".intercalate searches }.passesSearch card =
      { spec with search := ";".intercalate others }.passesSearch card := by
  have joined (searches : List String) :
      (";".intercalate searches).toList = [';'].intercalate (searches.map String.toList) := by simp
  rw [passesSearch, passesSearch, joined, joined, Query.parseAll_intercalate,
    Query.parseAll_intercalate]
  exact ((same.map String.toList).flatMap_right _).all_eq

/-- The search text of a filter has one stage of its own. -/
theorem accepts_search (spec : FilterSpec) (search : String) :
    { spec with search }.accepts context card =
      ({ spec with search := "" }.accepts context card &&
        { spec with search }.passesSearch card) := by
  have unsearched : { spec with search := "" }.passesSearch card = true := rfl
  cases found : { spec with search }.passesSearch card with
  | false => simp only [accepts, found, Bool.and_false, Bool.false_and]
  | true =>
    simp only [accepts, found, unsearched, Bool.and_true]
    rfl

end FilterSpec

/-- **Search texts are conjunctions, and a mark negates.** The clauses of two texts with a semicolon
between them are those of the first text and those of the second. So the cards that both of the
texts keep are kept, in their order, and the order of the texts does not matter. A mark in front of
a clause that is not negated makes it match the other cards. -/
theorem search_conjoins_and_negates :
    (∀ first second : String, Query.parseAll (first ++ ";" ++ second).toList =
      Query.parseAll first.toList ++ Query.parseAll second.toList) ∧
    (∀ (spec : FilterSpec) (context : FilterContext) (cards : List Card) (first second : String),
      filterCards cards { spec with search := first ++ ";" ++ second } context =
        cards.filter fun card => { spec with search := first }.accepts context card &&
          { spec with search := second }.accepts context card) ∧
    (∀ (spec : FilterSpec) (context : FilterContext) (cards : List Card)
        (searches others : List String), searches.Perm others →
      filterCards cards { spec with search := ";".intercalate searches } context =
        filterCards cards { spec with search := ";".intercalate others } context) ∧
    ∀ clause : String, trim clause.toList ≠ [] → ';' ∉ clause.toList →
      (Query.parse clause.toList).negated = false →
      Query.parse ("!" ++ clause).toList = ⟨(Query.parse clause.toList).predicate, true⟩ ∧
        (∀ card, (Query.parse ("!" ++ clause).toList).accepts card =
          !(Query.parse clause.toList).accepts card) ∧
        ∀ (spec : FilterSpec) (card : Card),
          { spec with search := "!" ++ clause }.passesSearch card =
            !{ spec with search := clause }.passesSearch card := by
  refine ⟨Query.parseAll_semicolon, fun spec context cards first second => ?_,
    fun spec context cards searches others same => ?_, fun clause visible single plain => ?_⟩
  · refine List.filter_congr fun card _ => ?_
    rw [FilterSpec.accepts_search, FilterSpec.passesSearch_append,
      FilterSpec.accepts_search spec first, FilterSpec.accepts_search spec second]
    cases { spec with search := "" }.accepts context card <;> simp
  · refine List.filter_congr fun card _ => ?_
    rw [FilterSpec.accepts_search, FilterSpec.passesSearch_intercalate spec same,
      ← FilterSpec.accepts_search]
  · have marked : ("!" ++ clause).toList = '!' :: clause.toList := by simp
    have singleMarked : ';' ∉ ("!" ++ clause).toList := by simpa [marked] using single
    have visibleMarked : trim ("!" ++ clause).toList ≠ [] := by
      rw [marked, ← List.singleton_append, trim_append (by decide) (List.cons_ne_nil _ _)]
      exact List.cons_ne_nil _ _
    have complement := Query.accepts_bang plain
    rw [← marked] at complement
    refine ⟨marked ▸ Query.parse_bang plain, complement, fun spec card => ?_⟩
    rw [FilterSpec.passesSearch_of_single singleMarked visibleMarked,
      FilterSpec.passesSearch_of_single single visible, complement]

theorem search_conjoins_and_negates_malformed :
    let searches := ["t:INSTANT", " ", "!r:c"]
    let others := ["!r:c", "t:INSTANT", " "]
    let kept (searches : List String) :=
      filterCards [.mortify] { FilterSpec.standard with search := ";".intercalate searches } .plain
    (searches.Perm others ∧ kept searches = kept others) ∧
      -- A mana value that is no number makes the clause free text.
      trim " CMC>=x".toList ≠ [] ∧ ';' ∉ " CMC>=x".toList ∧
      Query.parse " CMC>=x".toList = ⟨.anywhere "cmc>=x", false⟩ ∧
      Query.parse "! CMC>=x".toList = ⟨.anywhere "cmc>=x", true⟩ := by
  intro searches others kept
  obtain ⟨-, -, order, negation⟩ := search_conjoins_and_negates
  have same : searches.Perm others := by decide
  have visible : trim " CMC>=x".toList ≠ [] := by decide
  have single : ';' ∉ " CMC>=x".toList := by decide
  have read : Query.parse " CMC>=x".toList = ⟨.anywhere "cmc>=x", false⟩ := by decide +kernel
  have marked := (negation " CMC>=x" visible single (by rw [read])).1
  rw [read] at marked
  exact ⟨⟨same, order .standard .plain [.mortify] searches others same⟩, visible, single, read,
    marked⟩

end DeckBuilder
