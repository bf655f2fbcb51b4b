import DeckBuilder.Proofs.Filter.Brought
import DeckBuilder.Proofs.Query.Clauses

/-! # Free text

A part of any text of a card finds the card, provided that it is read as free text. The card's text
is lower-cased as a whole, the part on its own, trimmed, and once more when it is searched for. They
still agree, since only a capital sigma is lower-cased by what stands around it.
-/

namespace DeckBuilder

open Text

namespace Card

/-- The card has the text on it: in its own fields, in those of a printing, or on a face. -/
inductive Shows (card : Card) : String → Prop where
  | name : card.Shows card.name
  | typeLine : card.Shows card.typeLine
  | oracleText {text} (given : card.oracleText = some text) : card.Shows text
  | set {printing} (listed : printing ∈ card.printings) : card.Shows printing.set
  | setName {printing} (listed : printing ∈ card.printings) : card.Shows printing.setName
  | flavorText {printing text} (listed : printing ∈ card.printings)
      (given : printing.flavorText = some text) : card.Shows text
  | faceName {printing face} (listed : printing ∈ card.printings) (on : face ∈ printing.faces) :
      card.Shows face.name
  | faceTypeLine {printing face text} (listed : printing ∈ card.printings)
      (on : face ∈ printing.faces) (given : face.typeLine = some text) : card.Shows text
  | faceOracleText {printing face text} (listed : printing ∈ card.printings)
      (on : face ∈ printing.faces) (given : face.oracleText = some text) : card.Shows text
  | faceFlavorText {printing face text} (listed : printing ∈ card.printings)
      (on : face ∈ printing.faces) (given : face.flavorText = some text) : card.Shows text

theorem Shows.mem_searchedTexts {card : Card} {text : String} (shows : card.Shows text) :
    text ∈ card.searchedTexts := by
  have onFace {printing face} (listed : printing ∈ card.printings) (on : face ∈ printing.faces) :
      face ∈ card.faces :=
    List.mem_flatMap.mpr ⟨printing, listed, on⟩
  simp only [searchedTexts, List.mem_append, List.mem_flatMap, List.mem_cons, Option.mem_toList,
    List.not_mem_nil, or_false]
  cases shows with
  | name => exact .inl (.inl (.inl (.inl rfl)))
  | typeLine => exact .inl (.inl (.inl (.inr rfl)))
  | oracleText given => exact .inl (.inl (.inr given))
  | set listed => exact .inl (.inr ⟨_, listed, .inl (.inl rfl)⟩)
  | setName listed => exact .inl (.inr ⟨_, listed, .inl (.inr rfl)⟩)
  | flavorText listed given => exact .inl (.inr ⟨_, listed, .inr given⟩)
  | faceName listed on => exact .inr ⟨_, onFace listed on, .inl (.inl (.inl rfl))⟩
  | faceTypeLine listed on given => exact .inr ⟨_, onFace listed on, .inl (.inl (.inr given))⟩
  | faceOracleText listed on given => exact .inr ⟨_, onFace listed on, .inl (.inr given)⟩
  | faceFlavorText listed on given => exact .inr ⟨_, onFace listed on, .inr given⟩

/-- A part of a text is mentioned by it, however it is trimmed and lower-cased. -/
theorem mentions_of_infix {part : List Char} {text : String} (inside : part <:+: text.toList)
    (noSigma : 'Σ' ∉ part) : mentions (lowercase (String.ofList (lower (trim part)))) text := by
  have core := trim_isInfix part
  rw [mentions, occursIn, occursIn_iff_infix, lowercase, lowercase]
  simp only [String.toList_ofList, lower_lower]
  exact lower_infix_of_noSigma (core.trans inside) fun sigma => noSigma (core.subset sigma)

end Card

namespace Query

/-- The text is one clause, read as free text, and its case does not depend on what stands around
it. -/
structure IsFreeText (text : List Char) : Prop where
  single : ';' ∉ text
  noSigma : 'Σ' ∉ text
  unmarked : (lower (trim text)).head? ≠ some '!'
  unopened : ∀ entry ∈ ClauseKind.openings, ¬ entry.1.toList <+: lower (trim text)

theorem IsFreeText.parse_eq {text : List Char} (free : IsFreeText text) :
    parse text = ⟨.anywhere (String.ofList (lower (trim text))), false⟩ := by
  have none : opening? (lower (trim text)) = none := by
    refine List.findSome?_eq_none_iff.mpr fun entry listed => ?_
    rw [Option.map_eq_none_iff, Option.eq_none_iff_forall_ne_some]
    intro rest fits
    exact free.unopened entry listed ⟨rest, (afterOpening?_eq_some_iff.mp fits).symm⟩
  rw [parse, stripBang_of_unmarked free.unmarked]
  simp [prefixed?, none, trim_eq_self (trimmed_lower (trimmed_trim text))]

end Query

namespace FilterSpec

/-- The filter asks for nothing but what is searched for. -/
structure OnlySearches (spec : FilterSpec) (search : String) : Prop where
  search : spec.search = search
  unset : ∀ key, spec.wish key = .unset
  hideIgnored : spec.hideIgnored = false
  hideUnreleased : spec.hideUnreleased = false

theorem onlySearches_clear (spec : FilterSpec) (search : String) :
    { spec.clear with search }.OnlySearches search where
  search := rfl
  unset key := by
    have same : { spec.clear with search }.kept? key = spec.clear.kept? key := by cases key <;> rfl
    rw [wish, same, kept?_clear]
    cases spec.kept? key <;> rfl
  hideIgnored := rfl
  hideUnreleased := rfl

/-- **Free-text search is complete.** A filter that asks for nothing but what is searched for keeps
every card of which a text contains what is searched for, unless that is read as something else. -/
theorem filterCards_freeText {card : Card} {text search : String} (shows : card.Shows text)
    (part : search.toList <:+: text.toList) (free : Query.IsFreeText search.toList)
    {spec : FilterSpec} (only : spec.OnlySearches search) {context : FilterContext}
    (unled : context.selectingCommander = false ∧ context.commander = none) {cards : List Card}
    (member : card ∈ cards) : card ∈ filterCards cards spec context := by
  have mentioned : card.mentionsAnywhere (String.ofList (lower (trim search.toList))) :=
    List.any_eq_true.mpr ⟨text, shows.mem_searchedTexts, Card.mentions_of_infix part free.noSigma⟩
  have found : spec.passesSearch card := by
    rw [passesSearch, only.search, Query.parseAll_of_single free.single]
    split
    · rfl
    · simpa [free.parse_eq, Query.accepts, Predicate.holds] using mentioned
  refine List.mem_filter.mpr ⟨member, (accepts_iff_passesFrame only.unset).mpr ?_⟩
  simp [passesFrame, passesCommander, passesIgnored, passesRelease, found, only.hideIgnored,
    only.hideUnreleased, unled]

/-- What is searched for ends before the last letter of a word, which is a capital sigma. -/
theorem filterCards_freeText_odysseus :
    "ΙΛΕΎ".toList <:+: Card.odysseus.typeLine.toList ∧ Query.IsFreeText "ΙΛΕΎ".toList ∧
      { standard.clear with search := "ΙΛΕΎ" }.OnlySearches "ΙΛΕΎ" ∧
      .odysseus ∈ filterCards [.mortify, .odysseus] { standard.clear with search := "ΙΛΕΎ" }
        .plain := by
  have part : "ΙΛΕΎ".toList <:+: Card.odysseus.typeLine.toList := by decide +kernel
  have free : Query.IsFreeText "ΙΛΕΎ".toList :=
    ⟨by decide, by decide, by decide +kernel, by decide +kernel⟩
  have only := onlySearches_clear standard "ΙΛΕΎ"
  have member : Card.odysseus ∈ [.mortify, .odysseus] := List.mem_cons_of_mem _ List.mem_cons_self
  exact ⟨part, free, only, filterCards_freeText .typeLine part free only ⟨rfl, rfl⟩ member⟩

end FilterSpec

end DeckBuilder
