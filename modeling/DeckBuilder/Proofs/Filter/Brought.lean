import DeckBuilder.Proofs.Filter.Complements

/-! # What a card brings into a filter

Every key that a filter of some cards offers for the sake of one of them is a key that the card has.
Type words and subtypes are written on the type line between blanks, dashes and slashes, so that
they are found again when both are lower-cased. Thus requiring such a key keeps the card, and
excluding it drops the card.
-/

namespace DeckBuilder

theorem sameIgnoringAsciiCase_refl (text : String) : sameIgnoringAsciiCase text text :=
  beq_self_eq_true _

/-! ## The words of a type line -/

theorem mentions_of_stands {word : List Char} {text : String}
    (stands : Text.Stands Text.EndsWord word text.toList) :
    mentions (lowercase (String.ofList word)) text := by
  rw [mentions, occursIn, Text.occursIn_iff_infix, lowercase, lowercase, String.toList_ofList,
    String.toList_ofList, String.toList_ofList]
  exact Text.lower_infix stands

namespace Card

theorem stands_types (side : List Char) :
    Text.Stands (· = '—') (side.takeWhile (· ≠ '—')) side := by
  refine ⟨[], side.dropWhile (· ≠ '—'), List.takeWhile_append_dropWhile.symm, nofun, ?_⟩
  intro c first
  simpa using Lists.of_mem_head?_dropWhile first

theorem stands_subtypes {side : List Char} (dashed : side.dropWhile (· ≠ '—') ≠ []) :
    Text.Stands (· = '—') ((side.dropWhile (· ≠ '—')).drop 1) side := by
  obtain ⟨dash, rest, split⟩ := List.exists_cons_of_ne_nil dashed
  have isDash : dash = '—' := by
    have first : dash ∈ (side.dropWhile (· ≠ '—')).head? := by
      rw [split]
      rfl
    simpa using Lists.of_mem_head?_dropWhile first
  refine ⟨side.takeWhile (· ≠ '—') ++ [dash], [], ?_, ?_, nofun⟩
  · rw [split, List.drop_one, List.tail_cons, List.append_nil, List.append_assoc,
      List.singleton_append, ← split, List.takeWhile_append_dropWhile]
  · simp [isDash]

/-- Each word of a side of the type line stands between the ends of words. -/
theorem mentions_of_mem_typeWords {card : Card} {side : List Char} {word : String}
    (isSide : side ∈ Text.sides card.typeLine.toList)
    (isWord : word ∈ (typeWords side).1 ∨ word ∈ (typeWords side).2) :
    mentions (lowercase word) card.typeLine := by
  have slash : Text.EndsWord '/' := by
    decide +kernel
  have dash : Text.EndsWord '—' := by
    decide +kernel
  have inLine : Text.Stands Text.EndsWord side card.typeLine.toList := by
    apply ((Text.piecesOf_sides _).stands isSide).mono
    rintro c rfl
    exact slash
  have onSide {part letters : List Char} (inPart : letters ∈ Text.words part)
      (here : Text.Stands (· = '—') part side) :
      mentions (lowercase (String.ofList letters)) card.typeLine := by
    apply mentions_of_stands
    have inWords := (Text.stands_of_mem_words inPart).mono fun c => Text.endsWord_of_isBlank
    refine (inWords.trans (here.mono ?_)).trans inLine
    rintro c rfl
    exact dash
  rcases isWord with isType | isSubtype
  · obtain ⟨letters, inPart, rfl⟩ := List.mem_map.mp isType
    exact onSide inPart (stands_types side)
  · obtain ⟨letters, inPart, rfl⟩ := List.mem_map.mp isSubtype
    refine onSide inPart (stands_subtypes fun none => ?_)
    rw [none, List.drop_nil] at inPart
    exact absurd inPart List.not_mem_nil

/-! ## Keys that a card has -/

/-- **A card has what it bears.** Only the key for several colors, which every card bears, is not
had by all of them. -/
theorem has_of_bears {card : Card} {key : FilterKey} (single : key ≠ .multiColor)
    (bears : card.Bears key) : card.has key := by
  cases key with
  | multiColor => exact absurd rfl single
  | color color => exact List.contains_iff_mem.mpr bears
  | rarity rarity =>
    obtain ⟨printing, member, same⟩ := bears
    exact List.any_eq_true.mpr ⟨printing, member, beq_iff_eq.mpr same⟩
  | manaValue bucket =>
    obtain rfl : bucket = .ofManaValue card.manaValue := bears
    simp only [has, ManaBucket.ofManaValue]
    split
    · simpa [ManaBucket.contains]
    · exact beq_self_eq_true _
  | cardType cardType =>
    obtain ⟨side, isSide, isWord⟩ := bears
    exact mentions_of_mem_typeWords isSide (.inl isWord)
  | subtype cardType subtype =>
    obtain ⟨side, isSide, last, isWord⟩ := bears
    rw [has, Bool.and_eq_true]
    exact ⟨mentions_of_mem_typeWords isSide (.inl (List.mem_of_getLast? last)),
      mentions_of_mem_typeWords isSide (.inr isWord)⟩
  | set code =>
    obtain ⟨printing, member, rfl⟩ := bears
    exact List.any_eq_true.mpr ⟨printing, member, sameIgnoringAsciiCase_refl _⟩
  | legality format status =>
    obtain ⟨printing, member, entry⟩ := bears
    rw [has, List.contains_iff_mem, statusesIn]
    refine List.mem_flatMap.mpr ⟨printing, member, List.mem_map.mpr ⟨(format, status), ?_, rfl⟩⟩
    exact List.mem_filter.mpr ⟨entry, sameIgnoringAsciiCase_refl format⟩
  | layout layout => exact bears
  | game game =>
    obtain ⟨printing, member, inside⟩ := bears
    exact List.any_eq_true.mpr ⟨printing, member, List.contains_iff_mem.mpr inside⟩
  | tag tag => exact List.contains_iff_mem.mpr bears

end Card

/-! ## Keys that a card brings -/

/-- A key of a dimension whose keys are taken from cards. -/
def FilterKey.IsOpen : FilterKey → Prop
  | cardType _ | subtype _ _ | set _ | legality _ _ | layout _ | tag _ => True
  | color _ | multiColor | rarity _ | manaValue _ | game _ => False

namespace Card

theorem bears_of_mem_sideKeys {card : Card} {side : List Char} {key : FilterKey}
    (isSide : side ∈ Text.sides card.typeLine.toList) (member : key ∈ sideKeys side) :
    key.IsOpen ∧ card.Bears key := by
  rw [sideKeys, List.mem_append] at member
  rcases member with isType | isSubtype
  · obtain ⟨cardType, isWord, rfl⟩ := List.mem_map.mp isType
    exact ⟨trivial, side, isSide, isWord⟩
  · split at isSubtype
    · rename_i cardType last
      obtain ⟨subtype, isWord, rfl⟩ := List.mem_map.mp isSubtype
      exact ⟨trivial, side, isSide, last, isWord⟩
    · cases isSubtype

theorem bears_of_mem_printingKeys {card : Card} {printing : Printing} {key : FilterKey}
    (isPrinting : printing ∈ card.printings) (member : key ∈ printingKeys printing) :
    key.IsOpen ∧ card.Bears key := by
  rw [printingKeys, List.mem_append] at member
  rcases member with isLegality | isLayout
  · obtain ⟨⟨format, status⟩, entry, rfl⟩ := List.mem_map.mp isLegality
    exact ⟨trivial, printing, isPrinting, entry⟩
  · obtain ⟨face, inside, named⟩ := List.mem_filterMap.mp isLayout
    obtain ⟨layout, found, rfl⟩ := Option.map_eq_some_iff.mp named
    have onFace : card.faces.any fun face => face.layout == some layout :=
      List.any_eq_true.mpr ⟨face, List.mem_flatMap.mpr ⟨printing, isPrinting, inside⟩,
        beq_iff_eq.mpr found⟩
    exact ⟨trivial, Bool.or_eq_true_iff.mpr (.inr onFace)⟩

theorem bears_of_mem_filterKeys {card : Card} {key : FilterKey} (member : key ∈ card.filterKeys) :
    key.IsOpen ∧ card.Bears key := by
  simp only [filterKeys, List.mem_append, List.mem_flatMap, List.mem_map, List.mem_singleton]
    at member
  obtain ((⟨side, isSide, inSide⟩ | rfl) | ⟨tag, isTag, rfl⟩) | ⟨printing, isPrinting, inside⟩ :=
    member
  · exact bears_of_mem_sideKeys isSide inSide
  · exact ⟨trivial, Bool.or_eq_true_iff.mpr (.inl (beq_self_eq_true _))⟩
  · exact ⟨trivial, isTag⟩
  · exact bears_of_mem_printingKeys isPrinting inside

/-- **A card brings what it bears in the dimensions that are taken from cards, and no more.** -/
theorem brings_iff {card : Card} {key : FilterKey} :
    card.Brings key ↔
      ∃ borne : FilterKey, borne.IsOpen ∧ card.Bears borne ∧ borne.normal = key.normal := by
  constructor
  · rintro (⟨printing, member, same⟩ | ⟨brought, member, same⟩)
    · exact ⟨.set printing.set, trivial, ⟨printing, member, rfl⟩, same⟩
    · obtain ⟨isOpen, bears⟩ := bears_of_mem_filterKeys member
      exact ⟨brought, isOpen, bears, same⟩
  · rintro ⟨borne, isOpen, bears, same⟩
    cases borne with
    | cardType => exact .inr ⟨_, cardType_mem_filterKeys bears, same⟩
    | subtype => exact .inr ⟨_, subtype_mem_filterKeys bears, same⟩
    | legality => exact .inr ⟨_, legality_mem_filterKeys bears, same⟩
    | layout => exact .inr ⟨_, layout_mem_filterKeys bears, same⟩
    | tag => exact .inr ⟨_, tag_mem_filterKeys bears, same⟩
    | set =>
      obtain ⟨printing, member, rfl⟩ := bears
      exact .inl ⟨printing, member, same⟩
    | color | multiColor | rarity | manaValue | game => exact isOpen.elim

theorem has_of_brings {card : Card} {key : FilterKey} (brings : card.Brings key) :
    card.has key := by
  obtain ⟨borne, isOpen, bears, same⟩ := brings_iff.mp brings
  have single : borne ≠ .multiColor := by
    rintro rfl
    exact isOpen
  rw [← has_normal, ← same, has_normal]
  exact has_of_bears single bears

theorem ne_multiColor_of_brings {card : Card} {key : FilterKey} (brings : card.Brings key) :
    key ≠ .multiColor := by
  rintro rfl
  obtain ⟨borne, isOpen, -, same⟩ := brings_iff.mp brings
  cases borne with
  | cardType | subtype | set | legality | layout | tag => cases same
  | color | multiColor | rarity | manaValue | game => exact isOpen

end Card

/-! ## One wish in a filter of cards -/

/-- A card with two sides and a type line with words that end in a sigma. -/
def Card.odysseus : Card where
  id := "odysseus"
  name := "ΟΔΥΣΣΕΥΣ // Ithaca"
  oracleText := none
  manaValue := 4
  colorIdentity := [.blue]
  typeLine := "ΜΎΘΟΣ ΉΡΩΣ — ΒΑΣΙΛΕΎΣ//Land — Island"
  layout := .transform
  keywords := []
  printings := [⟨"odysseus-1", "ody", "Odyssey", none, .rare, none,
    SortedMap.ofList [("modern", "ΝΌΜΙΜΟΣ")], [.paper], [], none, none, true⟩]
  tags := []

namespace FilterSpec

/-- A filter of cards with one key set asks for nothing but what is wished there. -/
theorem accepts_set_ofCards {cards : List Card} {card : Card} {key : FilterKey}
    (counted : key ≠ .multiColor) (value : Toggle) (today : Date) :
    ((ofCards cards).set key value).accepts ⟨false, none, [], today⟩ card ↔
      ((ofCards cards).set key value).Meets card key.normal := by
  rw [accepts_set_iff (isIdle_ofCards cards) counted]
  exact and_iff_right rfl

/-- **The schema of a filter and its verdicts agree.** Every key that one of some cards bears, in a
dimension whose keys are taken from cards, is on offer without preference in a filter of these
cards, as it is and in any spelling with the same normal form. Requiring just this key keeps the
card, and excluding just this key drops it. -/
theorem filterCards_brought {cards : List Card} {card : Card} (member : card ∈ cards)
    {borne key : FilterKey} (isOpen : borne.IsOpen) (bears : card.Bears borne)
    (same : borne.normal = key.normal) (today : Date) :
    (ofCards cards).get? key = some .unset ∧
      card ∈ filterCards cards ((ofCards cards).set key .require) ⟨false, none, [], today⟩ ∧
      card ∉ filterCards cards ((ofCards cards).set key .exclude) ⟨false, none, [], today⟩ := by
  have brings : card.Brings key := Card.brings_iff.mpr ⟨borne, isOpen, bears, same⟩
  have present : card.has key.normal := (card.has_normal key).trans (Card.has_of_brings brings)
  have counted := Card.ne_multiColor_of_brings brings
  have wished (value : Toggle) : ((ofCards cards).set key value).wish key.normal = value := by
    rw [wish_set, if_pos rfl]
  refine ⟨?_, List.mem_filter.mpr ⟨member, ?_⟩, fun kept => ?_⟩
  · have offered : (ofCards cards).Offers key :=
      (offers_ofCards cards).mpr (.inl ⟨card, member, brings⟩)
    obtain ⟨value, found⟩ := Option.isSome_iff_exists.mp offered
    rw [← clear_ofCards, get?_clear, found, Option.map_some]
  · exact (accepts_set_ofCards counted .require today).mpr (meets_of_require (wished _) present)
  · have accepted := (List.mem_filter.mp kept).2
    have absent := ((accepts_set_ofCards counted .exclude today).mp accepted).2 (wished _)
    exact Bool.false_ne_true (absent.symm.trans present)

theorem filterCards_brought_odysseus :
    FilterKey.IsOpen (.subtype "ΉΡΩΣ" "ΒΑΣΙΛΕΎΣ") ∧
      Card.odysseus.Bears (.subtype "ΉΡΩΣ" "ΒΑΣΙΛΕΎΣ") ∧
      (ofCards [.shock, .odysseus]).get? (.subtype "ΉΡΩΣ" "ΒΑΣΙΛΕΎΣ") = some .unset ∧
      .odysseus ∈ filterCards [.shock, .odysseus]
        ((ofCards [.shock, .odysseus]).set (.subtype "ΉΡΩΣ" "ΒΑΣΙΛΕΎΣ") .require) .plain ∧
      .odysseus ∉ filterCards [.shock, .odysseus]
        ((ofCards [.shock, .odysseus]).set (.subtype "ΉΡΩΣ" "ΒΑΣΙΛΕΎΣ") .exclude) .plain := by
  have isOpen : FilterKey.IsOpen (.subtype "ΉΡΩΣ" "ΒΑΣΙΛΕΎΣ") := trivial
  have bears : Card.odysseus.Bears (.subtype "ΉΡΩΣ" "ΒΑΣΙΛΕΎΣ") := by
    decide +kernel
  have member : Card.odysseus ∈ [.shock, .odysseus] := List.mem_cons_of_mem _ List.mem_cons_self
  exact ⟨isOpen, bears, filterCards_brought member isOpen bears rfl FilterContext.plain.today⟩

end FilterSpec

end DeckBuilder
