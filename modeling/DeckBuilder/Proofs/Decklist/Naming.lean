import DeckBuilder.Decklist.Lookup
import Mathlib.Data.List.Find
import Mathlib.Data.List.Nodup

/-! # What a name means

A name means the first card that claims it. Cards whose full names are told apart lose them only to
earlier cards that have the same name as a side, as the name of a face or without an opening `A-`.
-/

namespace DeckBuilder

namespace Card

/-- The names that a card claims besides its full name: the sides of a double name, the name without
an opening `A-`, and the names of its faces with their sides. -/
def otherNames (card : Card) : List String :=
  nameSides card.name ++ (afterOpening? "A-" card.name).toList ++
    card.faces.flatMap fun face => face.name :: nameSides face.name

/-- Whether the card claims a name, in the form in which names are compared. -/
def claims (card : Card) (form : String) : Bool :=
  card.claimedNames.any (normalizeName · == form)

/-- Whether the card claims a name besides its full name. -/
def offers (card : Card) (form : String) : Bool :=
  card.otherNames.any (normalizeName · == form)

theorem claims_eq (card : Card) (form : String) :
    card.claims form = (normalizeName card.name == form || card.offers form) := by
  rw [claims, show card.claimedNames = card.name :: card.otherNames from rfl, List.any_cons, offers]

theorem claims_name (card : Card) : card.claims (normalizeName card.name) := by
  simp [claims_eq]

end Card

namespace CardLookup

/-- The first card that claims a name keeps it. -/
theorem holder?_ofCards (cards : List Card) (form : String) :
    (ofCards cards).holder? form = cards.find? (·.claims form) := by
  rw [holder?, ofCards, List.find?_flatMap, List.map_findSome?, List.find?_eq_findSome?_guard]
  refine congrArg (List.findSome? · cards) (funext fun card => ?_)
  have claims : card.claims form = (card.claimedNames.find? (normalizeName · == form)).isSome := by
    rw [Card.claims, Bool.eq_iff_iff, List.find?_isSome, List.any_eq_true]
  rw [Function.comp_apply, List.find?_map, Option.map_map, Option.guard, claims]
  simp only [Function.comp_def]
  cases card.claimedNames.find? (normalizeName · == form) <;> rfl

/-- A name means cards that were supplied only. -/
theorem mem_of_find? {cards : List Card} {name : String} {card : Card}
    (found : (ofCards cards).find? name = some card) : card ∈ cards := by
  obtain ⟨candidate, -, holds⟩ := List.exists_of_findSome?_eq_some found
  rw [holder?_ofCards] at holds
  exact List.mem_of_find?_eq_some holds

/-- A name that a card claims means the first card that claims it. -/
theorem find?_eq_of_claims {cards : List Card} {name : String} {card : Card}
    (first : cards.find? (·.claims (normalizeName name)) = some card) :
    (ofCards cards).find? name = some card := by
  rw [← holder?_ofCards] at first
  simp [find?, candidates, first]

/-- **The full name of a card** means the first card before it that has it as another name, and the
card itself when there is none. -/
theorem find?_name {before after : List Card} {card : Card}
    (distinct : ((before ++ card :: after).map fun other => normalizeName other.name).Nodup) :
    (ofCards (before ++ card :: after)).find? card.name =
        some ((before.find? (·.offers (normalizeName card.name))).getD card) ∧
      ((ofCards (before ++ card :: after)).find? card.name = some card ↔
        ∀ other ∈ before, other.offers (normalizeName card.name) = false) := by
  have apart : ∀ other ∈ before, normalizeName other.name ≠ normalizeName card.name := by
    intro other earlier
    rw [List.map_append, List.map_cons] at distinct
    exact (List.nodup_append.mp distinct).2.2 _ (List.mem_map_of_mem earlier) _ List.mem_cons_self
  have asOther : before.find? (·.claims (normalizeName card.name)) =
      before.find? (·.offers (normalizeName card.name)) := by
    refine List.find?_congr fun other earlier => ?_
    rw [Card.claims_eq, beq_false_of_ne (apart other earlier), Bool.false_or]
  have found : (ofCards (before ++ card :: after)).find? card.name =
      some ((before.find? (·.offers (normalizeName card.name))).getD card) := by
    have claimed : card.claims (normalizeName card.name) = true := card.claims_name
    apply find?_eq_of_claims
    rw [List.find?_append, asOther, List.find?_cons, claimed]
    cases before.find? (·.offers (normalizeName card.name)) <;> rfl
  refine ⟨found, ?_⟩
  rw [found, Option.some_inj]
  cases earliest : before.find? (·.offers (normalizeName card.name)) with
  | none => simpa using List.find?_eq_none.mp earliest
  | some other =>
    have earlier := List.mem_of_find?_eq_some earliest
    have offers : other.offers (normalizeName card.name) = true := by
      simpa using List.find?_some earliest
    refine iff_of_false (fun same => apart other earlier (congrArg _ (congrArg _ same))) ?_
    exact fun none => Bool.false_ne_true ((none other earlier).symm.trans offers)

/-- A card of which nothing but its names is known. -/
def namedCard (id name : String) (faces : List String) : Card :=
  let face (name : String) : CardFace := ⟨name, none, none, none, none, none, none⟩
  ⟨id, name, none, 0, [], "", .normal, [],
    [⟨id, "", "", none, .common, none, .empty, [], faces.map face, none, none, true⟩], []⟩

def fire : Card :=
  namedCard "fire" "Fire" []

/-- Cards that have the name Fire without an opening, as a side and as the name of a face. -/
def fireOthers : List Card :=
  [namedCard "alchemy-fire" "A-Fire" [], namedCard "fire-ice" "Fire // Ice" ["Fire", "Ice"]]

theorem find?_name_fire :
    (([namedCard "ember" "Ember" []] ++ fire :: fireOthers).map fun other =>
        normalizeName other.name).Nodup ∧
      (ofCards ([namedCard "ember" "Ember" []] ++ fire :: fireOthers)).find? fire.name =
        some fire := by
  have distinct : (([namedCard "ember" "Ember" []] ++ fire :: fireOthers).map fun other =>
      normalizeName other.name).Nodup := by
    decide +kernel
  have unoffered : ∀ other ∈ [namedCard "ember" "Ember" []],
      other.offers (normalizeName fire.name) = false := by
    decide +kernel
  exact ⟨distinct, (find?_name distinct).2.mpr unoffered⟩

/-- When the same cards come in another order, the name means another card. -/
theorem find?_name_fireLast :
    ¬ ∀ cards : List Card, (cards.map fun card => normalizeName card.name).Nodup →
      ∀ card ∈ cards, (ofCards cards).find? card.name = some card := by
  intro every
  have distinct : ((fireOthers ++ [fire]).map fun card => normalizeName card.name).Nodup := by
    decide +kernel
  have other : (ofCards (fireOthers ++ [fire])).find? fire.name ≠ some fire := by
    decide +kernel
  exact other (every _ distinct fire (by simp))

end CardLookup

end DeckBuilder
