import DeckBuilder.Catalogue.Reader
import DeckBuilder.Proofs.Json.Record

/-! # Cards as documents, and back

The document of a card denotes the card, with all its printings and their faces, whichever of its
values are absent and whichever of its enumerations hold their catch-all. So the text of a catalogue
denotes the catalogue.
-/

namespace DeckBuilder

/-! ## Images -/

namespace ImageUris

theorem printable_toJson (uris : ImageUris) : uris.toJson.Printable := by
  have uri (uri? : Option String) : (Json.ofOption .string uri?).Printable :=
    Json.printable_ofOption (fun _ => .string _) uri?
  apply Json.Printable.object
  simp only [List.forall_mem_cons]
  exact ⟨uri _, uri _, uri _, uri _, uri _, uri _, fun _ none => by cases none⟩

theorem ofJson?_toJson (uris : ImageUris) : ofJson? uris.toJson = some uris := by
  obtain ⟨field, record, given⟩ :=
    Json.exists_record?_eq uris.toJson fieldNames rfl rfl (by decide)
  have small := Json.Field.optional_text_eq (given 0 _ _ rfl)
  have normal := Json.Field.optional_text_eq (given 1 _ _ rfl)
  have large := Json.Field.optional_text_eq (given 2 _ _ rfl)
  have png := Json.Field.optional_text_eq (given 3 _ _ rfl)
  have artCrop := Json.Field.optional_text_eq (given 4 _ _ rfl)
  have borderCrop := Json.Field.optional_text_eq (given 5 _ _ rfl)
  unfold ofJson?
  rw [record, Json.some_bind]
  dsimp only
  rw [small, Json.some_bind, normal, Json.some_bind, large, Json.some_bind, png, Json.some_bind,
    artCrop, Json.some_bind, borderCrop]
  rfl

end ImageUris

/-! ## Faces -/

namespace CardFace

theorem printable_toJson (face : CardFace) : face.toJson.Printable := by
  have text (text? : Option String) : (Json.ofOption .string text?).Printable :=
    Json.printable_ofOption (fun _ => .string _) text?
  apply Json.Printable.object
  simp only [List.forall_mem_cons]
  exact ⟨.string _, text _, text _, text _, text _,
    Json.printable_ofOption (fun _ => .string _) face.layout,
    Json.printable_ofOption ImageUris.printable_toJson face.imageUris, fun _ none => by cases none⟩

theorem ofJson?_toJson (face : CardFace) : ofJson? face.toJson = some face := by
  obtain ⟨field, record, given⟩ :=
    Json.exists_record?_eq face.toJson fieldNames rfl rfl (by decide)
  have name : (field "name").required Json.toText? = some face.name :=
    Json.Field.required_eq (given 0 _ _ rfl) rfl
  have typeLine := Json.Field.optional_text_eq (given 1 _ _ rfl)
  have oracleText := Json.Field.optional_text_eq (given 2 _ _ rfl)
  have flavorText := Json.Field.optional_text_eq (given 3 _ _ rfl)
  have manaCost := Json.Field.optional_text_eq (given 4 _ _ rfl)
  have layout := Json.Field.optional_eq (given 5 _ _ rfl) Layout.ofJson?_toJson
    fun _ => Json.noConfusion
  have imageUris := Json.Field.optional_eq (given 6 _ _ rfl) ImageUris.ofJson?_toJson
    fun _ => Json.noConfusion
  unfold ofJson?
  rw [record, Json.some_bind, name, Json.some_bind, typeLine, Json.some_bind, oracleText,
    Json.some_bind, flavorText, Json.some_bind, manaCost, Json.some_bind, layout, Json.some_bind,
    imageUris]
  rfl

end CardFace

/-! ## Printings -/

namespace Printing

theorem printable_toJson (printing : Printing) : printing.toJson.Printable := by
  have text (text? : Option String) : (Json.ofOption .string text?).Printable :=
    Json.printable_ofOption (fun _ => .string _) text?
  apply Json.Printable.object
  simp only [List.forall_mem_cons]
  exact ⟨.string _, .string _, .string _, text _, .string _,
    Json.printable_ofOption (fun _ => .string _) printing.releasedAt,
    Json.printable_ofMap (fun _ => .string _) printing.legalities,
    Json.printable_ofList (fun _ => .string _) printing.games,
    Json.printable_ofList CardFace.printable_toJson printing.faces,
    Json.printable_ofOption ImageUris.printable_toJson printing.imageUris, text _, .bool _,
    fun _ none => by cases none⟩

theorem ofJson?_toJson (printing : Printing) : ofJson? printing.toJson = some printing := by
  obtain ⟨field, record, given⟩ :=
    Json.exists_record?_eq printing.toJson fieldNames rfl rfl (by decide)
  have id : (field "ID").required Json.toText? = some printing.id :=
    Json.Field.required_eq (given 0 _ _ rfl) rfl
  have set : (field "set").required Json.toText? = some printing.set :=
    Json.Field.required_eq (given 1 _ _ rfl) rfl
  have setName : (field "setName").orDefault "" Json.toText? = some printing.setName :=
    Json.Field.orDefault_eq "" (given 2 _ _ rfl) rfl
  have setType := Json.Field.optional_text_eq (given 3 _ _ rfl)
  have rarity := Json.Field.required_eq (given 4 _ _ rfl) (Rarity.ofJson?_toJson printing.rarity)
  have releasedAt := Json.Field.optional_eq (given 5 _ _ rfl) Json.toDate?_ofDate
    fun _ => Json.noConfusion
  have legalities : (field "legalities").orDefault ∅ (Json.toMap? some Json.toText?) =
      some printing.legalities :=
    Json.Field.orDefault_eq ∅ (given 6 _ _ rfl)
      (Json.toMap?_ofMap_text Json.toText?_string printing.legalities)
  have games := Json.Field.orDefault_eq [] (given 7 _ _ rfl)
    (Json.toList?_ofList Game.ofJson?_toJson printing.games)
  have faces := Json.Field.orDefault_eq [] (given 8 _ _ rfl)
    (Json.toList?_ofList CardFace.ofJson?_toJson printing.faces)
  have imageUris := Json.Field.optional_eq (given 9 _ _ rfl) ImageUris.ofJson?_toJson
    fun _ => Json.noConfusion
  have flavorText := Json.Field.optional_text_eq (given 10 _ _ rfl)
  have isDefault : (field "isDefault").orDefault false Json.toBool? = some printing.isDefault :=
    Json.Field.orDefault_eq false (given 11 _ _ rfl) rfl
  unfold ofJson?
  rw [record, Json.some_bind, id, Json.some_bind, set, Json.some_bind, setName, Json.some_bind,
    setType, Json.some_bind, rarity, Json.some_bind, releasedAt, Json.some_bind, legalities,
    Json.some_bind, games, Json.some_bind, faces, Json.some_bind, imageUris, Json.some_bind,
    flavorText, Json.some_bind, isDefault]
  rfl

end Printing

/-! ## Cards -/

namespace Card

theorem printable_toJson (card : Card) : card.toJson.Printable := by
  apply Json.Printable.object
  simp only [List.forall_mem_cons]
  exact ⟨.string _, .string _, Json.printable_ofOption (fun _ => .string _) card.oracleText,
    Json.printable_int _, Json.printable_ofList (fun _ => .string _) card.colorIdentity, .string _,
    .string _, Json.printable_ofList (fun _ => .string _) card.keywords,
    Json.printable_ofList Printing.printable_toJson card.printings,
    Json.printable_ofList (fun _ => .string _) card.tags, fun _ none => by cases none⟩

theorem ofJson?_toJson (card : Card) : ofJson? card.toJson = some card := by
  have texts (texts : List String) :
      (Json.ofList .string texts).toList? Json.toText? = some texts :=
    Json.toList?_ofList Json.toText?_string texts
  obtain ⟨field, record, given⟩ :=
    Json.exists_record?_eq card.toJson fieldNames rfl rfl (by decide)
  have id : (field "ID").required Json.toText? = some card.id :=
    Json.Field.required_eq (given 0 _ _ rfl) rfl
  have name : (field "name").required Json.toText? = some card.name :=
    Json.Field.required_eq (given 1 _ _ rfl) rfl
  have oracleText := Json.Field.optional_text_eq (given 2 _ _ rfl)
  have manaValue := Json.Field.orDefault_eq 0 (given 3 _ _ rfl) (Json.toUInt32?_nat card.manaValue)
  have colorIdentity := Json.Field.orDefault_eq [] (given 4 _ _ rfl)
    (Json.toList?_ofList Color.ofJson?_toJson card.colorIdentity)
  have typeLine : (field "typeLine").orDefault "" Json.toText? = some card.typeLine :=
    Json.Field.orDefault_eq "" (given 5 _ _ rfl) rfl
  have layout := Json.Field.orDefault_eq .normal (given 6 _ _ rfl)
    (Layout.ofJson?_toJson card.layout)
  have keywords := Json.Field.orDefault_eq [] (given 7 _ _ rfl) (texts card.keywords)
  have printings := Json.Field.orDefault_eq [] (given 8 _ _ rfl)
    (Json.toList?_ofList Printing.ofJson?_toJson card.printings)
  have tags := Json.Field.orDefault_eq [] (given 9 _ _ rfl) (texts card.tags)
  unfold ofJson?
  rw [record, Json.some_bind, id, Json.some_bind, name, Json.some_bind, oracleText, Json.some_bind,
    manaValue, Json.some_bind, colorIdentity, Json.some_bind, typeLine, Json.some_bind, layout,
    Json.some_bind, keywords, Json.some_bind, printings, Json.some_bind, tags]
  rfl

end Card

/-! ## Catalogues -/

namespace Catalogue

theorem ofText?_text (catalogue : Catalogue) : ofText? catalogue.text = some catalogue := by
  have printable : (Json.ofList Card.toJson catalogue.cards).Printable :=
    Json.printable_ofList Card.printable_toJson catalogue.cards
  rw [ofText?, text, Json.parse?_compact printable, Json.some_bind,
    Json.toList?_ofList Card.ofJson?_toJson, Json.some_bind]
  rfl

/-- **The text of a catalogue denotes the catalogue.** The bytes of the text are read as the same
cards in the same order. -/
theorem ofBytes_toUTF8_text (catalogue : Catalogue) :
    ofBytes catalogue.text.toUTF8 = .ok catalogue := by
  simp only [ofBytes, fromUTF8?_toUTF8, ofText?_text]

end Catalogue

end DeckBuilder
