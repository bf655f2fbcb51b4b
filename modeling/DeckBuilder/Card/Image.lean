import DeckBuilder.Card.Basic

/-! # Images of cards

Which address shows a printing. Layouts with one image have no other face; layouts with two take
each side from its own face.
-/

namespace DeckBuilder

/-- The image of the face at an index. -/
def Printing.faceImage? (printing : Printing) (index : Nat) (size : ImageSize) : Option String :=
  printing.faces[index]?.bind fun face => face.imageUris.bind fun uris => uris.get? size

/-- The image of the whole printing. -/
def Printing.ownImage? (printing : Printing) (size : ImageSize) : Option String :=
  printing.imageUris.bind fun uris => uris.get? size

/-- The image that shows the front or the other face of a printing under a layout. -/
def Printing.image? (printing : Printing) (layout : Layout) (size : ImageSize) (otherFace : Bool) :
    Option String :=
  match layout.faceImages?, otherFace with
  | none, _ => none
  | some .single, true => none
  | some .single, false => (printing.ownImage? size).or (printing.faceImage? 0 size)
  | some .double, true => printing.faceImage? 1 size
  | some .double, false => (printing.faceImage? 0 size).or (printing.ownImage? size)

/-- The image of a card in the selected printing, or in the default one when the selection names no
printing of the card. -/
def Card.image? (card : Card) (selected : Option String) (size : ImageSize) (otherFace : Bool) :
    Option String :=
  ((selected.bind card.printing?).or card.defaultPrinting?).bind fun printing =>
    printing.image? card.layout size otherFace

end DeckBuilder
