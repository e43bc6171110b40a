import ClassVeil.Css.Token

/-!
# Phrases

Most of a stylesheet is only read to be printed again, in one of two styles: the wide style keeps
the spelling of words and sets things apart by blanks, the small style takes the shortest spelling
and leaves out all blanks that are not needed. A phrase is such a part of a stylesheet; it knows
both of its printed forms.

## Main definitions

* `Style`: wide or small.
* `Piece`, `Phrase`, `Phrase.print`: phrases and their printed forms.
* `raw`: components that are printed the way they were spelled.
-/

namespace ClassVeil

namespace Css

/-- The two styles of printing. -/
inductive Style where
  | wide
  | small
deriving DecidableEq, Repr

/-- A part of a phrase. -/
inductive Piece where
  /-- A word with its wide and its small spelling. -/
  | word (wide small : List Char)
  /-- A blank that is needed. -/
  | space
  /-- A blank of the wide style alone. -/
  | gap
deriving DecidableEq, Repr

/-- Pieces in the order of printing. -/
abbrev Phrase := List Piece

/-- A piece in one of the styles. -/
def Piece.print : Style → Piece → List Char
  | .wide, word wide _ => wide
  | .small, word _ small => small
  | _, space => [' ']
  | .wide, gap => [' ']
  | .small, gap => []

/-- A phrase in one of the styles. -/
def Phrase.print (style : Style) (p : Phrase) : List Char := p.flatMap (Piece.print style)

/-- A word with one spelling. -/
def word (text : List Char) : Piece := .word text text

/-- A phrase of one word with one spelling. -/
def words (text : String) : Phrase := [word text.toList]

/-- A phrase in round brackets. -/
def inRound (p : Phrase) : Phrase := word ['('] :: p ++ [word [')']]

/-- Phrases with a separator between them. -/
def joinWith (separator : Phrase) : List Phrase → Phrase
  | [] => []
  | [p] => p
  | p :: rest => p ++ separator ++ joinWith separator rest

/-- Phrases with a comma between them. -/
def joinCommas (ps : List Phrase) : Phrase := joinWith [word [','], .gap] ps

/-- An identifier, spelled anew from its name. -/
def identPiece (name : List Char) : Piece := word (writeIdent name)

/-- An identifier in which the case of letters means nothing: the small style has small ones. -/
def softIdent (name : List Char) : Piece :=
  .word (writeIdent name) (writeIdent (name.map Char.toLower))

/-- The name of a property that a project makes up begins with two hyphens. -/
def isDashed : List Char → Bool
  | '-' :: '-' :: _ => true
  | _ => false

/-- A name with two hyphens before it, which are no part of the identifier. -/
def dashedPiece (name : List Char) : Piece := word ('-' :: '-' :: writeIdent (name.drop 2))

/-- An identifier that may be made up by a project. -/
def valueIdent (name : List Char) : Piece :=
  if isDashed name then dashedPiece name else identPiece name

/-- A name in which the case of letters means nothing, unless it is made up by a project. -/
def nameIdent (name : List Char) : Piece :=
  if isDashed name then dashedPiece name else softIdent name

mutual

/-- A component the way it was spelled. A bracket that was never closed is closed. Only the names
    of functions are spelled anew. -/
def rawComponent : Component → Phrase
  | .token t => [word t.raw]
  | .function name _ contents => nameIdent name :: word ['('] :: rawList contents ++ [word [')']]
  | .bracket b contents => word [b.opening] :: rawList contents ++ [word [b.closing]]

/-- Components the way they were spelled. -/
def rawList : List Component → Phrase
  | [] => []
  | c :: rest => rawComponent c ++ rawList rest

end

end Css

end ClassVeil
