import ClassVeil.Css.Tree

/-!
# Printing stylesheets

The wide style puts every declaration and every rule on a line of its own, indented by its depth.
The small style has no blanks but those that are needed, and no semicolon before the end of a
block.

## Main definitions

* `printHead`: what stands before the block of a rule.
* `printNode`, `printBlock`: a part of a stylesheet at some depth.
* `print`: a stylesheet.
-/

namespace ClassVeil

namespace Css

/-- The blanks at the start of a line. -/
def indent (style : Style) (depth : Nat) : List Char :=
  match style with
  | .wide => List.replicate (2 * depth) ' '
  | .small => []

/-- A line break of the wide style. -/
def breakLine : Style → List Char
  | .wide => ['\n']
  | .small => []

/-- Selectors with a comma between them; the wide style has one a line. -/
def printSelectors (style : Style) (depth : Nat) : List Complex → List Char
  | [] => []
  | [c] => c.phrase.print style
  | c :: rest =>
    c.phrase.print style ++
      ',' :: (Piece.gap.print style ++ breakLine style ++ indent style depth) ++
      printSelectors style depth rest

/-- What stands before the block of a rule. -/
def printHead (style : Style) (depth : Nat) : RuleHead → List Char
  | .selectors list => printSelectors style depth list ++ Piece.gap.print style
  | .relative p => p.print style ++ Piece.gap.print style
  | .invalid p => p.print style

/-- A step of an animation. -/
def isKeyframe : Node → Bool
  | .keyframe .. => true
  | _ => false

/-- What stands before an item of a block: a step of an animation begins a line, and so does the
    first item. -/
def itemStart (style : Style) (isFirst : Bool) (item : Node) : List Char :=
  if isFirst || isKeyframe item then breakLine style else []

/-- What stands behind an item of a block: a semicolon where one is needed, and the end of the line
    unless the item is invalid or another item follows a step of an animation. -/
def itemEnd (style : Style) (item : Node) (rest : List Node) : List Char :=
  match item with
  | .invalid _ =>
    match rest with
    | [] => []
    | next :: _ => if isKeyframe next then [] else [';']
  | .declaration _ => (if rest.isEmpty && style == .small then [] else [';']) ++ breakLine style
  | .keyframe .. => if rest.isEmpty then breakLine style else []
  | _ => breakLine style

/-- The blanks at the start of a line, if a line starts. -/
def indentAfter (style : Style) (depth : Nat) (before : List Char) : List Char :=
  if before.getLast? = some '\n' then indent style depth else []

mutual

/-- A part of a stylesheet. -/
def printNode (style : Style) (depth : Nat) : Node → List Char
  | .rule head block => printHead style depth head ++ printBlock style depth block
  | .keyframe steps block =>
    steps.print style ++ Piece.gap.print style ++ printBlock style depth block
  | .atRule head block => head.print style ++ printBlock style depth block
  | .atStatement head => head.print style ++ [';']
  | .verbatim p => p.print style
  | .declaration p => p.print style
  | .invalid p => p.print style

/-- A block with its braces; an empty one has no line breaks. -/
def printBlock (style : Style) (depth : Nat) (block : List Node) : List Char :=
  '\x7b' :: printItems style depth true [] block ++ ['\x7d']

/-- The items of a block and the indentation of its end; `before` is what the item before ends
    with. -/
def printItems (style : Style) (depth : Nat) (isFirst : Bool) (before : List Char) :
    List Node → List Char
  | [] => indentAfter style depth before
  | item :: rest =>
    let start := itemStart style isFirst item
    start ++ indentAfter style (depth + 1) (before ++ start) ++
      printNode style (depth + 1) item ++ itemEnd style item rest ++
      printItems style depth false (itemEnd style item rest) rest

end

/-- A stylesheet, with line breaks between its rules. -/
def print (style : Style) : Stylesheet → List Char
  | [] => []
  | [node] => printNode style 0 node
  | node :: rest => printNode style 0 node ++ breakLine style ++ print style rest

end Css

end ClassVeil
