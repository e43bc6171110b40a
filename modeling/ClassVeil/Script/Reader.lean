import ClassVeil.Script.Grammar.Module

/-!
# Reading scripts

A script is read as a module: it may import and export, and it is strict if it has no types. The
source may begin with a byte order mark, which is dropped before places are counted, and with a line
for the operating system, which is kept.

The recursion of the grammar cannot be deeper than a multiple of the length of the source, because
only a few rules can follow each other without taking a token.

## Main definitions

* `rules`: the rules of the grammar, down to some depth.
* `Program`: what a source is read as.
* `read`: the script of a source, if it has one.
-/

namespace ClassVeil

namespace Script

/-- The rule for a goal, in terms of the rules one level down. -/
def rule (self : Rules) : Rules
  | .expressions => expressionsRule self
  | .expression => expressionRule self
  | .operand power => operandRule self power
  | .unary => unaryRule self
  | .callee calls => calleeRule self calls
  | .pattern => bindingPattern self
  | .element => elementRule self
  | .statement single => statementRule self single
  | .item => itemRule self
  | .block => blockRule self
  | .type => typeRule self
  | .simpleType => typeOperator self

/-- The rules of the grammar, down to some depth. -/
def rules : (depth : Nat) → Rules
  | 0, _ => fail
  | depth + 1, goal => rule (rules depth) goal

/-- What a source is read as: the line for the operating system, the items, and the comments. -/
structure Program where
  banner : Option (List Char)
  items : List Node
  comments : Comments

/-- A source without a byte order mark. -/
def dropMark : List Char → List Char
  | c :: rest => if c.toNat = 0xFEFF then rest else c :: rest
  | [] => []

/-- The line for the operating system, if a source begins with one. -/
def banner? : List Char → Option (List Char)
  | '#' :: '!' :: rest => some ('#' :: '!' :: lineOf rest)
  | _ => none

/-- All items up to the end of the source. -/
def allItems (self : Rules) : Parse (List Node) := do
  let isStrict := strictText (← token)
  let items ← within (fun c => { c with strict := c.strict || isStrict }) <| many do
    if (← token) = .done then return none
    return some (← self .item)
  require (← get).covers.isEmpty
  return items

/-- The script of a source, if it has one. -/
def read (dialect : Dialect) (source : List Char) : Option Program :=
  let text := dropMark source
  let banner := banner? text
  let pos := Utf8.size (banner.getD [])
  let body := text.drop (banner.getD []).length
  match allItems (rules (8 * text.length + 64)) (State.begin dialect pos body) with
  | none => none
  | some (items, s) =>
    some ⟨banner, items, s.comments.settleEnd (s.last.map fun _ => s.lastEnd) s.gap⟩

end Script

end ClassVeil
