import ClassVeil.Css.Query

/-!
# The tree of a stylesheet

A stylesheet is a list of rules; a rule holds declarations and further rules. The tree tells apart
what the renaming of classes looks at, the selectors of rules, and keeps all else as phrases.

What stands before a block is kept apart from the block, so that a renaming is a function on these
heads that is applied throughout the tree. The blocks are nodes again, and a declaration is a phrase
that nobody looks into.

## Main definitions

* `RuleHead`: what stands before the block of a rule.
* `Node`: rules, at-rules, declarations and what is none of them.
* `Stylesheet`: a list of nodes.
-/

namespace ClassVeil

namespace Css

/-- What stands before the block of a rule. -/
inductive RuleHead where
  | selectors (list : List Complex)
  /-- Selectors that are seen from the surrounding rule. -/
  | relative (phrase : Phrase)
  /-- Something that is no list of selectors. -/
  | invalid (phrase : Phrase)
deriving DecidableEq, Repr

/-- A part of a stylesheet. -/
inductive Node where
  | rule (head : RuleHead) (block : List Node)
  /-- A step of an animation. -/
  | keyframe (selectors : Phrase) (block : List Node)
  /-- An at-rule with a block; `head` is its name and what follows, up to the block. -/
  | atRule (head : Phrase) (block : List Node)
  /-- An at-rule that ends with a semicolon. -/
  | atStatement (head : Phrase)
  /-- An at-rule with a block that is kept the way it was spelled. -/
  | verbatim (phrase : Phrase)
  | declaration (phrase : Phrase)
  /-- Components that are nothing of the above. -/
  | invalid (phrase : Phrase)
deriving Repr

/-- A stylesheet. -/
abbrev Stylesheet := List Node

end Css

end ClassVeil
