import ClassVeil.Renamer
import ClassVeil.Script.Node

/-!
# Renaming the classes of a script

The value of a class attribute is a list of classes. If it is a text, its words are renamed.
If it is an expression, renaming takes the texts that can become part of its value: the branches of
a choice, but not its test; the operands of operators that choose or join, but not those of a
comparison; the arguments of calls, the elements of arrays and the keys of objects, because
functions that put class lists together take these. Such a text is a fragment, since others may
come to stand before and behind it.

A template with expressions in it is only looked at for these expressions: its fixed pieces may cut
a class in two. The classes of elements inside of an expression are those of their own attributes.
What an expression has for a type is no part of its value, so the types in the place of a class list
are not looked at; those in any other place are.

## Main definitions

* `Renaming`, `Renaming.byIds`: how the classes of a script are renamed, and the way that gives them
  ids.
* `visit`: a node with the classes in it renamed.
* `visitClass`: the same for a node whose value becomes a list of classes.
-/

namespace ClassVeil

namespace Script

variable {σ : Type}

/-- How the classes of a script are renamed: which attributes hold classes, and what becomes of a
    whole list and of a fragment of one. -/
structure Renaming (σ : Type) where
  attributes : List String
  whole : Replacement σ
  fragment : Replacement σ

/-- The renaming of classes to the ids that a naming gives them. -/
def Renaming.byIds (naming : Naming) (attributes : List String) : Renaming Renamer :=
  { attributes
    whole := Renamer.renameClasses naming
    fragment := Renamer.renameFragment naming }

/-- A text in quotes with its classes renamed; one that is not well-formed has no classes. -/
def renameText (rename : Replacement σ) (span : Span) (value raw : Option (List Char)) :
    StateM σ Node := fun s =>
  match rename (value.getD []) s with
  | (some text, s) => (.str span (some text) none, s)
  | (none, s) => (.str span value raw, s)

/-- A template without expressions, with its classes renamed. -/
def renamePiece (rename : Replacement σ) (span : Span) (piece : List Char) :
    StateM σ Node := fun s =>
  match rename piece s with
  | (some text, s) => (.template span [text] [], s)
  | (none, s) => (.template span [piece] [], s)

variable (r : Renaming σ)

mutual

/-- A node with the classes in it renamed. -/
def visit : Node → StateM σ Node
  | .absent => return .absent
  | .group items => return .group (← visitAll items)
  | .str span value raw => return .str span value raw
  | .template span pieces exprs => return .template span pieces (← visitAll exprs)
  | .conditional span test yes no =>
    return .conditional span (← visit test) (← visit yes) (← visit no)
  | .binary span op left right => return .binary span op (← visit left) (← visit right)
  | .call span callee types args => do
    let callee ← visit callee
    let args ← visitAll args
    return .call span callee (← visit types) args
  | .array span elements => return .array span (← visitAll elements)
  | .spread span inner => return .spread span (← visit inner)
  | .object span members => return .object span (← visitAll members)
  | .pair span key value => return .pair span (← visit key) (← visit value)
  | .paren span inner => return .paren span (← visit inner)
  | .sequence span items => return .sequence span (← visitAll items)
  | .typed span typing expr type => return .typed span typing (← visit expr) (← visit type)
  | .attr span name plain value =>
    if plain && r.attributes.contains name then
      match value with
      | .str inner value raw =>
        return .attr span name plain (← renameText r.whole inner value raw)
      | .container inner expr =>
        return .attr span name plain (.container inner (← visitClass expr))
      | value => return .attr span name plain (← visit value)
    else return .attr span name plain (← visit value)
  | .container span expr => return .container span (← visit expr)
  | .form form span words parts => return .form form span words (← visitAll parts)

/-- Nodes with the classes in them renamed, from the first to the last. -/
def visitAll : List Node → StateM σ (List Node)
  | [] => return []
  | node :: rest => return (← visit node) :: (← visitAll rest)

/-- A node whose value becomes a list of classes, with these renamed. -/
def visitClass : Node → StateM σ Node
  | .str span value raw => renameText r.fragment span value raw
  | .template span [piece] [] => renamePiece r.fragment span piece
  | .template span pieces exprs => return .template span pieces (← visitClasses exprs)
  | .conditional span test yes no =>
    return .conditional span (← visit test) (← visitClass yes) (← visitClass no)
  | .binary span .and left right => return .binary span .and (← visit left) (← visitClass right)
  | .binary span (.other sign) left right =>
    return .binary span (.other sign) (← visit left) (← visit right)
  | .binary span op left right => return .binary span op (← visitClass left) (← visitClass right)
  | .call span callee types args => return .call span (← visit callee) types (← visitClasses args)
  | .array span elements => return .array span (← visitClasses elements)
  | .spread span inner => return .spread span (← visitClass inner)
  | .object span members => return .object span (← visitMembers members)
  | .paren span inner => return .paren span (← visitClass inner)
  | .sequence span items => return .sequence span (← visitSequence items)
  | .typed span typing expr type => return .typed span typing (← visitClass expr) type
  | .absent => return .absent
  | .group items => return .group (← visitAll items)
  | .pair span key value => return .pair span (← visit key) (← visit value)
  | .attr span name plain value =>
    if plain && r.attributes.contains name then
      match value with
      | .str inner value raw =>
        return .attr span name plain (← renameText r.whole inner value raw)
      | .container inner expr =>
        return .attr span name plain (.container inner (← visitClass expr))
      | value => return .attr span name plain (← visit value)
    else return .attr span name plain (← visit value)
  | .container span expr => return .container span (← visit expr)
  | .form form span words parts => return .form form span words (← visitAll parts)

/-- Nodes whose values all become part of a list of classes. -/
def visitClasses : List Node → StateM σ (List Node)
  | [] => return []
  | node :: rest => return (← visitClass node) :: (← visitClasses rest)

/-- The members of an object whose keys are lists of classes. -/
def visitMembers : List Node → StateM σ (List Node)
  | [] => return []
  | .pair span (.str inner text raw) value :: rest =>
    return .pair span (← renameText r.fragment inner text raw) (← visit value)
      :: (← visitMembers rest)
  | member :: rest => return (← visit member) :: (← visitMembers rest)

/-- Expressions with commas between them; only the last one has the value. -/
def visitSequence : List Node → StateM σ (List Node)
  | [] => return []
  | [last] => return [← visitClass last]
  | node :: rest => return (← visit node) :: (← visitSequence rest)

end

end Script

end ClassVeil
