/-!
# The tree of a script

A script is read into a tree of nodes, which knows where in the source each of its parts stands.
The renaming of classes only looks at certain expressions and at the attributes of elements, so
these have constructors of their own. All else, statements, declarations, patterns, types and the
remaining expressions, is a form: a kind of construct with the words that were chosen for it and
the nodes it is made of.

The parts of a form stand in the order in which they are visited. This is the order of the source,
but for two forms: a loop that tests at its end has its test before its body, and a class its
members before the class it extends.

## Main definitions

* `Span`: a stretch of the source, in bytes.
* `BinaryOp`: the operators with two operands, as far as they matter to classes.
* `Typing`: the ways in which an expression is given a type without being changed.
* `Form`: the constructs that have no constructor of their own.
* `Node`: the tree.
-/

namespace ClassVeil

namespace Script

/-- The stretch of the source from the byte `lo` to just before the byte `hi`. -/
structure Span where
  lo : Nat
  hi : Nat
deriving DecidableEq, Repr, Inhabited

/-- Operators with two operands; the first four can have the value of an operand or join texts. -/
inductive BinaryOp where
  | and
  | or
  | nullish
  | add
  | other (sign : String)
deriving DecidableEq, Repr

/-- Ways to say something about the type of an expression. -/
inductive Typing where
  /-- The expression has the type that follows. -/
  | cast
  /-- The expression satisfies the type that follows. -/
  | satisfying
  /-- The expression is not null. -/
  | nonNull
  /-- The expression is constant. -/
  | constant
deriving DecidableEq, Repr

/-- The constructs that have no constructor of their own in `Node`. -/
inductive Form where
  -- Words that stand for themselves.
  | name | literal | text
  -- Expressions.
  | unary | awaiting | yielding | updateBefore | updateAfter | assignment | member | index
  | chainMember | chainIndex | chainCall | construction | tagged | arrow | functionValue
  | classValue | assertion | instantiation
  -- Members of object literals.
  | computedKey | objectMethod | objectSetter | shorthandDefault
  -- Patterns.
  | arrayPattern | objectPattern | pairPattern | restPattern | defaulted | annotated | parameter
  -- Elements of markup.
  | element | emptyElement | fragment | spreadAttribute | spreadChild
  -- Statements.
  | expressionStatement | block | emptyStatement | bindings | declarator | ifStatement
  | forStatement | forIn | forOf | whileStatement | doWhile | switchStatement | switchCase
  | tryStatement | catchClause | jump | loopJump | labelled | withStatement
  -- Declarations.
  | functionDeclaration | classDeclaration | classMethod | classConstructor | classProperty
  | staticBlock
  | importing | exportNames | exportAll | exportDeclaration | exportDefault | exportValue
  | exportGlobal | specifier | interfaceDeclaration | typeAlias | enumeration | enumMember
  | moduleDeclaration | importAlias
  -- Types.
  | typeArguments | typeParameters | typeParameter | typeReference | heritage | arrayType
  | indexedType
  | tupleType | namedElement | optionalType | restType | unionType | intersectionType
  | conditionalType | parenType | operatorType | functionType | mappedType | objectType
  | typeProperty | typeMethod | indexSignature | templateType | predicate | importType
deriving DecidableEq, Repr

/-- The tree of a script. -/
inductive Node where
  /-- Nothing, where something could be. -/
  | absent
  /-- Several nodes that belong together. -/
  | group (items : List Node)
  /-- A text in quotes. `value` is missing if the text is not well-formed Unicode, and `raw`, the
      spelling with its quotes, if the text has been renamed. -/
  | str (span : Span) (value : Option (List Char)) (raw : Option (List Char))
  /-- A template: its fixed pieces as they are spelled, and the expressions between them. -/
  | template (span : Span) (pieces : List (List Char)) (exprs : List Node)
  | conditional (span : Span) (test yes no : Node)
  | binary (span : Span) (op : BinaryOp) (left right : Node)
  | call (span : Span) (callee typeArgs : Node) (args : List Node)
  /-- An array literal; a hole in it is absent. -/
  | array (span : Span) (elements : List Node)
  | spread (span : Span) (inner : Node)
  | object (span : Span) (members : List Node)
  /-- A member of an object literal that gives a key a value. -/
  | pair (span : Span) (key value : Node)
  | paren (span : Span) (inner : Node)
  /-- Expressions with commas between them. -/
  | sequence (span : Span) (items : List Node)
  | typed (span : Span) (typing : Typing) (expr type : Node)
  /-- An attribute of an element; `plain` tells that its name is a single name. -/
  | attr (span : Span) (name : String) (plain : Bool) (value : Node)
  /-- An expression in braces inside markup; it can be absent. -/
  | container (span : Span) (expr : Node)
  | form (form : Form) (span : Span) (words : List String) (parts : List Node)
deriving Repr

namespace Node

/-- Where a node stands; nothing stands nowhere. -/
def span : Node → Span
  | absent => ⟨0, 0⟩
  | group _ => ⟨0, 0⟩
  | str s .. | template s .. | conditional s .. | binary s .. | call s .. | array s .. | spread s ..
  | object s .. | pair s .. | paren s .. | sequence s .. | typed s .. | attr s ..
  | container s .. | form _ s .. => s

/-- The form of a node that has no constructor of its own. -/
def form? : Node → Option Form
  | form f .. => some f
  | _ => none

/-- A node without anything in it. -/
def isAbsent : Node → Bool
  | absent => true
  | _ => false

end Node

end Script

end ClassVeil
