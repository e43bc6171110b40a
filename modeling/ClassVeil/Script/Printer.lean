import ClassVeil.Script.Page
import ClassVeil.Script.Reader

/-!
# Printing scripts

A script is printed in one style, whatever its source looks like: statements have lines of their
own, blocks, arrays and objects are indented by four spaces, and patterns, imports and exports stay
on one line. Words, numbers, texts and templates keep their spelling, and so do the parentheses.

Every node is printed on its own. Its marks begin with the comments that lead to it. Those that
trail it are asked for by what it is printed in: expressions and patterns have them behind
themselves, statements behind their semicolon, and names of members and types not at all. A list on
one line asks once more for those that trail its items.

## Main definitions

* `Printed`: a node with its marks and the same for its parts.
* `layout`: the marks of a form, from its parts.
* `printNode`: a node with its marks.
* `print`: the text of a script.
-/

namespace ClassVeil

namespace Script

/-- A node, the marks that print it without the comments in front of it, and the same for the items
    of a group. -/
inductive Printed where
  | mk (node : Node) (inner : List Mark) (items : List Printed)

/-- Nothing, where something could be. -/
def Printed.nothing : Printed := .mk .absent [] []

namespace Printed

def node : Printed → Node
  | mk n _ _ => n

def inner : Printed → List Mark
  | mk _ m _ => m

def items : Printed → List Printed
  | mk _ _ i => i

/-- Nothing to print. -/
def isAbsent (p : Printed) : Bool := p.node.isAbsent

/-- A block of statements in braces. -/
def isBlock (p : Printed) : Bool := p.node.form? == some .block

/-- The marks of a node with the comments that lead to it. -/
def marks (p : Printed) : List Mark :=
  if p.isAbsent then [] else .leading p.node.span.lo :: p.inner

/-- The marks of an expression or pattern, with the comments around it. -/
def full (p : Printed) : List Mark :=
  if p.isAbsent then [] else p.marks ++ [.trailing p.node.span.hi true]

/-- The marks of a statement. A block does not end its line, because more may follow. -/
def statement (p : Printed) : List Mark :=
  if p.isBlock || p.isAbsent then p.marks else p.full ++ [.line]

end Printed

/-- A text that is the same for all nodes of a form. -/
def lit (s : String) : List Mark := [.text s.toList]

/-- Marks that are only there if a node is. -/
def ifPresent (p : Printed) (marks : List Mark) : List Mark := if p.isAbsent then [] else marks

/-- A type behind a colon, or nothing. -/
def typed (p : Printed) : List Mark := ifPresent p (lit ": " ++ p.marks)

/-- A value behind an equals sign, or nothing. -/
def valued (p : Printed) : List Mark := ifPresent p (lit " = " ++ p.full)

/-! ## Lists -/

/-- The comments in front of the last character of an item that does not end at `hi`, where the list
    ends. -/
def beforeEnd (hi : Nat) (p : Printed) : List Mark :=
  if p.isAbsent || p.node.span.hi = hi then [] else [.leading (p.node.span.hi - 1)]

/-- Items on one line with a text between them. -/
def inLine (item : Printed → List Mark) (between : String) (hi : Nat) : List Printed → List Mark
  | [] => []
  | p :: rest =>
    item p ++ ifPresent p [.trailing p.node.span.hi false] ++ beforeEnd hi p ++
      (if rest.isEmpty then [] else lit between) ++ inLine item between hi rest

/-- Expressions or patterns on one line, in brackets that end behind them. -/
def commas (ps : List Printed) : List Mark := inLine Printed.full ", " 0 ps

/-- Other items on one line, in brackets that end behind them. -/
def plainCommas (ps : List Printed) : List Mark := inLine Printed.marks ", " 0 ps

/-- Expressions with commas between them that are no list. -/
def sequenced : List Printed → List Mark
  | [] => []
  | [p] => p.full
  | p :: rest => p.full ++ lit ", " ++ sequenced rest

/-- Elements with marks between them; a hole at the end needs another comma. -/
def elements (item : Printed → List Mark) (between : List Mark) : List Printed → List Mark
  | [] => []
  | [p] => if p.isAbsent then lit ", " else item p ++ beforeEnd 0 p
  | p :: rest => item p ++ beforeEnd 0 p ++ between ++ elements item between rest

/-- Marks in brackets, on indented lines of their own. -/
def indented (opening closing : String) (marks : List Mark) : List Mark :=
  lit opening ++ [.line, .indent] ++ marks ++ [.line, .dedent] ++ lit closing

/-- Elements in brackets, on indented lines of their own. -/
def elementLines (item : Printed → List Mark) (opening closing : String) (ps : List Printed) :
    List Mark :=
  indented opening closing (elements item (lit "," ++ [.line]) ps)

/-- Items in braces that each end their line. -/
def itemLines (ps : List Printed) : List Mark :=
  indented "\x7b" "\x7d" (ps.flatMap fun p => p.marks ++ [.line])

/-- Statements on lines of their own. -/
def statements (ps : List Printed) : List Mark := ps.flatMap fun p => p.statement ++ [.line]

/-- Statements in braces, with the comments before the closing one. -/
def block (span : Span) (ps : List Printed) : List Mark :=
  lit "\x7b" ++
    (if ps.isEmpty then [.lineIfLed (span.hi - 1)]
      else [.line, .indent] ++ statements ps ++ [.line, .dedent]) ++
    [.leading (span.hi - 1)] ++ lit "\x7d"

/-! ## Parts of forms -/

/-- The name of a function or class behind its keyword, if it has one. -/
def named (p : Printed) : List Mark := ifPresent p (lit " " ++ p.marks)

/-- The body of a function, or a semicolon in place of it. -/
def bodyOr (before : String) (body : Printed) : List Mark :=
  if body.isAbsent then lit ";" else lit before ++ body.marks

/-- The parts of a function behind its name. -/
def signature (types params result : Printed) : List Mark :=
  types.marks ++ lit "(" ++ plainCommas params.items ++ lit ")" ++ typed result

/-- Words with a space behind each. -/
def spaced (words : List String) : List Mark := lit (String.join (words.map (· ++ " ")))

/-- A text in quotes that has no spelling of its own. -/
def quoted (value : List Char) : List Char :=
  '"' :: value.flatMap (fun c =>
    if c = '"' || c = '\\' then ['\\', c] else if c = '\n' then ['\\', 'n'] else [c]) ++ ['"']

/-- Two signs that would run together without a space: those of a sum. -/
def runsTogether (mark : String) (operand : Node) : Bool :=
  match operand with
  | .form .unary _ [inner] _ => inner = mark && (mark = "+" || mark = "-")
  | .form .updateBefore _ [inner] _ => inner = mark ++ mark
  | _ => false

/-- The sign or word in front of an operand. -/
def unaryMarks (mark : String) (operand : Printed) : List Mark :=
  let apart := mark.length > 1 || runsTogether mark operand.node
  lit mark ++ (if apart then lit " " else []) ++ operand.full

/-- A generator's values that are handed out one by one. Where a comment in front of them ends the
    line, they are in parentheses. -/
def handedOut (p : Printed) : List Mark :=
  [.guard p.node.span.lo ['('] [' ']] ++ p.full ++ [.guard p.node.span.lo [')'] []]

/-- A whole number in decimal digits, behind which one dot would begin a fraction. -/
def endsWhole : Node → Bool
  | .form .literal _ [text] _ =>
    text.toList.all (fun c => c.isDigit || c = '_') &&
      !(isLegacyNumber text.toList && text.toList.all isOctal)
  | _ => false

/-- An object and a member of it; a whole number needs two dots. Comments in front of a dot stay
    there. -/
def memberMarks (object member : Printed) : List Mark :=
  let lo := member.node.span.lo
  let (value, first) : List Mark × List Mark :=
    match object.node.form? with
    | some .literal =>
      if endsWhole object.node then (object.marks, .leading (lo - 2) :: lit ".")
      else (object.marks, [])
    | _ => (object.full, [])
  value ++ first ++ .leading (lo - 1) :: lit "." ++ member.inner

/-- A class from its words and parts. -/
def classMarks (head : String) (name members base args types promised : Printed) : List Mark :=
  lit head ++ named name ++ types.marks ++
    ifPresent base (lit " extends " ++ base.full ++ args.marks) ++
    (if promised.items.isEmpty then [] else lit " implements " ++ plainCommas promised.items) ++
    lit " " ++ itemLines members.items

/-- The inside of a tag. -/
def tag (name args attributes : Printed) : List Mark :=
  lit "<" ++ name.marks ++ args.marks ++ attributes.items.flatMap fun a => lit " " ++ a.inner

/-- Names in braces on one line. -/
def namesInBraces (ps : List Printed) : List Mark :=
  if ps.isEmpty then lit "\x7b \x7d" else lit "\x7b " ++ plainCommas ps ++ lit " \x7d"

/-- A module that names are taken from, with its attributes. -/
def source (module attributes : Printed) : List Mark :=
  module.marks ++ ifPresent attributes (lit " with " ++ attributes.marks)

/-- What is taken from a module. -/
def importMarks (before : String) (first star names module attributes : Printed) : List Mark :=
  let braces := if names.items.isEmpty then [] else [namesInBraces names.items]
  let heads := [first.marks, star.marks].filter (fun m => !m.isEmpty) ++ braces
  let clause := (List.intersperse (lit ", ") heads).flatten
  lit "import " ++ lit before ++ clause ++ (if heads.isEmpty then [] else lit " from ") ++
    source module attributes ++ lit ";"

/-- A template with its fixed pieces. -/
def templateMarks : List (List Char) → List (List Mark) → List Mark
  | piece :: pieces, p :: ps =>
    .text piece :: lit "$\x7b" ++ p ++ lit "\x7d" ++ templateMarks pieces ps
  | pieces, _ => pieces.map .text

/-! ## Forms -/

/-- The marks of a form of expressions from its words and parts. -/
def expressionLayout (form : Form) (words : List String) (parts : List Printed) : List Mark :=
  match form, words, parts with
  | .unary, [mark], [p] => unaryMarks mark p
  | .awaiting, _, [p] => lit "await " ++ p.full
  | .yielding, ["yield*"], [p] => lit "yield*" ++ handedOut p
  | .yielding, _, [p] => lit "yield " ++ p.full
  | .updateBefore, [mark], [p] => lit mark ++ p.full
  | .updateAfter, [mark], [p] => p.full ++ lit mark
  | .assignment, [sign], [l, r] => l.full ++ lit (" " ++ sign ++ " ") ++ r.full
  | .member, _, [p, m] => memberMarks p m
  | .index, _, [p, i] => p.full ++ lit "[" ++ i.full ++ lit "]"
  | .chainMember, [mark], [p, m] => p.full ++ lit (if mark = "" then "." else mark) ++ m.inner
  | .chainIndex, [mark], [p, i] => p.full ++ lit mark ++ lit "[" ++ i.full ++ lit "]"
  | .chainCall, [mark], p :: args => p.full ++ lit mark ++ lit "(" ++ commas args ++ lit ")"
  | .construction, _, [p, types, args] =>
    lit "new " ++ p.full ++ types.marks ++
      match args.node with
      | .group _ => lit "(" ++ commas args.items ++ lit ")"
      | _ => []
  | .tagged, _, [p, types, text] => p.full ++ types.marks ++ text.marks
  | .arrow, [async], [types, params, result, body] =>
    lit async ++ types.marks ++ lit "(" ++ commas params.items ++ lit ")" ++ typed result ++
      lit (if result.isAbsent then "=>" else " =>") ++
      if body.isBlock then body.marks else [.indent] ++ body.full ++ [.dedent]
  | .functionValue, [head], [name, types, params, result, body] =>
    lit head ++ named name ++ signature types params result ++ bodyOr " " body
  | .classValue, [head], [name, members, base, args, types, promised] =>
    classMarks head name members base args types promised
  | .assertion, _, [type, p] => lit "<" ++ type.marks ++ lit ">" ++ p.full
  | .instantiation, _, [p, types] => p.full ++ types.marks
  | .computedKey, _, [p] => lit "[" ++ p.full ++ lit "]"
  | .objectMethod, [head], [key, types, params, result, body] =>
    lit head ++ key.marks ++ lit " " ++ signature types params result ++ bodyOr " " body
  | .objectSetter, [head], [key, types, params, result, body] =>
    lit head ++ key.marks ++ lit " " ++ signature types params result ++ bodyOr "" body
  | .element, _, [name, args, attributes, children, closing] =>
    tag name args attributes ++ lit ">" ++ children.items.flatMap Printed.marks ++
      lit "</" ++ closing.marks ++ lit ">"
  | .emptyElement, _, [name, args, attributes] => tag name args attributes ++ lit "/>"
  | .fragment, _, children => lit "<>" ++ children.flatMap Printed.marks ++ lit "</>"
  | .spreadAttribute, _, [p] | .spreadChild, _, [p] =>
    lit "\x7b..." ++ p.full ++ lit "\x7d"
  | _, [text], [] => lit text
  | _, _, _ => []

/-- The marks of a form of patterns from its words and parts. -/
def patternLayout (form : Form) (words : List String) (parts : List Printed) : List Mark :=
  match form, words, parts with
  | .arrayPattern, _, ps => lit "[" ++ elements Printed.full (lit ", ") ps ++ lit "]"
  | .objectPattern, _, [] => lit "\x7b\x7d"
  | .objectPattern, _, ps => lit "\x7b " ++ plainCommas ps ++ lit " \x7d"
  | .pairPattern, _, [key, p] => key.marks ++ lit ": " ++ p.full
  | .restPattern, _, [p, type] => lit "..." ++ p.full ++ typed type
  | .defaulted, _, [p, value] => p.full ++ valued value
  | .shorthandDefault, _, [p, value] => p.marks ++ valued value
  | .annotated, [mark], [p, type] => p.marks ++ lit mark ++ typed type
  | .parameter, words, [p] => spaced words ++ if words.isEmpty then p.full else p.marks
  | _, _, _ => expressionLayout form words parts

/-- The marks of a form of types from its words and parts; the type itself ends at `hi`. -/
def typeLayout (form : Form) (hi : Nat) (words : List String) (parts : List Printed) : List Mark :=
  match form, words, parts with
  | .typeArguments, _, ps | .typeParameters, _, ps => lit "<" ++ plainCommas ps ++ lit ">"
  | .typeParameter, marks, [name, bound, value] =>
    spaced marks ++ name.marks ++ ifPresent bound (lit " extends " ++ bound.marks) ++
      ifPresent value (lit " = " ++ value.marks)
  | .typeReference, words, [name, args] => spaced words ++ name.marks ++ args.marks
  | .heritage, _, [name, args] => name.full ++ args.marks
  | .arrayType, _, [p] => p.marks ++ lit "[]"
  | .indexedType, _, [p, i] => p.marks ++ lit "[" ++ i.marks ++ lit "]"
  | .tupleType, _, ps => lit "[" ++ plainCommas ps ++ lit "]"
  | .namedElement, [mark], [label, p] =>
    label.marks ++ lit mark ++ [.trailing label.node.span.hi true] ++ lit ": " ++ p.marks
  | .optionalType, _, [p] => p.marks ++ lit "?"
  | .restType, _, [p] => lit "..." ++ p.marks
  | .unionType, _, ps => inLine Printed.marks " | " hi ps
  | .intersectionType, _, ps => inLine Printed.marks " & " hi ps
  | .conditionalType, _, [p, bound, yes, no] =>
    p.marks ++ lit " extends " ++ bound.marks ++ lit " ? " ++ yes.marks ++ lit " : " ++ no.marks
  | .parenType, _, [p] => lit "(" ++ p.marks ++ lit ")"
  | .operatorType, [word], [p] => lit (word ++ " ") ++ p.marks
  | .functionType, words, [types, params, result] =>
    lit (" ".intercalate words) ++
      (if words.isEmpty || types.isAbsent then [] else lit " ") ++
      signature types params .nothing ++ lit " => " ++ result.marks
  | .mappedType, [readonly, mark], [key, keys, renamed, type] =>
    indented "\x7b" "\x7d" (lit (readonly ++ "[") ++ key.marks ++ lit " in " ++ keys.marks ++
      ifPresent renamed (lit " as " ++ renamed.marks) ++ lit "]" ++ lit mark ++ typed type ++
      lit ";")
  | .objectType, _, ps => itemLines ps
  | .typeProperty, mark :: words, [key, type] =>
    spaced words ++ key.full ++ lit mark ++ typed type ++ lit ";"
  | .typeMethod, [_], [.mk .absent _ _, types, params, result] =>
    signature types params .nothing ++ ifPresent result (lit " : " ++ result.marks) ++ lit ";"
  | .typeMethod, ["", "new"], [_, types, params, result] =>
    lit "new" ++ signature types params result ++ lit ";"
  | .typeMethod, mark :: words, [key, types, params, result] =>
    spaced words ++ key.full ++ lit mark ++ signature types params result ++ lit ";"
  | .indexSignature, words, [param, type] =>
    spaced words ++ lit "[" ++ plainCommas [param] ++ lit "]" ++ typed type ++ lit ";"
  | .templateType, words, ps =>
    lit "\x60" ++ templateMarks (words.map String.toList) (ps.map Printed.marks) ++ lit "\x60"
  | .predicate, [asserts, subject], [type] =>
    lit (asserts ++ subject) ++ ifPresent type (lit " is " ++ type.marks)
  | .importType, name :: words, [module, args] =>
    spaced words ++ lit "import(" ++ module.marks ++ lit ")" ++
      lit (if name = "" then "" else "." ++ name) ++ args.marks
  | _, _, _ => patternLayout form words parts

/-- The marks of a form of declarations from its words and parts; the declaration itself ends at
    `hi`. -/
def declarationLayout (form : Form) (hi : Nat) (words : List String) (parts : List Printed) :
    List Mark :=
  match form, words, parts with
  | .functionDeclaration, [before, head], [name, types, params, result, body] =>
    lit (before ++ head) ++ named name ++ signature types params result ++ bodyOr " " body
  | .classDeclaration, [head], [name, members, base, args, types, promised] =>
    classMarks head name members base args types promised
  | .classMethod, [before, mark], [key, types, params, result, body] =>
    lit before ++ key.marks ++ lit mark ++ signature types params result ++ bodyOr " " body
  | .classConstructor, [before], [params, body] =>
    lit before ++ lit "constructor" ++ signature .nothing params .nothing ++ bodyOr "" body
  | .classProperty, [before, mark], [key, value, type] =>
    lit before ++ key.marks ++ lit mark ++ typed type ++ valued value ++ lit ";"
  | .staticBlock, _, [body] => lit "static" ++ body.marks
  | .importing, [before], [first, star, names, module, attributes] =>
    importMarks before first star names module attributes
  | .specifier, [head], [first] => lit head ++ first.marks
  | .specifier, [head], [first, second] => lit head ++ first.marks ++ lit " as " ++ second.marks
  | .exportNames, [before], [names, module, attributes] =>
    lit ("export " ++ before) ++ namesInBraces names.items ++
      ifPresent module (lit " from " ++ source module attributes) ++ lit ";"
  | .exportAll, [before], [under, module, attributes] =>
    lit ("export " ++ before ++ "*") ++ ifPresent under (lit " as " ++ under.marks) ++
      lit " from " ++ source module attributes ++ lit ";"
  | .exportDeclaration, _, [p] => lit "export " ++ p.marks
  | .exportDefault, [last], [p] =>
    lit "export default " ++ (if last = "" then p.marks else p.full) ++ lit last
  | .exportValue, _, [p] => lit "export = " ++ p.full
  | .exportGlobal, _, [p] => lit "export as namespace " ++ p.marks ++ lit ";"
  | .interfaceDeclaration, [before], [name, types, bases, members] =>
    lit (before ++ "interface ") ++ name.marks ++ types.marks ++
      (if bases.items.isEmpty then [] else lit " extends " ++ plainCommas bases.items) ++ lit " " ++
      itemLines members.items
  | .typeAlias, [before], [name, types, type] =>
    lit (before ++ "type ") ++ name.marks ++ types.marks ++ lit " = " ++ type.marks ++ lit ";"
  | .enumeration, [before], name :: ps =>
    lit (before ++ "enum ") ++ name.marks ++ lit " " ++
      elementLines Printed.marks "\x7b" "\x7d" ps
  | .enumMember, _, [key, value] => key.marks ++ valued value
  | .moduleDeclaration, [head], [name, body] =>
    lit head ++ named name ++
      ifPresent body (lit " " ++ indented "\x7b" "\x7d" (statements body.items))
  | .importAlias, [before, "require"], [own, module] =>
    lit before ++ own.marks ++ lit " = require(" ++ module.marks ++ lit ");"
  | .importAlias, [before, _], [own, target] =>
    lit before ++ own.marks ++ lit " = " ++ target.marks ++ lit ";"
  | _, _, _ => typeLayout form hi words parts

/-- The marks of a form from its words and parts. -/
def layout (form : Form) (span : Span) (words : List String) (parts : List Printed) : List Mark :=
  match form, words, parts with
  | .expressionStatement, _, [p] => [.hold span.hi] ++ p.full ++ lit ";" ++ [.release]
  | .block, _, ps => block span ps
  | .emptyStatement, _, _ => lit ";"
  | .bindings, [before, word, last], ps =>
    lit (before ++ word ++ " ") ++ inLine Printed.marks ", " span.hi ps ++ lit last
  | .declarator, _, [p, value] => p.full ++ valued value
  | .ifStatement, _, [test, yes, no] =>
    lit "if (" ++ test.full ++ lit ") " ++ yes.statement ++
      ifPresent no ((if yes.isBlock then lit " " else []) ++ lit "else " ++ no.statement)
  | .forStatement, _, [init, test, update, body] =>
    lit "for(" ++ init.full ++ lit ";" ++ ifPresent test (lit " " ++ test.full) ++ lit ";" ++
      ifPresent update (lit " " ++ update.full) ++ lit ")" ++ body.statement
  | .forIn, _, [target, range, body] =>
    lit "for(" ++ target.full ++ lit " in " ++ range.full ++ lit ")" ++ body.statement
  | .forOf, [waits], [target, range, body] =>
    lit ("for" ++ waits ++ " (") ++ target.full ++ lit " of " ++ range.full ++ lit ")" ++
      body.statement
  | .whileStatement, _, [test, body] =>
    lit "while(" ++ test.full ++ lit ")" ++ body.statement
  | .withStatement, _, [value, body] =>
    lit "with (" ++ value.full ++ lit ")" ++ body.statement
  | .doWhile, _, [test, body] =>
    lit "do " ++ body.statement ++ lit "while (" ++ test.full ++ lit ")"
  | .switchStatement, _, [value, cases] =>
    lit "switch(" ++ value.full ++ lit ")" ++
      indented "\x7b" "\x7d" (cases.items.flatMap Printed.marks)
  | .switchCase, _, [test, body] =>
    (if test.isAbsent then lit "default:" else lit "case " ++ test.full ++ lit ":") ++
      [.line, .indent] ++ statements body.items ++ [.line, .dedent]
  | .tryStatement, _, [body, handler, last] =>
    lit "try " ++ body.marks ++ ifPresent handler (lit " " ++ handler.marks) ++
      ifPresent last (lit " finally" ++ last.marks)
  | .catchClause, _, [param, body] =>
    lit "catch " ++ ifPresent param (lit "(" ++ param.full ++ lit ")") ++ lit " " ++ body.marks
  | .jump, [word], [p] => lit word ++ lit " " ++ p.full ++ lit ";"
  | .jump, [word], [] => lit (word ++ ";")
  | .loopJump, [word], [label] => lit (word ++ " ") ++ label.marks ++ lit ";"
  | .labelled, _, [label, body] => label.marks ++ lit ": " ++ body.statement
  | _, _, _ => declarationLayout form span.hi words parts

/-- An expression with something said about its type. -/
def typingMarks (typing : Typing) (expr type : Printed) : List Mark :=
  expr.full ++ match typing with
    | .cast => lit " as " ++ type.marks
    | .satisfying => lit " satisfies " ++ type.marks
    | .nonNull => lit "!"
    | .constant => lit " as const"

/-- The sign of an operator. -/
def BinaryOp.sign : BinaryOp → String
  | .and => "&&"
  | .or => "||"
  | .nullish => "??"
  | .add => "+"
  | .other s => s

/-! ## Nodes -/

/-- The marks of an object; members are expressions or patterns in places only. -/
def objectMarks (span : Span) (members : List Printed) : List Mark :=
  if members.isEmpty then lit "\x7b" ++ [.lineIfLed (span.hi - 1)] ++ lit "\x7d"
  else elementLines Printed.marks "\x7b" "\x7d" members

/-- The marks of an expression in braces inside markup. -/
def containerMarks (span : Span) (expr : Printed) : List Mark :=
  lit "\x7b" ++ [.trailing (span.lo + 1) true] ++
    (if expr.isAbsent then [.leading (span.hi - 1)] else expr.full) ++ lit "\x7d"

mutual

/-- A node with its marks. -/
def printNode : Node → Printed
  | .absent => .nothing
  | .group items => .mk (.group items) [] (printNodes items)
  | .str span value raw =>
    .mk (.str span value raw) [.text (raw.getD (quoted (value.getD [])))] []
  | .template span pieces exprs =>
    .mk (.template span pieces exprs)
      (lit "\x60" ++ templateMarks pieces ((printNodes exprs).map Printed.full) ++ lit "\x60") []
  | .conditional span test yes no =>
    .mk (.conditional span test yes no)
      ((printNode test).full ++ lit " ? " ++ (printNode yes).full ++ lit " : " ++
        (printNode no).full) []
  | .binary span op left right =>
    .mk (.binary span op left right)
      ((printNode left).full ++ lit (" " ++ op.sign ++ " ") ++ (printNode right).full) []
  | .call span callee typeArgs args =>
    .mk (.call span callee typeArgs args)
      ((printNode callee).full ++ (printNode typeArgs).marks ++ lit "(" ++
        commas (printNodes args) ++ lit ")") []
  | .array span items =>
    .mk (.array span items)
      (if items.isEmpty then lit "[]"
        else elementLines Printed.full "[" "]" (printNodes items)) []
  | .spread span inner => .mk (.spread span inner) (lit "..." ++ (printNode inner).full) []
  | .object span members => .mk (.object span members) (objectMarks span (printNodes members)) []
  | .pair span key value =>
    .mk (.pair span key value) ((printNode key).marks ++ lit ": " ++ (printNode value).full) []
  | .paren span inner =>
    .mk (.paren span inner) (lit "(" ++ (printNode inner).full ++ lit ")") []
  | .sequence span items => .mk (.sequence span items) (sequenced (printNodes items)) []
  | .typed span typing expr type =>
    .mk (.typed span typing expr type) (typingMarks typing (printNode expr) (printNode type)) []
  | .attr span name plain value =>
    .mk (.attr span name plain value)
      (lit name ++ ifPresent (printNode value) (lit "=" ++ (printNode value).marks)) []
  | .container span expr =>
    .mk (.container span expr) (containerMarks span (printNode expr)) []
  | .form form span words parts =>
    .mk (.form form span words parts) (layout form span words (printNodes parts)) []

/-- Several nodes with their marks. -/
def printNodes : List Node → List Printed
  | [] => []
  | node :: rest => printNode node :: printNodes rest

end

/-- The marks of a script. Among its items, a block shares its last line with what follows. -/
def Program.marks (s : Program) : List Mark :=
  .leading 0 :: (s.banner.map fun line => [Mark.text line, .line]).getD [] ++
    (printNodes s.items).flatMap Printed.statement

/-- The text of a script. -/
def print (s : Program) : List Char := Page.text s.comments s.marks

end Script

end ClassVeil
