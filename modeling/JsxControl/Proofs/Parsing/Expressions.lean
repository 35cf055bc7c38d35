import JsxControl.Proofs.Parsing.Tokens
import JsxControl.Tree.Basic

/-!
# The grammar of expressions

What an expression in program text is read as. `Derives goal tokens trees` is the grammar as it is
written down: every operator has a level, an operand has to have at least the level that its place
asks for, and parentheses make any expression one of the tightest level. Binary operators group to
the left, except for `**`, which groups to the right and takes no unary operator on its left. What
is read has no locations, and its literals have no text of their own.

Left out are the expressions that begin with a word other than a name, a unary operator or a
literal integer, and those that have punctuators which no rule here mentions.
-/

namespace JsxControl.Parsing

/-! ### Trees that are read -/

namespace Tree

def name (s : String) : Value := .node ⟨.identifier, [("name", .text s)], {}⟩

def integer (n : Nat) : Value := .node ⟨.literal, [("value", .int n), ("raw", .null)], {}⟩

def array (items : List Value) : Value := .node ⟨.arrayExpression, [("elements", .list items)], {}⟩

def member (object : Value) (property : String) : Value :=
  .node ⟨.memberExpression,
    [("object", object), ("property", name property), ("computed", .bool false),
     ("optional", .bool false)], {}⟩

def element (object index : Value) : Value :=
  .node ⟨.memberExpression,
    [("object", object), ("property", index), ("computed", .bool true), ("optional", .bool false)],
    {}⟩

def call (callee : Value) (arguments : List Value) : Value :=
  .node ⟨.callExpression,
    [("callee", callee), ("arguments", .list arguments), ("optional", .bool false)], {}⟩

def arrow (params : List String) (body : Value) : Value :=
  .node ⟨.arrowFunctionExpression,
    [("params", .list (params.map name)), ("body", body), ("expression", .bool true)], {}⟩

def conditional (test consequent alternate : Value) : Value :=
  .node ⟨.conditionalExpression,
    [("test", test), ("consequent", consequent), ("alternate", alternate)], {}⟩

def unary (operator : String) (operand : Value) : Value :=
  .node ⟨.unaryExpression,
    [("operator", .text operator), ("argument", operand), ("prefix", .bool true)], {}⟩

/-- The kind of an operator with two operands. -/
def kindOf (operator : String) : Kind :=
  if operator ∈ ["&&", "||"] then .logicalExpression else .binaryExpression

def binary (operator : String) (left right : Value) : Value :=
  .node ⟨kindOf operator, [("operator", .text operator), ("left", left), ("right", right)], {}⟩

def spread (operand : Value) : Value := .node ⟨.spreadElement, [("argument", operand)], {}⟩

/-- Expressions with commas between them; a single one is itself. -/
def sequence : List Value → Value
  | [v] => v
  | vs => .node ⟨.other (.text "SequenceExpression"), [("expressions", .list vs)], {}⟩

end Tree

/-! ### Operators -/

/-- The text of a token. -/
def Token.text : Token → String
  | .word s | .mark s => s
  | .integer n => toString n

/-- The operators with two operands, and their levels. -/
def binaries : List (Token × Nat) :=
  [(.mark "||", 4), (.mark "&&", 5), (.mark "|", 6), (.mark "^", 7), (.mark "&", 8),
   (.mark "==", 9), (.mark "!=", 9), (.mark "===", 9), (.mark "!==", 9),
   (.mark "<", 10), (.mark ">", 10), (.mark "<=", 10), (.mark ">=", 10), (.word "in", 10),
   (.word "instanceof", 10), (.mark "<<", 11), (.mark ">>", 11), (.mark ">>>", 11),
   (.mark "+", 12), (.mark "-", 12), (.mark "*", 13), (.mark "/", 13), (.mark "%", 13),
   (.mark "**", 14)]

/-- The operators before an operand. -/
def prefixes : List Token :=
  [.mark "+", .mark "-", .mark "!", .mark "~", .word "typeof", .word "void", .word "delete"]

/-- The level that a binary operator asks of its left operand. -/
def leftLevel (operator : Token) (level : Nat) : Nat :=
  if operator = .mark "**" then 16 else level

/-- The level that a binary operator asks of its right operand. -/
def rightLevel (operator : Token) (level : Nat) : Nat :=
  if operator = .mark "**" then level else level + 1

/-! ### Rules -/

/-- Names with commas between them. -/
def nameTokens (names : List String) : List Token :=
  (names.map Token.word).intersperse (.mark ",")

/-- What is read: an expression that may have commas at the top, an expression of a level, an item
of a list, or a list; some lists have spread items. -/
inductive Goal
  | expression
  | level (least : Nat)
  | item (spread : Bool)
  | list (spread : Bool)

/-- The grammar: tokens and what they are read as. -/
inductive Derives : Goal → List Token → List Value → Prop
  | name {s : String} (hs : s ∉ reserved) : Derives (.level 20) [.word s] [Tree.name s]
  | integer (n : Nat) : Derives (.level 20) [.integer n] [Tree.integer n]
  | array {ts : List Token} {items : List Value} (h : Derives (.list true) ts items) :
    Derives (.level 20) (.mark "[" :: ts ++ [.mark "]"]) [Tree.array items]
  | parentheses {ts : List Token} {v : Value} (h : Derives .expression ts [v]) :
    Derives (.level 20) (.mark "(" :: ts ++ [.mark ")"]) [v]
  | member {ts : List Token} {v : Value} (h : Derives (.level 18) ts [v]) (s : String) :
    Derives (.level 18) (ts ++ [.mark ".", .word s]) [Tree.member v s]
  | element {ts ts' : List Token} {v index : Value} (h : Derives (.level 18) ts [v])
    (h' : Derives .expression ts' [index]) :
    Derives (.level 18) (ts ++ .mark "[" :: ts' ++ [.mark "]"]) [Tree.element v index]
  | call {ts ts' : List Token} {v : Value} {arguments : List Value}
    (h : Derives (.level 18) ts [v]) (h' : Derives (.list true) ts' arguments) :
    Derives (.level 18) (ts ++ .mark "(" :: ts' ++ [.mark ")"]) [Tree.call v arguments]
  | unary {operator : Token} {ts : List Token} {v : Value} (hoperator : operator ∈ prefixes)
    (h : Derives (.level 15) ts [v]) :
    Derives (.level 15) (operator :: ts) [Tree.unary operator.text v]
  | binary {operator : Token} {level : Nat} {ts ts' : List Token} {v v' : Value}
    (hoperator : (operator, level) ∈ binaries)
    (h : Derives (.level (leftLevel operator level)) ts [v])
    (h' : Derives (.level (rightLevel operator level)) ts' [v']) :
    Derives (.level level) (ts ++ operator :: ts') [Tree.binary operator.text v v']
  | conditional {ts ts' ts'' : List Token} {test first second : Value}
    (h : Derives (.level 4) ts [test]) (h' : Derives (.level 2) ts' [first])
    (h'' : Derives (.level 2) ts'' [second]) :
    Derives (.level 3) (ts ++ .mark "?" :: ts' ++ .mark ":" :: ts'')
      [Tree.conditional test first second]
  | arrow {params : List String} {ts : List Token} {v : Value}
    (hparams : ∀ s ∈ params, s ∉ reserved) (h : Derives (.level 2) ts [v]) :
    Derives (.level 2) (.mark "(" :: nameTokens params ++ .mark ")" :: .mark "=>" :: ts)
      [Tree.arrow params v]
  | shortArrow {s : String} {ts : List Token} {v : Value} (hs : s ∉ reserved)
    (h : Derives (.level 2) ts [v]) :
    Derives (.level 2) (.word s :: .mark "=>" :: ts) [Tree.arrow [s] v]
  | tighter {l l' : Nat} {ts : List Token} {vs : List Value} (h : Derives (.level l) ts vs)
    (hl : l' ≤ l) : Derives (.level l') ts vs
  | expression {ts : List Token} {vs : List Value} (h : Derives (.list false) ts vs)
    (hvs : vs ≠ []) : Derives .expression ts [Tree.sequence vs]
  | plain {spread : Bool} {ts : List Token} {vs : List Value} (h : Derives (.level 2) ts vs) :
    Derives (.item spread) ts vs
  | spread {ts : List Token} {v : Value} (h : Derives (.level 2) ts [v]) :
    Derives (.item true) (.mark "..." :: ts) [Tree.spread v]
  | empty {spread : Bool} : Derives (.list spread) [] []
  | last {spread : Bool} {ts : List Token} {vs : List Value} (h : Derives (.item spread) ts vs) :
    Derives (.list spread) ts vs
  | cons {spread : Bool} {ts ts' : List Token} {v : Value} {vs : List Value}
    (h : Derives (.item spread) ts [v]) (h' : Derives (.list spread) ts' vs) (hvs : vs ≠ []) :
    Derives (.list spread) (ts ++ .mark "," :: ts') (v :: vs)

/-- A text is read as an expression. -/
def ReadsAs (L : Letters) (text : String) (v : Value) : Prop :=
  ∃ ts, L.tokens? text.toList = some ts ∧ Derives .expression ts [v]

end JsxControl.Parsing
