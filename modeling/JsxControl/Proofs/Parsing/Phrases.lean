import JsxControl.Proofs.Parsing.Parentheses

/-!
# The grammar of operators

The rules for operators in full, with those that the levels alone do not say: `??` stands beside
`&&` and `||` in parentheses only, and two signs without a blank between them count up or down.
`Forms rank tokens phrase` is the grammar for the tokens of names, operators and parentheses.

With `??` taken for `||` the grammar is one of levels, which is unambiguous. Which of the two an
operator is can be read off the tokens.
-/

namespace JsxControl.Parsing

/-! ### Phrases -/

namespace Tree

def coalesce (left right : Value) : Value :=
  .node ⟨.logicalExpression, [("operator", .text "??"), ("left", left), ("right", right)], {}⟩

def update (operator : String) (before : Bool) (operand : Value) : Value :=
  .node ⟨.other (.text "UpdateExpression"),
    [("operator", .text operator), ("prefix", .bool before), ("argument", operand)], {}⟩

end Tree

/-- What tokens of names, operators and parentheses are read as. -/
inductive Phrase
  | name (s : String)
  | unary (operator : String) (operand : Phrase)
  | binary (operator : String) (left right : Phrase)
  | coalesce (left right : Phrase)
  /-- An operator that counts a variable up or down, before or behind it. -/
  | update (operator : String) (before : Bool) (s : String)
  /-- A call without arguments. -/
  | call (callee : Phrase)
  /-- A call with one argument. -/
  | apply (callee argument : Phrase)

/-- The tree of a phrase. -/
def Phrase.tree : Phrase → Value
  | .name s => Tree.name s
  | .unary operator p => Tree.unary operator p.tree
  | .binary operator p q => Tree.binary operator p.tree q.tree
  | .coalesce p q => Tree.coalesce p.tree q.tree
  | .update operator before s => Tree.update operator before (Tree.name s)
  | .call p => Tree.call p.tree []
  | .apply p q => Tree.call p.tree [q.tree]

lemma Tree.binary_ne_coalesce (operator : String) (v v' w w' : Value) :
    Tree.binary operator v v' ≠ Tree.coalesce w w' := by
  intro h
  simp only [Tree.binary, Tree.coalesce, Value.node.injEq, Node.mk.injEq, List.cons.injEq,
    Prod.mk.injEq, Value.scalar.injEq, Scalar.text.injEq] at h
  obtain ⟨hkind, ⟨-, rfl⟩, -⟩ := h.imp_right And.left
  exact absurd hkind (by decide)

/-- The tree shows how the tokens were read. -/
lemma Phrase.tree_injective : Function.Injective tree := by
  intro p
  induction p with
  | binary operator p q ih ih' =>
    rintro (_ | _ | ⟨operator', p', q'⟩ | ⟨p', q'⟩ | _ | _ | _) h
    case binary =>
      obtain ⟨-, rfl, hp, hq⟩ := by simpa [tree, Tree.binary] using h
      rw [ih hp, ih' hq]
    case coalesce => exact absurd h (Tree.binary_ne_coalesce operator _ _ _ _)
    all_goals simp [tree, Tree.name, Tree.unary, Tree.binary, Tree.update, Tree.call] at h
  | coalesce p q ih ih' =>
    rintro (_ | _ | ⟨operator', p', q'⟩ | ⟨p', q'⟩ | _ | _ | _) h
    case coalesce =>
      obtain ⟨hp, hq⟩ := by simpa [tree, Tree.coalesce] using h
      rw [ih hp, ih' hq]
    case binary => exact absurd h.symm (Tree.binary_ne_coalesce operator' _ _ _ _)
    all_goals simp [tree, Tree.name, Tree.unary, Tree.coalesce, Tree.update, Tree.call] at h
  | name | unary | update | call | apply =>
    intro q h
    cases q <;>
      simp [tree, Tree.name, Tree.unary, Tree.binary, Tree.coalesce, Tree.update, Tree.call] at h ⊢
    all_goals grind

/-! ### Rules -/

/-- What stands in a place: an expression of a level, what can stand on the left of `??`, an
expression with `??`, or any expression. -/
inductive Rank
  | level (least : ℕ)
  | chain
  | coalesce
  | short

/-- The grammar: tokens and what they are read as. -/
inductive Forms : Rank → List Token → Phrase → Prop
  | name {s : String} (hs : s ∉ reserved) : Forms (.level 20) [.word s] (.name s)
  | parentheses {ts : List Token} {p : Phrase} (h : Forms .short ts p) :
    Forms (.level 20) (.mark "(" :: ts ++ [.mark ")"]) p
  | call {ts : List Token} {p : Phrase} (h : Forms (.level 18) ts p) :
    Forms (.level 18) (ts ++ [.mark "(", .mark ")"]) (.call p)
  | apply {ts ts' : List Token} {p q : Phrase} (h : Forms (.level 18) ts p)
    (h' : Forms .short ts' q) :
    Forms (.level 18) (ts ++ .mark "(" :: ts' ++ [.mark ")"]) (.apply p q)
  | countAfter {operator s : String} {ts : List Token} (hoperator : operator ∈ ["++", "--"])
    (h : Forms (.level 18) ts (.name s)) :
    Forms (.level 16) (ts ++ [.mark operator]) (.update operator false s)
  | countBefore {operator s : String} {ts : List Token} (hoperator : operator ∈ ["++", "--"])
    (h : Forms (.level 18) ts (.name s)) :
    Forms (.level 16) (.mark operator :: ts) (.update operator true s)
  | unary {operator : Token} {ts : List Token} {p : Phrase} (hoperator : operator ∈ prefixes)
    (h : Forms (.level 15) ts p) : Forms (.level 15) (operator :: ts) (.unary operator.text p)
  | binary {operator : Token} {level : ℕ} {ts ts' : List Token} {p q : Phrase}
    (hoperator : (operator, level) ∈ binaries) (h : Forms (.level (leftLevel operator level)) ts p)
    (h' : Forms (.level (rightLevel operator level)) ts' q) :
    Forms (.level level) (ts ++ operator :: ts') (.binary operator.text p q)
  | coalesce {ts ts' : List Token} {p q : Phrase} (h : Forms .chain ts p)
    (h' : Forms (.level 6) ts' q) : Forms .coalesce (ts ++ .mark "??" :: ts') (.coalesce p q)
  | tighter {l l' : ℕ} {ts : List Token} {p : Phrase} (h : Forms (.level l) ts p) (hl : l' ≤ l) :
    Forms (.level l') ts p
  | chainOperand {ts : List Token} {p : Phrase} (h : Forms (.level 6) ts p) : Forms .chain ts p
  | chainCoalesce {ts : List Token} {p : Phrase} (h : Forms .coalesce ts p) : Forms .chain ts p
  | shortOr {ts : List Token} {p : Phrase} (h : Forms (.level 4) ts p) : Forms .short ts p
  | shortCoalesce {ts : List Token} {p : Phrase} (h : Forms .coalesce ts p) : Forms .short ts p

/-- A text is read as an expression of operators. -/
def ReadsAsOperation (L : Letters) (text : String) (v : Value) : Prop :=
  ∃ ts p, L.tokens? text.toList = some ts ∧ Forms .short ts p ∧ p.tree = v

/-! ### How tokens are read -/

/-- Tokens without an operator that counts up or down. -/
def CountFree (ts : List Token) : Prop := ∀ t ∈ ts, t ∉ [.mark "++", .mark "--"]

lemma countFree_append {ts ts' : List Token} :
    CountFree (ts ++ ts') ↔ CountFree ts ∧ CountFree ts' :=
  List.forall_mem_append

lemma countFree_cons {t : Token} {ts : List Token} :
    CountFree (t :: ts) ↔ t ∉ [.mark "++", .mark "--"] ∧ CountFree ts :=
  List.forall_mem_cons

lemma countFree_enclosed {ts : List Token} :
    CountFree (.mark "(" :: ts ++ [.mark ")"]) ↔ CountFree ts := by
  simp [CountFree, or_imp, forall_and]

/-- The token with `??` taken for `||`. -/
def Token.blur (t : Token) : Token := if t = .mark "??" then .mark "||" else t

/-- Which of `??` and `||` a token is. -/
def Token.choice? (t : Token) : Option Bool :=
  if t = .mark "??" then some true else if t = .mark "||" then some false else none

namespace Phrase

/-- The phrase with `??` taken for `||`. -/
def blur : Phrase → Phrase
  | .name s => .name s
  | .unary operator p => .unary operator p.blur
  | .binary operator p q => .binary operator p.blur q.blur
  | .coalesce p q => .binary "||" p.blur q.blur
  | .update operator before s => .update operator before s
  | .call p => .call p.blur
  | .apply p q => .apply p.blur q.blur

/-- Which of `??` and `||` the operators of a phrase are, from left to right. -/
def choices : Phrase → List Bool
  | .name _ | .update _ _ _ => []
  | .unary _ p | .call p => p.choices
  | .binary operator p q => p.choices ++ (if operator = "||" then [false] else []) ++ q.choices
  | .coalesce p q => p.choices ++ [true] ++ q.choices
  | .apply p q => p.choices ++ q.choices

lemma length_choices {p q : Phrase} (h : p.blur = q.blur) :
    p.choices.length = q.choices.length := by
  induction p generalizing q <;> cases q <;> simp [blur, choices] at h ⊢ <;> grind

/-- A phrase can be told from what it is with `??` taken for `||`, and from which of its operators
are `??`. -/
lemma eq_of_blur {p q : Phrase} (h : p.blur = q.blur) (hchoices : p.choices = q.choices) :
    p = q := by
  induction p generalizing q with
  | binary operator p p' ih ih' =>
    cases q <;> simp only [blur, binary.injEq, reduceCtorEq] at h
    case binary operator' q q' =>
      obtain ⟨rfl, hleft, hright⟩ := h
      rw [choices, choices, List.append_assoc, List.append_assoc] at hchoices
      obtain ⟨hp, hrest⟩ := List.append_inj hchoices (length_choices hleft)
      rw [ih hleft hp, ih' hright (List.append_cancel_left hrest)]
    case coalesce q q' =>
      obtain ⟨rfl, hleft, hright⟩ := h
      rw [choices, choices, List.append_assoc, List.append_assoc] at hchoices
      simpa using (List.append_inj hchoices (length_choices hleft)).2
  | coalesce p p' ih ih' =>
    cases q <;> simp only [blur, binary.injEq, reduceCtorEq] at h
    case binary operator' q q' =>
      obtain ⟨rfl, hleft, hright⟩ := h
      rw [choices, choices, List.append_assoc, List.append_assoc] at hchoices
      simpa using (List.append_inj hchoices (length_choices hleft)).2
    case coalesce q q' =>
      obtain ⟨-, hleft, hright⟩ := h
      rw [choices, choices, List.append_assoc, List.append_assoc] at hchoices
      obtain ⟨hp, hrest⟩ := List.append_inj hchoices (length_choices hleft)
      rw [ih hleft hp, ih' hright (List.append_cancel_left hrest)]
  | apply p p' ih ih' =>
    cases q <;> simp only [blur, apply.injEq, reduceCtorEq] at h
    case apply q q' =>
      obtain ⟨hp, hp'⟩ := List.append_inj hchoices (length_choices h.1)
      rw [ih h.1 hp, ih' h.2 hp']
  | name | unary | update | call =>
    cases q <;> simp [blur, choices] at h hchoices ⊢
    all_goals grind

end Phrase

/-- The level that an expression in a place has if `??` is taken for `||`. -/
def Rank.least : Rank → ℕ
  | .level l => l
  | .chain | .coalesce | .short => 4

variable {rank : Rank} {ts : List Token} {p q : Phrase}

lemma blur_prefixes : ∀ t ∈ prefixes, t.blur = t ∧ t.choice? = none := by decide

lemma blur_binaries : ∀ b ∈ binaries, b.1.blur = b.1 ∧
    [b.1].filterMap Token.choice? = if b.1.text = "||" then [false] else [] := by
  decide

/-- With `??` taken for `||` the levels are the whole grammar. -/
lemma Forms.derives (h : Forms rank ts p) (hts : CountFree ts) :
    Derives (.level rank.least) (ts.map Token.blur) [p.blur.tree] := by
  have hcount : ∀ operator ∈ ["++", "--"], Token.mark operator ∈ [.mark "++", .mark "--"] := by
    decide
  induction h with
  | name hs => exact .name hs
  | parentheses _ ih =>
    have hinner := (ih (countFree_enclosed.mp hts)).asExpression (by decide)
    simpa [Token.blur, Rank.least] using Derives.parentheses hinner
  | call _ ih =>
    rw [countFree_append] at hts
    simpa [Token.blur, Rank.least, Phrase.blur, Phrase.tree] using (ih hts.1).call .empty
  | apply _ _ ih ih' =>
    simp only [countFree_append, countFree_cons] at hts
    have hargument := (ih' hts.1.2.2).tighter (show 2 ≤ 4 by decide)
    simpa [Token.blur, Rank.least, Phrase.blur, Phrase.tree] using
      (ih hts.1.1).call (.last (.plain hargument))
  | countAfter hoperator =>
    rw [countFree_append, countFree_cons] at hts
    exact absurd (hcount _ hoperator) hts.2.1
  | countBefore hoperator =>
    rw [countFree_cons] at hts
    exact absurd (hcount _ hoperator) hts.1
  | unary hoperator _ ih =>
    rw [countFree_cons] at hts
    rw [List.map_cons, (blur_prefixes _ hoperator).1]
    exact .unary hoperator (ih hts.2)
  | binary hoperator _ _ ih ih' =>
    rw [countFree_append, countFree_cons] at hts
    rw [List.map_append, List.map_cons, (blur_binaries _ hoperator).1]
    exact .binary hoperator (ih hts.1) (ih' hts.2.2)
  | coalesce _ _ ih ih' =>
    rw [countFree_append, countFree_cons] at hts
    rw [List.map_append, List.map_cons]
    have hoperator : (Token.mark "||", 4) ∈ binaries := by decide
    exact .binary hoperator (ih hts.1) ((ih' hts.2.2).tighter (by decide))
  | tighter _ hl ih => exact (ih hts).tighter hl
  | chainOperand _ ih => exact (ih hts).tighter (by decide)
  | chainCoalesce _ ih | shortOr _ ih | shortCoalesce _ ih => exact ih hts

lemma Forms.choices (h : Forms rank ts p) : ts.filterMap Token.choice? = p.choices := by
  induction h with
  | unary hoperator _ ih =>
    rw [List.filterMap_cons, (blur_prefixes _ hoperator).2]
    exact ih
  | binary hoperator _ _ ih ih' =>
    rw [List.append_cons, List.filterMap_append, List.filterMap_append, ih, ih',
      (blur_binaries _ hoperator).2]
    rfl
  | countAfter hoperator _ ih | countBefore hoperator _ ih =>
    obtain rfl | rfl : _ = "++" ∨ _ = "--" := by simpa using hoperator
    all_goals simpa [Token.choice?, Phrase.choices] using ih
  | _ => simp_all [Token.choice?, Phrase.choices]

/-- Tokens are read in one way. -/
theorem Forms.unique (h : Forms .short ts p) (h' : Forms .short ts q) (hts : CountFree ts) :
    p = q := by
  have hblur : p.blur.tree = q.blur.tree :=
    ((h.derives hts).asExpression (by decide)).unique ((h'.derives hts).asExpression (by decide))
  exact Phrase.eq_of_blur (Phrase.tree_injective hblur) (h.choices.symm.trans h'.choices)

end JsxControl.Parsing
