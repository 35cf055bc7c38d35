import JsxControl.Proofs.Parsing.Phrases
import JsxControl.Source.Text

/-!
# Expressions of operators

An expression of names and operators has parentheses around some of its operands. `encloses` says
which operands get them when the expression is written, by the levels; which need them is up to the
grammar. An operand that gets parentheses always needs them. The ones that need them and get none
are those that `clashes` lists, and with parentheses counted the grammar accepts what is written
only if there are none of these.
-/

namespace JsxControl.Parsing

open Source

/-! ### Operators -/

/-- The operators before an operand. -/
inductive Sign
  | minus | plus | not | complement | typeof | void | delete

def Sign.token : Sign → Token
  | .minus => .mark "-"
  | .plus => .mark "+"
  | .not => .mark "!"
  | .complement => .mark "~"
  | .typeof => .word "typeof"
  | .void => .word "void"
  | .delete => .word "delete"

/-- The operators between two operands. -/
inductive Connective
  | power | plus | minus | and | or | coalesce
  deriving DecidableEq

namespace Connective

def token : Connective → Token
  | .power => .mark "**"
  | .plus => .mark "+"
  | .minus => .mark "-"
  | .and => .mark "&&"
  | .or => .mark "||"
  | .coalesce => .mark "??"

/-- The level with which an operator is written. -/
def level (operator : Connective) : ℕ := operatorLevel (.text operator.token.text)

/-- The phrase of an operator with its operands. -/
def phrase : Connective → Phrase → Phrase → Phrase
  | .coalesce, p, q => .coalesce p q
  | operator, p, q => .binary operator.token.text p q

/-- The operators are written with the levels that they have in the grammar. -/
lemma mem_binaries (operator : Connective) (h : operator ≠ .coalesce) :
    (operator.token, operator.level) ∈ binaries := by
  cases operator <;> [decide; decide; decide; decide; decide; contradiction]

lemma eq_of_mem_binaries (operator : Connective) :
    ∀ b ∈ binaries, b.1.text = operator.token.text → b = (operator.token, operator.level) := by
  cases operator <;> decide

end Connective

/-! ### Places -/

/-- What an expression is at its top. -/
inductive Head
  | name
  | unary (sign : Sign)
  | binary (operator : Connective)

namespace Head

/-- The level with which an expression is written. -/
def level : Head → ℕ
  | .name => primaryLevel
  | .unary _ => unaryLevel
  | .binary operator => operator.level

def isCoalesce : Head → Bool
  | .binary .coalesce => true
  | _ => false

/-- What the grammar takes an expression for. -/
def rank (head : Head) : Rank := if head.isCoalesce then .coalesce else .level head.level

lemma four_le_level (head : Head) : 4 ≤ head.level := by
  rcases head with _ | _ | operator
  case binary => cases operator <;> decide
  case name | unary => simp [level, primaryLevel, unaryLevel]

end Head

/-- Whether the grammar has an expression in a place as it is, without parentheses. -/
def Rank.admits : Rank → Head → Bool
  | .level l, head => !head.isCoalesce && l ≤ head.level
  | .chain, head => head.isCoalesce || 6 ≤ head.level
  | .coalesce, head => head.isCoalesce
  | .short, _ => true

/-- The places of operands. -/
inductive Place
  | operand (sign : Sign)
  | left (operator : Connective)
  | right (operator : Connective)

namespace Place

/-- The level that a place asks for when an expression is written. -/
def least : Place → ℕ
  | .operand _ => unaryLevel
  | .left operator => (operandLevels (.text operator.token.text) operator.level).1
  | .right operator => (operandLevels (.text operator.token.text) operator.level).2

/-- What the grammar has in a place. -/
def rank : Place → Rank
  | .operand _ => .level 15
  | .left .coalesce => .chain
  | .right .coalesce => .level 6
  | .left operator => .level (leftLevel operator.token operator.level)
  | .right operator => .level (rightLevel operator.token operator.level)

/-- Whether an operand is written in parentheses. -/
def encloses (place : Place) (head : Head) : Bool := head.level < place.least

/-- Whether an operand needs parentheses and is written without them: a unary operator on the left
of a power, and `??` beside `&&` and `||`. -/
def clashes : Place → Head → Bool
  | .left .power, .unary _ => true
  | .left .coalesce, .binary .and | .left .coalesce, .binary .or
  | .right .coalesce, .binary .and | .left .or, .binary .coalesce => true
  | _, _ => false

/-- Whether a sign and that of its operand, with nothing between them, are one token. -/
def merges : Place → Head → Bool
  | .operand .minus, .unary .minus | .operand .plus, .unary .plus => true
  | _, _ => false

/-- An operand needs parentheses if it gets them, or if it clashes, but not both. -/
lemma toNat_not_admits (place : Place) (head : Head) :
    (!place.rank.admits head).toNat =
      (place.encloses head).toNat + (place.clashes head).toNat := by
  rcases place with sign | operator | operator
  case operand => rcases head with _ | _ | operator' <;> [rfl; rfl; cases operator' <;> rfl]
  all_goals
    rcases head with _ | _ | operator'
    case binary => cases operator <;> cases operator' <;> rfl
    all_goals cases operator <;> rfl

end Place

/-! ### Operations -/

/-- An expression of names and operators. -/
inductive Operation
  | name (s : String)
  | unary (sign : Sign) (operand : Operation)
  | binary (operator : Connective) (left right : Operation)

namespace Operation

def head : Operation → Head
  | .name _ => .name
  | .unary sign _ => .unary sign
  | .binary operator _ _ => .binary operator

/-- What the tokens of an operation are to be read as. -/
def phrase : Operation → Phrase
  | .name s => .name s
  | .unary sign e => .unary sign.token.text e.phrase
  | .binary operator e e' => operator.phrase e.phrase e'.phrase

/-- The tree of an operation. -/
def tree (e : Operation) : Value := e.phrase.tree

/-- The names in an operation are not reserved. -/
def Named (L : Letters) : Operation → Prop
  | .name s => L.IsName s
  | .unary _ e => e.Named L
  | .binary _ e e' => e.Named L ∧ e'.Named L

/-- All operands have a property. -/
def Each (P : Place → Head → Prop) : Operation → Prop
  | .name _ => True
  | .unary sign e => P (.operand sign) e.head ∧ e.Each P
  | .binary operator e e' =>
    P (.left operator) e.head ∧ P (.right operator) e'.head ∧ e.Each P ∧ e'.Each P

/-- No two signs are one token. -/
def Unmerged (e : Operation) : Prop := e.Each fun place head => place.merges head = false

/-- No operand lacks the parentheses that it needs. -/
def Unmixed (e : Operation) : Prop := e.Each fun place head => place.clashes head = false

/-- How many operands have a property. -/
def tally (f : Place → Head → Bool) : Operation → ℕ
  | .name _ => 0
  | .unary sign e => (f (.operand sign) e.head).toNat + e.tally f
  | .binary operator e e' =>
    (f (.left operator) e.head).toNat + (f (.right operator) e'.head).toNat + e.tally f + e'.tally f

lemma tally_eq_zero {f : Place → Head → Bool} {e : Operation} :
    e.tally f = 0 ↔ e.Each fun place head => f place head = false := by
  induction e with
  | name s => simp [tally, Each]
  | unary sign e ih => simp [tally, Each, ih]
  | binary operator e e' ih ih' => simp [tally, Each, ih, ih', and_assoc]

/-- The parentheses that an operation needs are those that it gets, and those that are missing. -/
lemma tally_not_admits (e : Operation) :
    e.tally (fun place head => !place.rank.admits head) =
      e.tally Place.encloses + e.tally Place.clashes := by
  induction e with
  | name s => rfl
  | unary sign e ih =>
    simp only [tally, Place.toNat_not_admits, ih]
    omega
  | binary operator e e' ih ih' =>
    simp only [tally, Place.toNat_not_admits, ih, ih']
    omega

end Operation

/-! ### Tokens of an operation -/

/-- The tokens of an operand. -/
def Place.bracketed (place : Place) (head : Head) (ts : List Token) : List Token :=
  if place.encloses head then .mark "(" :: ts ++ [.mark ")"] else ts

/-- The tokens that an operation is written with. -/
def Operation.tokens : Operation → List Token
  | .name s => [.word s]
  | .unary sign e => sign.token :: (Place.operand sign).bracketed e.head e.tokens
  | .binary operator e e' =>
    (Place.left operator).bracketed e.head e.tokens ++
      operator.token :: (Place.right operator).bracketed e'.head e'.tokens

section Tokens

variable {place : Place} {head : Head} {ts : List Token}

lemma Sign.token_spec (sign : Sign) :
    sign.token ∈ prefixes ∧ sign.token ≠ .mark "(" ∧ sign.token ∉ [.mark "++", .mark "--"] := by
  cases sign <;> decide

lemma Connective.token_spec (operator : Connective) :
    operator.token ≠ .mark "(" ∧ operator.token ∉ [.mark "++", .mark "--"] := by
  cases operator <;> decide

lemma Place.countFree_bracketed (h : CountFree ts) : CountFree (place.bracketed head ts) := by
  rw [bracketed]
  split_ifs
  · exact countFree_enclosed.mpr h
  · exact h

lemma Operation.countFree_tokens (e : Operation) : CountFree e.tokens := by
  induction e with
  | name s => simp [tokens, CountFree]
  | unary sign e ih =>
    exact countFree_cons.mpr ⟨sign.token_spec.2.2, Place.countFree_bracketed ih⟩
  | binary operator e e' ih ih' =>
    exact countFree_append.mpr ⟨Place.countFree_bracketed ih,
      countFree_cons.mpr ⟨operator.token_spec.2, Place.countFree_bracketed ih'⟩⟩

lemma Place.count_bracketed :
    (place.bracketed head ts).count (.mark "(") =
      (place.encloses head).toNat + ts.count (.mark "(") := by
  rw [bracketed]
  cases place.encloses head <;> simp [Nat.add_comm]

lemma Operation.count_tokens (e : Operation) :
    e.tokens.count (.mark "(") = e.tally Place.encloses := by
  induction e with
  | name s => simp [tokens, tally]
  | unary sign e ih =>
    simp [tokens, tally, Place.count_bracketed, ih, sign.token_spec.2.1]
  | binary operator e e' ih ih' =>
    simp [tokens, tally, Place.count_bracketed, ih, ih', operator.token_spec.1]
    omega

end Tokens

/-! ### What is written without a clash is read -/

section Written

variable {head : Head} {rank : Rank} {ts : List Token} {p : Phrase}

lemma Forms.admitted (h : Forms head.rank ts p) (hadmits : rank.admits head = true) :
    Forms rank ts p := by
  rw [Head.rank] at h
  cases rank with
  | level l =>
    obtain ⟨hcoalesce, hl⟩ := by simpa [Rank.admits] using hadmits
    rw [if_neg (by simp [hcoalesce])] at h
    exact h.tighter hl
  | chain =>
    split_ifs at h with hcoalesce
    · exact h.chainCoalesce
    · exact (h.tighter (by simpa [Rank.admits, hcoalesce] using hadmits)).chainOperand
  | coalesce =>
    rwa [if_pos (show head.isCoalesce = true from hadmits)] at h
  | short =>
    split_ifs at h
    · exact h.shortCoalesce
    · exact (h.tighter head.four_le_level).shortOr

lemma Place.admits_name (place : Place) : place.rank.admits .name = true := by
  rcases place with _ | operator | operator
  case operand => rfl
  all_goals cases operator <;> rfl

/-- An operand is read as it is written, unless it clashes. -/
lemma Forms.bracketed (place : Place) (h : Forms head.rank ts p)
    (hclashes : place.clashes head = false) :
    Forms place.rank (place.bracketed head ts) p := by
  have hneeds := place.toNat_not_admits head
  rw [Place.bracketed]
  split_ifs with hencloses
  · have hshort : Forms .short ts p := h.admitted rfl
    have hparentheses : Forms Head.name.rank (.mark "(" :: ts ++ [.mark ")"]) p :=
      hshort.parentheses
    exact hparentheses.admitted place.admits_name
  · exact h.admitted (by simpa [hencloses, hclashes] using hneeds)

lemma Operation.forms {L : Letters} {e : Operation} (he : e.Named L) (h : e.Unmixed) :
    Forms e.head.rank e.tokens e.phrase := by
  induction e with
  | name s => exact .name he.2
  | unary sign e ih =>
    have hoperand : Forms (.level 15) _ e.phrase :=
      Forms.bracketed (.operand sign) (ih he h.2) h.1
    exact .unary sign.token_spec.1 hoperand
  | binary operator e e' ih ih' =>
    obtain ⟨hleft, hright, he₁, he₂⟩ := h
    have hfirst := Forms.bracketed (.left operator) (ih he.1 he₁) hleft
    have hsecond := Forms.bracketed (.right operator) (ih' he.2 he₂) hright
    cases operator with
    | coalesce => exact .coalesce hfirst hsecond
    | power | plus | minus | and | or =>
      exact .binary (Connective.mem_binaries _ (by decide)) hfirst hsecond

end Written

/-! ### What is read has the parentheses it needs -/

section Needed

variable {rank : Rank} {ts : List Token} {e : Operation}

/-- How many parentheses an operation needs in a place that the grammar has a rank for. -/
def Operation.needed (rank : Rank) (e : Operation) : ℕ :=
  (!rank.admits e.head).toNat + e.tally fun place head => !place.rank.admits head

lemma Operation.needed_mono {rank' : Rank} (h : rank.admits e.head → rank'.admits e.head) :
    e.needed rank' ≤ e.needed rank := by
  cases hadmits : rank.admits e.head
  · simpa [needed, hadmits] using Bool.toNat_le _
  · simp [needed, hadmits, h hadmits]

lemma Operation.needed_unary (sign : Sign) (e : Operation) :
    (unary sign e).needed (.level 15) = e.needed (.level 15) := by
  have hadmits : Rank.admits (.level 15) (.unary sign) = true := rfl
  simp [needed, head, hadmits, tally, Place.rank]

lemma Operation.needed_binary {operator : Connective} (h : operator ≠ .coalesce)
    (e e' : Operation) : (binary operator e e').needed (.level operator.level) =
      e.needed (Place.left operator).rank + e'.needed (Place.right operator).rank := by
  have hadmits : Rank.admits (.level operator.level) (.binary operator) = true := by
    cases operator <;> trivial
  simp only [needed, head, hadmits, tally]
  simp
  omega

lemma Operation.needed_coalesce (e e' : Operation) :
    (binary .coalesce e e').needed .coalesce = e.needed .chain + e'.needed (.level 6) := by
  have hadmits : Rank.admits .coalesce (.binary .coalesce) = true := rfl
  simp only [needed, head, hadmits, tally, Place.rank]
  simp
  omega

section Inversion

variable {operator s : String} {p q : Phrase}

lemma Operation.of_phrase_name (h : e.phrase = .name s) : e = .name s := by
  rcases e with _ | _ | ⟨operator, _, _⟩
  case name => simpa [phrase] using h
  case unary => simp [phrase] at h
  case binary => cases operator <;> simp [phrase, Connective.phrase] at h

lemma Operation.of_phrase_unary (h : e.phrase = .unary operator p) :
    ∃ sign e', e = .unary sign e' ∧ sign.token.text = operator ∧ e'.phrase = p := by
  rcases e with _ | ⟨sign, e'⟩ | ⟨operator, _, _⟩
  case name => simp [phrase] at h
  case unary => exact ⟨sign, e', rfl, by simpa [phrase] using h⟩
  case binary => cases operator <;> simp [phrase, Connective.phrase] at h

lemma Operation.of_phrase_binary (h : e.phrase = .binary operator p q) :
    ∃ connective e₁ e₂, e = .binary connective e₁ e₂ ∧ connective ≠ .coalesce ∧
      connective.token.text = operator ∧ e₁.phrase = p ∧ e₂.phrase = q := by
  rcases e with _ | _ | ⟨connective, e₁, e₂⟩
  case binary =>
    refine ⟨connective, e₁, e₂, rfl, ?_⟩
    cases connective <;> simp [phrase, Connective.phrase] at h ⊢ <;> exact h
  all_goals simp [phrase] at h

lemma Operation.of_phrase_coalesce (h : e.phrase = .coalesce p q) :
    ∃ e₁ e₂, e = .binary .coalesce e₁ e₂ ∧ e₁.phrase = p ∧ e₂.phrase = q := by
  rcases e with _ | _ | ⟨connective, e₁, e₂⟩
  case binary => cases connective <;> simp_all [phrase, Connective.phrase]
  all_goals simp [phrase] at h

end Inversion

/-- Tokens that are read as an operation have no sign that counts, and they have the parentheses
that it needs. -/
lemma Forms.needed (h : Forms rank ts e.phrase) :
    CountFree ts ∧ e.needed rank ≤ ts.count (.mark "(") := by
  generalize hp : e.phrase = p at h
  induction h generalizing e with
  | name hs =>
    obtain rfl := Operation.of_phrase_name hp
    have hadmits : Rank.admits (.level 20) .name = true := rfl
    refine ⟨by simp [CountFree], ?_⟩
    simp [Operation.needed, Operation.head, hadmits, Operation.tally]
  | parentheses _ ih =>
    obtain ⟨hfree, hcount⟩ := ih hp
    have houter := Bool.toNat_le (!(Rank.level 20).admits e.head)
    have hinner : Rank.short.admits e.head = true := rfl
    refine ⟨countFree_enclosed.mpr hfree, ?_⟩
    simp only [Operation.needed, hinner] at hcount ⊢
    simp at hcount ⊢
    omega
  | unary hoperator _ ih =>
    obtain ⟨sign, e', rfl, htext, rfl⟩ := Operation.of_phrase_unary hp
    obtain ⟨hfree, hcount⟩ := ih rfl
    have hcounts : ∀ t ∈ prefixes, t ∉ [.mark "++", .mark "--"] := by decide
    rw [Operation.needed_unary]
    exact ⟨countFree_cons.mpr ⟨hcounts _ hoperator, hfree⟩,
      Nat.le_trans hcount List.count_le_count_cons⟩
  | binary hoperator _ _ ih ih' =>
    obtain ⟨connective, e₁, e₂, rfl, hne, htext, rfl, rfl⟩ := Operation.of_phrase_binary hp
    obtain ⟨rfl, rfl⟩ := Prod.mk.inj (connective.eq_of_mem_binaries _ hoperator htext.symm)
    obtain ⟨hfree, hcount⟩ := ih rfl
    obtain ⟨hfree', hcount'⟩ := ih' rfl
    refine ⟨countFree_append.mpr ⟨hfree, countFree_cons.mpr ⟨connective.token_spec.2, hfree'⟩⟩, ?_⟩
    rw [Operation.needed_binary hne, List.count_append, List.count_cons]
    rcases connective with _ | _ | _ | _ | _ | _
    case coalesce => contradiction
    all_goals exact Nat.add_le_add hcount (Nat.le_trans hcount' (Nat.le_add_right _ _))
  | coalesce _ _ ih ih' =>
    obtain ⟨e₁, e₂, rfl, rfl, rfl⟩ := Operation.of_phrase_coalesce hp
    obtain ⟨hfree, hcount⟩ := ih rfl
    obtain ⟨hfree', hcount'⟩ := ih' rfl
    refine ⟨countFree_append.mpr ⟨hfree, countFree_cons.mpr ⟨by decide, hfree'⟩⟩, ?_⟩
    rw [Operation.needed_coalesce, List.count_append, List.count_cons]
    omega
  | tighter _ hl ih =>
    refine ⟨(ih hp).1, Nat.le_trans (Operation.needed_mono ?_) (ih hp).2⟩
    simp only [Rank.admits, Bool.and_eq_true, decide_eq_true_eq]
    exact And.imp_right (Nat.le_trans hl)
  | chainOperand _ ih =>
    refine ⟨(ih hp).1, Nat.le_trans (Operation.needed_mono ?_) (ih hp).2⟩
    simp only [Rank.admits, Bool.and_eq_true, Bool.or_eq_true]
    exact fun h => .inr h.2
  | chainCoalesce _ ih =>
    refine ⟨(ih hp).1, Nat.le_trans (Operation.needed_mono ?_) (ih hp).2⟩
    simp only [Rank.admits, Bool.or_eq_true]
    exact .inl
  | shortOr _ ih | shortCoalesce _ ih =>
    exact ⟨(ih hp).1, Nat.le_trans (Operation.needed_mono fun _ => rfl) (ih hp).2⟩
  | call | apply | countAfter | countBefore =>
    rcases e with _ | _ | ⟨connective, _, _⟩
    case binary => cases connective <;> simp [Operation.phrase, Connective.phrase] at hp
    all_goals simp [Operation.phrase] at hp

end Needed

end JsxControl.Parsing
