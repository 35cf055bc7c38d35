import JsxControl.Proofs.Location.Source
import JsxControl.Proofs.Parsing.Operations

/-!
# Printed expressions of operators

The text of an expression of names and operators has a sign directly before its operand, and
parentheses by the levels alone. It falls into the tokens that are meant if no sign meets itself;
and these are read as the expression, and as nothing else, if no operand lacks parentheses.
Otherwise the text is not read as the expression at all.
-/

namespace JsxControl

open Source

namespace Parsing

/-! ### Texts -/

/-- The text of an operand. -/
def Place.enclosed (place : Place) (head : Head) (text : String) : String :=
  if place.encloses head then "(" ++ text ++ ")" else text

/-- A sign as it is written before its operand: a word has a blank behind it. -/
def Sign.text (sign : Sign) : String :=
  match sign.token with
  | .word s => s ++ " "
  | token => token.text

namespace Operation

/-- The text of an operation. -/
def text : Operation → String
  | .name s => s
  | .unary sign e => sign.text ++ (Place.operand sign).enclosed e.head e.text
  | .binary operator e e' =>
    (Place.left operator).enclosed e.head e.text ++ " " ++ operator.token.text ++ " " ++
      (Place.right operator).enclosed e'.head e'.text

@[simp] lemma tree_unary (sign : Sign) (e : Operation) :
    (unary sign e).tree = Tree.unary sign.token.text e.tree := rfl

/-- Logical operators have a kind of their own, but the same fields as the others. -/
lemma exists_tree_binary (operator : Connective) (e e' : Operation) :
    ∃ kind ∈ [Kind.binaryExpression, .logicalExpression], (binary operator e e').tree =
      .node ⟨kind, [("operator", .text operator.token.text), ("left", e.tree), ("right", e'.tree)],
        {}⟩ := by
  cases operator with
  | coalesce | and | or => exact ⟨.logicalExpression, by decide, rfl⟩
  | power | plus | minus => exact ⟨.binaryExpression, by decide, rfl⟩

lemma level_tree (e : Operation) : Source.level e.tree = .ok e.head.level := by
  rcases e with _ | _ | ⟨operator, _, _⟩
  case binary => cases operator <;> rfl
  all_goals rfl

lemma enclose_tree (place : Place) (e : Operation) (s : String) :
    enclose place.least e.tree (.text s) = .ok (.text (place.enclosed e.head s)) := by
  by_cases h : e.head.level < place.least
  · simp [enclose, e.level_tree, Place.enclosed, Place.encloses, h]
  · simp [enclose, e.level_tree, Place.enclosed, Place.encloses, h]

lemma unary_text (sign : Sign) (operand : String) :
    Source.unary (.text sign.token.text) (.text operand) = .ok (sign.text ++ operand) := by
  cases sign <;> rfl

lemma sourceAt_tree (e : Operation) (depth : Nat) : e.tree.sourceAt depth = .ok (.text e.text) := by
  induction e with
  | name s => exact sourceAt_name s _ depth
  | unary sign e ih =>
    have henclose := e.enclose_tree (.operand sign) e.text
    rw [tree_unary, Tree.unary, Value.sourceAt, Node.sourceAt]
    simp only [Place.least] at henclose
    simp [ih, henclose, unary_text, text]
  | binary operator e e' ih ih' =>
    have hleft := e.enclose_tree (.left operator) e.text
    have hright := e'.enclose_tree (.right operator) e'.text
    simp only [Place.least, Connective.level] at hleft hright
    obtain ⟨kind, hkind, htree⟩ := exists_tree_binary operator e e'
    obtain rfl | rfl : kind = .binaryExpression ∨ kind = .logicalExpression := by
      simpa using hkind
    all_goals
      rw [htree, Value.sourceAt, Node.sourceAt]
      simp [Value.key, ih, ih', hleft, hright, text]

end Operation

/-! ### Tokens of the text -/

section Tokens

variable {L : Letters} {e : Operation}

/-- Whether a character directly behind a sign is read as part of the same punctuator. -/
def Sign.absorbs : Sign → Char → Bool
  | .minus, c => '-' == c || '=' == c
  | .plus, c => '+' == c || '=' == c
  | .not, c => '=' == c
  | _, _ => false

lemma Sign.mark?_token {sign : Sign} {m : String} (hsign : sign.token = .mark m) {cs : List Char}
    (hcs : ∀ c ∈ cs.head?, sign.absorbs c = false) : mark? (m.toList ++ cs) = some m := by
  cases sign <;> simp only [token, Token.mark.injEq, reduceCtorEq] at hsign <;> subst hsign
  all_goals
    rcases cs with _ | ⟨c, cs⟩
    · rfl
    · have hc := hcs c rfl
      simp_all [absorbs, mark?, beginsOther, marks]

lemma Sign.isWord_token {sign : Sign} {s : String} (hsign : sign.token = .word s) :
    L.IsWord s := by
  cases sign <;> simp only [token, Token.word.injEq, reduceCtorEq] at hsign <;> subst hsign
  all_goals exact Letters.isWord_of_ascii rfl rfl rfl rfl

/-- A sign is a token in front of what it does not absorb. -/
lemma Sign.tokens?_text {sign : Sign} {cs : List Char}
    (hcs : ∀ c ∈ cs.head?, sign.absorbs c = false) :
    L.tokens? (sign.text.toList ++ cs) = (L.tokens? cs).map fun ts => sign.token :: ts := by
  rw [text]
  cases hsign : sign.token with
  | mark m => exact Letters.tokens?_mark (Sign.mark?_token hsign hcs)
  | word s => exact Letters.spells_keyword (Sign.isWord_token hsign) cs trivial
  | integer n => cases sign <;> simp [token] at hsign

lemma Sign.absorbs_of_starts (sign : Sign) {c : Char} (hc : L.starts c) :
    sign.absorbs c = false := by
  have hascii : ∀ d ∈ ['=', '-', '+'],
      d.toNat < 128 ∧ (d.isAlpha || d == '$' || d == '_') = false := by
    simp only [List.forall_mem_cons, List.not_mem_nil, false_implies, implies_true, and_true]
    decide
  have hsigns : ∀ d ∈ ['=', '-', '+'], d ≠ c := fun d hd =>
    Letters.ne_of_starts hc (hascii d hd).1 (hascii d hd).2
  cases sign <;> simp_all [absorbs]

/-- A sign absorbs nothing of its operand, unless it merges with the sign of the operand. -/
lemma Operation.head?_enclosed (he : e.Named L) {sign : Sign}
    (h : (Place.operand sign).merges e.head = false) (rest : List Char) :
    ∀ c ∈ (((Place.operand sign).enclosed e.head e.text).toList ++ rest).head?,
      sign.absorbs c = false := by
  rcases e with s | ⟨sign', e⟩ | ⟨operator, e, e'⟩
  case name =>
    obtain ⟨c, cs, hchars, hc, -⟩ := he.1
    have henclosed : (Place.operand sign).enclosed .name s = s := rfl
    simp [head, text, henclosed, hchars, sign.absorbs_of_starts hc]
  case unary =>
    have henclosed (s : String) : (Place.operand sign).enclosed (.unary sign') s = s := rfl
    simp only [head, henclosed, text, String.toList_append, List.append_assoc] at h ⊢
    cases sign <;> cases sign' <;> simp [Place.merges] at h <;>
      simp [Sign.absorbs, Sign.text, Sign.token, Token.text]
  case binary =>
    have hencloses : (Place.operand sign).encloses (.binary operator) = true := by
      cases operator <;> rfl
    cases sign <;> simp [head, Place.enclosed, hencloses, Sign.absorbs]

/-- A sign is a token before its operand, unless it merges with the sign of the operand. -/
lemma Sign.tokens?_operand (he : e.Named L) {sign : Sign}
    (h : (Place.operand sign).merges e.head = false) (rest : List Char) :
    L.tokens? ((sign.text ++ (Place.operand sign).enclosed e.head e.text).toList ++ rest) =
      (L.tokens? (((Place.operand sign).enclosed e.head e.text).toList ++ rest)).map
        fun ts => sign.token :: ts := by
  rw [String.toList_append, List.append_assoc]
  exact Sign.tokens?_text (Operation.head?_enclosed he h rest)

lemma Letters.Spells.enclosed {s : String} {ts : List Token} (h : L.Spells L.BreaksNumber s ts)
    (place : Place) (head : Head) :
    L.Spells L.BreaksNumber (place.enclosed head s) (place.bracketed head ts) := by
  rw [Place.enclosed, Place.bracketed]
  split_ifs
  · exact (h.bracketed (by simp)).anywhere
  · exact h

lemma Connective.spells_token (operator : Connective) :
    L.Spells (fun _ => True) (" " ++ operator.token.text ++ " ") [operator.token] := by
  cases operator <;> exact Letters.spells_spaced fun _ => rfl

/-- The text of an operation has the tokens that are meant, if no signs merge. -/
lemma Operation.spells (he : e.Named L) (h : e.Unmerged) :
    L.Spells L.BreaksNumber e.text e.tokens := by
  induction e with
  | name s => exact (Letters.spells_word he.1).mono fun _ h => h.1
  | unary sign e ih =>
    intro rest hrest
    have hoperand := (ih he h.2).enclosed (.operand sign) e.head rest hrest
    rw [text, Sign.tokens?_operand (e := e) he h.1, hoperand, Option.map_map]
    rfl
  | binary operator e e' ih ih' =>
    obtain ⟨-, -, he₁, he₂⟩ := h
    exact ((ih he.1 he₁).enclosed _ _).spaced operator.spells_token ((ih' he.2 he₂).enclosed _ _)

/-- However a text goes on, there is an operator among its tokens that counts up or down. -/
def Letters.Joins (L : Letters) (s : String) : Prop :=
  ∀ rest ts, L.tokens? (s.toList ++ rest) = some ts → ¬ CountFree ts

namespace Letters.Joins

variable {s s' : String}

lemma append (h : L.Joins s) (s' : String) : L.Joins (s ++ s') := by
  intro rest ts hts
  rw [String.toList_append, List.append_assoc] at hts
  exact h _ ts hts

lemma behind (h : L.Joins s') (ts : List Token)
    (hs : ∀ rest, L.tokens? ((s ++ s').toList ++ rest) =
      (L.tokens? (s'.toList ++ rest)).map fun more => ts ++ more) : L.Joins (s ++ s') := by
  intro rest ts' hts' hfree
  rw [hs, Option.map_eq_some_iff] at hts'
  obtain ⟨more, hmore, rfl⟩ := hts'
  exact h rest more hmore (countFree_append.mp hfree).2

lemma after_spells {Rest : List Char → Prop} {ts : List Token} (h : L.Joins s')
    (hs : L.Spells Rest s ts) (hrest : ∀ rest, Rest (s'.toList ++ rest)) : L.Joins (s ++ s') := by
  refine h.behind ts fun rest => ?_
  rw [String.toList_append, List.append_assoc]
  exact hs _ (hrest rest)

lemma enclosed (h : L.Joins s) (place : Place) (head : Head) :
    L.Joins (place.enclosed head s) := by
  rw [Place.enclosed]
  split_ifs
  · have hopen : L.Spells (fun _ => True) "(" [.mark "("] := spells_mark fun _ => rfl
    exact (h.after_spells hopen fun _ => trivial).append ")"
  · exact h

end Letters.Joins

/-- A sign before an operand with the same sign is one token with it. -/
lemma Operation.joins_merged {sign : Sign} (h : (Place.operand sign).merges e.head = true) :
    L.Joins (unary sign e).text := by
  rcases e with _ | ⟨sign', e⟩ | _
  case name => cases sign <;> cases h
  case binary => cases sign <;> cases h
  case unary =>
    obtain ⟨rfl, hsign⟩ : sign' = sign ∧ (sign = .minus ∨ sign = .plus) := by
      cases sign <;> cases sign' <;> simp [Place.merges, head] at h ⊢
    obtain ⟨m, hm, hspells⟩ : ∃ m, m ∈ [Token.mark "++", .mark "--"] ∧
        L.Spells (fun _ => True) (sign'.text ++ sign'.text) [m] := by
      rcases hsign with rfl | rfl
      · exact ⟨.mark "--", by decide, Letters.spells_mark fun _ => rfl⟩
      · exact ⟨.mark "++", by decide, Letters.spells_mark fun _ => rfl⟩
    have henclosed (s : String) : (Place.operand sign').enclosed (.unary sign') s = s := rfl
    intro rest ts hts hfree
    rw [text, head, henclosed, text, ← String.append_assoc, String.toList_append, List.append_assoc,
      hspells _ trivial, Option.map_eq_some_iff] at hts
    obtain ⟨more, -, rfl⟩ := hts
    exact (countFree_append.mp hfree).1 m (List.mem_singleton_self m) hm

/-- If signs merge, there is an operator in the text that counts up or down. -/
lemma Operation.joins (he : e.Named L) (h : ¬ e.Unmerged) : L.Joins e.text := by
  induction e with
  | name s => exact absurd trivial h
  | unary sign e ih =>
    by_cases hmerges : (Place.operand sign).merges e.head = true
    · exact joins_merged hmerges
    · rw [Bool.not_eq_true] at hmerges
      have hoperand := (ih he fun hall => h ⟨hmerges, hall⟩).enclosed (.operand sign) e.head
      exact hoperand.behind [sign.token] (Sign.tokens?_operand (e := e) he hmerges)
  | binary operator e e' ih ih' =>
    rw [text]
    by_cases hleft : e.Unmerged
    · have hright : ¬ e'.Unmerged := fun hright => h ⟨rfl, rfl, hleft, hright⟩
      have hfirst := ((spells he.1 hleft).enclosed (.left operator) e.head).append
        operator.spells_token fun rest _ => Letters.breaksNumber_spaced _ rest
      have hsecond := (ih' he.2 hright).enclosed (.right operator) e'.head
      simpa only [String.append_assoc] using hsecond.after_spells hfirst fun _ => trivial
    · simp only [String.append_assoc]
      exact ((ih he.1 hleft).enclosed _ _).append _

end Tokens

/-! ### What the text is read as -/

variable {L : Letters} {e : Operation}

lemma Operation.unmerged_iff (he : e.Named L) :
    e.Unmerged ↔ L.tokens? e.text.toList = some e.tokens := by
  constructor
  · intro h
    simpa [Letters.tokens?] using e.spells he h [] Letters.breaksNumber_nil
  · intro h
    by_contra hmerged
    exact e.joins he hmerged [] e.tokens (by simpa using h) e.countFree_tokens

lemma Operation.reads_iff (he : e.Named L) (h : e.Unmerged) (h' : e.Unmixed) (v : Value) :
    ReadsAsOperation L e.text v ↔ v = e.tree := by
  have htokens := (Operation.unmerged_iff he).mp h
  have hforms : Forms .short e.tokens e.phrase := (Operation.forms he h').admitted rfl
  constructor
  · rintro ⟨ts, p, hts, hp, rfl⟩
    obtain rfl : e.tokens = ts := Option.some.inj (htokens.symm.trans hts)
    rw [hp.unique hforms e.countFree_tokens]
    rfl
  · rintro rfl
    exact ⟨e.tokens, e.phrase, htokens, hforms, rfl⟩

/-- An expression that is read from its text has no signs that merge, and no operand that lacks its
parentheses. -/
lemma Operation.of_reads (he : e.Named L) (h : ReadsAsOperation L e.text e.tree) :
    e.Unmerged ∧ e.Unmixed := by
  obtain ⟨ts, p, hts, hp, htree⟩ := h
  obtain rfl := Phrase.tree_injective htree
  obtain ⟨hfree, hneeded⟩ := hp.needed
  have hunmerged : e.Unmerged := by
    by_contra hmerged
    exact e.joins he hmerged [] ts (by simpa using hts) hfree
  have htokens := (Operation.unmerged_iff he).mp hunmerged
  obtain rfl : e.tokens = ts := Option.some.inj (htokens.symm.trans hts)
  refine ⟨hunmerged, tally_eq_zero.mp ?_⟩
  have hcount := e.tally_not_admits
  rw [Operation.needed, e.count_tokens] at hneeded
  omega

lemma Operation.placeless_tree (e : Operation) : e.tree.Placeless := by
  induction e with
  | name s => exact .node rfl (by simp [Value.Throughout.scalar])
  | unary sign e ih =>
    rw [tree_unary]
    exact .node rfl (by simpa [Value.Throughout.scalar] using ih)
  | binary operator e e' ih ih' =>
    obtain ⟨kind, -, htree⟩ := exists_tree_binary operator e e'
    rw [htree]
    exact .node rfl (by simpa [Value.Throughout.scalar] using ⟨ih, ih'⟩)

/-- The text of an expression of names and operators falls into the tokens that are meant if and
only if no sign meets itself. It is read as the expression if and only if, besides, no operand lacks
its parentheses; and then it is read as nothing else. -/
theorem operation_reads_back_iff (he : e.Named L) {v : Value} (hv : v.unlocated = e.tree) :
    ∃ text, v.source = .ok (.text text) ∧
      (L.tokens? text.toList = some e.tokens ↔ e.Unmerged) ∧
      (ReadsAsOperation L text e.tree ↔ e.Unmerged ∧ e.Unmixed) ∧
      (e.Unmerged ∧ e.Unmixed → ∀ v', ReadsAsOperation L text v' → v' = e.tree) := by
  have hsource : v.unlocated.source = .ok (.text e.text) := hv ▸ e.sourceAt_tree 0
  have hreads (h : e.Unmerged ∧ e.Unmixed) := Operation.reads_iff he h.1 h.2
  exact ⟨e.text, Value.source_of_unlocated (hv ▸ e.placeless_tree.noteless) hsource,
    (Operation.unmerged_iff he).symm,
    ⟨Operation.of_reads he, fun h => (hreads h e.tree).mpr rfl⟩,
    fun h v' => (hreads h v').mp⟩

/-- An operation with names of ASCII has a text that is not read as the operation. -/
structure Misread (e : Operation) (text : String) : Prop where
  named : e.Named Letters.ascii
  unlocated : e.tree.unlocated = e.tree
  source : e.tree.source = .ok (.text text)
  not_reads : ¬ ReadsAsOperation Letters.ascii text e.tree

/-- The expressions `-(-a)`, `(-a) ** b` and `a ?? (b && c)` are not read from their texts. -/
theorem parentheses_missing :
    Misread (.unary .minus (.unary .minus (.name "a"))) "--a" ∧
      Misread (.binary .power (.unary .minus (.name "a")) (.name "b")) "-a ** b" ∧
      Misread (.binary .coalesce (.name "a") (.binary .and (.name "b") (.name "c")))
        "a ?? b && c" := by
  have hname (s : String) (hs : s ∈ ["a", "b", "c"]) : Letters.ascii.IsName s := by
    simp only [List.mem_cons, List.not_mem_nil, or_false] at hs
    rcases hs with rfl | rfl | rfl <;>
      exact ⟨Letters.isWord_of_ascii rfl rfl rfl rfl, by decide⟩
  have hmisread (e : Operation) (hnamed : e.Named Letters.ascii)
      (h : ¬ (e.Unmerged ∧ e.Unmixed)) : Misread e e.text := by
    obtain ⟨text, hsource, -, hreads, -⟩ :=
      operation_reads_back_iff hnamed e.placeless_tree.unlocated_eq
    obtain rfl : e.text = text := by simpa using (e.sourceAt_tree 0).symm.trans hsource
    exact ⟨hnamed, e.placeless_tree.unlocated_eq, hsource, mt hreads.mp h⟩
  have ha := hname "a" (by simp)
  have hb := hname "b" (by simp)
  have hc := hname "c" (by simp)
  refine ⟨hmisread _ ha fun h => ?_, hmisread _ ⟨ha, hb⟩ fun h => ?_,
    hmisread _ ⟨ha, hb, hc⟩ fun h => ?_⟩
  · exact absurd h.1.1 (by decide)
  · exact absurd h.2.1 (by decide)
  · exact absurd h.2.2.1 (by decide)

end Parsing

end JsxControl
