import JsxControl.Proofs.Parsing.Unambiguous

/-!
# The grammar of statements

What a statement in program text is read as, in front of other tokens. An `else` belongs to the
nearest `if` before it that can take it: a conditional without one is not read in front of an
`else`. With this rule a statement is read in one way at most, although nothing marks where it ends.

Left out are the statements that begin with another keyword, those with a label, and the rules that
put semicolons where they are missing; these have no effect on a text that is read without them,
unless a line ends between a `return` and its operand.
-/

namespace JsxControl.Parsing

/-! ### Trees that are read -/

namespace Tree

def expressionStatement (v : Value) : Value :=
  .node ⟨.expressionStatement, [("expression", v)], {}⟩

def emptyStatement : Value := .node ⟨.emptyStatement, [], {}⟩

/-- A `return` with its operand, which may be null. -/
def returnStatement (operand : Value) : Value :=
  .node ⟨.returnStatement, [("argument", operand)], {}⟩

def block (body : List Value) : Value := .node ⟨.blockStatement, [("body", .list body)], {}⟩

/-- A conditional with its alternate, which may be null. -/
def ifStatement (test consequent alternate : Value) : Value :=
  .node ⟨.ifStatement,
    [("test", test), ("consequent", consequent), ("alternate", alternate)], {}⟩

end Tree

/-! ### Rules -/

/-- What is read: a statement, or the statements of a block. -/
inductive Part
  | statement
  | body

/-- The grammar: tokens, what they are read as, and the tokens behind that. -/
inductive Parses : Part → List Token → List Value → List Token → Prop
  | expression {ts rest : List Token} {v : Value} (h : Derives .expression ts [v])
    (hts : ¬ [.word "let", .mark "["] <+: ts) :
    Parses .statement (ts ++ .mark ";" :: rest) [Tree.expressionStatement v] rest
  | empty {rest : List Token} : Parses .statement (.mark ";" :: rest) [Tree.emptyStatement] rest
  | returnNothing {rest : List Token} :
    Parses .statement (.word "return" :: .mark ";" :: rest) [Tree.returnStatement .null] rest
  | returnValue {ts rest : List Token} {v : Value} (h : Derives .expression ts [v]) :
    Parses .statement (.word "return" :: ts ++ .mark ";" :: rest) [Tree.returnStatement v] rest
  | block {ts rest : List Token} {vs : List Value} (h : Parses .body ts vs (.mark "\x7d" :: rest)) :
    Parses .statement (.mark "\x7b" :: ts) [Tree.block vs] rest
  | ifThen {ts ts' rest : List Token} {test v : Value} (htest : Derives .expression ts [test])
    (h : Parses .statement ts' [v] rest) (hrest : rest.head? ≠ some (.word "else")) :
    Parses .statement (.word "if" :: .mark "(" :: ts ++ .mark ")" :: ts')
      [Tree.ifStatement test v .null] rest
  | ifElse {ts ts' ts'' rest : List Token} {test v v' : Value}
    (htest : Derives .expression ts [test]) (h : Parses .statement ts' [v] (.word "else" :: ts''))
    (h' : Parses .statement ts'' [v'] rest) :
    Parses .statement (.word "if" :: .mark "(" :: ts ++ .mark ")" :: ts')
      [Tree.ifStatement test v v'] rest
  | nil {rest : List Token} (hrest : rest.head? = some (.mark "\x7d")) : Parses .body rest [] rest
  | cons {ts ts' rest : List Token} {v : Value} {vs : List Value} (h : Parses .statement ts [v] ts')
    (h' : Parses .body ts' vs rest) : Parses .body ts (v :: vs) rest

/-- A text is read as a statement. -/
def ReadsAsStatement (L : Letters) (text : String) (v : Value) : Prop :=
  ∃ ts, L.tokens? text.toList = some ts ∧ Parses .statement ts [v] []

variable {ts ts' rest rest' : List Token} {vs vs' : List Value} {v v' : Value} {part : Part}

/-! ### Where an expression ends -/

lemma binaries_ne_semicolon : ∀ b ∈ binaries, b.1 ≠ .mark ";" := by decide

lemma prefixes_ne_semicolon : ∀ t ∈ prefixes, t ≠ .mark ";" := by decide

lemma semicolon_not_mem_names (names : List String) : .mark ";" ∉ nameTokens names := by
  induction names with
  | nil => simp [nameTokens]
  | cons name names ih =>
    cases names with
    | nil => simp [nameTokens]
    | cons name' names => simpa [nameTokens] using ih

/-- No expression has a semicolon. -/
lemma Derives.semicolon_not_mem {goal : Goal} (h : Derives goal ts vs) : .mark ";" ∉ ts := by
  induction h with
  | unary hoperator _ ih => simp [ih, (prefixes_ne_semicolon _ hoperator).symm]
  | binary hoperator _ _ ih ih' => simp [ih, ih', (binaries_ne_semicolon _ hoperator).symm]
  | arrow _ _ ih => simp [ih, semicolon_not_mem_names]
  | _ => simp_all

/-- The tokens that begin other statements than expressions, end a block or go on with a
conditional. -/
def keyTokens : List Token :=
  [.mark ";", .mark "\x7b", .mark "\x7d", .word "return", .word "if", .word "else"]

lemma reserved_of_keyToken {s : String} (h : .word s ∈ keyTokens) : s ∈ reserved := by
  simp only [keyTokens, List.mem_cons, reduceCtorEq, Token.word.injEq, false_or, List.not_mem_nil,
    or_false] at h
  rcases h with rfl | rfl | rfl <;> decide

lemma prefixes_not_keyToken : ∀ t ∈ prefixes, t ∉ keyTokens := by decide

/-- An expression does not begin like another statement. -/
lemma Derives.exists_head {goal : Goal} (h : Derives goal ts vs) (hvs : vs ≠ []) :
    ∃ t us, ts = t :: us ∧ t ∉ keyTokens := by
  induction h with
  | name hs | shortArrow hs => exact ⟨_, _, rfl, fun h => hs (reserved_of_keyToken h)⟩
  | integer | array | parentheses | arrow | spread => exact ⟨_, _, rfl, by simp [keyTokens]⟩
  | unary hoperator => exact ⟨_, _, rfl, prefixes_not_keyToken _ hoperator⟩
  | member _ _ ih | element _ _ ih | call _ _ ih | binary _ _ _ ih | cons _ _ _ ih =>
    obtain ⟨t, us, rfl, ht⟩ := ih (List.cons_ne_nil _ _)
    exact ⟨t, _, rfl, ht⟩
  | conditional _ _ _ ih =>
    obtain ⟨t, us, rfl, ht⟩ := ih (List.cons_ne_nil _ _)
    exact ⟨t, _, rfl, ht⟩
  | tighter _ _ ih | plain _ ih | last _ ih => exact ih hvs
  | expression _ hne ih => exact ih hne
  | empty => contradiction

lemma Derives.append_ne (h : Derives .expression ts [v]) {t : Token} (ht : t ∈ keyTokens)
    (us us' : List Token) : ts ++ us ≠ t :: us' := by
  obtain ⟨t', ts', rfl, ht'⟩ := h.exists_head (List.cons_ne_nil v [])
  intro heq
  exact ht' ((List.cons.inj heq).1 ▸ ht)

/-- The expression before a semicolon is determined by the tokens. -/
lemma Derives.before_semicolon (h : Derives .expression ts [v]) (h' : Derives .expression ts' [v'])
    (heq : ts ++ .mark ";" :: rest = ts' ++ .mark ";" :: rest') : v = v' ∧ rest = rest' := by
  obtain ⟨rfl, hrest⟩ : ts = ts' ∧ rest = rest' := by
    rcases List.append_eq_append_iff.mp heq with ⟨us, rfl, hus⟩ | ⟨us, rfl, hus⟩
    · rcases us with _ | ⟨t, us⟩
      · simpa using hus
      · obtain ⟨rfl, -⟩ := List.cons.inj hus
        exact absurd h'.semicolon_not_mem (by simp)
    · rcases us with _ | ⟨t, us⟩
      · simpa using hus.symm
      · obtain ⟨rfl, -⟩ := List.cons.inj hus
        exact absurd h.semicolon_not_mem (by simp)
  exact ⟨h.unique h', hrest⟩

/-- The expression before a closing parenthesis is determined by the tokens. -/
lemma Derives.before_parenthesis (h : Derives .expression ts [v])
    (h' : Derives .expression ts' [v'])
    (heq : ts ++ .mark ")" :: rest = ts' ++ .mark ")" :: rest') : v = v' ∧ rest = rest' := by
  obtain ⟨items, hitems, hread⟩ := h.read
  obtain ⟨items', hitems', hread'⟩ := h'.read
  have hcloses (rest : List Token) : Closes (.mark ")" :: rest) := by simp [Closes]
  have hreads := hread _ (hcloses rest)
  rw [heq] at hreads
  obtain ⟨rfl, hrest⟩ := (hread' _ (hcloses rest')).settles _ _ hreads
  rw [List.singleton_inj] at hitems hitems'
  exact ⟨hitems.trans hitems'.symm, (List.cons.inj hrest).2⟩

/-! ### Statements are read in one way -/

/-- A statement is not where a block ends. -/
lemma Parses.head?_ne (h : Parses .statement ts vs rest) : ts.head? ≠ some (.mark "\x7d") := by
  cases h with
  | @expression ts rest v h =>
    obtain ⟨t, us, rfl, ht⟩ := h.exists_head (List.cons_ne_nil v [])
    rintro heq
    exact ht (Option.some.inj heq ▸ by simp [keyTokens])
  | _ => simp

/-- In front of other tokens a statement is read in one way at most. -/
theorem Parses.settles (h : Parses part ts vs rest) (h' : Parses part ts vs' rest') :
    vs = vs' ∧ rest = rest' := by
  induction h generalizing vs' rest' with
  | @expression ts rest v h hts =>
    generalize heq : ts ++ .mark ";" :: rest = us at h'
    cases h' with
    | expression h' =>
      obtain ⟨rfl, rfl⟩ := h.before_semicolon h' heq
      exact ⟨rfl, rfl⟩
    | _ => exact absurd heq (h.append_ne (by simp [keyTokens]) _ _)
  | @empty rest =>
    generalize heq : .mark ";" :: rest = us at h'
    cases h' with
    | expression h' => exact absurd heq.symm (h'.append_ne (by simp [keyTokens]) _ _)
    | empty => exact ⟨rfl, (List.cons.inj heq).2⟩
    | _ => simp at heq
  | @returnNothing rest =>
    generalize heq : .word "return" :: .mark ";" :: rest = us at h'
    cases h' with
    | expression h' => exact absurd heq.symm (h'.append_ne (by simp [keyTokens]) _ _)
    | returnNothing => exact ⟨rfl, by simpa using heq⟩
    | returnValue h' =>
      exact absurd (List.cons.inj heq).2.symm (h'.append_ne (by simp [keyTokens]) _ _)
    | _ => simp at heq
  | @returnValue ts rest v h =>
    generalize heq : .word "return" :: ts ++ .mark ";" :: rest = us at h'
    cases h' with
    | expression h' => exact absurd heq.symm (h'.append_ne (by simp [keyTokens]) _ _)
    | returnNothing => exact absurd (List.cons.inj heq).2 (h.append_ne (by simp [keyTokens]) _ _)
    | returnValue h' =>
      obtain ⟨rfl, rfl⟩ := h.before_semicolon h' (List.cons.inj heq).2
      exact ⟨rfl, rfl⟩
    | _ => simp at heq
  | @block ts rest vs h ih =>
    generalize heq : .mark "\x7b" :: ts = us at h'
    cases h' with
    | expression h' => exact absurd heq.symm (h'.append_ne (by simp [keyTokens]) _ _)
    | block h' =>
      obtain rfl := (List.cons.inj heq).2
      obtain ⟨rfl, hrest⟩ := ih h'
      exact ⟨rfl, (List.cons.inj hrest).2⟩
    | _ => simp at heq
  | @ifThen ts ts' rest test v htest h hrest ih =>
    generalize heq : .word "if" :: .mark "(" :: ts ++ .mark ")" :: ts' = us at h'
    cases h' with
    | expression h' => exact absurd heq.symm (h'.append_ne (by simp [keyTokens]) _ _)
    | ifThen htest' h' =>
      obtain ⟨rfl, rfl⟩ := htest.before_parenthesis htest' (by simpa using heq)
      obtain ⟨hv, rfl⟩ := ih h'
      exact ⟨by rw [List.singleton_inj.mp hv], rfl⟩
    | ifElse htest' h' =>
      obtain ⟨rfl, rfl⟩ := htest.before_parenthesis htest' (by simpa using heq)
      obtain ⟨-, rfl⟩ := ih h'
      exact absurd rfl hrest
    | _ => simp at heq
  | @ifElse ts ts' ts'' rest test v w htest h h₁ ih ih₁ =>
    generalize heq : .word "if" :: .mark "(" :: ts ++ .mark ")" :: ts' = us at h'
    cases h' with
    | expression h' => exact absurd heq.symm (h'.append_ne (by simp [keyTokens]) _ _)
    | ifThen htest' h' hrest =>
      obtain ⟨rfl, rfl⟩ := htest.before_parenthesis htest' (by simpa using heq)
      obtain ⟨-, rfl⟩ := ih h'
      exact absurd rfl hrest
    | ifElse htest' h' h₁' =>
      obtain ⟨rfl, rfl⟩ := htest.before_parenthesis htest' (by simpa using heq)
      obtain ⟨hv, hrest⟩ := ih h'
      obtain rfl := (List.cons.inj hrest).2
      obtain ⟨hw, rfl⟩ := ih₁ h₁'
      exact ⟨by rw [List.singleton_inj.mp hv, List.singleton_inj.mp hw], rfl⟩
    | _ => simp at heq
  | nil hrest =>
    cases h' with
    | nil => exact ⟨rfl, rfl⟩
    | cons h' => exact absurd hrest h'.head?_ne
  | cons h _ ih ih' =>
    cases h' with
    | nil hrest => exact absurd hrest h.head?_ne
    | cons h' h₁' =>
      obtain ⟨hv, rfl⟩ := ih h'
      obtain ⟨rfl, rfl⟩ := ih' h₁'
      exact ⟨by rw [List.singleton_inj.mp hv], rfl⟩

end JsxControl.Parsing
