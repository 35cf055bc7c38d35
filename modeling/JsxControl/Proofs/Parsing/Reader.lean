import JsxControl.Proofs.Parsing.Expressions

/-!
# Reading tokens from left to right

The rules of the grammar are no way to read: a binary operator stands behind an operand of which
they do not say where it ends. `Reads` goes through the tokens from left to right. It reads an
operand, and goes on behind it as long as the next token binds tightly enough. The next token always
decides what to do, so that reading has at most one result.

Reading is more liberal than the grammar. It does not ask for the level of what stands on the left
of an operator, since the operators before it have decided that already.
-/

namespace JsxControl.Parsing

/-! ### Tokens that go on with an expression -/

/-- The tokens that stand behind an expression as parts of a larger one, with the level of that and
the level that they ask for. -/
def extensions : List (Token × Nat × Nat) :=
  (.mark ".", 18, 18) :: (.mark "[", 18, 18) :: (.mark "(", 18, 18) :: (.mark "?", 3, 4) ::
    binaries.map fun e => (e.1, e.2, leftLevel e.1 e.2)

/-- The next token makes nothing of the level `m` or above of what stands before it. -/
def Stops (m : Nat) (ts : List Token) : Prop :=
  ∀ t ∈ ts.head?, ∀ e ∈ extensions, e.1 = t → e.2.1 < m

/-- The next token makes nothing of what stands before it unless that has a level below `l`. -/
def Open (l : Nat) (ts : List Token) : Prop :=
  ts.head? ≠ some (.mark "=>") ∧ ∀ t ∈ ts.head?, ∀ e ∈ extensions, e.1 = t → e.2.2 ≤ l

/-- A list ends here. -/
def Closes (ts : List Token) : Prop :=
  ts.head? ∈ [none, some (.mark ")"), some (.mark "]")]

/-! ### Reading from left to right -/

/-- What is read next: an operand, an expression of a level, what is behind an expression up to a
level, an item of a list, or a list. -/
inductive Task
  | operand
  | level (least : Nat)
  | behind (least : Nat) (left : Value)
  | item (spread : Bool)
  | list (spread : Bool)

/-- What is read in front of some tokens, and the tokens behind it. -/
inductive Reads : Task → List Token → List Value → List Token → Prop
  | name {s : String} {ts : List Token} (hs : s ∉ reserved)
    (hts : ts.head? ≠ some (.mark "=>")) : Reads .operand (.word s :: ts) [Tree.name s] ts
  | shortArrow {s : String} {ts rest : List Token} {v : Value} (hs : s ∉ reserved)
    (h : Reads (.level 2) ts [v] rest) :
    Reads .operand (.word s :: .mark "=>" :: ts) [Tree.arrow [s] v] rest
  | integer {n : Nat} {ts : List Token} :
    Reads .operand (.integer n :: ts) [Tree.integer n] ts
  | array {ts rest : List Token} {vs : List Value}
    (h : Reads (.list true) ts vs (.mark "]" :: rest)) :
    Reads .operand (.mark "[" :: ts) [Tree.array vs] rest
  | parentheses {ts rest : List Token} {vs : List Value}
    (h : Reads (.list false) ts vs (.mark ")" :: rest))
    (hrest : rest.head? ≠ some (.mark "=>")) :
    Reads .operand (.mark "(" :: ts) [Tree.sequence vs] rest
  | arrow {ts ts' rest : List Token} {params : List String} {v : Value}
    (h : Reads (.list false) ts (params.map Tree.name) (.mark ")" :: .mark "=>" :: ts'))
    (h' : Reads (.level 2) ts' [v] rest) :
    Reads .operand (.mark "(" :: ts) [Tree.arrow params v] rest
  | unary {t : Token} {ts rest : List Token} {v : Value} (ht : t ∈ prefixes)
    (h : Reads (.level 15) ts [v] rest) :
    Reads .operand (t :: ts) [Tree.unary t.text v] rest
  | level {m : Nat} {ts ts' rest : List Token} {v : Value} {vs : List Value}
    (h : Reads .operand ts [v] ts') (h' : Reads (.behind m v) ts' vs rest) :
    Reads (.level m) ts vs rest
  | member {m : Nat} {s : String} {ts rest : List Token} {v : Value} {vs : List Value}
    (hm : m ≤ 18) (h : Reads (.behind m (Tree.member v s)) ts vs rest) :
    Reads (.behind m v) (.mark "." :: .word s :: ts) vs rest
  | element {m : Nat} {ts ts' rest : List Token} {v : Value} {index vs : List Value}
    (hm : m ≤ 18) (h : Reads (.list false) ts index (.mark "]" :: ts'))
    (h' : Reads (.behind m (Tree.element v (Tree.sequence index))) ts' vs rest) :
    Reads (.behind m v) (.mark "[" :: ts) vs rest
  | call {m : Nat} {ts ts' rest : List Token} {v : Value} {arguments vs : List Value}
    (hm : m ≤ 18) (h : Reads (.list true) ts arguments (.mark ")" :: ts'))
    (h' : Reads (.behind m (Tree.call v arguments)) ts' vs rest) :
    Reads (.behind m v) (.mark "(" :: ts) vs rest
  | conditional {m : Nat} {ts ts' ts'' rest : List Token} {v first second : Value}
    {vs : List Value} (hm : m ≤ 3) (h : Reads (.level 2) ts [first] (.mark ":" :: ts'))
    (h' : Reads (.level 2) ts' [second] ts'')
    (h'' : Reads (.behind m (Tree.conditional v first second)) ts'' vs rest) :
    Reads (.behind m v) (.mark "?" :: ts) vs rest
  | binary {m level : Nat} {t : Token} {ts ts' rest : List Token} {v v' : Value}
    {vs : List Value} (ht : (t, level) ∈ binaries) (hm : m ≤ level)
    (h : Reads (.level (rightLevel t level)) ts [v'] ts')
    (h' : Reads (.behind m (Tree.binary t.text v v')) ts' vs rest) :
    Reads (.behind m v) (t :: ts) vs rest
  | stop {m : Nat} {ts : List Token} {v : Value} (h : Stops m ts) :
    Reads (.behind m v) ts [v] ts
  | plain {spread : Bool} {ts rest : List Token} {vs : List Value}
    (hts : ts.head? ≠ some (.mark "...")) (h : Reads (.level 2) ts vs rest) :
    Reads (.item spread) ts vs rest
  | spread {ts rest : List Token} {v : Value} (h : Reads (.level 2) ts [v] rest) :
    Reads (.item true) (.mark "..." :: ts) [Tree.spread v] rest
  | empty {spread : Bool} {ts : List Token} (h : Closes ts) : Reads (.list spread) ts [] ts
  | last {spread : Bool} {ts rest : List Token} {vs : List Value}
    (h : Reads (.item spread) ts vs rest) (hrest : rest.head? ≠ some (.mark ",")) :
    Reads (.list spread) ts vs rest
  | cons {spread : Bool} {ts ts' rest : List Token} {v : Value} {vs : List Value}
    (h : Reads (.item spread) ts [v] (.mark "," :: ts'))
    (h' : Reads (.list spread) ts' vs rest) : Reads (.list spread) ts (v :: vs) rest

variable {l m : Nat} {ts ts' rest rest' : List Token} {v v' : Value} {vs vs' : List Value}

/-! ### Reading has at most one result -/

lemma Reads.not_closes_of_operand (h : Reads .operand ts vs rest) :
    ¬ Closes ts ∧ ts.head? ≠ some (.mark "...") := by
  cases h with
  | unary ht =>
    simp only [prefixes, List.mem_cons, List.not_mem_nil, or_false] at ht
    rcases ht with rfl | rfl | rfl | rfl | rfl | rfl | rfl <;> simp [Closes]
  | _ => simp [Closes]

lemma Reads.not_closes_of_level (h : Reads (.level m) ts vs rest) :
    ¬ Closes ts ∧ ts.head? ≠ some (.mark "...") := by
  cases h with
  | level h => exact h.not_closes_of_operand

lemma Reads.not_closes_of_item {spread : Bool} (h : Reads (.item spread) ts vs rest) :
    ¬ Closes ts := by
  cases h with
  | plain hts h => exact h.not_closes_of_level.1
  | spread h => simp [Closes]

/-- The token of a binary operator is no other that goes on with an expression, and it has one
level. -/
lemma binaries_spec : ∀ e ∈ binaries,
    e.1 ≠ .mark "." ∧ e.1 ≠ .mark "[" ∧ e.1 ≠ .mark "(" ∧ e.1 ≠ .mark "?" ∧
      ∀ e' ∈ binaries, e'.1 = e.1 → e' = e := by
  decide

/-- The token of a unary operator begins no other operand. -/
lemma not_mem_prefixes : ∀ t ∈ prefixes, t ≠ .mark "[" ∧ t ≠ .mark "(" ∧
    (∀ s, t = .word s → s ∈ reserved) ∧ ∀ n, t ≠ .integer n := by
  simp [prefixes, reserved]

lemma mem_extensions_of_binary {t : Token} {level : Nat} (ht : (t, level) ∈ binaries) :
    (t, level, leftLevel t level) ∈ extensions := by
  simp only [extensions, List.mem_cons, List.mem_map]
  exact .inr (.inr (.inr (.inr ⟨_, ht, rfl⟩)))

lemma Stops.lt {t : Token} {a : Nat} (h : Stops m (t :: ts)) (ht : (t, l, a) ∈ extensions) :
    l < m :=
  h t rfl _ ht rfl

lemma Stops.lt_of_question (h : Stops m (.mark "?" :: ts)) : 3 < m :=
  h.lt (a := 4) (by simp [extensions])

lemma Tree.name_injective : Function.Injective Tree.name := by
  intro s s' h
  simpa [Tree.name] using h

/-- An access or a call binds more tightly than all operators. -/
lemma Stops.lt_of_access {s : String} (hs : s = "." ∨ s = "[" ∨ s = "(")
    (h : Stops m (.mark s :: ts)) : 18 < m := by
  apply h.lt (a := 18)
  rcases hs with rfl | rfl | rfl <;> simp [extensions]

/-- Nothing but the given result is read. -/
def Settles (task : Task) (ts : List Token) (vs : List Value) (rest : List Token) : Prop :=
  ∀ vs' rest', Reads task ts vs' rest' → vs' = vs ∧ rest' = rest

namespace Settles

variable {task : Task} {t t' : Token} {b : Bool}

lemma single (h : Settles task ts [v] rest) (h' : Reads task ts [v'] rest') :
    v' = v ∧ rest' = rest := by
  obtain ⟨hv, hrest⟩ := h _ _ h'
  exact ⟨List.singleton_inj.mp hv, hrest⟩

/-- The token behind what is read is settled as well. -/
lemma before (h : Settles task ts vs (t :: rest)) (h' : Reads task ts vs' (t' :: rest')) :
    vs' = vs ∧ rest' = rest := by
  obtain ⟨hvs, hrest⟩ := h _ _ h'
  exact ⟨hvs, (List.cons.inj hrest).2⟩

/-! The rules name marks by their texts, which `cases` cannot tell apart. So the mark that is read
is made a variable before, and the equation for it excludes the rules for other marks. -/

lemma name {s : String} (hs : s ∉ reserved) (hts : ts.head? ≠ some (.mark "=>")) :
    Settles .operand (.word s :: ts) [Tree.name s] ts := by
  intro vs' rest' h
  cases h with
  | name => exact ⟨rfl, rfl⟩
  | shortArrow => simp at hts
  | unary ht => exact absurd ((not_mem_prefixes _ ht).2.2.1 _ rfl) hs

lemma shortArrow {s : String} (hs : s ∉ reserved) (ih : Settles (.level 2) ts [v] rest) :
    Settles .operand (.word s :: .mark "=>" :: ts) [Tree.arrow [s] v] rest := by
  intro vs' rest' h
  cases h with
  | name _ hts => simp at hts
  | shortArrow _ h =>
    obtain ⟨rfl, rfl⟩ := ih.single h
    exact ⟨rfl, rfl⟩
  | unary ht => exact absurd ((not_mem_prefixes _ ht).2.2.1 _ rfl) hs

lemma integer {n : Nat} : Settles .operand (.integer n :: ts) [Tree.integer n] ts := by
  intro vs' rest' h
  cases h with
  | integer => exact ⟨rfl, rfl⟩
  | unary ht => exact absurd rfl ((not_mem_prefixes _ ht).2.2.2 _)

lemma array (ih : Settles (.list true) ts vs (.mark "]" :: rest)) :
    Settles .operand (.mark "[" :: ts) [Tree.array vs] rest := by
  intro vs' rest' h
  generalize hmark : Token.mark "[" = t at h
  cases h with
  | array h =>
    obtain ⟨rfl, rfl⟩ := ih.before h
    exact ⟨rfl, rfl⟩
  | unary ht => exact absurd hmark.symm (not_mem_prefixes _ ht).1
  | _ => simp at hmark

lemma parentheses (ih : Settles (.list false) ts vs (.mark ")" :: rest))
    (hrest : rest.head? ≠ some (.mark "=>")) :
    Settles .operand (.mark "(" :: ts) [Tree.sequence vs] rest := by
  intro vs' rest' h
  generalize hmark : Token.mark "(" = t at h
  cases h with
  | parentheses h =>
    obtain ⟨rfl, rfl⟩ := ih.before h
    exact ⟨rfl, rfl⟩
  | arrow h =>
    obtain ⟨-, rfl⟩ := ih.before h
    simp at hrest
  | unary ht => exact absurd hmark.symm (not_mem_prefixes _ ht).2.1
  | _ => simp at hmark

lemma arrow {params : List String}
    (ih : Settles (.list false) ts (params.map Tree.name) (.mark ")" :: .mark "=>" :: ts'))
    (ih' : Settles (.level 2) ts' [v] rest) :
    Settles .operand (.mark "(" :: ts) [Tree.arrow params v] rest := by
  intro vs' rest' h
  generalize hmark : Token.mark "(" = t at h
  cases h with
  | parentheses h hrest =>
    obtain ⟨-, rfl⟩ := ih.before h
    simp at hrest
  | arrow h h' =>
    obtain ⟨hparams, hrest⟩ := ih.before h
    obtain rfl := Tree.name_injective.list_map hparams
    obtain rfl := (List.cons.inj hrest).2
    obtain ⟨rfl, rfl⟩ := ih'.single h'
    exact ⟨rfl, rfl⟩
  | unary ht => exact absurd hmark.symm (not_mem_prefixes _ ht).2.1
  | _ => simp at hmark

lemma unary (ht : t ∈ prefixes) (ih : Settles (.level 15) ts [v] rest) :
    Settles .operand (t :: ts) [Tree.unary t.text v] rest := by
  obtain ⟨hbracket, hparenthesis, hword, hinteger⟩ := not_mem_prefixes t ht
  intro vs' rest' h
  cases h with
  | name hs => exact absurd (hword _ rfl) hs
  | shortArrow hs => exact absurd (hword _ rfl) hs
  | integer => exact absurd rfl (hinteger _)
  | array => exact absurd rfl hbracket
  | parentheses | arrow => exact absurd rfl hparenthesis
  | unary _ h =>
    obtain ⟨rfl, rfl⟩ := ih.single h
    exact ⟨rfl, rfl⟩

lemma level (ih : Settles .operand ts [v] ts') (ih' : Settles (.behind m v) ts' vs rest) :
    Settles (.level m) ts vs rest := by
  intro vs' rest' h
  cases h with
  | level h h' =>
    obtain ⟨rfl, rfl⟩ := ih.single h
    exact ih' _ _ h'

lemma member {s : String} (hm : m ≤ 18) (ih : Settles (.behind m (Tree.member v s)) ts vs rest) :
    Settles (.behind m v) (.mark "." :: .word s :: ts) vs rest := by
  intro vs' rest' h
  generalize hmark : Token.mark "." = t at h
  cases h with
  | member _ h => exact ih _ _ h
  | binary ht => exact absurd hmark.symm (binaries_spec _ ht).1
  | stop hstop =>
    subst hmark
    have := hstop.lt_of_access (.inl rfl)
    omega
  | _ => simp at hmark

lemma element {index : List Value} (hm : m ≤ 18)
    (ih : Settles (.list false) ts index (.mark "]" :: ts'))
    (ih' : Settles (.behind m (Tree.element v (Tree.sequence index))) ts' vs rest) :
    Settles (.behind m v) (.mark "[" :: ts) vs rest := by
  intro vs' rest' h
  generalize hmark : Token.mark "[" = t at h
  cases h with
  | element _ h h' =>
    obtain ⟨rfl, rfl⟩ := ih.before h
    exact ih' _ _ h'
  | binary ht => exact absurd hmark.symm (binaries_spec _ ht).2.1
  | stop hstop =>
    subst hmark
    have := hstop.lt_of_access (.inr (.inl rfl))
    omega
  | _ => simp at hmark

lemma call {arguments : List Value} (hm : m ≤ 18)
    (ih : Settles (.list true) ts arguments (.mark ")" :: ts'))
    (ih' : Settles (.behind m (Tree.call v arguments)) ts' vs rest) :
    Settles (.behind m v) (.mark "(" :: ts) vs rest := by
  intro vs' rest' h
  generalize hmark : Token.mark "(" = t at h
  cases h with
  | call _ h h' =>
    obtain ⟨rfl, rfl⟩ := ih.before h
    exact ih' _ _ h'
  | binary ht => exact absurd hmark.symm (binaries_spec _ ht).2.2.1
  | stop hstop =>
    subst hmark
    have := hstop.lt_of_access (.inr (.inr rfl))
    omega
  | _ => simp at hmark

lemma conditional {first second : Value} {ts'' : List Token} (hm : m ≤ 3)
    (ih : Settles (.level 2) ts [first] (.mark ":" :: ts'))
    (ih' : Settles (.level 2) ts' [second] ts'')
    (ih'' : Settles (.behind m (Tree.conditional v first second)) ts'' vs rest) :
    Settles (.behind m v) (.mark "?" :: ts) vs rest := by
  intro vs' rest' h
  generalize hmark : Token.mark "?" = t at h
  cases h with
  | conditional _ h h' h'' =>
    obtain ⟨hfirst, rfl⟩ := ih.before h
    obtain rfl := List.singleton_inj.mp hfirst
    obtain ⟨rfl, rfl⟩ := ih'.single h'
    exact ih'' _ _ h''
  | binary ht => exact absurd hmark.symm (binaries_spec _ ht).2.2.2.1
  | stop hstop =>
    subst hmark
    have := hstop.lt_of_question
    omega
  | _ => simp at hmark

lemma binary (ht : (t, l) ∈ binaries) (hm : m ≤ l)
    (ih : Settles (.level (rightLevel t l)) ts [v'] ts')
    (ih' : Settles (.behind m (Tree.binary t.text v v')) ts' vs rest) :
    Settles (.behind m v) (t :: ts) vs rest := by
  obtain ⟨hpoint, hbracket, hparenthesis, hquestion, hlevel⟩ := binaries_spec _ ht
  intro vs' rest' h
  cases h with
  | member => exact absurd rfl hpoint
  | element => exact absurd rfl hbracket
  | call => exact absurd rfl hparenthesis
  | conditional => exact absurd rfl hquestion
  | binary ht' _ h h' =>
    obtain rfl := (Prod.mk.inj (hlevel _ ht' rfl)).2
    obtain ⟨rfl, rfl⟩ := ih.single h
    exact ih' _ _ h'
  | stop hstop =>
    have := hstop.lt (mem_extensions_of_binary ht)
    omega

lemma stop (hstop : Stops m ts) : Settles (.behind m v) ts [v] ts := by
  intro vs' rest' h
  cases h with
  | stop => exact ⟨rfl, rfl⟩
  | member hm =>
    have := hstop.lt_of_access (.inl rfl)
    omega
  | element hm =>
    have := hstop.lt_of_access (.inr (.inl rfl))
    omega
  | call hm =>
    have := hstop.lt_of_access (.inr (.inr rfl))
    omega
  | conditional hm =>
    have := hstop.lt_of_question
    omega
  | binary ht hm =>
    have := hstop.lt (mem_extensions_of_binary ht)
    omega

lemma plain (hts : ts.head? ≠ some (.mark "...")) (ih : Settles (.level 2) ts vs rest) :
    Settles (.item b) ts vs rest := by
  intro vs' rest' h
  cases h with
  | plain _ h => exact ih _ _ h
  | spread => simp at hts

lemma spread (ih : Settles (.level 2) ts [v] rest) :
    Settles (.item true) (.mark "..." :: ts) [Tree.spread v] rest := by
  intro vs' rest' h
  cases h with
  | plain hts => simp at hts
  | spread h =>
    obtain ⟨rfl, rfl⟩ := ih.single h
    exact ⟨rfl, rfl⟩

lemma empty (hcloses : Closes ts) : Settles (.list b) ts [] ts := by
  intro vs' rest' h
  cases h with
  | empty => exact ⟨rfl, rfl⟩
  | last h => exact absurd hcloses h.not_closes_of_item
  | cons h => exact absurd hcloses h.not_closes_of_item

lemma last (hcloses : ¬ Closes ts) (ih : Settles (.item b) ts vs rest)
    (hrest : rest.head? ≠ some (.mark ",")) : Settles (.list b) ts vs rest := by
  intro vs' rest' h
  cases h with
  | empty h => exact absurd h hcloses
  | last h => exact ih _ _ h
  | cons h =>
    obtain ⟨-, rfl⟩ := ih _ _ h
    simp at hrest

lemma cons (hcloses : ¬ Closes ts) (ih : Settles (.item b) ts [v] (.mark "," :: ts'))
    (ih' : Settles (.list b) ts' vs rest) : Settles (.list b) ts (v :: vs) rest := by
  intro vs' rest' h
  cases h with
  | empty h => exact absurd h hcloses
  | last h hrest =>
    obtain ⟨-, rfl⟩ := ih _ _ h
    simp at hrest
  | cons h h' =>
    obtain ⟨hv, rfl⟩ := ih.before h
    obtain rfl := List.singleton_inj.mp hv
    obtain ⟨rfl, rfl⟩ := ih' _ _ h'
    exact ⟨rfl, rfl⟩

end Settles

/-- The next token decides how to go on, so that no more than one result is read. -/
theorem Reads.settles {task : Task} (h : Reads task ts vs rest) : Settles task ts vs rest := by
  induction h with
  | name hs hts => exact .name hs hts
  | shortArrow hs _ ih => exact .shortArrow hs ih
  | integer => exact .integer
  | array _ ih => exact .array ih
  | parentheses _ hrest ih => exact .parentheses ih hrest
  | arrow _ _ ih ih' => exact .arrow ih ih'
  | unary ht _ ih => exact .unary ht ih
  | level _ _ ih ih' => exact .level ih ih'
  | member hm _ ih => exact .member hm ih
  | element hm _ _ ih ih' => exact .element hm ih ih'
  | call hm _ _ ih ih' => exact .call hm ih ih'
  | conditional hm _ _ _ ih ih' ih'' => exact .conditional hm ih ih' ih''
  | binary ht hm _ _ ih ih' => exact .binary ht hm ih ih'
  | stop hstop => exact .stop hstop
  | plain hts _ ih => exact .plain hts ih
  | spread _ ih => exact .spread ih
  | empty hcloses => exact .empty hcloses
  | last h hrest ih => exact .last h.not_closes_of_item ih hrest
  | cons h _ ih ih' => exact .cons h.not_closes_of_item ih ih'

end JsxControl.Parsing
