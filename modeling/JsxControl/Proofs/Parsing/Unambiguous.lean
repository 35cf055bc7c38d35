import JsxControl.Proofs.Parsing.Reader

/-!
# The grammar is unambiguous

What the grammar derives is read from left to right, in front of every token that does not bind more
tightly than its level. As reading has at most one result, tokens are derived as one expression at
most.
-/

namespace JsxControl.Parsing

variable {l m : Nat} {ts ts' rest rest' : List Token} {v v' : Value} {vs vs' : List Value}

/-! ### What goes on behind an expression -/

lemma extensions_spec : ∀ e ∈ extensions,
    e.1 ∉ [.mark ")", .mark "]", .mark ",", .mark ":", .mark "=>"] ∧ e.2.1 ≤ e.2.2 ∧ 4 ≤ e.2.2 ∧
      e.2.2 ≤ 18 ∧ (e.2.2 ≤ 15 → e.2.1 < 15) ∧ (e.1 = .mark "?" → e.2.2 = 4) := by
  decide

lemma binaries_levels : ∀ b ∈ binaries, b.1 ≠ .mark "=>" ∧ b.2 ≤ leftLevel b.1 b.2 ∧
    b.2 ≤ rightLevel b.1 b.2 ∧ ∀ e ∈ extensions, (e.1 = b.1 → e.2.2 = leftLevel b.1 b.2) ∧
      (e.2.2 ≤ b.2 → e.2.1 < rightLevel b.1 b.2) := by
  decide

lemma Open.mono (h : Open l rest) {l' : Nat} (hl : l ≤ l') : Open l' rest :=
  ⟨h.1, fun t ht e he het => Nat.le_trans (h.2 t ht e he het) hl⟩

lemma Open.stops (h : Open l rest) (hm : ∀ e ∈ extensions, e.2.2 ≤ l → e.2.1 < m) :
    Stops m rest :=
  fun t ht e he het => hm e he (h.2 t ht e he het)

/-- Nothing goes on with an assignment. -/
lemma Open.stops_assignment (h : Open 3 rest) : Stops 2 rest := by
  apply h.stops
  intro e he hle
  have := (extensions_spec e he).2.2.1
  omega

lemma Open.of_three (h : Open 3 rest) : Open 2 rest := by
  refine ⟨h.1, fun t ht e he het => ?_⟩
  have := (extensions_spec e he).2.2.1
  have := h.2 t ht e he het
  omega

/-- A token behind which no expression goes on. -/
lemma open_of_mem {t : Token} (ht : t ∈ [.mark ")", .mark "]", .mark ",", .mark ":"]) :
    Open l (t :: rest) := by
  constructor
  · rintro h
    obtain rfl : t = .mark "=>" := Option.some.inj h
    simp at ht
  · intro t' ht' e he het
    obtain rfl : t = t' := by simpa using ht'
    have := (extensions_spec e he).1
    simp_all

lemma Closes.opens (h : Closes rest) : Open l rest := by
  cases rest with
  | nil => exact ⟨by simp, by simp⟩
  | cons t rest =>
    have ht : t = .mark ")" ∨ t = .mark "]" := by simpa [Closes] using h
    apply open_of_mem
    rcases ht with rfl | rfl <;> simp

lemma open_eighteen {t : Token} (ht : t ≠ .mark "=>") : Open 18 (t :: rest) := by
  refine ⟨by simpa using ht, fun t' _ e he _ => ?_⟩
  exact (extensions_spec e he).2.2.2.1

lemma open_question : Open 4 (.mark "?" :: rest) := by
  refine ⟨by simp, fun t' ht' e he het => ?_⟩
  obtain rfl : .mark "?" = t' := by simpa using ht'
  exact Nat.le_of_eq ((extensions_spec e he).2.2.2.2.2 het)

lemma open_binary {t : Token} (ht : (t, l) ∈ binaries) : Open (leftLevel t l) (t :: rest) := by
  obtain ⟨harrow, -, -, hlevels⟩ := binaries_levels _ ht
  refine ⟨by simpa using harrow, fun t' ht' e he het => ?_⟩
  obtain rfl : t = t' := by simpa using ht'
  exact Nat.le_of_eq ((hlevels e he).1 het)

/-! ### Reading finds what is derived -/

/-- An expression of a level is read in front of tokens that leave it as it is, and then reading
goes on behind it. -/
def ReadAt (l : Nat) (ts : List Token) (v : Value) : Prop :=
  ∀ m ≤ l, ∀ rest, Open l rest → ∀ vs' rest',
    Reads (.behind m v) rest vs' rest' → Reads (.level m) (ts ++ rest) vs' rest'

/-- What is derived is read in front of tokens that leave it as it is. -/
def Read : Goal → List Token → List Value → Prop
  | .expression, ts, vs => ∃ items, vs = [Tree.sequence items] ∧
      ∀ rest, Closes rest → Reads (.list false) (ts ++ rest) items rest
  | .level l, ts, vs => ∃ v, vs = [v] ∧ ReadAt l ts v
  | .item spread, ts, vs => ∀ rest, Open 2 rest → Reads (.item spread) (ts ++ rest) vs rest
  | .list spread, ts, vs => ∀ rest, Closes rest → Reads (.list spread) (ts ++ rest) vs rest

namespace ReadAt

/-- Reading ends behind an expression if the next token does not go on with it. -/
lemma ends (h : ReadAt l ts v) (hm : m ≤ l) (hopen : Open l rest) (hstops : Stops m rest) :
    Reads (.level m) (ts ++ rest) [v] rest :=
  h m hm rest hopen _ _ (.stop hstops)

lemma assignment (h : ReadAt 2 ts v) (hopen : Open 2 rest) :
    Reads (.level 2) (ts ++ rest) [v] rest :=
  h.ends (Nat.le_refl 2) hopen (hopen.mono (by decide)).stops_assignment

/-- An expression that is an operand. -/
lemma operand (h : ∀ rest, Open l rest → Reads .operand (ts ++ rest) [v] rest) : ReadAt l ts v :=
  fun _ _ rest hopen _ _ hbehind => .level (h rest hopen) hbehind

/-- An expression that is made of another one and of some tokens behind it. -/
lemma extended {l' : Nat} (h : ReadAt l' ts v) (hl : l ≤ l') {more : List Token}
    (hopen : ∀ rest, Open l' (more ++ rest))
    (hbehind : ∀ m ≤ l, ∀ rest, Open l rest → ∀ vs' rest',
      Reads (.behind m v') rest vs' rest' → Reads (.behind m v) (more ++ rest) vs' rest') :
    ReadAt l (ts ++ more) v' := by
  intro m hm rest hrest vs' rest' hread
  rw [List.append_assoc]
  exact h m (Nat.le_trans hm hl) _ (hopen rest) _ _ (hbehind m hm rest hrest _ _ hread)

end ReadAt

lemma Read.at (h : Read (.level l) ts [v]) : ReadAt l ts v := by
  obtain ⟨v', hv, hread⟩ := h
  obtain rfl := List.singleton_inj.mp hv
  exact hread

lemma reads_names {params : List String} (hparams : ∀ s ∈ params, s ∉ reserved) :
    Reads (.list false) (nameTokens params ++ .mark ")" :: rest) (params.map Tree.name)
      (.mark ")" :: rest) := by
  have hname (s : String) (hs : s ∉ reserved) (t : Token)
      (ht : t ∈ [.mark ")", .mark "]", .mark ",", .mark ":"]) (rest : List Token) :
      Reads (.item false) (.word s :: t :: rest) [Tree.name s] (t :: rest) := by
    have hopen (l : Nat) : Open l (t :: rest) := open_of_mem ht
    refine .plain (by simp) (.level (.name hs (hopen 2).1) (.stop (hopen 3).stops_assignment))
  induction params with
  | nil => exact .empty (by simp [Closes, nameTokens])
  | cons s params ih =>
    rw [List.forall_mem_cons] at hparams
    cases params with
    | nil => exact .last (hname s hparams.1 _ (by simp) rest) (by simp)
    | cons s' params => exact .cons (hname s hparams.1 _ (by simp) _) (ih hparams.2)

theorem Derives.read {goal : Goal} (h : Derives goal ts vs) : Read goal ts vs := by
  induction h with
  | name hs => exact ⟨_, rfl, .operand fun rest hopen => .name hs hopen.1⟩
  | integer n => exact ⟨_, rfl, .operand fun rest _ => .integer⟩
  | array _ ih =>
    refine ⟨_, rfl, .operand fun rest _ => .array ?_⟩
    simpa using ih (.mark "]" :: rest) (by simp [Closes])
  | parentheses _ ih =>
    obtain ⟨items, hitems, ih⟩ := ih
    obtain rfl := List.singleton_inj.mp hitems
    refine ⟨_, rfl, .operand fun rest hopen => .parentheses ?_ hopen.1⟩
    simpa using ih (.mark ")" :: rest) (by simp [Closes])
  | member _ s ih =>
    replace ih := Read.at ih
    refine ⟨_, rfl, ih.extended (Nat.le_refl 18) (fun rest => open_eighteen (by simp)) ?_⟩
    exact fun m hm rest _ vs' rest' h => .member hm h
  | element _ _ ih ih' =>
    replace ih := Read.at ih
    obtain ⟨index, hindex, ih'⟩ := ih'
    obtain rfl := List.singleton_inj.mp hindex
    refine ⟨_, rfl, ?_⟩
    rw [List.append_assoc]
    refine ih.extended (Nat.le_refl 18) (fun rest => open_eighteen (by simp)) ?_
    intro m hm rest _ vs' rest' h
    refine .element hm ?_ h
    simpa using ih' (.mark "]" :: rest) (by simp [Closes])
  | call _ _ ih ih' =>
    replace ih := Read.at ih
    refine ⟨_, rfl, ?_⟩
    rw [List.append_assoc]
    refine ih.extended (Nat.le_refl 18) (fun rest => open_eighteen (by simp)) ?_
    intro m hm rest _ vs' rest' h
    refine .call hm ?_ h
    simpa using ih' (.mark ")" :: rest) (by simp [Closes])
  | unary hoperator _ ih =>
    replace ih := Read.at ih
    refine ⟨_, rfl, .operand fun rest hopen => .unary hoperator ?_⟩
    refine ih.ends (Nat.le_refl 15) hopen (hopen.stops fun e he => ?_)
    exact (extensions_spec e he).2.2.2.2.1
  | @binary operator level _ _ _ _ hoperator _ _ ih ih' =>
    replace ih := Read.at ih
    replace ih' := Read.at ih'
    obtain ⟨-, hleft, hright, hlevels⟩ := binaries_levels _ hoperator
    refine ⟨_, rfl, ih.extended hleft (fun rest => open_binary hoperator) ?_⟩
    intro m hm rest hopen vs' rest' h
    refine .binary hoperator hm ?_ h
    refine ih'.ends (Nat.le_refl _) (hopen.mono hright) (hopen.stops fun e he => ?_)
    exact (hlevels e he).2
  | conditional _ _ _ ih ih' ih'' =>
    replace ih := Read.at ih
    replace ih' := Read.at ih'
    replace ih'' := Read.at ih''
    refine ⟨_, rfl, ?_⟩
    rw [List.append_assoc]
    refine ih.extended (by decide) (fun rest => open_question) ?_
    intro m hm rest hopen vs' rest' h
    refine .conditional hm ?_ (ih''.assignment hopen.of_three) h
    simpa using ih'.assignment (open_of_mem (by simp))
  | arrow hparams _ ih =>
    replace ih := Read.at ih
    refine ⟨_, rfl, .operand fun rest hopen => .arrow ?_ (ih.assignment hopen)⟩
    simpa using reads_names hparams
  | shortArrow hs _ ih =>
    replace ih := Read.at ih
    exact ⟨_, rfl, .operand fun rest hopen => .shortArrow hs (ih.assignment hopen)⟩
  | tighter _ hl ih =>
    obtain ⟨v, rfl, ih⟩ := ih
    refine ⟨v, rfl, fun m hm rest hopen => ?_⟩
    exact ih m (Nat.le_trans hm hl) rest (hopen.mono hl)
  | expression _ _ ih => exact ⟨_, rfl, ih⟩
  | plain _ ih =>
    obtain ⟨v, rfl, ih⟩ := ih
    intro rest hopen
    have h := ih.assignment hopen
    exact .plain h.not_closes_of_level.2 h
  | spread _ ih =>
    replace ih := Read.at ih
    exact fun rest hopen => .spread (ih.assignment hopen)
  | empty => exact fun rest hcloses => .empty hcloses
  | last _ ih =>
    intro rest hcloses
    refine .last (ih rest hcloses.opens) ?_
    rintro hcomma
    simp [Closes, hcomma] at hcloses
  | cons _ _ _ ih ih' =>
    intro rest hcloses
    refine .cons ?_ (ih' rest hcloses)
    simpa using ih (.mark "," :: (_ ++ rest)) (open_of_mem (by simp))

/-- Tokens are read as one expression at most. -/
theorem Derives.unique (h : Derives .expression ts [v]) (h' : Derives .expression ts [v']) :
    v = v' := by
  obtain ⟨items, hitems, hread⟩ := h.read
  obtain ⟨items', hitems', hread'⟩ := h'.read
  have hnil : Closes [] := by simp [Closes]
  obtain ⟨rfl, -⟩ := (hread' [] hnil).settles _ _ (hread [] hnil)
  rw [List.singleton_inj] at hitems hitems'
  rw [hitems, hitems']

end JsxControl.Parsing
