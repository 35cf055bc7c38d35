import JsxControl.Proofs.Acceptance.Desugared
import JsxControl.Proofs.Writing.Front

/-!
# Bodies and statements

An expression that stands as a statement, or as the body of a function, must not begin with a brace,
since that would be read as a block. A statement is judged by its text and never does. The body of a
function is judged by its kind: it gets parentheses if it is an object, but not if an object stands
at its front.
-/

namespace JsxControl

open Source

namespace Node

variable {n : Node} {depth : ℕ} {s : String}

/-- The table of operators starts above the assignment. -/
lemma assignLevel_le_operatorLevel (operator : Scalar) : assignLevel ≤ operatorLevel operator := by
  have htable : ∀ e ∈ operatorLevels, assignLevel ≤ e.2 := by decide
  have hrest : assignLevel ≤ unaryLevel - 1 := by decide
  cases operator with
  | text s =>
    rw [operatorLevel]
    cases hs : operatorLevels.lookup s with
    | none => exact hrest
    | some l =>
      obtain ⟨before, after, hsplit, -⟩ := List.lookup_eq_some_iff.mp hs
      exact htable (s, l) (by rw [hsplit]; simp)
  | _ => exact hrest

/-- Only an unknown kind needs parentheses in the place of an assignment, and no object stands at
the front of it. -/
lemma not_beginsWithObject_of_lt {level : ℕ} (h : levelOfNode n = .ok level)
    (hlt : level < assignLevel) : ¬ n.BeginsWithObject := by
  obtain ⟨tag, hkind⟩ : ∃ tag, n.kind = .other tag := by
    unfold levelOfNode at h
    split at h
    case h_1 | h_2 =>
      simp only [bind_eq_ok_iff] at h
      obtain ⟨_, -, operator, -, h⟩ := h
      obtain rfl := Except.ok.inj h
      exact absurd hlt (assignLevel_le_operatorLevel operator).not_gt
    case h_8 tag hkind => exact ⟨tag, hkind⟩
    all_goals
      obtain rfl := Except.ok.inj h
      exact absurd hlt (by decide)
  rw [beginsWithObject_of_front?_eq_none (by simp [front?, hkind]), hkind]
  simp

/-- Writing a node gives a text with a property, unless a mistaken node is tried at some depth. -/
def Writes (n : Node) (depth : ℕ) (P : String → Prop) : Prop :=
  Yields (∃ m, Relation.ReflTransGen Tries n m ∧ m.Mistaken)
    (fun v => ∃ s, v = .text s ∧ P s) (n.sourceAt depth)

lemma writes_of_sourceAt {P : String → Prop} (hn : n.Everywhere Typed)
    (h : ∀ s, n.sourceAt depth = .ok (.text s) → P s) : n.Writes depth P := by
  rw [Writes]
  rcases (n.decided hn).written with hendless | hwritten
  · rw [hendless depth]
    exact .endless ((n.endless_iff hn).mp hendless)
  · obtain ⟨s, hs⟩ := hwritten depth
    rw [hs]
    exact .ok ⟨s, rfl, h s hs⟩

lemma Writes.of_sourceAt {P : String → Prop} (h : n.Writes depth P)
    (hs : n.sourceAt depth = .ok (.text s)) : P s := by
  rw [Writes, hs] at h
  cases h with
  | ok h =>
    obtain ⟨t, ht, h⟩ := h
    obtain rfl : s = t := Scalar.text.inj (Value.scalar.inj ht)
    exact h

/-- A statement that is an expression does not begin with a brace. -/
lemma beginsWith_of_statement (hn : n.Typed) (hkind : n.kind = .expressionStatement)
    (hs : n.sourceAt depth = .ok (.text s)) : beginsWith s "\x7b" = false := by
  have hfields := hn.fields (by rw [hkind]; rfl)
  obtain ⟨kind, fields, origin⟩ := n
  obtain rfl : kind = .expressionStatement := hkind
  simp only [Kind.types, Kind.demands, Demand.met_cons_iff, List.forall₂_nil_left_iff] at hfields
  obtain ⟨expression, -, _, rfl, rfl⟩ := hfields
  simp only [sourceAt, bind_eq_ok_iff] at hs
  obtain ⟨written, -, t, -, hs⟩ := hs
  obtain rfl := eq_of_text hs
  exact beginsWith_expressionStatement t

/-- The body of an arrow function in its place. -/
lemma beginsWith_of_body {body : Node} (hn : body.Everywhere Typed)
    (hspelled : ∀ m, Relation.ReflTransGen Leads body m → m.Spelled) {written result : Value}
    (hwritten : body.sourceAt depth = .ok written)
    (hresult : (if body.kind = .objectExpression then .ok (.text ("(" ++ written.shown ++ ")"))
      else enclose assignLevel (.node body) written) = .ok result) :
    beginsWith result.shown "\x7b" = true ↔
      body.kind ≠ .objectExpression ∧ body.BeginsWithObject := by
  obtain ⟨t, rfl⟩ := text_of_sourceAt hn hwritten
  split_ifs at hresult with hobject
  · obtain rfl := Except.ok.inj hresult
    rw [Value.shown_text, Value.shown_text, beginsWith_brace_iff (opens_parenthesis t)]
    simp [hobject]
  · obtain ⟨level, hlevel, rfl⟩ := enclose_text hresult
    obtain ⟨c, hc, hbrace⟩ := exists_opens body hn hspelled hwritten
    rw [Value.shown_text]
    split_ifs with hless
    · rw [beginsWith_brace_iff (opens_parenthesis t)]
      simp [not_beginsWithObject_of_lt hlevel hless]
    · rw [beginsWith_brace_iff hc]
      simp [hbrace, hobject]

/-- Only the body of a function is written so that it begins with a brace: where an object stands at
the front of it, but not where it is an object itself. A statement that is an expression never
begins with one. -/
theorem begins_with_brace_iff (hn : n.Everywhere Typed) (depth : ℕ) :
    (n.kind = .expressionStatement → n.Writes depth fun s => beginsWith s "\x7b" = false) ∧
      ∀ (params : Value) (body : Node), n.kind = .arrowFunctionExpression →
        n.field "params" = .ok params → n.field "body" = .ok (.node body) →
        body.kind ≠ .blockStatement → (∀ m, Relation.ReflTransGen Leads body m → m.Spelled) →
        n.Writes depth fun s => ∃ parts names t, params.sourceParts depth .plain = .ok parts ∧
          joined ", " parts = .ok names ∧ s = "(" ++ names ++ ") => " ++ t ∧
          (beginsWith t "\x7b" = true ↔ body.kind ≠ .objectExpression ∧ body.BeginsWithObject) := by
  refine ⟨fun hkind => writes_of_sourceAt hn fun s => beginsWith_of_statement hn.here hkind, ?_⟩
  intro params body hkind hparams hbody hblock hspelled
  refine writes_of_sourceAt hn fun s hs => ?_
  have hfields := hn.here.fields (by rw [hkind]; rfl)
  have htyped : body.Everywhere Typed := by simpa using hn.found hn.here.notes hbody
  obtain ⟨kind, fields, origin⟩ := n
  obtain rfl : kind = .arrowFunctionExpression := hkind
  simp only [Kind.types, Kind.demands, Demand.met_cons_iff, List.forall₂_nil_left_iff] at hfields
  obtain ⟨params', -, _, rfl, body', -, _, rfl, _, -, _, rfl, rfl⟩ := hfields
  obtain rfl : params' = params := Except.ok.inj hparams
  obtain rfl : body' = .node body := Except.ok.inj hbody
  obtain ⟨parts, names, written, result, hparts, hnames, hwritten, hresult, rfl⟩ :=
    exists_of_arrow hs
  refine ⟨parts, names, result.shown, hparts, hnames, rfl, ?_⟩
  refine beginsWith_of_body htyped hspelled hwritten ?_
  simpa [hblock] using hresult

/-- An object without properties. -/
def emptyObject : Node := ⟨.objectExpression, [("properties", .list [])], {}⟩

/-- The call of a member of an object that is written out. -/
def calledMember : Node :=
  call (.node (member (.node emptyObject) "b")) (.node (identifier "x"))

lemma is_calledMember : (Value.node calledMember).Is (Writable False) := by
  refine isGrammatical_call (isGrammatical_member ?_ "b") (isGrammatical_identifier "x")
  exact isGrammatical_of_made rfl (.cons ⟨rfl, _, rfl, by simp⟩ .nil)
    (by simp [Value.Everywhere, Value.slotNodes])

lemma eq_of_leads_calledMember {m : Node} (hm : Relation.ReflTransGen Leads calledMember m) :
    m ∈ [calledMember, member (.node emptyObject) "b", emptyObject] := by
  obtain rfl | ⟨l, ⟨_, _, hl, -⟩, hm⟩ := hm.cases_head
  · simp
  obtain ⟨-, rfl⟩ := Prod.mk.inj (Option.some.inj hl)
  obtain rfl | ⟨l, ⟨_, _, hl, -⟩, hm⟩ := hm.cases_head
  · simp
  obtain ⟨-, rfl⟩ := Prod.mk.inj (Option.some.inj hl)
  obtain rfl | ⟨l, ⟨_, _, hl, -⟩, hm⟩ := hm.cases_head
  · simp
  · cases hl

lemma typed_of_is {n : Node} (h : (Value.node n).Is (Writable False)) : n.Everywhere Typed :=
  ((Value.everywhere_node n).mp h.everywhere).typed

/-- An expression that has neither a name nor an operator spells nothing out of itself. -/
lemma spelled_of_wordless {m : Node} (hexpression : m.kind.isExpression = true)
    (h : ∀ name ∈ ["name", "operator", "raw"], m.field name = .error (.noField name)) :
    m.Spelled := by
  refine ⟨hexpression, fun name hname s hs => ?_⟩
  rw [h name hname] at hs
  cases hs

lemma spelled_calledMember {m : Node} (hm : Relation.ReflTransGen Leads calledMember m) :
    m.Spelled := by
  have hmem := eq_of_leads_calledMember hm
  simp only [List.mem_cons, List.not_mem_nil, or_false] at hmem
  rcases hmem with rfl | rfl | rfl
  all_goals
    refine spelled_of_wordless rfl ?_
    simp only [List.forall_mem_cons]
    exact ⟨rfl, rfl, rfl, by simp⟩

/-- An expression as a statement. -/
def stated (expression : Node) : Node :=
  ⟨.expressionStatement, [("expression", .node expression)], {}⟩

/-- A call of a member of an object begins with a brace as the body of a function, but not as a
statement. -/
theorem calledMember_begins_with_brace :
    (arrow (.node (identifier "x")) (.node calledMember)).Everywhere Typed ∧
    (∀ m, Relation.ReflTransGen Leads calledMember m → m.Spelled) ∧
    (arrow (.node (identifier "x")) (.node calledMember)).sourceAt 0 =
      .ok (.text "(x) => \x7b\x7d.b(x)") ∧
    calledMember.kind ≠ .objectExpression ∧ calledMember.BeginsWithObject ∧
    (stated calledMember).sourceAt 0 = .ok (.text "(\x7b\x7d.b(x));") ∧
    beginsWith "(\x7b\x7d.b(x));" "\x7b" = false := by
  have hwritten : (arrow (.node (identifier "x")) (.node calledMember)).sourceAt 0 =
      .ok (.text "(x) => \x7b\x7d.b(x)") := rfl
  have hstated : (stated calledMember).sourceAt 0 = .ok (.text "(\x7b\x7d.b(x));") := rfl
  have htyped : (arrow (.node (identifier "x")) (.node calledMember)).Everywhere Typed :=
    typed_of_is (isGrammatical_arrow (isGrammatical_identifier "x") is_calledMember)
  have hstatement : (stated calledMember).Everywhere Typed := by
    refine typed_of_is (isGrammatical_of_made rfl (.cons ⟨rfl, is_calledMember.isNode⟩ .nil) ?_)
    simp [is_calledMember.everywhere]
  have hplain := ((begins_with_brace_iff hstatement 0).1 rfl).of_sourceAt hstated
  obtain ⟨parts, names, t, hparts, hnames, htext, hbrace⟩ :=
    ((begins_with_brace_iff htyped 0).2 (.list [.node (identifier "x")]) calledMember rfl rfl rfl
      (by decide) fun m => spelled_calledMember).of_sourceAt hwritten
  obtain rfl : [.text "x"] = parts := Except.ok.inj hparts
  obtain rfl : "x" = names := Except.ok.inj hnames
  obtain rfl : "\x7b\x7d.b(x)" = t := by simpa [← String.toList_inj] using htext
  have hobject := (hbrace.mp rfl).2
  exact ⟨htyped, fun m => spelled_calledMember, hwritten, by decide, hobject, hstated, hplain⟩

end Node

end JsxControl
