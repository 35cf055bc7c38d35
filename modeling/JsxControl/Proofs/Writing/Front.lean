import JsxControl.Proofs.Outline.Compact
import JsxControl.Proofs.Writing.Decided

/-!
# What a text begins with

The text of an expression begins with that of its leftmost operand, unless this operand is in
parentheses. `Node.Leads` is the step from an expression to such an operand, so that a text begins
with a brace exactly if a chain of these steps ends at an object.
-/

namespace JsxControl

open Source

/-! ### The first character -/

namespace Source

/-- A text begins with a character. -/
def Opens (c : Char) (s : String) : Prop := s.toList.head? = some c

variable {c : Char} {s : String}

lemma Opens.append (h : Opens c s) (t : String) : Opens c (s ++ t) := by
  rw [Opens, String.toList_append, List.head?_append, h, Option.some_or]

@[grind .]
lemma beginsWith_self (s : String) : beginsWith s s = true :=
  List.isPrefixOf_iff_prefix.mpr List.prefix_rfl

@[grind .]
lemma beginsWith_append {whole part : String} (h : beginsWith whole part = true) (more : String) :
    beginsWith (whole ++ more) part = true := by
  rw [beginsWith, List.isPrefixOf_iff_prefix] at h ⊢
  rw [String.toList_append]
  exact h.trans (List.prefix_append _ _)

lemma Opens.of_beginsWith {whole part : String} (h : Opens c part)
    (hpart : beginsWith whole part = true) : Opens c whole := by
  obtain ⟨more, hmore⟩ := List.isPrefixOf_iff_prefix.mp hpart
  rw [Opens, ← hmore, List.head?_append, h, Option.some_or]

lemma Opens.exists_mem (h : s ≠ "") : ∃ c ∈ s.toList, Opens c s := by
  cases hs : s.toList with
  | nil => exact absurd (String.toList_eq_nil_iff.mp hs) h
  | cons c cs => exact ⟨c, List.mem_cons_self, by rw [Opens, hs]; rfl⟩

lemma beginsWith_brace_iff (h : Opens c s) : beginsWith s "\x7b" = true ↔ c = '\x7b' := by
  obtain ⟨cs, hs⟩ := List.head?_eq_some_iff.mp h
  rw [beginsWith, hs, show "\x7b".toList = ['\x7b'] from rfl, List.isPrefixOf_cons_cons,
    List.isPrefixOf_nil_left, Bool.and_true, beq_iff_eq, eq_comm]

lemma not_beginsWith_brace (h : Opens c s) (hc : c ≠ '\x7b') : beginsWith s "\x7b" = false := by
  rw [← Bool.not_eq_true, beginsWith_brace_iff h]
  exact hc

lemma opens_parenthesis (s : String) : Opens '(' ("(" ++ s ++ ")") := by
  simp [Opens]

/-- The text of a number is not empty, and has no brace. -/
lemma opens_numeric {s : String} (hs : s ≠ "") (h : ∀ c ∈ s.toList, Decimal.IsNumeric c) :
    ∃ c, Opens c s ∧ c ≠ '\x7b' := by
  obtain ⟨c, hmem, hc⟩ := Opens.exists_mem hs
  refine ⟨c, hc, ?_⟩
  rintro rfl
  simpa [Decimal.IsNumeric] using h _ hmem

lemma opens_toString (n : ℤ) : ∃ c, Opens c (toString n) ∧ c ≠ '\x7b' := by
  refine opens_numeric ?_ fun c => isNumeric_of_mem_toString
  rw [Ne, ← String.toList_eq_nil_iff, Decimal.toList_toString]
  simp [Decimal.digitChars, Nat.toDigits_ne_nil]

/-- The text of a scalar as a literal does not begin with a brace. -/
lemma opens_scalarText (v : Scalar) : ∃ c, Opens c (scalarText v) ∧ c ≠ '\x7b' := by
  match v with
  | .null | .bool true | .bool false => exact ⟨_, rfl, by decide⟩
  | .int n => exact opens_toString n
  | .text s => exact ⟨'"', by simp [scalarText, Text.quote, Text.quoteWith, Opens], by decide⟩
  | .float x =>
    rw [scalarText]
    split
    · exact opens_toString _
    · refine opens_numeric ?_ fun c => Double.isNumeric_of_mem_text
      obtain ⟨whole, mark, rest, htext, -⟩ := x.exists_mark
      rw [Ne, ← String.toList_eq_nil_iff, htext]
      simp

/-- A statement that is an expression does not begin with a brace. -/
lemma beginsWith_expressionStatement (s : String) :
    beginsWith (expressionStatement s) "\x7b" = false := by
  rw [expressionStatement]
  split_ifs with hguard
  · exact not_beginsWith_brace ((opens_parenthesis s).append ";") (by decide)
  · have hbrace : ¬ beginsWith s "\x7b" = true := fun h => hguard (by rw [h, Bool.true_or])
    by_cases hs : s = ""
    · subst hs
      rfl
    · obtain ⟨c, -, hc⟩ := Opens.exists_mem hs
      exact not_beginsWith_brace (hc.append ";") (mt (beginsWith_brace_iff hc).mpr hbrace)

end Source

/-! ### The operand at the front -/

/-- The kinds of expressions; an unknown kind may be one. -/
def Kind.isExpression : Kind → Bool
  | .identifier | .literal | .memberExpression | .callExpression | .arrowFunctionExpression
  | .conditionalExpression | .unaryExpression | .binaryExpression | .logicalExpression
  | .arrayExpression | .objectExpression | .jsxElement | .jsxFragment | .other _ => true
  | _ => false

/-- The character of its own that the text of an expression begins with, whatever stands in it. -/
def Kind.bracket? : Kind → Option Char
  | .arrowFunctionExpression => some '('
  | .arrayExpression => some '['
  | .objectExpression => some '\x7b'
  | .jsxElement | .jsxFragment => some '<'
  | .other _ => some '/'
  | _ => none

lemma Kind.bracket?_eq_brace_iff {kind : Kind} :
    kind.bracket? = some '\x7b' ↔ kind = .objectExpression := by
  cases kind <;> simp [bracket?]

namespace Node

/-- The operand that an expression begins with, and the level that its place asks for. -/
def front? (n : Node) : Option (Nat × Node) :=
  match n.kind, n.fields with
  | .memberExpression, (_, .node object) :: _ => some (callLevel, object)
  | .callExpression, (_, .node callee) :: _ => some (callLevel, callee)
  | .conditionalExpression, (_, .node test) :: _ => some (conditionalLevel + 1, test)
  | .binaryExpression, (_, .scalar operator) :: (_, .node left) :: _
  | .logicalExpression, (_, .scalar operator) :: (_, .node left) :: _ =>
    some ((operandLevels (.scalar operator) (operatorLevel operator)).1, left)
  | _, _ => none

/-- An expression begins with an operand that gets no parentheses: its level is not below that of
the place, and it is no literal integer in front of a point. -/
def Leads (n m : Node) : Prop :=
  ∃ least level, n.front? = some (least, m) ∧ levelOfNode m = .ok level ∧ least ≤ level ∧
    (n.kind = .memberExpression → isIntegerLiteral (.node m) = .ok false)

/-- An expression is an object, or has one at its front. -/
def BeginsWithObject (n : Node) : Prop :=
  ∃ m, Relation.ReflTransGen Leads n m ∧ m.kind = .objectExpression

/-- A node is an expression, and what it spells out of itself, a name, an operator or the text of a
literal, is not empty and does not begin with a brace. -/
structure Spelled (n : Node) : Prop where
  expression : n.kind.isExpression = true
  spelling : ∀ name ∈ ["name", "operator", "raw"], ∀ s, n.field name = .ok (.text s) →
    ∃ c, Opens c s ∧ c ≠ '\x7b'

variable {n m : Node} {depth least : Nat} {s : String}

lemma isOther_of_front? (h : n.front? = some (least, m)) : n.kind.isOther = false := by
  cases hkind : n.kind with
  | other => simp [front?, hkind] at h
  | _ => rfl

lemma kind_ne_of_front? (h : n.front? = some (least, m)) : n.kind ≠ .objectExpression := by
  intro hkind
  simp [front?, hkind] at h

lemma beginsWithObject_of_front?_eq_none (h : n.front? = none) :
    n.BeginsWithObject ↔ n.kind = .objectExpression := by
  constructor
  · rintro ⟨m, hm, hkind⟩
    obtain rfl | ⟨l, ⟨_, _, hl, -⟩, -⟩ := hm.cases_head
    · exact hkind
    · simp [h] at hl
  · exact fun hkind => ⟨n, .refl, hkind⟩

lemma beginsWithObject_of_front? (h : n.front? = some (least, m)) :
    n.BeginsWithObject ↔ n.Leads m ∧ m.BeginsWithObject := by
  constructor
  · rintro ⟨l, hl, hkind⟩
    obtain rfl | ⟨k, hk, hkl⟩ := hl.cases_head
    · exact absurd hkind (kind_ne_of_front? h)
    · obtain rfl : m = k := by
        obtain ⟨_, _, hfront, -⟩ := hk
        exact (Prod.mk.inj (Option.some.inj (h.symm.trans hfront))).2
      exact ⟨hk, l, hkl, hkind⟩
  · rintro ⟨hm, l, hl, hkind⟩
    exact ⟨l, .head hm hl, hkind⟩

/-! ### Operands in typed trees -/

/-- What a typed node is written as is a text. -/
lemma text_of_sourceAt (hm : m.Everywhere Typed) {v : Value} (h : m.sourceAt depth = .ok v) :
    ∃ t, v = .text t := by
  rcases (m.decided hm).written with hendless | hwritten
  · simp [hendless depth] at h
  · obtain ⟨t, ht⟩ := hwritten depth
    exact ⟨t, Except.ok.inj (h.symm.trans ht)⟩

lemma enclose_text {t : String} {v : Value} (h : enclose least (.node m) (.text t) = .ok v) :
    ∃ level, levelOfNode m = .ok level ∧
      v = .text (if level < least then "(" ++ t ++ ")" else t) := by
  obtain ⟨level, hlevel, hv⟩ := bind_eq_ok_iff.mp h
  refine ⟨level, hlevel, ?_⟩
  rw [← Except.ok.inj hv]
  split_ifs <;> simp

lemma eq_of_text {t : String} (h : (pure (Value.text s) : Except Fault Value) = .ok (.text t)) :
    s = t :=
  Scalar.text.inj (Value.scalar.inj (Except.ok.inj h))

/-- The operand at the front of an expression in the place it has there. -/
lemma leads_or_opens (hfront : n.front? = some (least, m)) {t : String} {v : Value}
    (h : enclose least (.node m) (.text t) = .ok v) {integer : Bool}
    (hinteger : n.kind = .memberExpression → isIntegerLiteral (.node m) = .ok integer)
    (hmember : integer = true → n.kind = .memberExpression) :
    n.Leads m ∧ (if integer then "(" ++ v.shown ++ ")" else v.shown) = t ∨
      ¬ n.Leads m ∧ Opens '(' (if integer then "(" ++ v.shown ++ ")" else v.shown) := by
  obtain ⟨level, hlevel, rfl⟩ := enclose_text h
  have hleads : n.Leads m ↔ least ≤ level ∧ integer = false := by
    constructor
    · rintro ⟨least', level', hfront', hlevel', hle, hplain⟩
      obtain ⟨rfl, -⟩ := Prod.mk.inj (Option.some.inj (hfront.symm.trans hfront'))
      obtain rfl := Except.ok.inj (hlevel.symm.trans hlevel')
      refine ⟨hle, ?_⟩
      by_contra hset
      rw [Bool.not_eq_false] at hset
      have hok := (hinteger (hmember hset)).symm.trans (hplain (hmember hset))
      exact absurd (hset.symm.trans (Except.ok.inj hok)) (by decide)
    · rintro ⟨hle, rfl⟩
      exact ⟨least, level, hfront, hlevel, hle, hinteger⟩
  rw [hleads]
  cases integer with
  | true => exact .inr ⟨by simp, opens_parenthesis _⟩
  | false =>
    by_cases hle : least ≤ level
    · exact .inl ⟨⟨hle, rfl⟩, by simp [Nat.not_lt.mpr hle]⟩
    · exact .inr ⟨by simp [hle], by simpa [Nat.not_le.mp hle] using opens_parenthesis t⟩

/-- The text of an expression is made from that of the operand at its front, in its place, with more
text behind it. -/
lemma exists_placed (hn : n.Typed) (hfront : n.front? = some (least, m))
    (hs : n.sourceAt depth = .ok (.text s)) :
    n.Holds m ∧ ∃ written v integer, m.sourceAt depth = .ok written ∧
      enclose least (.node m) written = .ok v ∧
      (n.kind = .memberExpression → isIntegerLiteral (.node m) = .ok integer) ∧
      (integer = true → n.kind = .memberExpression) ∧
      beginsWith s (if integer then "(" ++ v.shown ++ ")" else v.shown) = true := by
  have hfields := hn.fields (isOther_of_front? hfront)
  obtain ⟨kind, fields, origin⟩ := n
  have hholds {name : String} (h : (name, .node m) ∈ fields) : (mk kind fields origin).Holds m :=
    ⟨_, h, by simp [Value.slotNodes]⟩
  cases kind
  all_goals
    simp only [Kind.types, Kind.demands, Demand.met_cons_iff, List.forall₂_nil_left_iff] at hfields
  case memberExpression =>
    obtain ⟨_, ⟨object, rfl, -⟩, _, rfl, property, -, _, rfl, computed, -, _, rfl, optional, -, _,
      rfl, rfl⟩ := hfields
    obtain ⟨rfl, rfl⟩ := Prod.mk.inj (Option.some.inj hfront)
    simp only [sourceAt, Value.sourceAt, bind_eq_ok_iff] at hs
    obtain ⟨written, hwritten, v, hv, integer, hinteger, name, -, hs⟩ := hs
    refine ⟨hholds List.mem_cons_self, written, v, integer, hwritten, hv, fun _ => hinteger,
      fun _ => rfl, ?_⟩
    split at hs
    · obtain rfl := eq_of_text hs
      grind
    · obtain rfl := eq_of_text hs
      grind
  case callExpression =>
    obtain ⟨_, ⟨callee, rfl, -⟩, _, rfl, arguments, -, _, rfl, optional, -, _, rfl, rfl⟩ := hfields
    obtain ⟨rfl, rfl⟩ := Prod.mk.inj (Option.some.inj hfront)
    simp only [sourceAt, Value.sourceAt, bind_eq_ok_iff] at hs
    obtain ⟨written, hwritten, v, hv, operands, -, texts, -, hs⟩ := hs
    obtain rfl := eq_of_text hs
    exact ⟨hholds List.mem_cons_self, written, v, false, hwritten, hv, by simp, by simp, by grind⟩
  case conditionalExpression =>
    obtain ⟨_, ⟨test, rfl, -⟩, _, rfl, consequent, -, _, rfl, alternate, -, _, rfl, rfl⟩ := hfields
    obtain ⟨rfl, rfl⟩ := Prod.mk.inj (Option.some.inj hfront)
    simp only [sourceAt, Value.sourceAt, bind_eq_ok_iff] at hs
    obtain ⟨written, hwritten, v, hv, _, -, first, -, _, -, second, -, hs⟩ := hs
    obtain rfl := eq_of_text hs
    exact ⟨hholds List.mem_cons_self, written, v, false, hwritten, hv, by simp, by simp, by grind⟩
  case binaryExpression | logicalExpression =>
    obtain ⟨_, ⟨operator, rfl⟩, _, rfl, _, ⟨left, rfl, -⟩, _, rfl, right, -, _, rfl, rfl⟩ := hfields
    obtain ⟨rfl, rfl⟩ := Prod.mk.inj (Option.some.inj hfront)
    simp only [sourceAt, Value.sourceAt, Value.key, ok_bind, bind_eq_ok_iff] at hs
    obtain ⟨written, hwritten, v, hv, _, -, second, -, hs⟩ := hs
    obtain rfl := eq_of_text hs
    exact ⟨hholds (List.mem_cons_of_mem _ List.mem_cons_self), written, v, false, hwritten, hv,
      by simp, by simp, by grind⟩
  all_goals simp [front?] at hfront

/-! ### The first character of an expression -/

/-- The text of an arrow function, with its body in its place. -/
lemma exists_of_arrow {params body expression : Value} {origin : Origin}
    (hs : (mk .arrowFunctionExpression [("params", params), ("body", body),
      ("expression", expression)] origin).sourceAt depth = .ok (.text s)) :
    ∃ parts names written result, params.sourceParts depth .plain = .ok parts ∧
      joined ", " parts = .ok names ∧ body.sourceAt depth = .ok written ∧
      (if body.isA .blockStatement then .ok written
        else if body.isA .objectExpression then .ok (.text ("(" ++ written.shown ++ ")"))
        else enclose assignLevel body written) = .ok result ∧
      s = "(" ++ names ++ ") => " ++ result.shown := by
  simp only [sourceAt, bind_eq_ok_iff] at hs
  obtain ⟨parts, hparts, names, hnames, written, hwritten, hs⟩ := hs
  refine ⟨parts, names, written, ?_⟩
  split_ifs at hs ⊢
  all_goals
    obtain ⟨result, hresult, hs⟩ := bind_eq_ok_iff.mp hs
    exact ⟨result, hparts, hnames, hwritten, hresult, (eq_of_text hs).symm⟩

/-- An opening tag begins with its bracket. -/
lemma exists_of_openingElement (hm : m.Typed) (hkind : m.kind = .jsxOpeningElement) {v : Value}
    (h : m.sourceAt depth = .ok v) : ∃ inner, v = .text ("<" ++ inner ++ ">") := by
  have hfields := hm.fields (by rw [hkind]; rfl)
  obtain ⟨kind, fields, origin⟩ := m
  obtain rfl : kind = .jsxOpeningElement := hkind
  simp only [Kind.types, Demand.met_cons_iff, List.forall₂_nil_left_iff] at hfields
  obtain ⟨name, -, _, rfl, attributes, -, _, rfl, closed, -, _, rfl, rfl⟩ := hfields
  simp only [sourceAt, bind_eq_ok_iff] at h
  obtain ⟨first, -, others, -, inner, -, h⟩ := h
  exact ⟨inner, (Except.ok.inj h).symm⟩

/-- The text of an element begins with that of its opening tag. -/
lemma opens_element (hn : n.Everywhere Typed) (hkind : n.kind = .jsxElement)
    (hs : n.sourceAt depth = .ok (.text s)) : Opens '<' s := by
  have hfields := hn.here.fields (by rw [hkind]; rfl)
  obtain ⟨kind, fields, origin⟩ := n
  obtain rfl : kind = .jsxElement := hkind
  simp only [Kind.types, Kind.demands, Demand.met_cons_iff, List.forall₂_nil_left_iff] at hfields
  obtain ⟨_, ⟨opening, rfl, hopening⟩, _, rfl, children, -, _, rfl, closing, -, _, rfl, rfl⟩ :=
    hfields
  simp only [sourceAt, Value.sourceAt, bind_eq_ok_iff] at hs
  obtain ⟨parts, -, inner, -, start, hstart, closed, -, hs⟩ := hs
  have htyped : opening.Typed :=
    hn opening (.single ⟨_, List.mem_cons_self, by simp [Value.slotNodes]⟩)
  obtain ⟨tag, rfl⟩ := exists_of_openingElement htyped (by simpa using hopening) hstart
  split at hs
  · obtain rfl := eq_of_text hs
    simp [Opens]
  · obtain ⟨name, -, hs⟩ := bind_eq_ok_iff.mp hs
    obtain rfl := eq_of_text hs
    simp [Opens]

/-- An expression that begins with a bracket, or as a comment, does so whatever stands in it. -/
lemma opens_bracket {c : Char} (hn : n.Everywhere Typed) (hc : n.kind.bracket? = some c)
    (hs : n.sourceAt depth = .ok (.text s)) : Opens c s := by
  cases hother : n.kind.isOther with
  | true =>
    rcases sourceAt_other hn.here hother with ⟨-, hendless⟩ | ⟨-, hcomment⟩
    · simp [hendless depth] at hs
    · obtain rfl : "/* " ++ n.kind.label ++ " */" = s := by simpa [hcomment depth] using hs
      cases hkind : n.kind with
      | other tag =>
        obtain rfl : '/' = c := by simpa [hkind, Kind.bracket?] using hc
        simp [Opens]
      | _ => simp [hkind, Kind.isOther] at hother
  | false =>
    have hfields := hn.here.fields hother
    have helement (hkind : n.kind = .jsxElement) := opens_element hn hkind hs
    obtain ⟨kind, fields, origin⟩ := n
    cases kind
    all_goals
      simp only [Kind.types, Kind.demands, Demand.met_cons_iff, List.forall₂_nil_left_iff]
        at hfields
    case arrowFunctionExpression =>
      obtain rfl := Option.some.inj hc
      obtain ⟨params, -, _, rfl, body, -, _, rfl, _, -, _, rfl, rfl⟩ := hfields
      obtain ⟨parts, names, written, result, -, -, -, -, rfl⟩ := exists_of_arrow hs
      simp [Opens]
    case arrayExpression | objectExpression =>
      obtain rfl := Option.some.inj hc
      obtain ⟨items, -, _, rfl, rfl⟩ := hfields
      simp only [sourceAt, bind_eq_ok_iff] at hs
      obtain ⟨parts, -, text, -, hs⟩ := hs
      obtain rfl := eq_of_text hs
      simp [Opens, inBraces]
    case jsxElement =>
      obtain rfl := Option.some.inj hc
      exact helement rfl
    case jsxFragment =>
      obtain rfl := Option.some.inj hc
      obtain ⟨opening, -, _, rfl, children, -, _, rfl, closing, -, _, rfl, rfl⟩ := hfields
      simp only [sourceAt, bind_eq_ok_iff] at hs
      obtain ⟨inner, -, text, -, hs⟩ := hs
      obtain rfl := eq_of_text hs
      simp [Opens]
    case other => simp [Kind.isOther] at hother
    all_goals cases hc

/-- What an expression spells out of itself does not begin with a brace. -/
lemma exists_opens_of_spelled (hn : n.Typed) (hspelled : n.Spelled)
    (hkind : n.kind ∈ [.identifier, .literal, .unaryExpression])
    (hs : n.sourceAt depth = .ok (.text s)) : ∃ c, Opens c s ∧ c ≠ '\x7b' := by
  have hspelling := hspelled.spelling
  simp only [List.mem_cons, List.not_mem_nil, or_false] at hkind
  have hfields := hn.fields (by rcases hkind with h | h | h <;> rw [h] <;> rfl)
  obtain ⟨kind, fields, origin⟩ := n
  rcases hkind with rfl | rfl | rfl
  all_goals
    simp only [Kind.types, Kind.demands, Demand.met_cons_iff, List.forall₂_nil_left_iff] at hfields
  · obtain ⟨_, ⟨name, rfl⟩, _, rfl, rfl⟩ := hfields
    simp only [sourceAt] at hs
    obtain rfl := eq_of_text hs
    exact hspelling "name" (by simp) name rfl
  · obtain ⟨_, ⟨value, rfl⟩, _, rfl, raw, hraw, _, rfl, rfl⟩ := hfields
    simp only [sourceAt] at hs
    obtain rfl | ⟨raw, rfl⟩ := hraw
    · obtain rfl := eq_of_text hs
      exact opens_scalarText value
    · obtain rfl := eq_of_text hs
      exact hspelling "raw" (by simp) raw rfl
  · obtain ⟨_, ⟨operator, rfl⟩, _, rfl, argument, -, _, rfl, _, -, _, rfl, rfl⟩ := hfields
    simp only [sourceAt, unary, bind_eq_ok_iff] at hs
    obtain ⟨written, -, v, -, text, ⟨word, hword, htext⟩, hs⟩ := hs
    obtain rfl : operator = word := Except.ok.inj hword
    obtain rfl := eq_of_text hs
    obtain rfl := Except.ok.inj htext
    obtain ⟨c, hc, hbrace⟩ := hspelling "operator" (by simp) operator rfl
    exact ⟨c, hc.of_beginsWith (by split_ifs <;> grind), hbrace⟩

/-- An expression begins with a bracket, with what it spells out of itself or with an operand. -/
lemma mem_of_front?_eq_none (hn : n.Typed) (hexpression : n.kind.isExpression = true)
    (hbracket : n.kind.bracket? = none) (hfront : n.front? = none) :
    n.kind ∈ [.identifier, .literal, .unaryExpression] := by
  have hfields := hn.fields
  obtain ⟨kind, fields, origin⟩ := n
  cases kind
  case identifier | literal | unaryExpression => simp
  case memberExpression | callExpression | conditionalExpression =>
    replace hfields := hfields rfl
    simp only [Kind.types, Kind.demands, Demand.met_cons_iff] at hfields
    obtain ⟨_, ⟨operand, rfl, -⟩, _, rfl, -⟩ := hfields
    simp [front?] at hfront
  case binaryExpression | logicalExpression =>
    replace hfields := hfields rfl
    simp only [Kind.types, Kind.demands, Demand.met_cons_iff] at hfields
    obtain ⟨_, ⟨operator, rfl⟩, _, rfl, _, ⟨left, rfl, -⟩, _, rfl, -⟩ := hfields
    simp [front?] at hfront
  all_goals simp [Kind.isExpression, Kind.bracket?] at hexpression hbracket

/-- What no operand stands at the front of begins with a character of its own, which is a brace only
of an object. -/
lemma exists_opens_of_front?_eq_none (hn : n.Everywhere Typed) (hspelled : n.Spelled)
    (hfront : n.front? = none) (hs : n.sourceAt depth = .ok (.text s)) :
    ∃ c, Opens c s ∧ (c = '\x7b' ↔ n.kind = .objectExpression) := by
  cases hbracket : n.kind.bracket? with
  | some c =>
    refine ⟨c, opens_bracket hn hbracket hs, ?_⟩
    rw [← Kind.bracket?_eq_brace_iff, hbracket, Option.some.injEq]
  | none =>
    have hkind := mem_of_front?_eq_none hn.here hspelled.expression hbracket hfront
    obtain ⟨c, hc, hbrace⟩ := exists_opens_of_spelled hn.here hspelled hkind hs
    refine ⟨c, hc, iff_of_false hbrace ?_⟩
    rw [← Kind.bracket?_eq_brace_iff, hbracket]
    simp

/-- The text of an expression begins as that of the operand at its front, unless this is in
parentheses. -/
lemma leads_or_parenthesis (hn : n.Everywhere Typed) (hfront : n.front? = some (least, m))
    (hs : n.sourceAt depth = .ok (.text s)) :
    n.Holds m ∧ ∃ t, m.sourceAt depth = .ok (.text t) ∧
      (n.Leads m ∧ beginsWith s t = true ∨ ¬ n.Leads m ∧ Opens '(' s) := by
  obtain ⟨hholds, written, v, integer, hwritten, hv, hinteger, hmember, hbegins⟩ :=
    exists_placed hn.here hfront hs
  obtain ⟨t, rfl⟩ := text_of_sourceAt (fun l hl => hn l (.head hholds hl)) hwritten
  refine ⟨hholds, t, hwritten, ?_⟩
  rcases leads_or_opens hfront hv hinteger hmember with ⟨hleads, rfl⟩ | ⟨hleads, hopens⟩
  · exact .inl ⟨hleads, hbegins⟩
  · exact .inr ⟨hleads, hopens.of_beginsWith hbegins⟩

/-- The text of an expression begins with a brace exactly if an object stands at its front. -/
lemma exists_opens (n : Node) (hn : n.Everywhere Typed)
    (hspelled : ∀ m, Relation.ReflTransGen Leads n m → m.Spelled)
    (hs : n.sourceAt depth = .ok (.text s)) :
    ∃ c, Opens c s ∧ (c = '\x7b' ↔ n.BeginsWithObject) := by
  induction n using slot_induction generalizing s with
  | step n ih =>
    cases hfront : n.front? with
    | none =>
      rw [beginsWithObject_of_front?_eq_none hfront]
      exact exists_opens_of_front?_eq_none hn (hspelled n .refl) hfront hs
    | some front =>
      obtain ⟨least, m⟩ := front
      rw [beginsWithObject_of_front? hfront]
      obtain ⟨hholds, t, ht, ⟨hleads, hbegins⟩ | ⟨hleads, hopens⟩⟩ :=
        leads_or_parenthesis hn hfront hs
      · obtain ⟨c, hc, hbrace⟩ := ih m hholds (fun l hl => hn l (.head hholds hl))
          (fun l hl => hspelled l (.head hleads hl)) ht
        exact ⟨c, hc.of_beginsWith hbegins, by simp [hbrace, hleads]⟩
      · exact ⟨'(', hopens, by simp [hleads]⟩

end Node

end JsxControl
