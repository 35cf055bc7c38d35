import JsxControl.Proofs.Location.Lookup
import JsxControl.Source.Text

/-!
# The source of trees without locations

A tree is written as the same text with and without locations. What it is written as need not be a
text where a field holds what it should not; then it is the same but for the locations in it.
-/

namespace JsxControl

open Source

/-! ### Levels -/

namespace Source

variable {v : Value}

lemma isIntegerLiteral_unlocated (h : v.Noteless) :
    isIntegerLiteral v.unlocated = isIntegerLiteral v := by
  unfold isIntegerLiteral
  rw [Value.isA_unlocated, Value.field_unlocated h, bind_map_left]
  split_ifs
  · refine bind_congr fun value => ?_
    cases value with
    | scalar s => rw [Value.unlocated_scalar]
    | list | record | node => simp
  · rfl

lemma level_unlocated (h : v.Noteless) : level v.unlocated = level v := by
  cases v with
  | node n =>
    have hfield : n.unlocated.field "operator" = Value.unlocated <$> n.field "operator" := by
      simpa using Value.field_unlocated h "operator"
    simp [level, levelOfNode, hfield]
  | scalar | list | record => simp [level]

lemma enclose_unlocated (h : v.Noteless) (least : Nat) (written : Value) :
    enclose least v.unlocated written.unlocated = Value.unlocated <$> enclose least v written := by
  cases hlevel : level v with
  | error => simp [enclose, level_unlocated h, hlevel]
  | ok l =>
    by_cases hleast : l < least
    · simp [enclose, level_unlocated h, hlevel, hleast]
    · simp [enclose, level_unlocated h, hlevel, hleast]

lemma unary_unlocated (operator operand : Value) :
    unary operator.unlocated operand.unlocated = unary operator operand := by
  simp [unary]

lemma joined_unlocated (separator : String) (parts : List Value) :
    joined separator (parts.map Value.unlocated) = joined separator parts := by
  simp [joined]

lemma operandLevels_unlocated (operator : Value) (l : Nat) :
    operandLevels operator.unlocated l = operandLevels operator l := by
  cases operator with
  | scalar s => rw [Value.unlocated_scalar]
  | list | record | node => simp [operandLevels]

lemma literal_unlocated (value raw : Value) :
    literal value.unlocated raw.unlocated = (literal value raw).unlocated := by
  have htext : valueText value.unlocated = valueText value := by
    cases value with
    | scalar s => rw [Value.unlocated_scalar]
    | list items => simpa [valueText] using Value.display_unlocated (.list items)
    | record members => rw [Value.unlocated_record]
    | node n => simpa [valueText] using Value.display_unlocated (.node n)
  by_cases hraw : raw.isNull = true
  · simp [literal, hraw, htext]
  · simp [literal, hraw]

lemma functionName_unlocated (h : v.Noteless) : functionName v.unlocated = functionName v := by
  simp [functionName, Value.field_unlocated h]

lemma admit_unlocated (role : Role) (v : Value) : role.admit v.unlocated = role.admit v := by
  cases role <;> cases v <;> simp [ Role.admit]

lemma finish_unlocated (h : v.Noteless) (role : Role) (written : Value) :
    role.finish v.unlocated written.unlocated = Value.unlocated <$> role.finish v written := by
  cases role with
  | operand least => exact enclose_unlocated h least written
  | statement =>
    simp only [Role.finish, Value.toText_unlocated]
    cases written.toText <;> simp
  | declarator => rfl

end Source

/-! ### Texts -/

/-- A value is written as the same with and without its locations, however it is asked for. -/
structure Value.WrittenUnlocated (v : Value) : Prop where
  noteless : v.Noteless
  source : ∀ depth, v.unlocated.sourceAt depth = unlocated <$> v.sourceAt depth
  parts : ∀ depth role, v.unlocated.sourceParts depth role =
    List.map unlocated <$> v.sourceParts depth role
  name : ∀ depth, v.unlocated.nameAt depth = unlocated <$> v.nameAt depth
  body : ∀ depth, v.unlocated.bodyAt depth = List.map unlocated <$> v.bodyAt depth

namespace Node

variable {kind : Kind} {fields : List (String × Value)} {origin : Origin}

section Fields

variable {key key' key'' : String} {u v w : Value}

lemma sourceAt_unlocated_one (hu : u.WrittenUnlocated)
    (hkind : kind ∈ [.expressionStatement, .blockStatement, .returnStatement, .identifier,
      .spreadElement, .arrayExpression, .objectExpression, .jsxIdentifier, .jsxExpressionContainer,
      .jsxSpreadAttribute, .jsxClosingElement]) (depth : Nat) :
    (mk kind [(key, u)] origin).unlocated.sourceAt depth =
      Value.unlocated <$> (mk kind [(key, u)] origin).sourceAt depth := by
  rw [unlocated_mk]
  cases kind
  case returnStatement => cases hnull : u.isNull <;> simp [sourceAt, hnull, hu.source]
  case expressionStatement | blockStatement | identifier | spreadElement | arrayExpression
      | objectExpression | jsxIdentifier | jsxExpressionContainer | jsxSpreadAttribute
      | jsxClosingElement =>
    simp [sourceAt, hu.source, hu.parts, joined_unlocated, enclose_unlocated hu.noteless]
  all_goals simp at hkind

lemma sourceAt_unlocated_two (hu : u.WrittenUnlocated) (hv : v.WrittenUnlocated)
    (hkind : kind ∈ [.program, .variableDeclaration, .variableDeclarator, .literal, .jsxText,
      .jsxAttribute, .jsxMemberExpression, .jsxNamespacedName]) (depth : Nat) :
    (mk kind [(key, u), (key', v)] origin).unlocated.sourceAt depth =
      Value.unlocated <$> (mk kind [(key, u), (key', v)] origin).sourceAt depth := by
  rw [unlocated_mk]
  cases kind
  case program | variableDeclaration | literal | jsxMemberExpression | jsxNamespacedName =>
    simp [sourceAt, hu.source, hu.parts, joined_unlocated, literal_unlocated,
      Value.field_unlocated hu.noteless, Value.field_unlocated hv.noteless]
  case variableDeclarator | jsxText | jsxAttribute =>
    cases hnull : v.isNull <;>
      simp [sourceAt, hnull, hu.source, hv.source, enclose_unlocated hv.noteless]
  all_goals simp at hkind

/-- The slash of an element without content comes after the parts of its tag. -/
lemma joined_slash (first : Value) (others : List Value) :
    joined " " (first.unlocated :: (others.map Value.unlocated ++ [.text "/"])) =
      joined " " (first :: (others ++ [.text "/"])) := by
  have hmap := joined_unlocated " " (first :: (others ++ [.text "/"]))
  rwa [List.map_cons, List.map_append, List.map_singleton, Value.unlocated_scalar] at hmap

lemma sourceAt_unlocated_three (hu : u.WrittenUnlocated) (hv : v.WrittenUnlocated)
    (hw : w.WrittenUnlocated)
    (hkind : kind ∈ [.ifStatement, .functionDeclaration, .conditionalExpression, .callExpression,
      .unaryExpression, .binaryExpression, .logicalExpression, .arrowFunctionExpression,
      .jsxOpeningElement, .jsxElement, .jsxFragment]) (depth : Nat) :
    (mk kind [(key, u), (key', v), (key'', w)] origin).unlocated.sourceAt depth =
      Value.unlocated <$> (mk kind [(key, u), (key', v), (key'', w)] origin).sourceAt depth := by
  rw [unlocated_mk]
  cases kind
  case conditionalExpression | jsxFragment | callExpression =>
    simp [sourceAt, hu.source, hv.source, hv.parts, hw.source, joined_unlocated,
      enclose_unlocated hu.noteless, enclose_unlocated hv.noteless, enclose_unlocated hw.noteless]
  case unaryExpression | binaryExpression | logicalExpression =>
    simp [sourceAt, hv.source, hw.source, unary_unlocated, operandLevels_unlocated,
      enclose_unlocated hv.noteless, enclose_unlocated hw.noteless]
  case ifStatement =>
    cases hnull : w.isNull <;> simp [sourceAt, hnull, hu.source, hv.source, hw.source]
  case functionDeclaration =>
    simp [sourceAt, hv.parts, hw.body, joined_unlocated, functionName_unlocated hu.noteless]
  case arrowFunctionExpression =>
    cases hblock : v.isA .blockStatement <;> cases hobject : v.isA .objectExpression <;>
      simp [sourceAt, hblock, hobject, hu.parts, hv.source, joined_unlocated,
        enclose_unlocated hv.noteless]
  case jsxOpeningElement =>
    have hplain (first : Value) (others : List Value) :
        joined " " (first.unlocated :: others.map Value.unlocated) =
          joined " " (first :: others) :=
      joined_unlocated " " (first :: others)
    cases hclosed : w.isSet <;> simp [sourceAt, hclosed, hu.source, hv.parts, hplain, joined_slash]
  case jsxElement =>
    cases hfield : u.field "self_closing" with
    | error =>
      simp [sourceAt, hu.source, hv.parts, joined_unlocated, Value.field_unlocated hu.noteless,
        hfield]
    | ok closed =>
      cases hclosed : closed.isSet <;>
        simp [sourceAt, hu.source, hv.parts, hu.name, joined_unlocated,
          Value.field_unlocated hu.noteless, hfield, hclosed]
  all_goals simp at hkind

end Fields

/-- The text of a node is made from those of its fields, whatever fields it has. A node with more or
fewer fields than its kind has is malformed. -/
lemma sourceAt_unlocated (h : ∀ entry ∈ fields, entry.2.WrittenUnlocated) (depth : Nat) :
    (mk kind fields origin).unlocated.sourceAt depth =
      Value.unlocated <$> (mk kind fields origin).sourceAt depth := by
  cases kind
  case emptyStatement | jsxEmptyExpression | jsxOpeningFragment | jsxClosingFragment =>
    simp [unlocated_mk, sourceAt]
  case other tag =>
    simp only [unlocated_mk, sourceAt]
    cases comment (.other tag) <;> simp
  case expressionStatement | blockStatement | returnStatement | identifier | spreadElement
      | arrayExpression | objectExpression | jsxIdentifier | jsxExpressionContainer
      | jsxSpreadAttribute | jsxClosingElement =>
    rcases fields with _ | ⟨⟨_, u⟩, _ | _⟩
    case cons.nil => exact sourceAt_unlocated_one (h _ List.mem_cons_self) (by simp) depth
    all_goals simp [unlocated_mk, sourceAt, malformed]
  case program | variableDeclaration | variableDeclarator | literal | jsxText | jsxAttribute
      | jsxMemberExpression | jsxNamespacedName =>
    rcases fields with _ | ⟨⟨_, u⟩, _ | ⟨⟨_, v⟩, _ | _⟩⟩
    case cons.cons.nil =>
      simp only [List.forall_mem_cons] at h
      exact sourceAt_unlocated_two h.1 h.2.1 (by simp) depth
    all_goals simp [unlocated_mk, sourceAt, malformed]
  case ifStatement | functionDeclaration | conditionalExpression | callExpression
      | unaryExpression | binaryExpression | logicalExpression | arrowFunctionExpression
      | jsxOpeningElement | jsxElement | jsxFragment =>
    rcases fields with _ | ⟨⟨_, u⟩, _ | ⟨⟨_, v⟩, _ | ⟨⟨_, w⟩, _ | _⟩⟩⟩
    case cons.cons.cons.nil =>
      simp only [List.forall_mem_cons] at h
      exact sourceAt_unlocated_three h.1 h.2.1 h.2.2.1 (by simp) depth
    all_goals simp [unlocated_mk, sourceAt, malformed]
  case memberExpression =>
    rw [unlocated_mk]
    rcases fields with _ | ⟨⟨_, u⟩, _ | ⟨⟨_, v⟩, _ | ⟨⟨_, w⟩, _ | ⟨⟨_, x⟩, _ | _⟩⟩⟩⟩
    case cons.cons.cons.cons.nil =>
      simp only [List.forall_mem_cons] at h
      obtain ⟨hu, hv, -⟩ := h
      cases hcomputed : w.isSet <;>
        simp [sourceAt, hcomputed, hu.source, hv.source, enclose_unlocated hu.noteless,
          isIntegerLiteral_unlocated hu.noteless]
    all_goals simp [sourceAt, malformed]
  case property =>
    rw [unlocated_mk]
    rcases fields with _ | ⟨⟨_, u⟩, _ | ⟨⟨_, v⟩, _ | ⟨⟨_, w⟩, _ | ⟨⟨_, x⟩, _ | ⟨⟨_, y⟩, _ |
      ⟨⟨_, z⟩, _ | _⟩⟩⟩⟩⟩⟩
    case cons.cons.cons.cons.cons.cons.nil =>
      simp only [List.forall_mem_cons] at h
      obtain ⟨hu, hv, -⟩ := h
      cases hshort : y.isSet <;>
        simp [sourceAt, hshort, hu.source, hv.source, enclose_unlocated hv.noteless]
    all_goals simp [sourceAt, malformed]

lemma nameAt_unlocated (h : ∀ entry ∈ fields, entry.2.WrittenUnlocated) (depth : Nat) :
    (mk kind fields origin).unlocated.nameAt depth =
      Value.unlocated <$> (mk kind fields origin).nameAt depth := by
  have hamong : nameAmong depth (fields.map fun entry => (entry.1, entry.2.unlocated)) =
      Value.unlocated <$> nameAmong depth fields := by
    induction fields with
    | nil => rfl
    | cons entry rest ih =>
      rw [List.forall_mem_cons] at h
      obtain ⟨name, v⟩ := entry
      by_cases hname : name = "name" <;>
        simp [nameAmong, hname, h.1.source, ih h.2]
  cases hother : kind.isOther <;> simp [nameAt, hother, hamong]

lemma bodyAt_unlocated (h : ∀ entry ∈ fields, entry.2.WrittenUnlocated) (depth : Nat) :
    (mk kind fields origin).unlocated.bodyAt depth =
      List.map Value.unlocated <$> (mk kind fields origin).bodyAt depth := by
  have hamong : bodyAmong depth (fields.map fun entry => (entry.1, entry.2.unlocated)) =
      List.map Value.unlocated <$> bodyAmong depth fields := by
    induction fields with
    | nil => rfl
    | cons entry rest ih =>
      rw [List.forall_mem_cons] at h
      obtain ⟨name, v⟩ := entry
      by_cases hname : name = "body" <;>
        simp [bodyAmong, hname, h.1.parts, ih h.2]
  cases hother : kind.isOther <;> simp [bodyAt, hother, hamong]

end Node

namespace Value

lemma sourceItems_unlocated {items : List Value} (h : ∀ item ∈ items, item.WrittenUnlocated)
    (depth : Nat) (role : Role) :
    sourceItems depth role (items.map unlocated) =
      List.map unlocated <$> sourceItems depth role items := by
  induction items with
  | nil => simp [sourceItems]
  | cons item rest ih =>
    rw [List.forall_mem_cons] at h
    simp [sourceItems, admit_unlocated, h.1.source, finish_unlocated h.1.noteless, ih h.2]

lemma Noteless.written {v : Value} (h : v.Noteless) : v.WrittenUnlocated := by
  induction h with
  | scalar s =>
    refine ⟨.scalar s, fun depth => ?_, fun depth role => ?_, fun depth => ?_, fun depth => ?_⟩
    · by_cases hs : s = .null <;> simp [sourceAt, hs]
    · rw [unlocated_scalar]
      cases s with
      | text s => cases hs : s.isEmpty <;> simp [sourceParts, hs]
      | null | bool | int | float => rfl
    · simp [nameAt]
    · simp [bodyAt]
  | @record members h =>
    refine ⟨.record h, fun depth => ?_, fun depth role => ?_, fun depth => ?_, fun depth => ?_⟩
    · simp [sourceAt]
    · cases hmembers : members.isEmpty <;> simp [sourceParts, hmembers]
    · simp [nameAt]
    · simp [bodyAt]
  | list h ih =>
    refine ⟨.list h, fun depth => ?_, fun depth role => ?_, fun depth => ?_, fun depth => ?_⟩
    · simp [sourceAt]
    · rw [unlocated_list, sourceParts, sourceParts, sourceItems_unlocated ih]
    · simp [nameAt]
    · simp [bodyAt]
  | @node n h hfields ih =>
    obtain ⟨kind, fields, origin⟩ := n
    refine ⟨.node h hfields, fun depth => ?_, fun depth role => ?_, fun depth => ?_,
      fun depth => ?_⟩
    · simpa only [unlocated_node, sourceAt] using Node.sourceAt_unlocated ih depth
    · simp [sourceParts]
    · simpa only [unlocated_node, nameAt] using Node.nameAt_unlocated ih depth
    · simpa only [unlocated_node, bodyAt] using Node.bodyAt_unlocated ih depth

/-- The source of a tree does not show where its nodes were read. -/
lemma source_unlocated {v : Value} (h : v.Noteless) :
    v.unlocated.source = unlocated <$> v.source :=
  h.written.source 0

lemma source_of_unlocated {v : Value} {s : String} (h : v.unlocated.Noteless)
    (hs : v.unlocated.source = .ok (.text s)) : v.source = .ok (.text s) := by
  rw [source_unlocated (noteless_of_unlocated v h)] at hs
  cases hsource : v.source with
  | error fault => simp [hsource] at hs
  | ok w => simpa [hsource, unlocated_eq_scalar_iff] using hs

end Value

end JsxControl
