import JsxControl.Proofs.Acceptance.Types
import JsxControl.Proofs.Writing.Conveyed

/-!
# Which nodes a text shows

The text of a node is made from those of some of the nodes in its slots, `Node.Shows`: a closing
tag, the tags of a fragment or the key of a shorthand property are written without looking at the
nodes that stand for them. The children of an element are written in any case, and left out where
its tag closes itself; such nodes are tried, `Node.Tries`, but not shown.

Writing a typed tree comes to a text unless a mistaken node is tried at some depth, and then it does
not come to an end. Every node that is shown has its own text in the text of the tree; for an
unknown kind this is a comment with the name of the kind.
-/

namespace JsxControl

open Source

/-! ### What is shown -/

namespace Node

/-- Whether the opening tag of an element closes it. -/
def closesItself (n : Node) : Bool :=
  match Entries.get? n.fields "opening_element" with
  | some (.node opening) => ((Entries.get? opening.fields "self_closing").getD .null).isSet
  | _ => false

/-- The names of the fields that the text of a node is made from. -/
def shownFields (n : Node) : List String :=
  match n.kind with
  | .functionDeclaration => ["params", "body"]
  | .property =>
    if ((Entries.get? n.fields "shorthand").getD .null).isSet then ["value"] else ["key", "value"]
  | .jsxMemberExpression => ["object"]
  | .jsxNamespacedName => []
  | .jsxElement => if n.closesItself then ["opening_element"] else ["opening_element", "children"]
  | .jsxFragment => ["children"]
  | kind => kind.fieldNames

/-- The nodes that the text of a node is made from. -/
def shown (n : Node) : List Node :=
  n.shownFields.flatMap fun name => ((Entries.get? n.fields name).getD .null).slotNodes

/-- The text of a node is made from that of another. -/
def Shows (n m : Node) : Prop := m ∈ n.shown

/-- A node is written when another is, be it shown or left out. -/
def Tries (n m : Node) : Prop :=
  n.Shows m ∨ n.kind = .jsxElement ∧ m ∈ ((Entries.get? n.fields "children").getD .null).slotNodes

variable {n m : Node}

lemma holds_of_mem_slotNodes {name : String}
    (hm : m ∈ ((Entries.get? n.fields name).getD .null).slotNodes) : n.Holds m := by
  cases hget : Entries.get? n.fields name with
  | none => simp [hget, Value.slotNodes] at hm
  | some v => exact ⟨_, Entries.mem_of_get? hget, by simpa [hget] using hm⟩

lemma Tries.holds (h : n.Tries m) : n.Holds m := by
  rcases h with h | ⟨-, h⟩
  · obtain ⟨name, -, hm⟩ := List.mem_flatMap.mp h
    exact holds_of_mem_slotNodes hm
  · exact holds_of_mem_slotNodes h

/-- What writing a node comes to: a text in which all that is shown is written, or no end, because
of something that is tried. -/
inductive WrittenAt (n : Node) (depth : Nat) : Prop
  | text {s : String} (h : n.sourceAt depth = .ok (.text s))
      (hshown : ∀ m, n.Shows m → m.WrittenIn s) (htried : ∀ m, n.Tries m → ¬ m.Endless)
  | endless {m : Node} (hm : n.Tries m) (hendless : m.Endless)
      (h : n.sourceAt depth = .error .endless)

/-- Only of elements more is tried than shown. -/
lemma WrittenAt.of_conveys {depth : Nat} (hkind : n.kind ≠ .jsxElement)
    (h : Conveys [] n.shown (n.sourceAt depth)) : n.WrittenAt depth := by
  generalize hx : n.sourceAt depth = x at h
  cases h with
  | endless hm hendless => exact .endless (.inl hm) hendless hx
  | text _ hwritten =>
    refine .text hx hwritten fun m hm => (hwritten m ?_).not_endless
    exact hm.resolve_right fun h => hkind h.1

end Node

/-! ### Demands -/

namespace Demand

/-- What a content that meets a demand gives to the text that is made from it. -/
def Prints : Demand → Value → Prop
  | scalar, v => ∃ s, v = .scalar s
  | text, v => ∃ s, v = .text s
  | textOrNull, v => v = .null ∨ ∃ s, v = .text s
  | node _, v => v.Prints
  | nodeOrNull _, v => v.Prints
  | nodes kinds?, v => ∀ role, (role = .declarator → kinds? = some [.variableDeclarator]) →
    v.PartsPrint role
  | nodesOrNulls, v => ∀ least, v.PartsPrint (.operand least)

lemma prints_of_meets {d : Demand} {v : Value} (h : d.Meets v)
    (hslots : ∀ m ∈ v.slotNodes, (Value.node m).Prints) : d.Prints v := by
  cases d with
  | scalar | text | textOrNull => exact h
  | node =>
    obtain ⟨m, rfl, -⟩ := h
    exact hslots m (by simp [Value.slotNodes])
  | nodeOrNull =>
    rcases h with rfl | ⟨m, rfl, -⟩
    · exact Value.prints_null
    · exact hslots m (by simp [Value.slotNodes])
  | nodes =>
    obtain ⟨items, rfl, hitems⟩ := h
    intro role hrole depth
    rw [Value.sourceParts]
    refine Value.sourceItems_conveys ?_ ?_ ?_ depth
    · intro item hitem
      exact .inr ((hitems item hitem).imp fun _ hm => hm.1)
    · intro item hitem
      obtain ⟨m, rfl, -⟩ := hitems item hitem
      exact hslots m (by simpa using hitem)
    · intro item hitem
      obtain ⟨m, rfl, hkind⟩ := hitems item hitem
      cases role with
      | operand | statement => rfl
      | declarator =>
        have hm : m.kind = .variableDeclarator := by simpa [hrole rfl] using hkind
        simp [hm, Role.admit]
  | nodesOrNulls =>
    obtain ⟨items, rfl, hitems⟩ := h
    intro least depth
    rw [Value.sourceParts]
    refine Value.sourceItems_conveys ?_ ?_ (fun _ _ => rfl) depth
    · intro item hitem
      exact (hitems item hitem).imp_right fun hm => hm.imp fun _ hm => hm.1
    · intro item hitem
      rcases hitems item hitem with rfl | ⟨m, rfl, -⟩
      · exact Value.prints_null
      · exact hslots m (by simpa using hitem)

/-- A field has the name that is asked for, and its content can be written. -/
def PrintedBy (demand : String × Demand) (entry : String × Value) : Prop :=
  entry.1 = demand.1 ∧ demand.2.Prints entry.2

section Named

variable {R : Demand → Value → Prop} {demand : String × Demand} {demands : List (String × Demand)}
  {fields : List (String × Value)}

/-- The first of some fields that have the names that are asked for. -/
lemma named_cons_iff :
    List.Forall₂ (fun demand entry => entry.1 = demand.1 ∧ R demand.2 entry.2) (demand :: demands)
        fields ↔
      ∃ v, R demand.2 v ∧ ∃ rest, fields = (demand.1, v) :: rest ∧
        List.Forall₂ (fun demand entry => entry.1 = demand.1 ∧ R demand.2 entry.2) demands rest := by
  rw [List.forall₂_cons_left_iff]
  constructor
  · rintro ⟨⟨name, v⟩, rest, ⟨rfl, hv⟩, hrest, rfl⟩
    exact ⟨v, hv, rest, rfl, hrest⟩
  · rintro ⟨v, hv, rest, rfl, hrest⟩
    exact ⟨_, rest, ⟨rfl, hv⟩, hrest, rfl⟩

lemma met_cons_iff :
    List.Forall₂ MetBy (demand :: demands) fields ↔
      ∃ v, demand.2.Meets v ∧ ∃ rest, fields = (demand.1, v) :: rest ∧
        List.Forall₂ MetBy demands rest :=
  named_cons_iff

lemma printed_cons_iff :
    List.Forall₂ PrintedBy (demand :: demands) fields ↔
      ∃ v, demand.2.Prints v ∧ ∃ rest, fields = (demand.1, v) :: rest ∧
        List.Forall₂ PrintedBy demands rest :=
  named_cons_iff

end Named

end Demand

/-! ### Kinds of nodes -/

/-- Whether a kind is a program, a statement, or a part of a declaration. -/
def Kind.isStatement : Kind → Bool
  | .program | .expressionStatement | .emptyStatement | .blockStatement | .ifStatement
  | .returnStatement | .variableDeclarator | .variableDeclaration | .functionDeclaration => true
  | _ => false

namespace Node

/-- What a block is written as, by the statements in its body. -/
lemma sourceAt_block {v : Value} {name : String} {origin : Origin} (depth : Nat) :
    (mk .blockStatement [(name, v)] origin).sourceAt depth =
      (v.sourceParts (depth + 1) .statement >>= fun parts => Value.toTexts parts >>=
        fun statements => .ok (.text (block depth statements))) := by
  simp only [sourceAt, pure_eq_ok]

section Element

variable {o : Node} (origin : Origin) (children closing : Value) {closed : Value}

lemma shown_element (hget : Entries.get? o.fields "self_closing" = some closed) :
    (mk .jsxElement [("opening_element", .node o), ("children", children),
      ("closing_element", closing)] origin).shown =
        if closed.isSet then [o] else o :: children.slotNodes := by
  simp only [shown, shownFields, closesItself, Entries.get?_cons]
  cases hself : closed.isSet <;> simp [hget, hself, Value.slotNodes]

lemma tries_element (hget : Entries.get? o.fields "self_closing" = some closed) :
    (mk .jsxElement [("opening_element", .node o), ("children", children),
      ("closing_element", closing)] origin).Tries m ↔ m = o ∨ m ∈ children.slotNodes := by
  have hshown := shown_element origin children closing hget
  generalize hn : mk .jsxElement _ origin = n at hshown ⊢
  have htries : n.Tries m ↔ m ∈ n.shown ∨ m ∈ children.slotNodes := by
    subst hn
    simp [Tries, Shows, Entries.get?_cons]
  rw [htries, hshown]
  split_ifs <;> simp

lemma sourceAt_element (hclosed : o.field "self_closing" = .ok closed) (depth : Nat) :
    (mk .jsxElement [("opening_element", .node o), ("children", children),
      ("closing_element", closing)] origin).sourceAt depth =
        (children.sourceParts depth .plain >>= fun inner =>
          joined "" inner >>= fun inner => o.sourceAt depth >>= fun start =>
            if closed.isSet then .ok start
            else o.nameAt depth >>= fun name =>
              .ok (.text (start.shown ++ inner ++ "</" ++ name.shown ++ ">"))) := by
  simp only [sourceAt, Value.sourceAt, Value.nameAt, Value.field, hclosed, ok_bind, pure_eq_ok]

end Element

section Kinds

variable {kind : Kind} {fields : List (String × Value)} {origin : Origin} (depth : Nat)
  (h : List.Forall₂ Demand.PrintedBy kind.types fields)

include h

lemma sourceAt_statement (hkind : kind.isStatement = true)
    (hfunction : kind ≠ .functionDeclaration) :
    Conveys [] (mk kind fields origin).shown ((mk kind fields origin).sourceAt depth) := by
  cases kind
  all_goals
    simp only [Kind.types, Kind.demands, Demand.printed_cons_iff, List.forall₂_nil_left_iff] at h
  case program =>
    obtain ⟨body, hbody, _, rfl, _, ⟨_, rfl⟩, _, rfl, rfl⟩ := h
    simp only [sourceAt]
    show Conveys [] (body.slotNodes ++ []) _
    exact (hbody .plain nofun depth).joined _ fun s => .made (by grind)
  case expressionStatement =>
    obtain ⟨e, he, _, rfl, rfl⟩ := h
    simp only [sourceAt]
    show Conveys [] (e.slotNodes ++ []) _
    exact (he.written depth).bind fun s _ => .made (by grind [expressionStatement])
  case emptyStatement =>
    simp only [sourceAt]
    exact .made (by simp)
  case blockStatement =>
    obtain ⟨body, hbody, _, rfl, rfl⟩ := h
    rw [sourceAt_block]
    show Conveys [] (body.slotNodes ++ []) _
    rw [List.append_nil]
    exact (hbody .statement nofun (depth + 1)).block depth
  case ifStatement =>
    obtain ⟨test, htest, _, rfl, consequent, hconsequent, _, rfl, alternate, halternate, _, rfl,
      rfl⟩ := h
    simp only [sourceAt]
    show Conveys [] (test.slotNodes ++ (consequent.slotNodes ++ (alternate.slotNodes ++ []))) _
    refine (htest.written depth).bind fun s _ => (hconsequent.written depth).bind fun t _ => ?_
    split_ifs with hnull
    · obtain rfl := Value.eq_null_of_isNull hnull
      exact .made (by grind)
    · exact (halternate.written depth).bind fun u _ => .made (by grind)
  case returnStatement =>
    obtain ⟨argument, hargument, _, rfl, rfl⟩ := h
    simp only [sourceAt]
    show Conveys [] (argument.slotNodes ++ []) _
    split_ifs with hnull
    · obtain rfl := Value.eq_null_of_isNull hnull
      exact .made (by simp)
    · exact (hargument.written depth).bind fun s _ => .made (by grind)
  case variableDeclarator =>
    obtain ⟨id, hid, _, rfl, init, hinit, _, rfl, rfl⟩ := h
    simp only [sourceAt]
    show Conveys [] (id.slotNodes ++ (init.slotNodes ++ [])) _
    refine (hid.written depth).bind fun s _ => ?_
    split_ifs with hnull
    · obtain rfl := Value.eq_null_of_isNull hnull
      exact .made (by grind)
    · exact hinit.enclosed depth _ fun t => .made (by grind)
  case variableDeclaration =>
    obtain ⟨declarations, hdeclarations, _, rfl, _, ⟨_, rfl⟩, _, rfl, rfl⟩ := h
    simp only [sourceAt]
    show Conveys [] (declarations.slotNodes ++ []) _
    exact (hdeclarations .declarator (fun _ => rfl) depth).joined _ fun s => .made (by grind)
  case functionDeclaration => exact absurd rfl hfunction
  all_goals simp [Kind.isStatement] at hkind

/-- The name of a function is looked up, and its body is written as the block that it is. -/
lemma sourceAt_functionDeclaration (hkind : kind = .functionDeclaration)
    (hname : ∀ id ∈ Entries.get? fields "id", ∃ s, functionName id = .ok s)
    (hbody : ∀ body ∈ Entries.get? fields "body", body.sourceAt depth =
      (body.bodyAt (depth + 1) >>= fun parts => Value.toTexts parts >>=
        fun statements => .ok (.text (block depth statements)))) :
    Conveys [] (mk kind fields origin).shown ((mk kind fields origin).sourceAt depth) := by
  subst hkind
  simp only [Kind.types, Kind.demands, Demand.printed_cons_iff, List.forall₂_nil_left_iff] at h
  obtain ⟨id, -, _, rfl, params, hparams, _, rfl, body, hprints, _, rfl, rfl⟩ := h
  show Conveys [] (params.slotNodes ++ (body.slotNodes ++ [])) _
  simp only [sourceAt, pure_eq_ok]
  refine .after (hname id rfl) fun name => ?_
  refine (hparams .plain nofun depth).joined _ fun names => ?_
  have hblock (g : String → Value) : (body.bodyAt (depth + 1) >>= fun parts =>
      Value.toTexts parts >>= fun statements => Except.ok (g (block depth statements))) =
        body.sourceAt depth >>= fun text => Except.ok (g text.shown) := by
    simp only [hbody body rfl, bind_assoc, ok_bind, Value.shown_text]
  rw [hblock fun text => .text ("function " ++ name ++ "(" ++ names ++ ") " ++ text)]
  exact (hprints.written depth).bind fun s _ => .made (by grind)

lemma sourceAt_expression (hplain : kind.isMarkup = .ok false) (hknown : kind.isOther = false)
    (hkind : kind.isStatement = false)
    (hinteger : kind = .memberExpression → ∀ object ∈ Entries.get? fields "object",
      ∃ b, isIntegerLiteral object = .ok b) :
    Conveys [] (mk kind fields origin).shown ((mk kind fields origin).sourceAt depth) := by
  cases kind
  all_goals
    simp only [Kind.types, Kind.demands, Demand.printed_cons_iff, List.forall₂_nil_left_iff] at h
  case identifier =>
    obtain ⟨_, ⟨s, rfl⟩, _, rfl, rfl⟩ := h
    simp only [sourceAt]
    exact .made (by simp)
  case literal =>
    obtain ⟨_, ⟨value, rfl⟩, _, rfl, raw, hraw, _, rfl, rfl⟩ := h
    simp only [sourceAt]
    rcases hraw with rfl | ⟨s, rfl⟩
    · exact .made (by simp)
    · exact .made (by simp)
  case memberExpression =>
    obtain ⟨object, hobject, _, rfl, property, hproperty, _, rfl, _, ⟨computed, rfl⟩, _, rfl, _,
      ⟨optional, rfl⟩, _, rfl, rfl⟩ := h
    simp only [sourceAt]
    show Conveys [] (object.slotNodes ++ (property.slotNodes ++ [])) _
    refine hobject.enclosed depth callLevel fun s => .after (hinteger rfl object rfl) fun b => ?_
    refine (hproperty.written depth).bind fun t _ => ?_
    split_ifs <;> exact .made (by grind)
  case callExpression =>
    obtain ⟨callee, hcallee, _, rfl, arguments, harguments, _, rfl, _, ⟨optional, rfl⟩, _, rfl,
      rfl⟩ := h
    simp only [sourceAt]
    show Conveys [] (callee.slotNodes ++ (arguments.slotNodes ++ [])) _
    refine hcallee.enclosed depth callLevel fun s => ?_
    exact (harguments (.operand assignLevel) nofun depth).joined _ fun t => .made (by grind)
  case arrowFunctionExpression =>
    obtain ⟨params, hparams, _, rfl, body, hbody, _, rfl, _, ⟨_, rfl⟩, _, rfl, rfl⟩ := h
    simp only [sourceAt]
    show Conveys [] (params.slotNodes ++ (body.slotNodes ++ [])) _
    refine (hparams .plain nofun depth).joined _ fun names => ?_
    refine (hbody.written depth).bind fun s _ => ?_
    obtain ⟨t, ht, hst⟩ := hbody.enclose assignLevel s
    split_ifs
    · exact .made (by grind)
    · exact .made (by grind)
    · rw [ht, ok_bind]
      exact .made (by grind)
  case conditionalExpression =>
    obtain ⟨test, htest, _, rfl, consequent, hconsequent, _, rfl, alternate, halternate, _, rfl,
      rfl⟩ := h
    simp only [sourceAt]
    show Conveys [] (test.slotNodes ++ (consequent.slotNodes ++ (alternate.slotNodes ++ []))) _
    refine htest.enclosed depth _ fun s => hconsequent.enclosed depth _ fun t => ?_
    exact halternate.enclosed depth _ fun u => .made (by grind)
  case unaryExpression =>
    obtain ⟨_, ⟨operator, rfl⟩, _, rfl, argument, hargument, _, rfl, _, ⟨_, rfl⟩, _, rfl, rfl⟩ := h
    simp only [sourceAt]
    show Conveys [] (argument.slotNodes ++ []) _
    exact hargument.enclosed depth _ fun s => .made (by grind)
  case binaryExpression | logicalExpression =>
    obtain ⟨_, ⟨operator, rfl⟩, _, rfl, left, hleft, _, rfl, right, hright, _, rfl, rfl⟩ := h
    simp only [sourceAt]
    show Conveys [] (left.slotNodes ++ (right.slotNodes ++ [])) _
    exact hleft.enclosed depth _ fun s => hright.enclosed depth _ fun t => .made (by grind)
  case spreadElement =>
    obtain ⟨argument, hargument, _, rfl, rfl⟩ := h
    simp only [sourceAt]
    show Conveys [] (argument.slotNodes ++ []) _
    exact hargument.enclosed depth _ fun s => .made (by grind)
  case arrayExpression =>
    obtain ⟨elements, helements, _, rfl, rfl⟩ := h
    simp only [sourceAt]
    show Conveys [] (elements.slotNodes ++ []) _
    exact (helements assignLevel depth).joined _ fun s => .made (by grind)
  case property =>
    obtain ⟨key, hkey, _, rfl, value, hvalue, _, rfl, _, ⟨_, rfl⟩, _, rfl, _, ⟨computed, rfl⟩, _,
      rfl, _, ⟨shorthand, rfl⟩, _, rfl, _, ⟨_, rfl⟩, _, rfl, rfl⟩ := h
    simp only [sourceAt]
    unfold shown shownFields
    show Conveys [] (List.flatMap _ (if (Value.scalar shorthand).isSet then _ else _)) _
    split_ifs
    · show Conveys [] (value.slotNodes ++ []) _
      rw [List.append_nil]
      exact hvalue.written depth
    · show Conveys [] (key.slotNodes ++ (value.slotNodes ++ [])) _
      exact (hkey.written depth).bind fun s _ => hvalue.enclosed depth _ fun t => .made (by grind)
    · show Conveys [] (key.slotNodes ++ (value.slotNodes ++ [])) _
      exact (hkey.written depth).bind fun s _ => hvalue.enclosed depth _ fun t => .made (by grind)
  case objectExpression =>
    obtain ⟨properties, hproperties, _, rfl, rfl⟩ := h
    simp only [sourceAt]
    show Conveys [] (properties.slotNodes ++ []) _
    exact (hproperties .plain nofun depth).joined _ fun s => .made (by grind)
  case other => simp [Kind.isOther] at hknown
  all_goals first
    | exact absurd hkind (by decide)
    | simp [Kind.isMarkup, Kind.tag] at hplain

lemma sourceAt_markup (hkind : kind.isMarkup = .ok true) (hknown : kind.isOther = false)
    (helement : kind ≠ .jsxElement)
    (hident : ∀ name, Entries.get? kind.types name = some (.node (some [.jsxIdentifier])) →
      ∀ v ∈ Entries.get? fields name, ∃ s, v.field "name" = .ok (.text s)) :
    Conveys [] (mk kind fields origin).shown ((mk kind fields origin).sourceAt depth) := by
  cases kind
  all_goals
    simp only [Kind.types, Kind.demands, Demand.printed_cons_iff, List.forall₂_nil_left_iff] at h
  case jsxIdentifier =>
    obtain ⟨_, ⟨s, rfl⟩, _, rfl, rfl⟩ := h
    simp only [sourceAt]
    exact .made (by simp)
  case jsxMemberExpression =>
    obtain ⟨object, hobject, _, rfl, property, -, _, rfl, rfl⟩ := h
    obtain ⟨t, ht⟩ := hident "property" rfl property rfl
    simp only [sourceAt, ht, ok_bind]
    show Conveys [] (object.slotNodes ++ []) _
    exact (hobject.written depth).bind fun s _ => .made (by grind)
  case jsxNamespacedName =>
    obtain ⟨space, -, _, rfl, name, -, _, rfl, rfl⟩ := h
    obtain ⟨s, hs⟩ := hident "namespace" rfl space rfl
    obtain ⟨t, ht⟩ := hident "name" rfl name rfl
    simp only [sourceAt, hs, ht, ok_bind]
    exact .made (by simp)
  case jsxExpressionContainer =>
    obtain ⟨e, he, _, rfl, rfl⟩ := h
    simp only [sourceAt]
    show Conveys [] (e.slotNodes ++ []) _
    exact (he.written depth).bind fun s _ => .made (by grind)
  case jsxText =>
    obtain ⟨_, ⟨value, rfl⟩, _, rfl, raw, hraw, _, rfl, rfl⟩ := h
    simp only [sourceAt]
    rcases hraw with rfl | ⟨s, rfl⟩
    · exact .made (by simp)
    · exact .made (by simp)
  case jsxAttribute =>
    obtain ⟨name, hname, _, rfl, value, hvalue, _, rfl, rfl⟩ := h
    simp only [sourceAt]
    show Conveys [] (name.slotNodes ++ (value.slotNodes ++ [])) _
    refine (hname.written depth).bind fun s _ => ?_
    split_ifs with hnull
    · obtain rfl := Value.eq_null_of_isNull hnull
      exact .made (by grind)
    · exact (hvalue.written depth).bind fun t _ => .made (by grind)
  case jsxSpreadAttribute =>
    obtain ⟨argument, hargument, _, rfl, rfl⟩ := h
    simp only [sourceAt]
    show Conveys [] (argument.slotNodes ++ []) _
    exact hargument.enclosed depth _ fun s => .made (by grind)
  case jsxOpeningElement =>
    obtain ⟨name, hname, _, rfl, attributes, hattributes, _, rfl, _, ⟨closed, rfl⟩, _, rfl,
      rfl⟩ := h
    simp only [sourceAt]
    show Conveys [] (name.slotNodes ++ (attributes.slotNodes ++ [])) _
    refine (hname.written depth).bind fun s _ => ?_
    refine (hattributes .plain nofun depth).bind fun texts => ?_
    cases hclosed : (Value.scalar closed).isSet with
    | true =>
      have hjoined := joined_map_text " " (s :: texts ++ ["/"])
      simp only [List.cons_append, List.map_cons, List.map_append, List.map_nil] at hjoined
      simp only [if_true, List.cons_append, hjoined, ok_bind, pure_eq_ok]
      exact .made (by grind [Within.intercalate])
    | false =>
      have hjoined := joined_map_text " " (s :: texts)
      simp only [List.map_cons] at hjoined
      simp only [Bool.false_eq_true, if_false, List.append_nil, hjoined, ok_bind, pure_eq_ok]
      exact .made (by grind [Within.intercalate])
  case jsxClosingElement =>
    obtain ⟨name, hname, _, rfl, rfl⟩ := h
    simp only [sourceAt]
    show Conveys [] (name.slotNodes ++ []) _
    exact (hname.written depth).bind fun s _ => .made (by grind)
  case jsxElement => exact absurd rfl helement
  case jsxFragment =>
    obtain ⟨_, -, _, rfl, children, hchildren, _, rfl, _, -, _, rfl, rfl⟩ := h
    simp only [sourceAt]
    show Conveys [] (children.slotNodes ++ []) _
    exact (hchildren .plain nofun depth).joined _ fun s => .made (by grind)
  case jsxEmptyExpression | jsxOpeningFragment | jsxClosingFragment =>
    simp only [sourceAt]
    exact .made (by simp)
  all_goals first
    | exact absurd hknown (by decide)
    | simp [Kind.isMarkup, Kind.tag, Kind.isOther] at hkind hknown

/-- The name in the opening tag of an element is written once more in its closing tag. -/
lemma sourceAt_jsxElement (hkind : kind = .jsxElement)
    (hopening : ∀ opening ∈ Entries.get? fields "opening_element", ∃ o : Node, opening = .node o ∧
      (∃ v, o.field "self_closing" = .ok v ∧ Entries.get? o.fields "self_closing" = some v) ∧
      ∀ start, o.sourceAt depth = .ok start → ∃ s, o.nameAt depth = .ok (.text s)) :
    (mk kind fields origin).WrittenAt depth := by
  subst hkind
  simp only [Kind.types, Kind.demands, Demand.printed_cons_iff, List.forall₂_nil_left_iff] at h
  obtain ⟨opening, hprints, _, rfl, children, hchildren, _, rfl, closing, -, _, rfl, rfl⟩ := h
  obtain ⟨o, rfl, ⟨closed, hclosed, hget⟩, hname⟩ := hopening opening rfl
  have hshown := shown_element origin children closing hget
  have htries (m : Node) := tries_element (m := m) origin children closing hget
  have hsource := sourceAt_element origin children closing hclosed depth
  generalize mk .jsxElement _ origin = n at hshown htries hsource ⊢
  have hinner := hchildren .plain (by simp [Role.plain]) depth
  generalize children.sourceParts depth .plain = x at hinner hsource
  cases hinner with
  | endless hm hendless => exact .endless ((htries _).mpr (.inr hm)) hendless hsource
  | @texts texts hchildren =>
    have hstart : Conveys [] [o] (o.sourceAt depth) := by
      simpa only [Value.sourceAt, Value.slotNodes] using hprints.written depth
    rw [ok_bind, joined_map_text, ok_bind] at hsource
    generalize hx : o.sourceAt depth = x at hstart hsource
    cases hstart with
    | @endless m hm hendless =>
      obtain rfl : m = o := by simpa using hm
      exact .endless ((htries _).mpr (.inl rfl)) hendless hsource
    | @text start _ hwritten =>
      have ho := hwritten o List.mem_cons_self
      obtain ⟨name, hname⟩ := hname _ hx
      have htried (m : Node) (hm : n.Tries m) : ¬ m.Endless := by
        rcases (htries m).mp hm with rfl | hm
        · exact ho.not_endless
        · obtain ⟨s, -, hm⟩ := hchildren m hm
          exact hm.not_endless
      cases hclosed : closed.isSet with
      | true =>
        refine .text (s := start) (by simpa [hclosed] using hsource) (fun m hm => ?_) htried
        obtain rfl : m = o := by simpa [Shows, hshown, hclosed] using hm
        exact ho
      | false =>
        simp only [hclosed, Bool.false_eq_true, if_false, ok_bind, hname] at hsource
        refine .text hsource (fun m hm => ?_) htried
        rcases List.mem_cons.mp (by simpa [Shows, hshown, hclosed] using hm) with rfl | hm
        · exact ho.trans (by grind)
        · obtain ⟨s, hs, hm⟩ := hchildren m hm
          exact (hm.trans (.intercalate "" hs)).trans (by grind)

end Kinds

end Node

end JsxControl
