import JsxControl.Proofs.Desugar.Parts
import JsxControl.Proofs.Orderly

/-!
# What a pass leaves

A node is inert if a pass that comes to it finds nothing to do and nothing to complain of. After a
pass that has come to its end every node in a slot is inert, at every depth: expansions are put
together from nodes that the pass has left already, and from new ones that are inert.
-/

namespace JsxControl

/-- A pass that comes to a node has nothing to do with it. -/
def Node.Inert (n : Node) : Prop :=
  Construct.ofValue? (.node n) = .ok none ∧ (n.kind = .expressionStatement →
    ∃ e, n.field "expression" = .ok e ∧ e.isReferenceGuard = .ok false)

/-- A node that a pass has left: it is inert, and nothing is noted beside its fields. -/
def Node.Left (n : Node) : Prop := n.origin.notes = [] ∧ n.Inert

/-- Whatever the fields of a value hold has been left by a pass. -/
def Value.FieldsLeft : Value → Prop
  | .node n => n.origin.notes = [] ∧ ∀ entry ∈ n.fields, entry.2.Everywhere Node.Left
  | _ => True

lemma Node.inert_of_kind {n : Node} (helement : n.kind ≠ .jsxElement)
    (hstatement : n.kind ≠ .expressionStatement) : n.Inert :=
  ⟨Construct.ofValue?_of_kind helement, fun h => absurd h hstatement⟩

/-! ### Parts of what is left -/

namespace Value

lemma Everywhere.fieldsLeft {v : Value} (h : v.Everywhere Node.Left) : v.FieldsLeft := by
  cases v with
  | node n =>
    rw [everywhere_node] at h
    exact ⟨h.here.1, fun entry hentry => h.field hentry⟩
  | scalar | list | record => trivial

lemma FieldsLeft.content {v : Value} (h : v.FieldsLeft) (name : String) :
    (v.content name).Everywhere Node.Left := by
  rw [Value.content]
  cases hfield : v.field name with
  | error => exact everywhere_scalar _
  | ok u =>
    cases v with
    | node n =>
      obtain ⟨-, hget⟩ := (Node.field_eq_ok_iff h.1).mp hfield
      exact h.2 _ (Entries.mem_of_get? hget)
    | scalar | list | record => simp [field] at hfield

end Value

/-! ### New nodes -/

/-- A new node that is neither an element nor a statement is left if its fields are. -/
lemma Node.everywhere_left_of_made {n : Node} (hnotes : n.origin.notes = [])
    (helement : n.kind ≠ .jsxElement) (hstatement : n.kind ≠ .expressionStatement)
    (hfields : ∀ entry ∈ n.fields, entry.2.Everywhere Node.Left) : n.Everywhere Node.Left :=
  everywhere_iff.mpr ⟨⟨hnotes, inert_of_kind helement hstatement⟩, hfields⟩

section Made

variable {u v w : Value}

lemma Node.left_member (hv : v.Everywhere Node.Left) (name : String) :
    (Node.member v name).Everywhere Node.Left := by
  have hname : (Node.identifier name).Everywhere Node.Left :=
    everywhere_left_of_made rfl nofun nofun (by simp [identifier])
  exact everywhere_left_of_made rfl nofun nofun (by simp [member, hv, hname])

lemma Node.left_call (hu : u.Everywhere Node.Left) (hv : v.Everywhere Node.Left) :
    (Node.call u v).Everywhere Node.Left :=
  everywhere_left_of_made rfl nofun nofun (by simp [call, hu, hv.singleton])

lemma Node.left_arrow (hu : u.Everywhere Node.Left) (hv : v.Everywhere Node.Left) :
    (Node.arrow u v).Everywhere Node.Left :=
  everywhere_left_of_made rfl nofun nofun (by simp [arrow, hv, hu.singleton])

lemma Node.left_conditional (hu : u.Everywhere Node.Left) (hv : v.Everywhere Node.Left)
    (hw : w.Everywhere Node.Left) : (Node.conditional u v w).Everywhere Node.Left :=
  everywhere_left_of_made rfl nofun nofun (by simp [conditional, hu, hv, hw])

lemma Node.left_nullLiteral : Node.nullLiteral.Everywhere Node.Left :=
  everywhere_left_of_made rfl nofun nofun (by simp [nullLiteral])

lemma Node.left_fragment {items : List Value} (h : (Value.list items).Everywhere Node.Left) :
    (Node.fragment items).Everywhere Node.Left := by
  have hstart : (Node.mk .jsxOpeningFragment [] {}).Everywhere Node.Left :=
    everywhere_left_of_made rfl nofun nofun nofun
  have hend : (Node.mk .jsxClosingFragment [] {}).Everywhere Node.Left :=
    everywhere_left_of_made rfl nofun nofun nofun
  exact everywhere_left_of_made rfl nofun nofun (by simp [fragment, h, hstart, hend])

lemma Desugar.left_wrap (hv : v.Everywhere Node.Left) (b : Bool) :
    (Desugar.wrap b v).Everywhere Node.Left := by
  have hcontainer : (Node.container v).Everywhere Node.Left :=
    Node.everywhere_left_of_made rfl nofun nofun (by simp [Node.container, hv])
  cases b with
  | true => simpa [Desugar.wrap] using hcontainer
  | false =>
    rw [Desugar.wrap, if_neg (by decide), Value.everywhere_node]
    exact Node.left_fragment (Value.Everywhere.singleton (by simpa using hcontainer))

end Made

/-! ### Expansions -/

namespace Expand

lemma left_childExpression? {child e : Value}
    (hchild : child.node? = none ∨ child.Everywhere Node.Left)
    (h : childExpression? child = .ok (some e)) : e.Everywhere Node.Left := by
  obtain ⟨hmarkup, rfl | ⟨hc, he⟩⟩ := exists_of_childExpression?_eq_some h
  · cases e with
    | node n => exact hchild.resolve_left (by simp [Value.node?])
    | scalar s => simp
    | list | record => simp [Value.isMarkup] at hmarkup
  · rcases hchild with hnone | hleft
    · cases child <;> simp [Value.node?, Value.isA] at hnone hc
    · rw [← Value.content_of_field he]
      exact hleft.fieldsLeft.content _

variable {element : Value}

lemma left_bodyOf {result : Value} (h : element.FieldsLeft)
    (hresult : bodyOf element = .ok result) : result.Everywhere Node.Left := by
  obtain ⟨v, hv, hbody⟩ := bind_eq_ok_iff.mp hresult
  obtain ⟨items, hitems, hbody⟩ := exists_of_body_eq_ok hbody
  have hparts {item : Value} (hitem : item ∈ items) :
      item.node? = none ∨ item.Everywhere Node.Left := by
    rw [← Value.parts_of_items hitems, ← Value.content_of_field hv] at hitem
    exact (h.content _).parts hitem
  rcases hbody with ⟨-, rfl⟩ | ⟨child, rfl, hchild⟩
  · rw [Value.everywhere_node]
    apply Node.left_fragment
    rw [Value.everywhere_list]
    intro n hn
    simpa [Value.node?] using hparts hn
  · exact left_childExpression? (hparts (by simp)) hchild

lemma left_expression (h : element.FieldsLeft) (name : String) :
    (Desugar.expression element name).Everywhere Node.Left := by
  have hattr : ((Desugar.attribute? element name).getD .null).FieldsLeft := by
    cases hfound : Desugar.attribute? element name with
    | none => trivial
    | some attr =>
      have hmem : attr ∈ Desugar.attributes element := by
        simpa using List.mem_of_find?_eq_some hfound
      cases attr with
      | node n =>
        rcases ((h.content _).fieldsLeft.content _).parts hmem with hnone | hleft
        · simp [Value.node?] at hnone
        · exact hleft.fieldsLeft
      | scalar | list | record => trivial
  exact (hattr.content _).fieldsLeft.content _

end Expand

/-- Expansions put what has been left together to what is left. -/
lemma Desugar.kept_left : Kept (Value.Everywhere Node.Left) where
  nullLiteral := by simpa using Node.left_nullLiteral
  conditional htest hconsequent halternate := by
    simpa using Node.left_conditional htest hconsequent halternate
  arrow hparam hbody := by simpa using Node.left_arrow hparam hbody
  member hobject := by simpa using Node.left_member hobject "map"
  call hfunction hargument := by simpa using Node.left_call hfunction hargument

lemma Value.FieldsLeft.partsHave {element : Value} (h : element.FieldsLeft) :
    element.PartsHave (Value.Everywhere Node.Left) where
  given name e he := by
    rw [← he.eq_expression]
    exact Expand.left_expression h name
  body _ hresult := Expand.left_bodyOf h hresult

/-- What a construct expands to has been left, if its own slots and those of its branches have. -/
lemma Construct.left_expand {c : Construct} {holder element v : Value} {later : List Value}
    (helement : element.FieldsLeft) (hlater : ∀ branch ∈ later, branch.FieldsLeft)
    (h : c.expand holder element later = .ok v) : v.Everywhere Node.Left := by
  obtain ⟨e, he, rfl⟩ := exists_of_expand_eq_ok Desugar.kept_left helement.partsHave
    (fun branch hbranch => (hlater branch hbranch).partsHave) h
  exact Desugar.left_wrap he _

/-! ### The pass -/

namespace Expand

lemma Gives.left {holder v : Value} {n : Node} {later : List Value} (h : Gives holder n later v)
    (hn : (Value.node n).FieldsLeft) (hlater : ∀ branch ∈ later, branch.FieldsLeft) :
    v.Everywhere Node.Left := by
  cases h with
  | expanded hc h => exact Construct.left_expand hn hlater h
  | disarmed =>
    rw [Value.everywhere_node]
    exact Node.everywhere_left_of_made rfl nofun nofun (by simp [Node.emptyStatement])
  | kept hc hguard =>
    rw [Value.everywhere_node]
    exact Node.everywhere_iff.mpr ⟨⟨hn.1, hc, hguard⟩, hn.2⟩

end Expand

/-- When the slots of a node are settled, all that they hold has been left. -/
lemma Node.settle_left {traced : Bool} (n : Node) (hn : n.Everywhere Node.Orderly) {n' : Node}
    (h : (n.settle traced).toExcept = .ok n') : (Value.node n').FieldsLeft := by
  induction n using Node.slot_induction generalizing n' with
  | step n ih =>
    rw [Node.toExcept_settle] at h
    obtain ⟨fields', hfields, rfl⟩ := map_eq_ok_iff.mp h
    refine ⟨hn.here.1, ?_⟩
    intro entry' hentry'
    obtain ⟨entry, hentry, -, hv⟩ :=
      exists_of_mem_right_of_forall₂ (Node.settleFields_eq_ok hfields) hentry'
    refine Value.settle_everywhere (S := fun m => (Value.node m).FieldsLeft) ?_ ?_ hv
    · intro m later r hgives hm hlater
      refine hgives.left hm fun branch hbranch => ?_
      obtain ⟨l, rfl, hl⟩ := hlater branch hbranch
      exact hl
    · exact fun m hm m' hm' => ih m ⟨entry, hentry, hm⟩ (hn.field hentry m hm) hm'

/-- What a pass makes of a tree that was read has been left by it at every depth, its root included. -/
lemma Expand.left_of_tree_eq_ok {asked : Topic → Bool} {filename : String} {json : Json}
    {tree tree' : Value} (hread : Value.ofJson json = .ok tree)
    (h : (Expand.tree asked filename tree).toExcept = .ok tree') :
    ∃ root : Node, tree' = .node root ∧ root.Everywhere Node.Left := by
  obtain ⟨root, root', rfl, hroot, rfl, hgives⟩ := Expand.tree_eq_ok h
  have horderly : root.Everywhere Node.Orderly := by simpa using Value.ofJson_orderly hread
  exact ⟨root', rfl, by simpa using hgives.left (root.settle_left horderly hroot) (by simp)⟩

/-- After a pass that comes to its end no slot at any depth holds a pseudo-element, or a statement
that checks for one. -/
theorem Expand.tree_leaves_no_construct {asked : Topic → Bool} {filename : String} {json : Json}
    {tree tree' : Value} (hread : Value.ofJson json = .ok tree)
    (h : (Expand.tree asked filename tree).toExcept = .ok tree') :
    ∃ root : Node, tree' = .node root ∧ ∀ m, root.Contains m →
      (∀ c : Construct, (Value.node m).tagName ≠ .ok (.text c.name)) ∧
        ¬ (m.kind = .expressionStatement ∧
          ∃ e, m.field "expression" = .ok e ∧ e.isReferenceGuard = .ok true) := by
  obtain ⟨root, root', rfl, hroot, rfl, hgives⟩ := Expand.tree_eq_ok h
  refine ⟨root', rfl, ?_⟩
  intro m hm
  have horderly : root.Everywhere Node.Orderly := by simpa using Value.ofJson_orderly hread
  have hleft : root'.Everywhere Node.Left := by
    simpa using hgives.left (root.settle_left horderly hroot) (by simp)
  obtain ⟨-, hconstruct, hguard⟩ := hleft.of_contains hm
  constructor
  · intro c hc
    rw [← Construct.ofValue?_eq_ok_some_iff, hconstruct] at hc
    simp at hc
  · rintro ⟨hkind, e, he, htrue⟩
    obtain ⟨e', he', hfalse⟩ := hguard hkind
    simp_all

/-- The document of a program that checks for `$if`. -/
def guardDocument : Json :=
  .record [("type", .text "Program"), ("body", .list [
    .record [("type", .text "ExpressionStatement"), ("expression",
      .record [("type", .text "CallExpression"),
        ("callee", .record [("type", .text "Identifier"), ("name", .text "_missingMdxReference")]),
        ("arguments", .list [.record [("type", .text "Literal"), ("value", .text "$if")]])])]])]

/-- A program with one statement. -/
def oneStatement (statement : Node) : Value :=
  .node ⟨.program, [("body", .list [.node statement]), ("source_type", .text "module")], {}⟩

/-- The tree of `guardDocument`. -/
def guardTree : Value :=
  oneStatement ⟨.expressionStatement,
    [("expression", .node (.call (.node (.identifier "_missingMdxReference"))
      (.node ⟨.literal, [("value", .text "$if"), ("raw", .null)], {}⟩)))], {}⟩

theorem Expand.guardTree_leaves_no_construct :
    Value.ofJson guardDocument = .ok guardTree ∧
      (Expand.tree (fun _ => false) "a.mdx" guardTree).toExcept =
        .ok (oneStatement .emptyStatement) ∧
      ∃ root : Node, oneStatement .emptyStatement = .node root ∧ ∀ m, root.Contains m →
        (∀ c : Construct, (Value.node m).tagName ≠ .ok (.text c.name)) ∧
          ¬ (m.kind = .expressionStatement ∧
            ∃ e, m.field "expression" = .ok e ∧ e.isReferenceGuard = .ok true) := by
  have hread : Value.ofJson guardDocument = .ok guardTree := rfl
  have htree : (Expand.tree (fun _ => false) "a.mdx" guardTree).toExcept =
      .ok (oneStatement .emptyStatement) := rfl
  exact ⟨hread, htree, tree_leaves_no_construct hread htree⟩

end JsxControl
