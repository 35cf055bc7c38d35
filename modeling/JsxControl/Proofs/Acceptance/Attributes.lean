import JsxControl.Proofs.Acceptance.Printing
import JsxControl.Proofs.Desugar.Expansion

/-!
# Attributes of pseudo-elements in grammatical trees

The attributes of an element in a grammatical tree can be looked at without fault. Where a name is
repeated, the last attribute that bears it counts.
-/

namespace JsxControl

namespace Attributes

lemma mem_put {k : Scalar} {attr : Value} {stored : List (Scalar × Value)}
    {entry : Scalar × Value} (h : entry ∈ put k attr stored) :
    (entry.1 = k ∨ ∃ v, (entry.1, v) ∈ stored) ∧ (entry.2 = attr ∨ ∃ k', (k', entry.2) ∈ stored) := by
  induction stored with
  | nil =>
    obtain rfl : entry = (k, attr) := by simpa [put] using h
    exact ⟨.inl rfl, .inl rfl⟩
  | cons first rest ih =>
    obtain ⟨k', v⟩ := first
    rw [put] at h
    split_ifs at h with hk
    · rcases List.mem_cons.mp h with rfl | h
      · exact ⟨.inr ⟨v, by simp⟩, .inl rfl⟩
      · exact ⟨.inr ⟨entry.2, by simp [h]⟩, .inr ⟨entry.1, by simp [h]⟩⟩
    · rcases List.mem_cons.mp h with rfl | h
      · exact ⟨.inr ⟨v, by simp⟩, .inr ⟨k', by simp⟩⟩
      · obtain ⟨hname, hattr⟩ := ih h
        exact ⟨hname.imp_right fun h => h.imp fun u hu => by simp [hu],
          hattr.imp_right fun h => h.imp fun j hj => by simp [hj]⟩

/-- Attributes whose names are texts are stored under texts. -/
lemma ofValues_eq_ok {P : Value → Prop} {stored : List (Scalar × Value)} {list : List Value}
    (hlist : ∀ attr ∈ list, P attr ∧ ∃ s, attr.attributeName = .ok (.text s))
    (hstored : ∀ entry ∈ stored, P entry.2 ∧ ∃ s, entry.1 = .text s) :
    ∃ found, ofValues stored list = .ok found ∧
      ∀ entry ∈ found, P entry.2 ∧ ∃ s, entry.1 = .text s := by
  induction list generalizing stored with
  | nil => exact ⟨stored, rfl, hstored⟩
  | cons attr rest ih =>
    obtain ⟨hattr, s, hs⟩ := hlist attr (by simp)
    have hput : ∀ entry ∈ put (.text s) attr stored, P entry.2 ∧ ∃ t, entry.1 = .text t := by
      intro entry hentry
      obtain ⟨hname, hvalue⟩ := mem_put hentry
      constructor
      · rcases hvalue with h | ⟨k, hk⟩
        · exact h ▸ hattr
        · exact (hstored _ hk).1
      · rcases hname with h | ⟨v, hv⟩
        · exact ⟨s, h⟩
        · exact (hstored _ hv).2
    obtain ⟨found, hfound, hall⟩ := ih (fun attr hattr => hlist attr (by simp [hattr])) hput
    exact ⟨found, by simp [ofValues, hs, Value.key, hfound], hall⟩

/-- The opening tag of an element and its attributes by their names, all of which can be looked at
and quoted. -/
structure Read (element opening : Node) (found : List (Scalar × Value)) : Prop where
  tag : element.field "opening_element" = .ok (.node opening)
  grammatical : opening.Everywhere Node.Grammatical
  read : ofOpening (.node opening) = .ok found
  stored : ∀ entry ∈ found, entry.2 ∈ Desugar.attributes (.node element) ∧ ∃ s, entry.1 = .text s
  listed : ∀ attr ∈ Desugar.attributes (.node element), ∃ a : Node, attr = .node a ∧
    (a.kind = .jsxAttribute ∨ a.kind = .jsxSpreadAttribute) ∧ a.Everywhere Node.Grammatical

lemma exists_read {element : Node} (h : element.Everywhere Node.Grammatical)
    (hkind : element.kind = .jsxElement) : ∃ opening found, Read element opening found := by
  obtain ⟨opening, htag, hgrammatical, hopening⟩ := Node.opening_of_element h hkind
  obtain ⟨items, hitems, hnodes⟩ := Node.field_eq_nodes hgrammatical "attributes"
    (some [.jsxAttribute, .jsxSpreadAttribute]) (by rw [hopening]; rfl)
  have hattributes : Desugar.attributes (.node element) = items := by
    rw [Desugar.attributes, Value.content_of_node_field htag, Value.content_of_node_field hitems]
    rfl
  have hlisted : ∀ attr ∈ items, ∃ a : Node, attr = .node a ∧
      (a.kind = .jsxAttribute ∨ a.kind = .jsxSpreadAttribute) ∧ a.Everywhere Node.Grammatical := by
    intro attr hattr
    obtain ⟨a, rfl, ha, heverywhere⟩ := hnodes attr hattr
    exact ⟨a, rfl, by simpa using ha, heverywhere⟩
  have hnames : ∀ attr ∈ items, attr ∈ items ∧ ∃ s, attr.attributeName = .ok (.text s) := by
    intro attr hattr
    obtain ⟨a, rfl, -, ha⟩ := hlisted attr hattr
    exact ⟨hattr, Node.attributeName_eq_ok ha⟩
  obtain ⟨found, hfound, hstored⟩ : ∃ found, ofValues [] items = .ok found ∧
      ∀ entry ∈ found, entry.2 ∈ items ∧ ∃ s, entry.1 = .text s := ofValues_eq_ok hnames (by simp)
  refine ⟨opening, found, htag, hgrammatical, ?_, by rwa [hattributes], by rwa [hattributes]⟩
  simp [ofOpening, hitems, Value.items, hfound]

end Attributes

/-- The last attribute of a name has an expression in braces that is not empty. -/
def Desugar.Given (element : Value) (name : String) : Prop :=
  ∃ attr, attribute? element name = some attr ∧
    (attr.content "value").isA .jsxExpressionContainer ∧
    (expression element name).isA .jsxEmptyExpression = false

/-- An attribute has a value, and one in braces is a node of the tree. -/
lemma Node.value_of_attribute {a : Node} (hkind : a.kind = .jsxAttribute)
    (ha : a.Everywhere Grammatical) :
    ∃ v, a.field "value" = .ok v ∧ (v.isA .jsxExpressionContainer = true →
      ∃ e : Node, v.field "expression" = .ok (.node e) ∧ e.Everywhere Grammatical) := by
  obtain ⟨v, hv, hmeets⟩ := ha.here.field "value" _ (by rw [hkind]; rfl)
  refine ⟨v, hv, ?_⟩
  intro hcontainer
  rcases hmeets with rfl | ⟨m, rfl, -⟩
  · simp [Value.isA] at hcontainer
  · have hm : m.Everywhere Grammatical := by simpa using ha.found ha.here.notes hv
    obtain ⟨e, he, -, hgrammatical⟩ := field_eq_node hm "expression" none
      (by rw [show m.kind = _ by simpa using hcontainer]; rfl)
    exact ⟨e, he, hgrammatical⟩

namespace Attributes.Read

variable {element opening : Node} {found : List (Scalar × Value)}
  (h : Read element opening found)

include h

lemma source : ∃ s, (Value.node opening).source = .ok (.text s) := Value.source_eq_ok h.grammatical

/-- Only a spread is called `...`, so that an attribute of another name has a value. -/
lemma node_of_attribute? {name : String} (hname : name ≠ "...") {attr : Value}
    (hattr : Desugar.attribute? (.node element) name = some attr) :
    ∃ a : Node, attr = .node a ∧ a.kind = .jsxAttribute ∧ a.Everywhere Node.Grammatical := by
  obtain ⟨hmem, hnamed⟩ := Desugar.mem_of_attribute? hattr
  obtain ⟨a, rfl, hkind | hkind, ha⟩ := h.listed attr hmem
  · exact ⟨a, rfl, hkind, ha⟩
  · simp [Desugar.isNamed, Value.attributeName, hkind, hname.symm] at hnamed

/-- A given expression is a node of the tree. -/
lemma node_of_given {name : String} (hname : name ≠ "...")
    (hgiven : Desugar.Given (.node element) name) :
    ∃ e : Node, Desugar.expression (.node element) name = .node e ∧
      e.Everywhere Node.Grammatical := by
  obtain ⟨attr, hattr, hcontainer, -⟩ := hgiven
  obtain ⟨a, rfl, hkind, ha⟩ := h.node_of_attribute? hname hattr
  obtain ⟨v, hv, hexpression⟩ := Node.value_of_attribute hkind ha
  rw [Value.content_of_node_field hv] at hcontainer
  obtain ⟨e, he, hgrammatical⟩ := hexpression hcontainer
  refine ⟨e, ?_, hgrammatical⟩
  simp [Desugar.expression, hattr, Value.content_of_node_field hv, Value.content_of_field he]

lemma get?_eq (name : String) :
    get? found (.text name) = Desugar.attribute? (.node element) name :=
  get?_ofOpening (show (Value.node element).field _ = _ from h.tag) h.read name

/-- What an attribute has in braces is the given expression, if one is given. -/
lemma expression?_eq {name : String} (hname : name ≠ "...") {attr : Value}
    (hattr : Desugar.attribute? (.node element) name = some attr) :
    (Desugar.Given (.node element) name →
      expression? attr = .ok (some (Desugar.expression (.node element) name))) ∧
    (¬ Desugar.Given (.node element) name → expression? attr = .ok none) := by
  obtain ⟨a, rfl, hkind, ha⟩ := h.node_of_attribute? hname hattr
  obtain ⟨v, hv, hexpression⟩ := Node.value_of_attribute hkind ha
  have hgiven : Desugar.Given (.node element) name ↔ v.isA .jsxExpressionContainer = true ∧
      (v.content "expression").isA .jsxEmptyExpression = false := by
    simp [Desugar.Given, Desugar.expression, hattr, Value.content_of_node_field hv]
  rw [hgiven, Desugar.expression, hattr, Option.getD_some, Value.content_of_node_field hv]
  cases hcontainer : v.isA .jsxExpressionContainer with
  | false => simp [expression?, hv, hcontainer]
  | true =>
    obtain ⟨e, he, -⟩ := hexpression hcontainer
    rw [Value.content_of_field he]
    cases hempty : (Value.node e).isA .jsxEmptyExpression <;>
      simp [expression?, hv, hcontainer, he, -Value.isA_node, hempty]

end Attributes.Read

end JsxControl
