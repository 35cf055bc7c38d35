import JsxControl.Proofs.Acceptance.Construct
import JsxControl.Proofs.Acceptance.Fields
import JsxControl.Proofs.Desugar.Unchanged
import Mathlib.Data.List.Find

/-!
# Elements by their parts

Desugaring keeps an opening tag in its place, with the same name and with its attributes, each under
the name that it had. What stands in the attributes is desugared. A construct hands the expressions
of its attributes and its body on to what takes its place.
-/

namespace JsxControl

variable {n : Node}

/-! ### Names -/

/-- The name of a tag or of an attribute is left as it is. -/
lemma Node.desugar_name {n : Node} (hn : n.Everywhere Grammatical)
    (hkind : n.kind = .jsxIdentifier ∨ n.kind = .jsxNamespacedName) : n.desugar = n := by
  apply n.desugar_of_stays
  have hidentifier {m : Node} (hm : m.Grammatical) (hmkind : m.kind = .jsxIdentifier) :
      m.Everywhere Stays := by
    refine everywhere_iff.mpr ⟨stays_of_kind (by simp [hmkind]) (by simp [hmkind]), ?_⟩
    rintro ⟨name, v⟩ hentry
    obtain ⟨-, d, hd, hv⟩ := hm.entry (by rw [hmkind]; rfl) hentry
    obtain ⟨rfl, rfl⟩ : name = "name" ∧ d = .text := by simpa [hmkind, Kind.demands] using hd
    obtain ⟨s, rfl⟩ := hv
    simp
  rcases hkind with hkind | hkind
  · exact hidentifier hn.here hkind
  · refine everywhere_iff.mpr ⟨stays_of_kind (by simp [hkind]) (by simp [hkind]), ?_⟩
    rintro ⟨name, v⟩ hentry
    obtain ⟨-, d, hd, hv⟩ := hn.here.entry (by rw [hkind]; rfl) hentry
    obtain rfl : d = .node (some [.jsxIdentifier]) := by
      simp only [hkind, Kind.demands, List.mem_cons, Prod.mk.injEq, List.not_mem_nil,
        or_false] at hd
      rcases hd with ⟨-, h⟩ | ⟨-, h⟩ <;> exact h
    obtain ⟨m, rfl, hmkind⟩ := hv
    have hgrammar : m.Everywhere Grammatical := by simpa using hn.field hentry
    rw [Value.everywhere_node]
    exact hidentifier hgrammar.here (by simpa using hmkind)

lemma Node.field_name_desugar {i : Node} (hn : n.Everywhere Grammatical)
    (hi : n.field "name" = .ok (.node i))
    (hkind : i.kind = .jsxIdentifier ∨ i.kind = .jsxNamespacedName) :
    n.desugar.field "name" = .ok (.node i) := by
  have hgrammar : i.Everywhere Grammatical := by simpa using hn.found hn.here.notes hi
  rw [field_desugar hn.here.notes, hi, map_ok, Value.desugar, desugar_name hgrammar hkind,
    Desugar.single_of_kind]
  · rcases hkind with h | h <;> simp [h]
  · rcases hkind with h | h <;> simp [h]

/-! ### Tags -/

/-- The opening tag of a desugared element is the desugared opening tag. -/
lemma Node.content_opening_desugar (hn : n.Everywhere Grammatical) {o : Node}
    (ho : n.field "opening_element" = .ok (.node o)) (hopening : o.kind = .jsxOpeningElement) :
    (Value.node n.desugar).content "opening_element" = .node o.desugar := by
  rw [content_desugar hn.here.notes, Value.content_of_node_field ho, Value.desugar,
    Desugar.single_of_kind] <;> simp [hopening]

/-- The attributes of a desugared element are its desugared attributes. -/
lemma Desugar.attributes_desugar (hn : n.Everywhere Node.Grammatical)
    (hkind : n.kind = .jsxElement) :
    attributes (.node n.desugar) = (attributes (.node n)).map Value.desugarItem := by
  obtain ⟨o, ho, hgrammar, hopening⟩ := Node.opening_of_element hn hkind
  obtain ⟨list, hlist, hnodes⟩ := Node.field_eq_nodes hgrammar "attributes"
    (some [.jsxAttribute, .jsxSpreadAttribute]) (by rw [hopening]; rfl)
  have hstays (m : Node) (hm : .node m ∈ list.map Value.desugarItem) : m.Stays := by
    obtain ⟨attr, hattr, hnode⟩ := List.mem_map.mp hm
    obtain ⟨a, rfl, ha, -⟩ := hnodes attr hattr
    obtain rfl : a.desugar = m := Value.node.inj hnode
    have ha : a.kind = .jsxAttribute ∨ a.kind = .jsxSpreadAttribute := by simpa using ha
    rcases ha with ha | ha <;> exact Node.stays_of_kind (by simp [ha]) (by simp [ha])
  rw [attributes, attributes, Node.content_opening_desugar hn ho hopening,
    Node.content_desugar hgrammar.here.notes, Value.content_of_node_field ho,
    Value.content_of_node_field hlist, Value.desugar, Value.desugarItems_eq_map,
    items_of_stays hstays]
  rfl

/-- Desugaring leaves the name of an attribute. -/
lemma Node.attributeName_desugar {a : Node} (ha : a.Everywhere Grammatical) :
    (Value.node a.desugar).attributeName = (Value.node a).attributeName := by
  by_cases hkind : a.kind = .jsxAttribute
  · obtain ⟨i, hi, hname, -⟩ := field_eq_node ha "name" (some [.jsxIdentifier, .jsxNamespacedName])
      (by rw [hkind]; rfl)
    have hi' := field_name_desugar ha hi (by simpa using hname)
    simp [Value.attributeName, hkind, hi, hi']
  · simp [Value.attributeName, hkind]

/-- The attribute that counts, in a desugared element, is the one that did. -/
lemma Desugar.attribute?_desugar (hn : n.Everywhere Node.Grammatical)
    (hkind : n.kind = .jsxElement) (name : String) :
    attribute? (.node n.desugar) name = (attribute? (.node n) name).map Value.desugarItem := by
  obtain ⟨opening, found, hread⟩ := Attributes.exists_read hn hkind
  rw [attribute?, attribute?, attributes_desugar hn hkind, ← List.map_reverse, List.find?_map]
  congr 1
  apply List.find?_congr
  intro attr hattr
  obtain ⟨a, rfl, -, ha⟩ := hread.listed attr (List.mem_reverse.mp hattr)
  simp [isNamed, Value.desugarItem, Node.attributeName_desugar ha]

/-- The attribute that counts is contained in the element. -/
lemma Node.contains_attribute {n : Node} (hn : n.Everywhere Grammatical)
    (hkind : n.kind = .jsxElement) {name : String} (hname : name ≠ "...") {attr : Value}
    (hattr : Desugar.attribute? (.node n) name = some attr) :
    ∃ a : Node, attr = .node a ∧ a.kind = .jsxAttribute ∧ n.Contains a := by
  obtain ⟨opening, found, hread⟩ := Attributes.exists_read hn hkind
  obtain ⟨a, rfl, hattribute, -⟩ := hread.node_of_attribute? hname hattr
  obtain ⟨o, ho, hgrammar, hopening⟩ := opening_of_element hn hkind
  obtain ⟨list, hlist, -⟩ := field_eq_nodes hgrammar "attributes"
    (some [.jsxAttribute, .jsxSpreadAttribute]) (by rw [hopening]; rfl)
  have hmem : Value.node a ∈ list := by
    have h := (Desugar.mem_of_attribute? hattr).1
    rwa [Desugar.attributes, Value.content_of_node_field ho,
      Value.content_of_node_field hlist] at h
  have ho : n.Holds o := ⟨_, (hn.here.orderly.field_eq_ok ho).1, by simp [Value.slotNodes]⟩
  have ha : o.Holds a := ⟨_, (hgrammar.here.orderly.field_eq_ok hlist).1, by simpa using hmem⟩
  exact ⟨a, rfl, hattribute, .head ho (.single ha)⟩

/-- An attribute has its value in a slot. -/
lemma Node.Grammatical.field_value {a : Node} (ha : a.Grammatical) (hkind : a.kind = .jsxAttribute)
    {v : Value} (hv : (Value.node a).content "value" = v) : a.field "value" = .ok v := by
  obtain ⟨u, hu, -⟩ := ha.field "value" _ (by rw [hkind]; rfl)
  rw [hu, ← hv, Value.content_of_node_field hu]

/-- The value of a desugared attribute is what takes the place of the value. -/
lemma Node.content_value_desugar {a m : Node} (ha : a.origin.notes = [])
    (hkind : a.kind = .jsxAttribute) (hvalue : (Value.node a).content "value" = .node m) :
    (Value.node a.desugar).content "value" = Desugar.single true (.node m.desugar) [] := by
  have hjsx : (Value.node a).isJsx = true := by
    rw [Value.isJsx, Value.isMarkup, hkind]
    rfl
  rw [content_desugar ha, hvalue, Value.desugar, hjsx]

/-- Desugaring leaves the name of a construct. -/
lemma Node.name_desugar {n o : Node} (ho : n.field "opening_element" = .ok (.node o))
    (hgrammar : o.Everywhere Grammatical) {c : Construct}
    (hc : (Value.node n).construct? = some c) :
    (Value.node o.desugar).content "name" = (Value.node o).content "name" := by
  obtain ⟨-, o', i, ho', hi, hident, -⟩ :=
    Value.tagName_eq_text_iff.mp (Value.construct?_eq_some_iff.mp hc)
  obtain rfl : o' = o := Value.node.inj (Except.ok.inj (ho'.symm.trans ho))
  rw [Value.content_of_node_field hi,
    Value.content_of_node_field (field_name_desugar hgrammar hi (.inl hident))]

/-! ### What is handed on -/

namespace Desugar

/-- The parts that a value hands on to what takes its place, in order: a construct its expressions
and its body, a statement that checks for one nothing, and anything else itself. -/
def handed (e : Value) : List Value :=
  match e.construct? with
  | some .loop => [expression e "of", expression e "var", body (children e)]
  | some .binding => [expression e "var", body (children e), expression e "value"]
  | some .whenTrue | some .otherwiseWhen => [expression e "test", body (children e)]
  | some .otherwise => [body (children e)]
  | none => if e.isGuardStatement then [] else [e]

lemma body_mem_handed {e : Value} {c : Construct} (hc : e.construct? = some c) :
    body (children e) ∈ handed e := by
  cases c <;> simp [handed, hc]

lemma expression_mem_handed {e : Value} {c : Construct} (hc : e.construct? = some c) {name : String}
    (hname : name ∈ c.attributeNames) : expression e name ∈ handed e := by
  cases c <;> simp [Construct.attributeNames] at hname <;> rcases hname with rfl | rfl <;>
    simp [handed, hc]

end Desugar

end JsxControl
