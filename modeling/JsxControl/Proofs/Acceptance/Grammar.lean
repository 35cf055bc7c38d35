import JsxControl.Proofs.Access
import JsxControl.Proofs.Orderly
import Mathlib.Data.List.Forall2

/-!
# The grammar of trees

What each field of a known kind has to hold. The demands are those of ESTree with the JSX extension
as far as anything in the library depends on them: an operand may be any node, while the name of an
element is one of three kinds. A node of another kind may hold anything, and only its tag must not
claim to be markup.

A pass looks into grammatical trees without fault.
-/

namespace JsxControl

/-! ### Demands -/

/-- What a field has to hold. Nodes may be asked for of any kind, or of some kinds only. -/
inductive Demand
  | scalar
  | text
  | textOrNull
  | node (kinds? : Option (List Kind))
  | nodeOrNull (kinds? : Option (List Kind))
  | nodes (kinds? : Option (List Kind))
  | nodesOrNulls

/-- A value is a node, of one of the given kinds if some are given. -/
def Value.IsNode (kinds? : Option (List Kind)) (v : Value) : Prop :=
  ∃ n : Node, v = .node n ∧ ∀ kinds ∈ kinds?, n.kind ∈ kinds

namespace Demand

/-- The content of a field is what a demand asks for. -/
def Meets : Demand → Value → Prop
  | scalar, v => ∃ s, v = .scalar s
  | text, v => ∃ s, v = .text s
  | textOrNull, v => v = .null ∨ ∃ s, v = .text s
  | node kinds?, v => v.IsNode kinds?
  | nodeOrNull kinds?, v => v = .null ∨ v.IsNode kinds?
  | nodes kinds?, v => ∃ items, v = .list items ∧ ∀ item ∈ items, item.IsNode kinds?
  | nodesOrNulls, v => ∃ items, v = .list items ∧ ∀ item ∈ items, item = .null ∨ item.IsNode none

/-- A field has the name that is asked for, and its content meets the demand. -/
def MetBy (demand : String × Demand) (entry : String × Value) : Prop :=
  entry.1 = demand.1 ∧ demand.2.Meets entry.2

end Demand

open Demand

/-- The kinds of the names that elements bear. -/
def Kind.elementNames : List Kind := [.jsxIdentifier, .jsxMemberExpression, .jsxNamespacedName]

/-- What the fields of a known kind have to hold, in order. -/
def Kind.demands : Kind → List (String × Demand)
  | .program => [("body", nodes none), ("source_type", scalar)]
  | .expressionStatement => [("expression", node none)]
  | .emptyStatement => []
  | .blockStatement => [("body", nodes none)]
  | .ifStatement =>
    [("test", node none), ("consequent", node none), ("alternate", nodeOrNull none)]
  | .returnStatement => [("argument", nodeOrNull none)]
  | .variableDeclarator => [("id", node none), ("init", nodeOrNull none)]
  | .variableDeclaration =>
    [("declarations", nodes (some [.variableDeclarator])), ("kind", scalar)]
  | .functionDeclaration =>
    [("id", nodeOrNull (some [.identifier])), ("params", nodes none),
     ("body", node (some [.blockStatement]))]
  | .identifier => [("name", text)]
  | .literal => [("value", scalar), ("raw", textOrNull)]
  | .memberExpression =>
    [("object", node none), ("property", node none), ("computed", scalar), ("optional", scalar)]
  | .callExpression => [("callee", node none), ("arguments", nodes none), ("optional", scalar)]
  | .arrowFunctionExpression =>
    [("params", nodes none), ("body", node none), ("expression", scalar)]
  | .conditionalExpression =>
    [("test", node none), ("consequent", node none), ("alternate", node none)]
  | .unaryExpression => [("operator", text), ("argument", node none), ("prefix", scalar)]
  | .binaryExpression => [("operator", text), ("left", node none), ("right", node none)]
  | .logicalExpression => [("operator", text), ("left", node none), ("right", node none)]
  | .spreadElement => [("argument", node none)]
  | .arrayExpression => [("elements", nodesOrNulls)]
  | .property =>
    [("key", node none), ("value", node none), ("kind", scalar), ("computed", scalar),
     ("shorthand", scalar), ("method", scalar)]
  | .objectExpression => [("properties", nodes none)]
  | .jsxIdentifier => [("name", text)]
  | .jsxMemberExpression =>
    [("object", node none), ("property", node (some [.jsxIdentifier]))]
  | .jsxNamespacedName =>
    [("namespace", node (some [.jsxIdentifier])), ("name", node (some [.jsxIdentifier]))]
  | .jsxEmptyExpression => []
  | .jsxExpressionContainer => [("expression", node none)]
  | .jsxText => [("value", text), ("raw", textOrNull)]
  | .jsxAttribute =>
    [("name", node (some [.jsxIdentifier, .jsxNamespacedName])), ("value", nodeOrNull none)]
  | .jsxSpreadAttribute => [("argument", node none)]
  | .jsxOpeningElement =>
    [("name", node (some elementNames)),
     ("attributes", nodes (some [.jsxAttribute, .jsxSpreadAttribute])), ("self_closing", scalar)]
  | .jsxClosingElement => [("name", node (some elementNames))]
  | .jsxElement =>
    [("opening_element", node (some [.jsxOpeningElement])), ("children", nodes none),
     ("closing_element", nodeOrNull (some [.jsxClosingElement]))]
  | .jsxOpeningFragment => []
  | .jsxClosingFragment => []
  | .jsxFragment =>
    [("opening_fragment", node (some [.jsxOpeningFragment])), ("children", nodes none),
     ("closing_fragment", node (some [.jsxClosingFragment]))]
  | .other _ => []

/-- A node as the grammar has it: the fields of a known kind meet the demands of the kind, and an
unknown kind is not called markup. -/
structure Node.Grammatical (n : Node) : Prop where
  notes : n.origin.notes = []
  plain : n.kind.isOther = true → n.kind.isMarkup = .ok false
  fields : n.kind.isOther = false → List.Forall₂ MetBy n.kind.demands n.fields

lemma Kind.names_demands (kind : Kind) : Entries.names kind.demands = kind.fieldNames := by
  cases kind <;> rfl

lemma Demand.names_eq {demands : List (String × Demand)} {fields : List (String × Value)}
    (h : List.Forall₂ MetBy demands fields) : Entries.names fields = Entries.names demands := by
  induction h with
  | nil => rfl
  | cons hentry _ ih =>
    unfold Entries.names at ih ⊢
    rw [List.map_cons, List.map_cons, hentry.1, ih]

lemma Demand.get?_eq {demands : List (String × Demand)} {fields : List (String × Value)}
    (h : List.Forall₂ MetBy demands fields) {name : String} {d : Demand}
    (hd : Entries.get? demands name = some d) :
    ∃ v, Entries.get? fields name = some v ∧ d.Meets v := by
  induction h with
  | nil => simp at hd
  | @cons demand entry _ _ hentry _ ih =>
    obtain ⟨k, e⟩ := demand
    obtain ⟨k', v⟩ := entry
    obtain ⟨rfl, hv⟩ : k' = k ∧ e.Meets v := hentry
    rw [Entries.get?_cons] at hd ⊢
    by_cases hk : name = k'
    · rw [if_pos hk] at hd ⊢
      obtain rfl : e = d := by simpa using hd
      exact ⟨v, rfl, hv⟩
    · rw [if_neg hk] at hd ⊢
      exact ih hd

/-- What a notion of nodes demands of the fields of each known kind. -/
structure Node.Demanding (G : Node → Prop) (demands : Kind → List (String × Demand)) : Prop where
  notes : ∀ n, G n → n.origin.notes = []
  other : ∀ tag, demands (.other tag) = []
  fields : ∀ n, G n → n.kind.isOther = false → List.Forall₂ MetBy (demands n.kind) n.fields

namespace Node.Demanding

variable {G : Node → Prop} {demands : Kind → List (String × Demand)} {n : Node}

lemma orderly (hG : Demanding G demands)
    (hnames : ∀ kind : Kind, Entries.names (demands kind) = kind.fieldNames) (h : G n) :
    n.Orderly := by
  refine ⟨hG.notes n h, ?_⟩
  intro hknown
  rw [names_eq (hG.fields n h hknown), hnames]

/-- Looking for a field that is demanded finds it, with what is demanded in it. -/
lemma field (hG : Demanding G demands) (h : G n) (name : String) (d : Demand)
    (hd : Entries.get? (demands n.kind) name = some d) :
    ∃ v, n.field name = .ok v ∧ d.Meets v := by
  have hknown : n.kind.isOther = false := by
    cases hkind : n.kind with
    | other tag => simp [hkind, hG.other] at hd
    | _ => rfl
  obtain ⟨v, hget, hv⟩ := get?_eq (hG.fields n h hknown) hd
  exact ⟨v, (field_eq_ok_iff (hG.notes n h)).mpr ⟨hknown, hget⟩, hv⟩

/-- A field that has to hold a node does. -/
lemma field_eq_node (hG : Demanding G demands) (h : n.Everywhere G) (name : String)
    (kinds? : Option (List Kind))
    (hd : Entries.get? (demands n.kind) name = some (.node kinds?)) :
    ∃ m : Node, n.field name = .ok (.node m) ∧ (∀ kinds ∈ kinds?, m.kind ∈ kinds) ∧
      m.Everywhere G := by
  obtain ⟨v, hv, m, rfl, hkind⟩ := hG.field h.here name _ hd
  exact ⟨m, hv, hkind, by simpa using h.found (hG.notes n h.here) hv⟩

/-- A field that has to hold a list of nodes does. -/
lemma field_eq_nodes (hG : Demanding G demands) (h : n.Everywhere G) (name : String)
    (kinds? : Option (List Kind))
    (hd : Entries.get? (demands n.kind) name = some (.nodes kinds?)) :
    ∃ items, n.field name = .ok (.list items) ∧ ∀ item ∈ items, ∃ m : Node, item = .node m ∧
      (∀ kinds ∈ kinds?, m.kind ∈ kinds) ∧ m.Everywhere G := by
  obtain ⟨v, hv, items, rfl, hitems⟩ := hG.field h.here name _ hd
  refine ⟨items, hv, ?_⟩
  intro item hitem
  obtain ⟨m, rfl, hkind⟩ := hitems item hitem
  exact ⟨m, rfl, hkind, Value.everywhere_list.mp (h.found (hG.notes n h.here) hv) m hitem⟩

lemma field_eq_text (hG : Demanding G demands) (h : n.Everywhere G) (name : String)
    (hd : Entries.get? (demands n.kind) name = some .text) :
    ∃ s, n.field name = .ok (.text s) := by
  obtain ⟨v, hv, s, rfl⟩ := hG.field h.here name _ hd
  exact ⟨s, hv⟩

end Node.Demanding

namespace Node.Grammatical

variable {n : Node}

lemma demanding : Demanding Grammatical Kind.demands where
  notes _ h := h.notes
  other _ := rfl
  fields _ h := h.fields

lemma orderly (h : n.Grammatical) : n.Orderly := demanding.orderly Kind.names_demands h

/-- Looking for a field that is demanded finds it, with what is demanded in it. -/
lemma field (h : n.Grammatical) (name : String) (d : Demand)
    (hd : Entries.get? n.kind.demands name = some d) : ∃ v, n.field name = .ok v ∧ d.Meets v :=
  demanding.field h name d hd

end Node.Grammatical

lemma Node.Everywhere.orderly {n : Node} (h : n.Everywhere Grammatical) : n.Everywhere Orderly :=
  h.imp fun _ h => h.orderly

/-! ### Looking into grammatical trees -/

lemma Kind.exists_isMarkup {kind : Kind} (h : kind.isOther = false) :
    ∃ b, kind.isMarkup = .ok b := by
  cases kind with
  | other => simp [isOther] at h
  | _ => exact ⟨_, rfl⟩

namespace Node

variable {n : Node}

lemma Grammatical.isMarkup (h : n.Grammatical) :
    (Value.node n).isMarkup = .ok (Value.node n).isJsx := by
  have hok : ∃ b, (Value.node n).isMarkup = .ok b := by
    cases hother : n.kind.isOther with
    | true => exact ⟨false, h.plain hother⟩
    | false => exact Kind.exists_isMarkup hother
  obtain ⟨b, hb⟩ := hok
  rw [hb, Value.isJsx_of_isMarkup hb]

/-- A field that has to hold a node does. -/
lemma field_eq_node (h : n.Everywhere Grammatical) (name : String) (kinds? : Option (List Kind))
    (hd : Entries.get? n.kind.demands name = some (.node kinds?)) :
    ∃ m : Node, n.field name = .ok (.node m) ∧ (∀ kinds ∈ kinds?, m.kind ∈ kinds) ∧
      m.Everywhere Grammatical :=
  Grammatical.demanding.field_eq_node h name kinds? hd

/-- A field that has to hold a list of nodes does. -/
lemma field_eq_nodes (h : n.Everywhere Grammatical) (name : String) (kinds? : Option (List Kind))
    (hd : Entries.get? n.kind.demands name = some (.nodes kinds?)) :
    ∃ items, n.field name = .ok (.list items) ∧ ∀ item ∈ items, ∃ m : Node, item = .node m ∧
      (∀ kinds ∈ kinds?, m.kind ∈ kinds) ∧ m.Everywhere Grammatical :=
  Grammatical.demanding.field_eq_nodes h name kinds? hd

lemma field_eq_text (h : n.Everywhere Grammatical) (name : String)
    (hd : Entries.get? n.kind.demands name = some .text) : ∃ s, n.field name = .ok (.text s) :=
  Grammatical.demanding.field_eq_text h name hd

/-- The opening tag of an element, and its attributes. -/
lemma opening_of_element (h : n.Everywhere Grammatical) (hkind : n.kind = .jsxElement) :
    ∃ o : Node, n.field "opening_element" = .ok (.node o) ∧ o.Everywhere Grammatical ∧
      o.kind = .jsxOpeningElement := by
  obtain ⟨o, ho, hopening, heverywhere⟩ := field_eq_node h "opening_element"
    (some [.jsxOpeningElement]) (by rw [hkind]; rfl)
  exact ⟨o, ho, heverywhere, by simpa using hopening⟩

lemma tagName_eq_ok (h : n.Everywhere Grammatical) :
    ∃ s, (Value.node n).tagName = .ok (.scalar s) := by
  by_cases hkind : n.kind = .jsxElement
  · obtain ⟨o, ho, heverywhere, hopening⟩ := opening_of_element h hkind
    obtain ⟨i, hi, -, hname⟩ := field_eq_node heverywhere "name" (some Kind.elementNames)
      (by rw [hopening]; rfl)
    by_cases hident : i.kind = .jsxIdentifier
    · obtain ⟨s, hs⟩ := field_eq_text hname "name" (by rw [hident]; rfl)
      exact ⟨.text s, by simp [Value.tagName, hkind, ho, hi, hident, hs]⟩
    · exact ⟨.null, by simp [Value.tagName, hkind, ho, hi, hident]⟩
  · exact ⟨.null, by simp [Value.tagName, hkind]⟩

lemma attributeName_eq_ok (h : n.Everywhere Grammatical) :
    ∃ s, (Value.node n).attributeName = .ok (.text s) := by
  by_cases hkind : n.kind = .jsxAttribute
  · obtain ⟨i, hi, hnamed, hname⟩ := field_eq_node h "name"
      (some [.jsxIdentifier, .jsxNamespacedName]) (by rw [hkind]; rfl)
    by_cases hspaced : i.kind = .jsxNamespacedName
    · obtain ⟨space, hspace, hspaceKind, hspaceName⟩ := field_eq_node hname "namespace"
        (some [.jsxIdentifier]) (by rw [hspaced]; rfl)
      obtain ⟨bare, hbare, hbareKind, hbareName⟩ := field_eq_node hname "name"
        (some [.jsxIdentifier]) (by rw [hspaced]; rfl)
      obtain ⟨s, hs⟩ := field_eq_text hspaceName "name"
        (by rw [show space.kind = _ by simpa using hspaceKind]; rfl)
      obtain ⟨t, ht⟩ := field_eq_text hbareName "name"
        (by rw [show bare.kind = _ by simpa using hbareKind]; rfl)
      exact ⟨s ++ ":" ++ t, by
        simp [Value.attributeName, hkind, hi, hspaced, hspace, hbare, hs, ht, Value.shown]⟩
    · have hident : i.kind = .jsxIdentifier := by simpa [hspaced] using hnamed
      obtain ⟨s, hs⟩ := field_eq_text hname "name" (by rw [hident]; rfl)
      exact ⟨s, by simp [Value.attributeName, hkind, hi, hident, hs]⟩
  · exact ⟨"...", by simp [Value.attributeName, hkind]⟩

/-- Whether a node is a call that checks for a pseudo-element can be told. -/
lemma isReferenceGuard_eq_ok (h : n.Everywhere Grammatical) :
    ∃ b, (Value.node n).isReferenceGuard = .ok b := by
  by_cases hkind : n.kind = .callExpression
  · obtain ⟨callee, hcallee, -, hname⟩ := field_eq_node h "callee" none
      (by rw [hkind]; rfl)
    obtain ⟨items, hitems, hnodes⟩ := field_eq_nodes h "arguments" none
      (by rw [hkind]; rfl)
    by_cases hident : callee.kind = .identifier
    · obtain ⟨s, hs⟩ := field_eq_text hname "name" (by rw [hident]; rfl)
      by_cases hguard : s = guardFunction
      · cases items with
        | nil =>
          exact ⟨false, by
            simp [Value.isReferenceGuard, hkind, hcallee, hident, hs, hguard, hitems, Value.items]⟩
        | cons first rest =>
          obtain ⟨m, rfl, -, hm⟩ := hnodes first (by simp)
          by_cases hliteral : m.kind = .literal
          · obtain ⟨v, hv, s', rfl⟩ := hm.here.field "value" .scalar
              (by rw [hliteral]; rfl)
            exact ⟨(Construct.ofName? s').isSome, by
              simp [Value.isReferenceGuard, hkind, hcallee, hident, hs, hguard, hitems, Value.items,
                hliteral, hv, Value.key]⟩
          · exact ⟨false, by
              simp [Value.isReferenceGuard, hkind, hcallee, hident, hs, hguard, hitems, Value.items,
                hliteral]⟩
      · exact ⟨false, by simp [Value.isReferenceGuard, hkind, hcallee, hident, hs, hguard]⟩
    · exact ⟨false, by simp [Value.isReferenceGuard, hkind, hcallee, hident]⟩
  · exact ⟨false, by simp [Value.isReferenceGuard, hkind]⟩

end Node

end JsxControl
