import JsxControl.Proofs.Acceptance.Grammar

/-!
# The types of trees

What the fields of each kind have to hold, where nothing is asked for but what their types say. The
types are looser than the grammar: the name of an element or of an attribute, and an attribute
itself, may be any node. An unknown kind may stand wherever any node may, and it may be called
whatever it likes.

An unknown kind that is called markup is `Mistaken`. There is no markup that it could be written as,
and the attempt does not come to an end. `Node.Writable J` therefore says that a node is typed, and
that `J` holds if it is mistaken.
-/

namespace JsxControl

open Demand

/-- The types of the fields of a known kind, in order. -/
def Kind.types : Kind → List (String × Demand)
  | .jsxAttribute => [("name", node none), ("value", nodeOrNull none)]
  | .jsxOpeningElement =>
    [("name", node none), ("attributes", nodes none), ("self_closing", scalar)]
  | .jsxClosingElement => [("name", node none)]
  | kind => kind.demands

lemma Kind.names_types (kind : Kind) : Entries.names kind.types = kind.fieldNames := by
  cases kind <;> rfl

/-- A kind that is called markup, but is none of those that are known. -/
def Node.Mistaken (n : Node) : Prop := n.kind.isOther = true ∧ n.kind.isMarkup = .ok true

/-- A node as the types of its fields have it; an unknown kind has a text for a tag. -/
structure Node.Typed (n : Node) : Prop where
  notes : n.origin.notes = []
  tagged : n.kind.isOther = true → ∃ b, n.kind.isMarkup = .ok b
  fields : n.kind.isOther = false → List.Forall₂ MetBy n.kind.types n.fields

/-- A node is typed, and if it is mistaken, then `J` holds. -/
def Node.Writable (J : Prop) (n : Node) : Prop := n.Typed ∧ (n.Mistaken → J)

/-- What is demanded of the fields of a kind is at least what their types say. -/
lemma Kind.typed_of_demanded {kind : Kind} {fields : List (String × Value)}
    (h : List.Forall₂ MetBy kind.demands fields) : List.Forall₂ MetBy kind.types fields := by
  have hnode {kinds? : Option (List Kind)} {v : Value} (hv : v.IsNode kinds?) : v.IsNode none :=
    hv.imp fun _ hm => ⟨hm.1, by simp⟩
  cases kind
  case jsxAttribute | jsxClosingElement =>
    obtain _ | ⟨hname, hrest⟩ := h
    exact .cons ⟨hname.1, hnode hname.2⟩ hrest
  case jsxOpeningElement =>
    obtain _ | ⟨hname, _ | ⟨⟨hattributes, items, hitems, hnodes⟩, hrest⟩⟩ := h
    refine .cons ⟨hname.1, hnode hname.2⟩ (.cons ⟨hattributes, items, hitems, ?_⟩ hrest)
    exact fun item hitem => hnode (hnodes item hitem)
  all_goals exact h

namespace Node

variable {n : Node} {J : Prop}

lemma Typed.demanding : Demanding Typed Kind.types where
  notes _ h := h.notes
  other _ := rfl
  fields _ h := h.fields

lemma Writable.demanding : Demanding (Writable J) Kind.types where
  notes _ h := h.1.notes
  other _ := rfl
  fields _ h := h.1.fields

lemma Writable.orderly (h : n.Writable J) : n.Orderly :=
  Writable.demanding.orderly Kind.names_types h

lemma Everywhere.typed (h : n.Everywhere (Writable J)) : n.Everywhere Typed := h.imp fun _ h => h.1

/-- A typed tree is writable, if `J` follows from every mistaken node in it. -/
lemma Everywhere.writable (h : n.Everywhere Typed)
    (hJ : ∀ m, Relation.ReflTransGen Holds n m → m.Mistaken → J) : n.Everywhere (Writable J) :=
  fun m hm => ⟨h m hm, hJ m hm⟩

/-- The grammar is stricter than the types, and it leaves no node mistaken. -/
lemma Grammatical.writable (h : n.Grammatical) : n.Writable False := by
  refine ⟨⟨h.notes, fun hother => ⟨false, h.plain hother⟩, ?_⟩, ?_⟩
  · exact fun hknown => Kind.typed_of_demanded (h.fields hknown)
  · rintro ⟨hother, hmarkup⟩
    rw [h.plain hother] at hmarkup
    simp at hmarkup

end Node

end JsxControl
