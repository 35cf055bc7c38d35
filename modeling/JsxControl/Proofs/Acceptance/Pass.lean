import JsxControl.Proofs.Complaints.Answers
import JsxControl.Proofs.Desugar.Unchanged

/-!
# Which trees are accepted

A pass over a grammatical tree comes to its end exactly if everything in its slots is accepted and
nothing takes the place of its root.
-/

namespace JsxControl

open Expand

variable {holder : Value}

/-! ### Roots -/

namespace Expand

/-- A grammatical tree can be traced. -/
lemma report_eq_ok {n : Node} (hn : n.Everywhere Node.Grammatical) (asked : Topic → Bool)
    (word filename ending : String) :
    (report asked word filename ending (.node n)).toExcept = .ok (.node n) := by
  obtain ⟨s, hs⟩ := Value.source_eq_ok hn
  cases hasked : asked .sources <;> simp [report, hasked, hs]

/-- What a pass that accepts all slots of a tree does with the root. -/
lemma tree_eq_of_fine {root : Node} (hroot : root.Everywhere Node.Grammatical) (hfine : root.Fine)
    (asked : Topic → Bool) (filename : String) :
    (tree asked filename (.node root)).toExcept =
      (leaveAlone (asked .steps) .null root.desugar).toExcept >>= fun
        | some _ => .error (.rootReplaced root.kind filename)
        | none => .ok (.node root.desugar) := by
  have hgrammatical := root.grammatical_desugar hroot hfine.sound
  simp only [tree, Settled.toExcept_andThen, report_eq_ok hroot, ok_bind, settleRoot,
    (root.settle_judged (asked .steps) hroot).accepted hfine]
  cases hleave : (leaveAlone (asked .steps) .null root.desugar).toExcept with
  | error => rfl
  | ok v? =>
    cases v? with
    | some v => simp
    | none => simp [report_eq_ok hgrammatical]

lemma leaveAlone_judged (traced : Bool) {n : Node} (hn : n.Everywhere Node.Grammatical)
    (hholder : CanHold holder) :
    Judged (¬ (Value.node n).Continues ∧ (Value.node n).WellFormed)
      (leaveAlone traced holder n).toExcept (Desugar.replacement? holder.isJsx (.node n) []) := by
  rw [leaveAlone, Settled.toExcept_orStop, Construct.ofValue?_eq_ok hn, ok_bind]
  exact (leave_judged hn hholder (by simp [Branches]) (fun _ => rfl) traced).congr (by simp)

/-- The three ways in which a pass over a grammatical tree ends: it is accepted, only its root would
have to be replaced, or the markup is complained of. -/
lemma tree_outcome {root : Node} (hroot : root.Everywhere Node.Grammatical)
    (asked : Topic → Bool) (filename : String) :
    (root.Fine ∧ root.Stays ∧
      (tree asked filename (.node root)).toExcept = .ok (.node root.desugar)) ∨
    (root.Fine ∧ root.Sound ∧ ¬ (Value.node root).Continues ∧ ¬ root.Stays ∧
      (tree asked filename (.node root)).toExcept = .error (.rootReplaced root.kind filename)) ∨
    (¬ (root.Fine ∧ root.Sound ∧ ¬ (Value.node root).Continues) ∧ ∃ c,
      (tree asked filename (.node root)).toExcept = .error (.complaint c)) := by
  by_cases hfine : root.Fine
  · have hleave := leaveAlone_judged (asked .steps)
      (root.grammatical_desugar hroot hfine.sound) (.inl rfl : CanHold .null)
    rw [Node.continues_desugar hroot.orderly] at hleave
    rw [tree_eq_of_fine hroot hfine]
    by_cases hown : ¬ (Value.node root).Continues ∧ root.Sound
    · rw [hleave.accepted hown, ok_bind, Desugar.replacement?]
      by_cases hstays : root.Stays
      · refine .inl ⟨hfine, hstays, ?_⟩
        rw [if_pos (show _ ∧ _ from (Node.stays_desugar_iff hroot.orderly).mpr hstays)]
      · refine .inr (.inl ⟨hfine, hown.2, hown.1, hstays, ?_⟩)
        rw [if_neg (show ¬ (_ ∧ _) from fun h =>
          hstays ((Node.stays_desugar_iff hroot.orderly).mp h))]
    · obtain ⟨c, hc⟩ := hleave.refused hown
      exact .inr (.inr ⟨fun h => hown ⟨h.2.2, h.2.1⟩, c, by rw [hc, error_bind]⟩)
  · obtain ⟨c, hc⟩ := (root.settle_judged (asked .steps) hroot).refused hfine
    refine .inr (.inr ⟨fun h => hfine h.1, c, ?_⟩)
    simp [tree, report_eq_ok hroot, settleRoot, hc]

/-- A grammatical tree is expanded exactly if everything in its slots is fine and its root stays.
Where only the root would have to be replaced, that is the fault; every other one is a complaint. -/
theorem tree_accepted_iff {root : Node} (hroot : root.Everywhere Node.Grammatical)
    (asked : Topic → Bool) (filename : String) :
    ((∃ tree', (tree asked filename (.node root)).toExcept = .ok tree') ↔
      root.Fine ∧ root.Stays) ∧
    ((tree asked filename (.node root)).toExcept = .error (.rootReplaced root.kind filename) ↔
      root.Fine ∧ root.Sound ∧ ¬ (Value.node root).Continues ∧ ¬ root.Stays) ∧
    ∀ fault, (tree asked filename (.node root)).toExcept = .error fault →
      fault = .rootReplaced root.kind filename ∨ ∃ c, fault = .complaint c := by
  have hstays (h : root.Stays) : root.Sound ∧ ¬ (Value.node root).Continues := by
    have h' := (Node.stays_desugar_iff hroot.orderly).mpr h
    exact ⟨by simp [Node.Sound, Value.WellFormed, h'.1], by simp [Value.Continues, h.1]⟩
  rcases tree_outcome hroot asked filename with ⟨hfine, hroot, hok⟩ |
    ⟨hfine, hsound, hplaced, hroot, herror⟩ | ⟨hrefused, c, herror⟩
  · simp [hok, hfine, hroot]
  · simp [herror, hfine, hsound, hplaced, hroot]
  · rw [herror]
    refine ⟨⟨by simp, fun h => absurd ⟨h.1, hstays h.2⟩ hrefused⟩,
      ⟨by simp, fun h => absurd ⟨h.1, h.2.1, h.2.2.1⟩ hrefused⟩, ?_⟩
    intro fault hfault
    exact .inr ⟨c, by simpa using hfault.symm⟩

/-- The tree of a name in a tag. -/
def nameTree (name : String) : Node := ⟨.jsxIdentifier, [("name", .text name)], {}⟩

/-- The tree of an attribute that gives an expression. -/
def attributeTree (attr : String × Value) : Node :=
  ⟨.jsxAttribute, [("name", .node (nameTree attr.1)), ("value", .node (.container attr.2))], {}⟩

/-- The tree of an opening tag with the given attributes. -/
def openingTree (name : String) (given : List (String × Value)) (selfClosing : Bool) : Node :=
  ⟨.jsxOpeningElement, [("name", .node (nameTree name)),
    ("attributes", .list (given.map fun attr => .node (attributeTree attr))),
    ("self_closing", .bool selfClosing)], {}⟩

/-- The tree of an element with the given attributes and children. -/
def elementTree (name : String) (given : List (String × Value)) (children : List Value) : Node :=
  ⟨.jsxElement, [("opening_element", .node (openingTree name given children.isEmpty)),
    ("children", .list children), ("closing_element", .null)], {}⟩

lemma isGrammatical_nameTree (name : String) : (Value.node (nameTree name)).IsGrammatical :=
  Node.isGrammatical_of_made rfl (.cons ⟨rfl, _, rfl⟩ .nil) (by simp)

lemma isGrammatical_attributeTree {attr : String × Value} (h : attr.2.IsGrammatical) :
    (Value.node (attributeTree attr)).IsGrammatical := by
  have hname := (isGrammatical_nameTree attr.1).everywhere
  have hvalue := Node.isGrammatical_container h
  refine Node.isGrammatical_of_made rfl (.cons ⟨rfl, nameTree attr.1, rfl, ?_⟩
    (.cons ⟨rfl, .inr hvalue.isNode⟩ .nil)) ?_
  · simp [nameTree]
  · rw [List.forall_mem_cons, List.forall_mem_singleton]
    exact ⟨hname, hvalue.everywhere⟩

/-- A node may have been read anywhere. -/
lemma isGrammatical_with_origin {n : Node} (h : (Value.node n).IsGrammatical) {origin : Origin}
    (hnotes : origin.notes = []) : (Value.node { n with origin }).IsGrammatical := by
  have hn : n.Everywhere Node.Grammatical := by simpa using h.everywhere
  refine ⟨_, rfl, Node.everywhere_iff.mpr ⟨⟨hnotes, hn.here.plain, hn.here.fields⟩, ?_⟩⟩
  exact fun entry hentry => hn.field hentry

lemma isGrammatical_opening (name : String) {attributes : List Value} (selfClosing : Bool)
    (hattributes : ∀ attr ∈ attributes,
      attr.IsGrammatical ∧ ∃ a : Node, attr = .node a ∧ a.kind = .jsxAttribute) :
    (Value.node ⟨.jsxOpeningElement,
      [("name", .node (nameTree name)), ("attributes", .list attributes),
        ("self_closing", .bool selfClosing)], {}⟩).IsGrammatical := by
  refine Node.isGrammatical_of_made rfl (.cons ⟨rfl, nameTree name, rfl, ?_⟩
    (.cons ⟨rfl, _, rfl, fun attr hattr => ?_⟩ (.cons ⟨rfl, _, rfl⟩ .nil))) ?_
  · simp [nameTree, Kind.elementNames]
  · obtain ⟨-, a, rfl, ha⟩ := hattributes attr hattr
    exact ⟨a, rfl, by simp [ha]⟩
  · rw [List.forall_mem_cons, List.forall_mem_cons, List.forall_mem_singleton]
    refine ⟨(isGrammatical_nameTree name).everywhere, ?_, by simp⟩
    exact Value.Everywhere.of_items fun attr hattr => (hattributes attr hattr).1.everywhere

lemma isGrammatical_element {opening : Node} (hopening : (Value.node opening).IsGrammatical)
    (hkind : opening.kind = .jsxOpeningElement) {children : List Value}
    (hchildren : ∀ child ∈ children, child.IsGrammatical) :
    (Value.node ⟨.jsxElement, [("opening_element", .node opening), ("children", .list children),
      ("closing_element", .null)], {}⟩).IsGrammatical := by
  refine Node.isGrammatical_of_made rfl (.cons ⟨rfl, opening, rfl, ?_⟩
    (.cons ⟨rfl, _, rfl, fun child hchild => (hchildren child hchild).isNode⟩
      (.cons ⟨rfl, .inl rfl⟩ .nil))) ?_
  · simp [hkind]
  · rw [List.forall_mem_cons, List.forall_mem_cons, List.forall_mem_singleton]
    refine ⟨hopening.everywhere, ?_, by simp⟩
    exact Value.Everywhere.of_items fun child hchild => (hchildren child hchild).everywhere

lemma isGrammatical_elementTree (name : String) {given : List (String × Value)}
    {children : List Value} (hgiven : ∀ attr ∈ given, attr.2.IsGrammatical)
    (hchildren : ∀ child ∈ children, child.IsGrammatical) :
    (Value.node (elementTree name given children)).IsGrammatical := by
  apply isGrammatical_element _ rfl hchildren
  apply isGrammatical_opening
  rw [List.forall_mem_map]
  exact fun attr hattr => ⟨isGrammatical_attributeTree (hgiven attr hattr), _, rfl, rfl⟩

/-- The tree of `<$for var={x} of={xs}>{x}</$for>`. -/
def loopTree : Node :=
  elementTree "$for" [("var", .node (.identifier "x")), ("of", .node (.identifier "xs"))]
    [.node (.container (.node (.identifier "x")))]

lemma isGrammatical_loopTree : (Value.node loopTree).IsGrammatical := by
  have hvariable (name : String) : (Value.node (.identifier name)).IsGrammatical :=
    Node.isGrammatical_identifier name
  refine isGrammatical_elementTree "$for" ?_ ?_
  · rw [List.forall_mem_cons, List.forall_mem_singleton]
    exact ⟨hvariable "x", hvariable "xs"⟩
  · rw [List.forall_mem_singleton]
    exact Node.isGrammatical_container (hvariable "x")

/-- The tree of `<$else/>`. -/
def loneElse : Node := elementTree "$else" [] []

lemma isGrammatical_loneElse : (Value.node loneElse).IsGrammatical :=
  isGrammatical_elementTree "$else" (by simp) (by simp)

theorem loneElse_accepted_iff : (Node.fragment [.node loneElse]).Everywhere Node.Grammatical ∧
    ((∃ tree', (tree (fun _ => false) "a.jsx" (.node (.fragment [.node loneElse]))).toExcept =
      .ok tree') ↔
        (Node.fragment [.node loneElse]).Fine ∧ (Node.fragment [.node loneElse]).Stays) := by
  have hroot : (Node.fragment [.node loneElse]).Everywhere Node.Grammatical := by
    have hfragment : (Value.node (.fragment [.node loneElse])).IsGrammatical :=
      Node.isGrammatical_fragment (by simpa using isGrammatical_loneElse)
    simpa using hfragment.everywhere
  exact ⟨hroot, (tree_accepted_iff hroot (fun _ => false) "a.jsx").1⟩

end Expand

end JsxControl
