import JsxControl.Proofs.Marks.Order

/-!
# A pass keeps what is written

No part of a tree is dropped by a pass, and none is written twice: whatever is not the syntax of a
construct, or within a statement that checks for one, is found in the expanded tree once. The
children of a node stay in their order.
-/

namespace JsxControl.Expand

variable {μ : Type} {k : Marking μ}

/-- In a tree whose nodes are told apart by their marks, and in which no construct gives a name to
two attributes, a pass that comes to its end keeps every mark once, but for those that constructs
and checks spend; and the children of every node keep their order. -/
theorem tree_keeps_marks {asked : Topic → Bool} {filename : String} {root : Node} {tree' : Value}
    (hroot : root.Everywhere Node.Grammatical)
    (hnames : ∀ m, root.Contains m → (Value.node m).construct?.isSome →
      (Value.node m).DistinctNames)
    (hmarks : (root.marks k).Nodup)
    (h : (tree asked filename (.node root)).toExcept = .ok tree') :
    (tree'.marks k).Nodup ∧
    (∀ x, x ∈ tree'.marks k ↔
      x ∈ root.marks k ∧ ¬ ∃ m, root.Contains m ∧ x ∈ (Value.node m).spent k) ∧
    ∀ n, Relation.ReflTransGen Node.Holds root n → n.ChildrenInOrder k (tree'.marks k) := by
  obtain ⟨hfine, -⟩ := (tree_accepted_iff hroot asked filename).1.mp ⟨tree', h⟩
  have haccepted : root.Accepted := ⟨hroot, hfine, hnames⟩
  obtain ⟨_, root', hnode, hsettle, rfl, -⟩ := tree_eq_ok h
  obtain rfl := Value.node.inj hnode
  obtain rfl := root.settle_eq_desugar hroot.orderly hsettle
  have hloses := haccepted.loses_spent k
  rw [Value.marks_node]
  refine ⟨hloses.nodup hmarks, ?_, fun n hn => haccepted.childrenInOrder hmarks hn⟩
  intro x
  constructor
  · intro hx
    exact ⟨hloses.subset hx, hloses.not_gone hmarks hx⟩
  · rintro ⟨hx, hkept⟩
    exact ((hloses.mem_iff x).mp hx).resolve_right hkept

/-- Marks are numbers that documents have under `mark`. -/
def numbers : Marking Int where
  mark? o := (Entries.get? o.extra "mark").bind Json.int?
  mark?_new := rfl

/-- A node with a number. -/
def numbered (i : Int) (n : Node) : Node := { n with origin := { extra := [("mark", .int i)] } }

/-- The tree of a name in braces, both with numbers. -/
def numberedBraces (i j : Int) (name : String) : Node :=
  numbered i (.container (.node (numbered j (.identifier name))))

/-- The tree of `<>{a}<$if test={b}>{c}</$if></>` with numbers on `a` and its braces, on the
construct and `b`, and on `c` and its braces. -/
def numberedIf : Node :=
  .fragment [.node (numberedBraces 0 1 "a"),
    .node (numbered 2 (elementTree "$if" [("test", .node (numbered 3 (.identifier "b")))]
      [.node (numberedBraces 4 5 "c")]))]

/-- The tree of `<>{a}{b ? c : null}</>` with the numbers that are left. -/
def numberedIfExpanded : Node :=
  .fragment [.node (numberedBraces 0 1 "a"),
    .node (.container (.node (.conditional (.node (numbered 3 (.identifier "b")))
      (.node (numbered 5 (.identifier "c"))) (.node .nullLiteral))))]

lemma isGrammatical_numbered {n : Node} (h : (Value.node n).IsGrammatical) (i : Int) :
    (Value.node (numbered i n)).IsGrammatical := isGrammatical_with_origin h rfl

lemma isGrammatical_numberedIf : (Value.node numberedIf).IsGrammatical := by
  have hname (i : Int) (s : String) := isGrammatical_numbered (Node.isGrammatical_identifier s) i
  have hbraces (i j : Int) (s : String) : (Value.node (numberedBraces i j s)).IsGrammatical :=
    isGrammatical_numbered (Node.isGrammatical_container (hname j s)) i
  have hif : (Value.node (elementTree "$if" [("test", .node (numbered 3 (.identifier "b")))]
      [.node (numberedBraces 4 5 "c")])).IsGrammatical := by
    apply isGrammatical_elementTree
    · simpa using hname 3 "b"
    · simpa using hbraces 4 5 "c"
  apply Node.isGrammatical_fragment
  simpa using ⟨hbraces 0 1 "a", isGrammatical_numbered hif 2⟩

lemma distinctNames_numberedIf {m : Node} (hm : numberedIf.Contains m)
    (hconstruct : (Value.node m).construct?.isSome) : (Value.node m).DistinctNames := by
  have h : numberedIf.Everywhere fun n =>
      (Value.node n).construct?.isSome → (Value.node n).DistinctNames := by
    simp [numberedIf, numberedBraces, numbered, elementTree, openingTree, attributeTree, nameTree,
      Node.fragment, Node.container, Node.identifier, Node.everywhere_iff, Value.everywhere_list,
      Value.construct?_of_kind, or_imp, forall_and]
    exact fun _ => List.nodup_singleton _
  exact h.of_contains hm hconstruct

theorem numberedIf_keeps_marks : numberedIf.Everywhere Node.Grammatical ∧
    (∀ m, numberedIf.Contains m → (Value.node m).construct?.isSome →
      (Value.node m).DistinctNames) ∧
    numberedIf.marks numbers = [0, 1, 2, 3, 4, 5] ∧
    (tree (fun _ => false) "a.jsx" (.node numberedIf)).toExcept =
      .ok (.node numberedIfExpanded) ∧
    (Value.node numberedIfExpanded).marks numbers = [0, 1, 3, 5] ∧
    (∀ x, x ∈ (Value.node numberedIfExpanded).marks numbers ↔ x ∈ numberedIf.marks numbers ∧
      ¬ ∃ m, numberedIf.Contains m ∧ x ∈ (Value.node m).spent numbers) ∧
    numberedIf.ChildrenInOrder numbers ((Value.node numberedIfExpanded).marks numbers) := by
  have hroot : numberedIf.Everywhere Node.Grammatical := by
    simpa using isGrammatical_numberedIf.everywhere
  have hmarks : numberedIf.marks numbers = [0, 1, 2, 3, 4, 5] := rfl
  have htree : (tree (fun _ => false) "a.jsx" (.node numberedIf)).toExcept =
      .ok (.node numberedIfExpanded) := rfl
  have hnames (m : Node) (hm : numberedIf.Contains m) := distinctNames_numberedIf hm
  obtain ⟨-, hleft, horder⟩ := tree_keeps_marks hroot hnames (by rw [hmarks]; decide) htree
  exact ⟨hroot, hnames, hmarks, htree, rfl, hleft, horder numberedIf .refl⟩

end JsxControl.Expand
