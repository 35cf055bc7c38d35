import JsxControl.Proofs.Acceptance.Pass

/-!
# Which complaint is made

A pass over a grammatical tree complains of the first construct, in the order in which they are
judged, that has a breach. If there is none, it comes to its end.
-/

namespace JsxControl

open Occurrence Expand

/-! ### Roots -/

namespace Expand

/-- A pass over a grammatical tree makes the first complaint of its order, and no other. -/
lemma tree_eq_complaint_iff {root : Node} (hroot : root.Everywhere Node.Grammatical)
    (asked : Topic → Bool) (filename : String) (c : Complaint) :
    (tree asked filename (.node root)).toExcept = .error (.complaint c) ↔
      root.settlingOrder.findSome? complaint? = some c := by
  have hsettle := root.answers (asked .steps) hroot
  rw [Node.settlingOrder, List.findSome?_append]
  cases hinside : root.occurrences.findSome? complaint? with
  | some d =>
    rw [Node.Answers, hinside, answer_some] at hsettle
    simp [tree, report_eq_ok hroot, settleRoot, hsettle]
  | none =>
    have hfine := (root.no_complaint_iff_fine hroot).mp hinside
    have hgrammatical := root.grammatical_desugar hroot hfine.sound
    have hleave := leave_eq hgrammatical (.inl rfl : CanHold .null) (by simp [Branches])
      (fun _ => rfl) (asked .steps)
    have hjudged : (judged .null (.node root) []).findSome? complaint? = _ :=
      findSome?_judged hroot (by simp)
    rw [tree_eq_of_fine hroot hfine, leaveAlone, Settled.toExcept_orStop,
      Construct.ofValue?_eq_ok hgrammatical, ok_bind, hleave, hjudged, List.map_nil, Option.none_or]
    generalize List.findSome? _ _ = c?
    cases c? with
    | some d => simp
    | none => cases Desugar.replacement? Value.null.isJsx (.node root.desugar) [] <;> simp

/-- A construct is the first of an order that has a breach; `before` are those in front of it. -/
structure IsFirst (order before : List Occurrence) (o : Occurrence) (b : Breach) : Prop where
  split : ∃ after, order = before ++ o :: after
  earlier : ∀ e ∈ before, e.breach? = none
  breach : o.breach? = some b

lemma findSome?_complaint?_iff {order : List Occurrence} {c : Complaint} :
    order.findSome? complaint? = some c ↔ ∃ before o b, IsFirst order before o b ∧
      c = b.complaint o.holder (.node o.element.desugar) := by
  have hcomplaint (o : Occurrence) :
      o.complaint? = o.breach?.map (Breach.complaint o.holder (.node o.element.desugar)) := rfl
  rw [List.findSome?_eq_some_iff]
  simp only [hcomplaint, Option.map_eq_some_iff, Option.map_eq_none_iff]
  constructor
  · rintro ⟨before, o, after, hsplit, ⟨b, hb, rfl⟩, hbefore⟩
    exact ⟨before, o, b, ⟨⟨after, hsplit⟩, hbefore, hb⟩, rfl⟩
  · rintro ⟨before, o, b, ⟨⟨after, hsplit⟩, hbefore, hb⟩, rfl⟩
    exact ⟨before, o, after, hsplit, ⟨b, hb, rfl⟩, hbefore⟩

/-- Where no listed construct has a breach, all that a node holds is accepted. -/
lemma fine_of_no_breach {n : Node} (hn : n.Everywhere Node.Grammatical)
    (h : ∀ e ∈ n.occurrences, e.breach? = none) : n.Fine := by
  rw [← n.no_complaint_iff_fine hn, List.findSome?_eq_none_iff]
  intro e he
  rw [Occurrence.complaint?, Value.complaint?, show (Value.node _).breach? _ = _ from h e he,
    Option.map_none]

/-- A pass over a grammatical tree complains exactly if some construct has a breach, and then of the
first one in the order in which they are judged. In front of it stand all constructs that are nested
in it or in a branch of its chain, and these are accepted. -/
theorem tree_complains_of_first {root : Node} (hroot : root.Everywhere Node.Grammatical)
    (asked : Topic → Bool) (filename : String) :
    (∀ c, (tree asked filename (.node root)).toExcept = .error (.complaint c) ↔
      ∃ before o b, IsFirst root.settlingOrder before o b ∧
        c = b.complaint o.holder (.node o.element.desugar)) ∧
    ∀ before o b, IsFirst root.settlingOrder before o b → ∀ m ∈ o.nodes, m.Fine ∧
      ∀ l, m.Contains l → (Value.node l).construct? ≠ none → ∃ e ∈ before, e.element = l := by
  constructor
  · intro c
    rw [tree_eq_complaint_iff hroot, findSome?_complaint?_iff]
  · rintro before o b ⟨⟨after, hsplit⟩, hbefore, -⟩ m hm
    have hinside : m.occurrences ⊆ before := by
      simpa using preceded_settlingOrder root before o after hsplit m hm
    have hgrammatical : m.Everywhere Node.Grammatical := fun l hl =>
      hroot l ((reached_of_mem (by simp [hsplit]) hm).trans hl)
    refine ⟨fine_of_no_breach hgrammatical fun e he => hbefore e (hinside he), ?_⟩
    intro l hl hc
    obtain ⟨e, he, helement⟩ := exists_of_contains hl hc
    exact ⟨e, hinside he, helement⟩

/-- The tree of `<><$for var={x}><$else /></$for></>`. The loop lacks its items, and there is a
branch without a chain inside. -/
def nestedElse : Node :=
  .fragment [.node (elementTree "$for" [("var", .node (.identifier "x"))] [.node loneElse])]

lemma grammatical_nestedElse : nestedElse.Everywhere Node.Grammatical := by
  have hfragment : (Value.node nestedElse).IsGrammatical := by
    apply Node.isGrammatical_fragment
    rw [List.forall_mem_singleton]
    refine isGrammatical_elementTree "$for" ?_ ?_
    · rw [List.forall_mem_singleton]
      exact Node.isGrammatical_identifier "x"
    · rw [List.forall_mem_singleton]
      exact isGrammatical_loneElse
  simpa using hfragment.everywhere

/-- Of a loop and of a branch inside, both with a breach, the branch is complained of. -/
theorem nestedElse_complains_of_first :
    nestedElse.Everywhere Node.Grammatical ∧ ∃ before o b,
      IsFirst nestedElse.settlingOrder before o b ∧ b.rule = .orphanChainContinuation := by
  have hcomplaint : (tree (fun _ => false) "a.jsx" (.node nestedElse)).toExcept =
      .error (.complaint
        ⟨.orphanChainContinuation, "Need preceding <$if> for <$else />", none⟩) := rfl
  obtain ⟨before, o, b, hfirst, hc⟩ :=
    ((tree_complains_of_first grammatical_nestedElse (fun _ => false) "a.jsx").1 _).mp hcomplaint
  exact ⟨grammatical_nestedElse, before, o, b, hfirst, (congrArg Complaint.rule hc).symm⟩

end Expand

end JsxControl
