import JsxControl.Proofs.Acceptance.Construct
import JsxControl.Proofs.Acceptance.Names

/-!
# What is wrong with a construct

A construct is checked in a fixed order, and the first check that fails is what is complained of.
The breaches of a construct are listed here in this order, each with the nodes at fault. In a
grammatical tree the expansion of a construct is what it is desugared to, unless there is a breach;
then it is the complaint about the first one.
-/

namespace JsxControl

/-! ### Breaches -/

/-- A rule that an element breaks, what is wrong in words, and the nodes in it that are at fault,
the innermost first. -/
structure Breach where
  rule : Rule
  message : String
  culprits : List Value

/-- A value as messages quote it. -/
def Value.quoted (v : Value) : String := (v.source.toOption.getD .null).shown

/-- The opening tag of an element as messages quote it. -/
def Value.quotedTag (element : Value) : String := (element.content "opening_element").quoted

instance (element : Value) (name : String) : Decidable (Desugar.Given element name) :=
  decidable_of_iff ((Desugar.attribute? element name).any fun attr =>
    (attr.content "value").isA .jsxExpressionContainer &&
      !(Desugar.expression element name).isA .jsxEmptyExpression) (by
    simp [Desugar.Given, Option.any_eq_true])

namespace Breach

/-- A breach as a complaint: it is placed at the first located node among those at fault, the
opening tag, the element, and the node that holds it. -/
def complaint (holder element : Value) (b : Breach) : Complaint where
  rule := b.rule
  message := b.message
  place :=
    (b.culprits ++ [element.content "opening_element", element, holder]).findSome? Value.place?

/-- No attribute has a name that is needed. -/
def missing? (element : Value) (name placeholder : String) : Option Breach :=
  match Desugar.attribute? element name with
  | some _ => none
  | none => some ⟨.missingRequiredAttribute,
      Attributes.needed (.text name) placeholder ++ " in " ++ element.quotedTag, []⟩

/-- The last attribute of a name does not have an expression in braces. -/
def misshapen? (element : Value) (name placeholder : String) : Option Breach :=
  match Desugar.attribute? element name with
  | none => none
  | some attr =>
    if Desugar.Given element name then none
    else some ⟨.invalidAttributeValueShape, Attributes.needed (.text name) placeholder ++
      ", not " ++ attr.quoted ++ ", in " ++ element.quotedTag, [attr]⟩

/-- A name is not among those that are allowed. The first one counts, but at fault is the last
attribute that bears it. -/
def unexpected? (element : Value) (allowed : List String) : Option Breach :=
  ((Desugar.attributes element).find? fun attr => attr.displayName ∉ allowed).map fun first =>
    ⟨.unexpectedAttribute, "Bad attribute " ++ first.displayName ++ " in " ++ element.quotedTag,
      (Desugar.attribute? element first.displayName).toList⟩

/-- The variable that an element binds is not an identifier. -/
def unbound? (element : Value) : Option Breach :=
  if (Desugar.expression element "var").isA .identifier then none
  else some ⟨.unsupportedVariablePattern,
    "Bad variable pattern " ++ (Desugar.expression element "var").quoted,
    Desugar.expression element "var" :: (Desugar.attribute? element "var").toList⟩

/-- The last branch of a chain has a test. -/
def tested? (element : Value) : Option Breach :=
  (Desugar.attribute? element "test").map fun attr =>
    ⟨.malformedTerminalBranch, "Unexpected test=... in " ++ element.quotedTag, [attr]⟩

/-- A branch stands in no chain. -/
def orphaned (element : Value) : Breach where
  rule := .orphanChainContinuation
  message := "Need preceding <" ++ Construct.whenTrue.name ++ "> for " ++ element.quotedTag
  culprits := []

/-- The checks of an element that binds a variable and holds an expression in an attribute. -/
def ofBinder (held : String) (element : Value) : List (Option Breach) :=
  [missing? element "var" "name", misshapen? element "var" "name",
    missing? element held "expression", misshapen? element held "expression",
    unexpected? element ["var", held], unbound? element]

/-- The checks of a branch that has a test. -/
def ofTested (element : Value) : List (Option Breach) :=
  [unexpected? element ["test"], missing? element "test" "expression",
    misshapen? element "test" "expression"]

end Breach

/-- The checks of a construct, in order. A branch that no chain has `claimed` fails at once. -/
def Construct.breaches (c : Construct) (claimed : Bool) (element : Value) : List (Option Breach) :=
  match c with
  | loop => Breach.ofBinder "of" element
  | binding => Breach.ofBinder "value" element
  | whenTrue => Breach.ofTested element
  | otherwiseWhen => if claimed then Breach.ofTested element else [some (.orphaned element)]
  | otherwise =>
    if claimed then [Breach.unexpected? element ["test"], Breach.tested? element]
    else [some (.orphaned element)]

/-- The first breach of an element, if it is a construct. -/
def Value.breach? (claimed : Bool) (element : Value) : Option Breach :=
  element.construct?.bind fun c => (c.breaches claimed element).findSome? id

/-- What is complained of in an element, if anything. -/
def Value.complaint? (holder : Value) (claimed : Bool) (element : Value) : Option Complaint :=
  (element.breach? claimed).map (Breach.complaint holder element)

/-! ### Attributes -/

lemma Value.quoted_of_source {v : Value} {s : String} (h : v.source = .ok (.text s)) :
    v.quoted = s := by
  simp [quoted, h, Except.toOption]

namespace Attributes.Read

variable {element opening : Node} {found : List (Scalar × Value)} {holder : Value}
  (h : Read element opening found)

include h

lemma content_opening : (Value.node element).content "opening_element" = .node opening :=
  Value.content_of_node_field h.tag

lemma source_eq : (Value.node opening).source = .ok (.text (Value.node element).quotedTag) := by
  obtain ⟨s, hs⟩ := h.source
  rw [hs, Value.quotedTag, h.content_opening, Value.quoted_of_source hs]

lemma attributeName_eq {attr : Value} (hattr : attr ∈ Desugar.attributes (.node element)) :
    attr.attributeName = .ok (.text attr.displayName) := by
  obtain ⟨a, rfl, -, ha⟩ := h.listed attr hattr
  obtain ⟨s, hs⟩ := Node.attributeName_eq_ok ha
  rw [hs, Value.displayName_of_attributeName hs]

lemma ofValues_eq : ofValues [] (Desugar.attributes (.node element)) = .ok found := by
  obtain ⟨v, hv, list, hlist, hfound⟩ : ∃ v, (Value.node opening).field "attributes" = .ok v ∧
      ∃ list, v.items = .ok list ∧ ofValues [] list = .ok found := by
    simpa only [ofOpening, bind_eq_ok_iff] using h.read
  rwa [Desugar.attributes, h.content_opening, Value.content_of_field hv,
    Value.parts_of_items hlist]

variable (helement : element.origin.notes = []) (hholder : Expand.CanHold holder)

include helement hholder

/-- What is said against an element is the complaint about a breach. -/
lemma complain_eq (culprits : List Value) (hculprits : Plain culprits) (rule : Rule)
    (message : String) :
    Fault.complain rule message ([holder, .node element, .node opening] ++ culprits.reverse) =
      .complaint (Breach.complaint holder (.node element) ⟨rule, message, culprits⟩) := by
  have hcontext : Plain ([holder, .node element, .node opening] ++ culprits.reverse) := by
    intro n hn
    rcases List.mem_append.mp hn with hn | hn
    · exact hholder.plain helement h.grammatical.here.notes n hn
    · exact hculprits n (by simpa using hn)
  rw [Fault.complain_eq_complaint hcontext, Breach.complaint, h.content_opening]
  simp

/-- A required attribute gives its expression, unless it is missing or has another form. -/
lemma required_eq {name : String} (hname : name ≠ "...") (placeholder : String) :
    Attributes.required (.node opening) found (.text name) placeholder
        [holder, .node element, .node opening] =
      answer (((Breach.missing? (.node element) name placeholder).or
          (Breach.misshapen? (.node element) name placeholder)).map
            (Breach.complaint holder (.node element)))
        (Desugar.expression (.node element) name) := by
  rw [Attributes.required, h.get?_eq, Breach.missing?, Breach.misshapen?]
  cases hattr : Desugar.attribute? (.node element) name with
  | none =>
    have hcomplain := h.complain_eq helement hholder [] (by simp [Plain])
    simp only [List.reverse_nil, List.append_nil] at hcomplain
    simp [h.source_eq, hcomplain]
  | some attr =>
    obtain ⟨hsome, hnone⟩ := h.expression?_eq hname hattr
    obtain ⟨a, rfl, -, ha⟩ := h.node_of_attribute? hname hattr
    by_cases hgiven : Desugar.Given (.node element) name
    · simp [hsome hgiven, hgiven]
    · obtain ⟨t, ht⟩ := Value.source_eq_ok ha
      have hcomplain := h.complain_eq helement hholder [.node a]
        (by simpa [Plain] using ha.here.notes)
      simp only [List.reverse_singleton] at hcomplain
      simp [hnone hgiven, hgiven, ht, h.source_eq, Value.quoted_of_source ht, ← hcomplain]

/-- The names are accepted, unless one is not allowed. -/
lemma check_eq (allowed : List String) :
    Attributes.check (.node opening) found (allowed.map .text)
        [holder, .node element, .node opening] =
      answer ((Breach.unexpected? (.node element) allowed).map
        (Breach.complaint holder (.node element))) () := by
  rw [Attributes.check_eq (fun attr hattr => h.attributeName_eq hattr) h.ofValues_eq,
    Breach.unexpected?]
  cases hfirst : (Desugar.attributes (.node element)).find? fun attr =>
      attr.displayName ∉ allowed with
  | none => rfl
  | some first =>
    have hplain : Plain (Desugar.attribute? (.node element) first.displayName).toList := by
      intro n hn
      obtain ⟨hattr, -⟩ := Desugar.mem_of_attribute? (Option.mem_toList.mp hn)
      obtain ⟨a, ha, -, hgrammatical⟩ := h.listed _ hattr
      exact Value.node.inj ha ▸ hgrammatical.here.notes
    have hcomplain := h.complain_eq helement hholder _ hplain
    have hreverse (o : Option Value) : o.toList.reverse = o.toList := by cases o <;> rfl
    rw [hreverse] at hcomplain
    simp only [h.source_eq, ok_bind, Value.shown_text, Option.map_some, answer_some]
    exact congrArg Except.error (hcomplain _ _)

/-- The variable is accepted, unless it is not an identifier. -/
lemma pattern_eq (hgiven : Desugar.Given (.node element) "var") :
    Expand.pattern (Desugar.expression (.node element) "var")
        ([holder, .node element, .node opening] ++ (get? found (.text "var")).toList) =
      answer ((Breach.unbound? (.node element)).map (Breach.complaint holder (.node element)))
        (Desugar.expression (.node element) "var") := by
  obtain ⟨e, he, hgrammatical⟩ := h.node_of_given (by decide) hgiven
  obtain ⟨s, hs⟩ := Value.source_eq_ok hgrammatical
  obtain ⟨attr, hattr, -⟩ := hgiven
  obtain ⟨a, rfl, -, ha⟩ := h.node_of_attribute? (by decide) hattr
  have hcomplain := h.complain_eq helement hholder [.node e, .node a]
    (by simpa [Plain] using ⟨hgrammatical.here.notes, ha.here.notes⟩)
  rw [Expand.pattern, Breach.unbound?, h.get?_eq, hattr, he]
  split_ifs with hident
  · rfl
  · rw [Option.map_some, answer_some, hs, ok_bind, Value.quoted_of_source hs]
    simp [← hcomplain]

end Attributes.Read

/-! ### Expansions -/

namespace Breach

variable {element : Value}

lemma findSome?_id_cons (b? : Option Breach) (rest : List (Option Breach)) :
    (b? :: rest).findSome? id = b?.or (rest.findSome? id) := by
  cases b? <;> rfl

/-- An attribute that is neither missing nor of another form gives its expression. -/
lemma given_iff (name placeholder : String) :
    missing? element name placeholder = none ∧ misshapen? element name placeholder = none ↔
      Desugar.Given element name := by
  rw [missing?, misshapen?]
  cases hattr : Desugar.attribute? element name with
  | none => simp [Desugar.Given, hattr]
  | some attr => simp

end Breach

namespace Expand

variable {element : Node} {holder : Value}

/-- An element that binds a variable is expanded, unless one of its checks fails. -/
lemma binder_eq (h : element.Everywhere Node.Grammatical) (hkind : element.kind = .jsxElement)
    (hholder : CanHold holder) {held : String} (hheld : held ≠ "...")
    (join : Value → Value → Node) :
    binder held join holder (.node element) =
      answer (((Breach.ofBinder held (.node element)).findSome? id).map
          (Breach.complaint holder (.node element)))
        (Desugar.wrap holder.isJsx (.node (join (Desugar.function (.node element))
          (Desugar.expression (.node element) held)))) := by
  obtain ⟨opening, found, hread⟩ := Attributes.exists_read h hkind
  obtain ⟨children, hchildren, hbody⟩ := body_children_eq h hkind
  have hnotes := h.here.notes
  have hchecks (f : Breach → Complaint) :
      ((Breach.ofBinder held (.node element)).findSome? id).map f =
        (((Breach.missing? (.node element) "var" "name").or
          (Breach.misshapen? (.node element) "var" "name")).map f).or
        ((((Breach.missing? (.node element) held "expression").or
          (Breach.misshapen? (.node element) held "expression")).map f).or
        (((Breach.unexpected? (.node element) ["var", held]).map f).or
          ((Breach.unbound? (.node element)).map f))) := by
    simp only [Breach.ofBinder, Breach.findSome?_id_cons, List.findSome?_nil, Option.or_none,
      Option.map_or, Option.or_assoc]
  rw [hchecks, binder, show (Value.node element).field _ = _ from hread.tag, ok_bind, hread.read,
    ok_bind]
  refine answer_bind (hread.required_eq hnotes hholder (by decide) "name") fun hvar =>
    answer_bind (hread.required_eq hnotes hholder hheld "expression") fun _ =>
    answer_bind (hread.check_eq hnotes hholder ["var", held]) fun _ => ?_
  have hgiven :=
    (Breach.given_iff _ _).mp (Option.or_eq_none_iff.mp (Option.map_eq_none_iff.mp hvar))
  refine answer_bind_ok (hread.pattern_eq hnotes hholder hgiven) fun _ => ?_
  rw [hchildren, ok_bind, hbody, ok_bind, wrap_eq hholder, Desugar.function]

/-- A branch with a test is judged by its checks. -/
lemma tested_eq (h : element.Everywhere Node.Grammatical) (hholder : CanHold holder)
    {c : Construct} (hc : (Value.node element).construct? = some c)
    (hbranch : c = .whenTrue ∨ c = .otherwiseWhen) (alternate : Value) :
    branch holder (.node element) alternate =
      answer (((Breach.ofTested (.node element)).findSome? id).map
          (Breach.complaint holder (.node element)))
        (.node (.conditional (Desugar.expression (.node element) "test")
          (Desugar.body (Desugar.children (.node element))) alternate)) := by
  have hkind := Node.kind_of_construct? hc
  obtain ⟨opening, found, hread⟩ := Attributes.exists_read h hkind
  obtain ⟨children, hchildren, hbody⟩ := body_children_eq h hkind
  have hnotes := h.here.notes
  have hchecks (f : Breach → Complaint) :
      ((Breach.ofTested (.node element)).findSome? id).map f =
        ((Breach.unexpected? (.node element) ["test"]).map f).or
        (((Breach.missing? (.node element) "test" "expression").or
          (Breach.misshapen? (.node element) "test" "expression")).map f) := by
    simp only [Breach.ofTested, Breach.findSome?_id_cons, List.findSome?_nil, Option.or_none,
      Option.map_or]
  rw [hchecks, branch, show (Value.node element).field _ = _ from hread.tag, ok_bind, hread.read,
    ok_bind]
  refine answer_bind (hread.check_eq hnotes hholder ["test"]) fun _ => ?_
  rw [Value.construct?_eq_some_iff.mp hc, ok_bind, Value.key, ok_bind, Construct.ofName?_name]
  have hrequired := hread.required_eq hnotes hholder (show "test" ≠ "..." by decide) "expression"
  rcases hbranch with rfl | rfl
  all_goals
    refine answer_bind_ok hrequired fun _ => ?_
    rw [hchildren, ok_bind, hbody]
    rfl

/-- The last branch of a chain is judged by its checks. -/
lemma terminal_eq (h : element.Everywhere Node.Grammatical) (hholder : CanHold holder)
    (hc : (Value.node element).construct? = some .otherwise) (alternate : Value) :
    branch holder (.node element) alternate =
      answer (((Construct.otherwise.breaches true (.node element)).findSome? id).map
          (Breach.complaint holder (.node element)))
        (Desugar.body (Desugar.children (.node element))) := by
  have hkind := Node.kind_of_construct? hc
  obtain ⟨opening, found, hread⟩ := Attributes.exists_read h hkind
  obtain ⟨children, hchildren, hbody⟩ := body_children_eq h hkind
  have hnotes := h.here.notes
  have hchecks (f : Breach → Complaint) :
      ((Construct.otherwise.breaches true (.node element)).findSome? id).map f =
        ((Breach.unexpected? (.node element) ["test"]).map f).or
          ((Breach.tested? (.node element)).map f) := by
    simp only [Construct.breaches, if_true, Breach.findSome?_id_cons, List.findSome?_nil,
      Option.or_none, Option.map_or]
  rw [hchecks, branch, show (Value.node element).field _ = _ from hread.tag, ok_bind, hread.read,
    ok_bind]
  refine answer_bind (hread.check_eq hnotes hholder ["test"]) fun _ => ?_
  rw [Value.construct?_eq_some_iff.mp hc, ok_bind, Value.key, ok_bind, Construct.ofName?_name]
  dsimp only
  rw [hread.get?_eq, Breach.tested?]
  cases hattr : Desugar.attribute? (.node element) "test" with
  | none => simpa using ⟨children, hchildren, hbody⟩
  | some attr =>
    obtain ⟨a, rfl, -, ha⟩ := hread.node_of_attribute? (by decide) hattr
    have hcomplain := hread.complain_eq hnotes hholder [.node a]
      (by simpa [Plain] using ha.here.notes)
    simp only [List.reverse_singleton] at hcomplain
    simp [hread.source_eq, ← hcomplain]

/-- A branch that a chain judges is judged by its checks. -/
lemma branch_eq (h : element.Everywhere Node.Grammatical) (hholder : CanHold holder)
    (hbranch : (Value.node element).IsBranch) (alternate : Value) :
    branch holder (.node element) alternate =
      answer (Value.complaint? holder true (.node element))
        (if (Value.node element).construct? = some .otherwise then
            Desugar.body (Desugar.children (.node element))
          else .node (.conditional (Desugar.expression (.node element) "test")
            (Desugar.body (Desugar.children (.node element))) alternate)) := by
  rw [Value.complaint?, Value.breach?]
  rcases hbranch with hc | hc | hc
  · rw [tested_eq h hholder hc (.inl rfl), hc]
    simp [Construct.breaches]
  · rw [tested_eq h hholder hc (.inr rfl), hc]
    simp [Construct.breaches]
  · rw [terminal_eq h hholder hc, hc]
    simp

/-- The branches of a chain are judged from the last to the first. -/
lemma branches_eq (hholder : CanHold holder) {elements : List Value}
    (helements : ∀ e ∈ elements,
      ∃ n : Node, e = .node n ∧ n.Everywhere Node.Grammatical ∧ e.IsBranch) :
    branches holder elements =
      answer (elements.reverse.findSome? (Value.complaint? holder true))
        (Desugar.chain elements) := by
  induction elements with
  | nil => rfl
  | cons e later ih =>
    rw [List.forall_mem_cons] at helements
    obtain ⟨⟨n, rfl, hn, hbranch⟩, hlater⟩ := helements
    have hlast : [Value.node n].findSome? (Value.complaint? holder true) =
        Value.complaint? holder true (.node n) := by
      simp
    rw [branches, List.reverse_cons, List.findSome?_append, hlast, Desugar.chain]
    exact answer_bind (ih hlater) fun _ => branch_eq hn hholder hbranch _

end Expand

/-- A construct is expanded, unless it or one of its branches has a breach. -/
lemma Construct.expand_eq {element : Node} {holder : Value} {later : List Value}
    (h : element.Everywhere Node.Grammatical) (hholder : Expand.CanHold holder) {c : Construct}
    (hc : (Value.node element).construct? = some c) (hlater : Branches later)
    (hnone : c ≠ .whenTrue → later = []) :
    c.expand holder (.node element) later =
      answer ((Value.node element :: later).reverse.findSome?
          (Value.complaint? holder (c = .whenTrue)))
        (Desugar.single holder.isJsx (.node element) later) := by
  have hkind := Node.kind_of_construct? hc
  have halone : [Value.node element].reverse.findSome? (Value.complaint? holder false) =
      ((c.breaches false (.node element)).findSome? id).map
        (Breach.complaint holder (.node element)) := by
    simp [Value.complaint?, Value.breach?, hc]
  rw [Desugar.single, Desugar.expansion?, hc]
  cases c with
  | loop | binding =>
    obtain rfl := hnone (by simp)
    simp only [reduceCtorEq, decide_false, halone, expand, Expand.loop, Expand.binding,
      Expand.binder_eq h hkind hholder (show "of" ≠ "..." by decide),
      Expand.binder_eq h hkind hholder (show "value" ≠ "..." by decide)]
    rfl
  | whenTrue =>
    have hchain : ∀ e ∈ .node element :: later,
        ∃ n : Node, e = .node n ∧ n.Everywhere Node.Grammatical ∧ e.IsBranch := by
      rw [List.forall_mem_cons]
      refine ⟨⟨element, rfl, h, .inl hc⟩, ?_⟩
      intro e he
      obtain ⟨n, rfl, hn, hcont⟩ := hlater e he
      exact ⟨n, rfl, hn, .inr hcont⟩
    rw [expand, Expand.chain]
    exact answer_bind_ok (Expand.branches_eq hholder hchain) fun _ => Expand.wrap_eq hholder _
  | otherwiseWhen | otherwise =>
    obtain rfl := hnone (by simp)
    obtain ⟨opening, found, hread⟩ := Attributes.exists_read h hkind
    have hcomplain := hread.complain_eq h.here.notes hholder [] (by simp [Plain])
    simp only [List.reverse_nil, List.append_nil] at hcomplain
    simp only [reduceCtorEq, decide_false, halone, expand, Expand.orphan,
      show (Value.node element).field _ = _ from hread.tag, ok_bind, hread.source_eq,
      Value.shown_text, hcomplain]
    rfl

/-- A node that is no construct is left; only a statement that checks for one is replaced. -/
lemma Expand.leave_eq_ok_of_none {element : Node} {holder : Value}
    (h : element.Everywhere Node.Grammatical) (hc : (Value.node element).construct? = none)
    (traced : Bool) : (leave traced holder element none []).toExcept =
      .ok (Desugar.replacement? holder.isJsx (.node element) []) := by
  by_cases hkind : element.kind = .expressionStatement
  · have hguard := Node.guard_eq_ok h hkind
    obtain ⟨s, hs⟩ := Value.source_eq_ok h
    simp only [leave, hkind, if_true, hguard, Settled.orStop_ok]
    cases hset : (Value.node element).isGuardStatement with
    | false => simp [Desugar.replacement?, hc, hset]
    | true =>
      have hsingle : Desugar.single holder.isJsx (.node element) [] = .node .emptyStatement := by
        simp [Desugar.single, Desugar.expansion?, hc, hset]
      cases traced <;> simp [Desugar.replacement?, hc, hset, hsingle, hs]
  · simp [leave, hkind, Desugar.replacement?, hc, Value.isGuardStatement]

/-- A node is left, unless it or one of its branches has a breach. -/
lemma Expand.leave_eq {element : Node} {holder : Value} {later : List Value}
    (h : element.Everywhere Node.Grammatical) (hholder : CanHold holder) (hlater : Branches later)
    (hnone : (Value.node element).construct? ≠ some .whenTrue → later = []) (traced : Bool) :
    (leave traced holder element (Value.node element).construct? later).toExcept =
      answer ((Value.node element :: later).reverse.findSome?
          (Value.complaint? holder ((Value.node element).construct? = some .whenTrue)))
        (Desugar.replacement? holder.isJsx (.node element) later) := by
  cases hc : (Value.node element).construct? with
  | some c =>
    obtain ⟨line?, hline⟩ := Construct.announcement_eq_ok h hc hlater
    have hannounced : ∃ line?, (if traced then c.announcement (.node element) later else .ok none) =
        Except.ok line? := by
      cases traced
      · exact ⟨none, rfl⟩
      · exact ⟨line?, hline⟩
    obtain ⟨line?, hannounced⟩ := hannounced
    simp only [leave, hannounced, Settled.orStop_ok, Settled.toExcept_andThen, Settled.toExcept_say,
      Settled.toExcept_orStop, Settled.toExcept_done, ok_bind, Option.some.injEq]
    refine answer_bind_ok (Construct.expand_eq h hholder hc hlater fun hne =>
      hnone (by simpa [hc] using hne)) fun _ => ?_
    simp [Desugar.replacement?, hc]
  | none =>
    obtain rfl := hnone (by simp [hc])
    rw [leave_eq_ok_of_none h hc]
    simp [Value.complaint?, Value.breach?, hc]

end JsxControl
