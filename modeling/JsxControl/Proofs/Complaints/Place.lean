import JsxControl.Proofs.Acceptance.Elements
import JsxControl.Proofs.Complaints.First
import JsxControl.Proofs.Complaints.Names

/-!
# Where a complaint is placed

A complaint about an element is placed at the first located node among those at fault, the opening
tag, the element, and the node that held it. When an element is judged its slots have been
desugared, but an attribute, a tag or an element that stays in its slot stays where it was. Only the
expression that should be a variable may have been replaced, and what took its place is not located.
-/

namespace JsxControl

/-- The names of the attributes that a construct is checked for. -/
def Construct.checkedNames : Construct → List String
  | loop => ["var", "of"]
  | whenTrue | otherwiseWhen | otherwise => ["test"]
  | binding => ["var", "value"]

/-- The first of the attributes that a construct needs whose expression is not given when the
element is judged. -/
def Construct.lacking? (c : Construct) (element : Node) : Option String :=
  c.attributeNames.find? fun name => ¬ Desugar.Given (.node element.desugar) name

/-- The attribute of an element that has an unexpected name: the last one of the first name that is
not allowed. If no name is repeated, it is the first attribute whose name is not allowed. -/
structure Desugar.Unexpected (element : Value) (allowed : List String) (first attr : Value) :
    Prop where
  barred : ((attributes element).find? fun attr => attr.displayName ∉ allowed) = some first
  named : attribute? element first.displayName = some attr
  same : ((attributes element).map Value.displayName).Nodup → attr = first

/-- The nodes of an element that are at fault if it breaks a rule as the construct `c`, the
innermost first. The expression of the variable is taken as it is when the element is judged. -/
inductive Construct.AtFault (c : Construct) (element : Node) : Rule → List Value → Prop
  | missing {name : String} (hname : c.lacking? element = some name)
      (hattr : Desugar.attribute? (.node element) name = none) :
      AtFault c element .missingRequiredAttribute []
  | misshapen {name : String} {attr : Value} (hname : c.lacking? element = some name)
      (hattr : Desugar.attribute? (.node element) name = some attr) :
      AtFault c element .invalidAttributeValueShape [attr]
  | unexpected {first attr : Value}
      (hattr : Desugar.Unexpected (.node element) c.checkedNames first attr) :
      AtFault c element .unexpectedAttribute [attr]
  | unbound {attr e : Value} (hattr : Desugar.attribute? (.node element) "var" = some attr)
      (he : Desugar.expression (.node element.desugar) "var" = e)
      (hplace : e.place? = none ∨ e.place? = (Desugar.expression (.node element) "var").place?) :
      AtFault c element .unsupportedVariablePattern [e, attr]
  | tested {attr : Value} (hattr : Desugar.attribute? (.node element) "test" = some attr) :
      AtFault c element .malformedTerminalBranch [attr]
  | orphaned : AtFault c element .orphanChainContinuation []

/-! ### What stays where it was -/

lemma Value.place?_desugarItem (v : Value) : v.desugarItem.place? = v.place? := by
  cases v with
  | node n => simp [desugarItem, place?]
  | scalar | list | record => rfl

variable {n : Node}

lemma Node.place?_opening_desugar (hn : n.Everywhere Grammatical) (hkind : n.kind = .jsxElement) :
    ((Value.node n.desugar).content "opening_element").place? =
      ((Value.node n).content "opening_element").place? := by
  obtain ⟨o, ho, -, hopening⟩ := opening_of_element hn hkind
  rw [content_opening_desugar hn ho hopening, Value.content_of_node_field ho]
  simp [Value.place?]

lemma Value.displayName_desugarItem {attr : Value} (hattr : attr.Everywhere Node.Grammatical) :
    attr.desugarItem.displayName = attr.displayName := by
  cases attr with
  | node a =>
    rw [displayName, displayName, desugarItem, Node.attributeName_desugar (by simpa using hattr)]
  | scalar | list | record => rfl

/-- The first name that is not allowed is the same after desugaring. -/
lemma Desugar.find?_attributes_desugar (hn : n.Everywhere Node.Grammatical)
    (hkind : n.kind = .jsxElement) (allowed : List String) :
    ((attributes (.node n.desugar)).find? fun attr => attr.displayName ∉ allowed) =
      ((attributes (.node n)).find? fun attr => attr.displayName ∉ allowed).map
        Value.desugarItem := by
  obtain ⟨opening, found, hread⟩ := Attributes.exists_read hn hkind
  rw [attributes_desugar hn hkind, List.find?_map]
  congr 1
  apply List.find?_congr
  intro attr hattr
  obtain ⟨a, rfl, -, ha⟩ := hread.listed attr hattr
  simp [Value.displayName_desugarItem (show (Value.node a).Everywhere _ by simpa using ha)]

/-- What takes the place of a value is not located, unless it is the value itself. -/
lemma Desugar.place?_single (b : Bool) (e : Value) (later : List Value) :
    (single b e later).place? = none ∨ single b e later = e := by
  rw [single]
  split
  · left
    cases b <;> rfl
  · split_ifs
    · exact .inl rfl
    · exact .inr rfl

/-- The expression that a construct stands for is a new node. -/
lemma Desugar.place?_expansion? {e x : Value} {later : List Value}
    (h : expansion? e later = some x) : x.place? = none := by
  rw [expansion?] at h
  split at h
  · exact Option.some.inj h ▸ rfl
  · exact Option.some.inj h ▸ rfl
  · next hc =>
    rw [chain, hc] at h
    exact Option.some.inj h ▸ rfl
  all_goals simp at h

/-- A content stays where it was, or what took its place is not located. -/
lemma Value.place?_desugar (v : Value) (b : Bool) :
    (v.desugar b).place? = none ∨ (v.desugar b).place? = v.place? := by
  cases v with
  | node n =>
    rw [desugar]
    refine (Desugar.place?_single b _ []).imp_right fun h => ?_
    rw [h, ← Value.place?_desugarItem (.node n)]
    rfl
  | scalar | list | record => exact .inl (by rw [desugar]; rfl)

/-- The same is true of the expression in braces. -/
lemma Desugar.place?_content_single {m : Node} (hm : m.origin.notes = []) (b : Bool) :
    ((single b (.node m.desugar) []).content "expression").place? = none ∨
      ((single b (.node m.desugar) []).content "expression").place? =
        ((Value.node m).content "expression").place? := by
  rw [single]
  cases hexpansion : expansion? (.node m.desugar) [] with
  | some x =>
    left
    cases b
    · rfl
    · exact place?_expansion? hexpansion
  | none =>
    dsimp only
    split_ifs
    · exact .inl rfl
    · rw [Node.content_desugar hm]
      exact Value.place?_desugar _ _

/-- The expression of an attribute stays where it was, or what took its place is not located. -/
lemma Desugar.place?_expression_desugar (hn : n.Everywhere Node.Grammatical)
    (hkind : n.kind = .jsxElement) {name : String} (hname : name ≠ "...") :
    (expression (.node n.desugar) name).place? = none ∨
      (expression (.node n.desugar) name).place? = (expression (.node n) name).place? := by
  obtain ⟨opening, found, hread⟩ := Attributes.exists_read hn hkind
  rw [expression, expression, attribute?_desugar hn hkind]
  cases hattr : attribute? (.node n) name with
  | none => exact .inl rfl
  | some attr =>
    obtain ⟨a, rfl, hattribute, ha⟩ := hread.node_of_attribute? hname hattr
    rw [Option.map_some, Option.getD_some, Option.getD_some, Value.desugarItem]
    obtain ⟨v, hv, hmeets⟩ := ha.here.field "value" _ (by rw [hattribute]; rfl)
    rcases hmeets with rfl | ⟨m, rfl, -⟩
    · left
      rw [Node.content_desugar ha.here.notes, Value.content_of_node_field hv]
      rfl
    · have hm : m.Everywhere Node.Grammatical := by simpa using ha.found ha.here.notes hv
      have hvalue := Value.content_of_node_field hv
      rw [Node.content_value_desugar ha.here.notes hattribute hvalue, hvalue]
      exact place?_content_single hm.here.notes true

/-! ### The nodes at fault -/

namespace Breach

variable {b : Breach} {c : Construct}

/-- What an element is placed by, once it has been desugared, is where it was. -/
def PlacedBy (b : Breach) (culprits : List Value) : Prop :=
  b.culprits.map Value.place? = culprits.map Value.place?

variable (hn : n.Everywhere Node.Grammatical) (hkind : n.kind = .jsxElement)

include hn hkind

lemma atFault_of_missing? {name placeholder : String}
    (hname : ¬ Desugar.Given (.node n.desugar) name → c.lacking? n = some name)
    (h : missing? (.node n.desugar) name placeholder = some b) :
    ∃ culprits, c.AtFault n b.rule culprits ∧ b.PlacedBy culprits := by
  rw [missing?, Desugar.attribute?_desugar hn hkind] at h
  cases hattr : Desugar.attribute? (.node n) name with
  | some attr => simp [hattr] at h
  | none =>
    rw [hattr, Option.map_none] at h
    obtain rfl := Option.some.inj h
    have hlacking : ¬ Desugar.Given (.node n.desugar) name := by
      simp [Desugar.Given, Desugar.attribute?_desugar hn hkind, hattr]
    exact ⟨[], .missing (hname hlacking) hattr, rfl⟩

lemma atFault_of_misshapen? {name placeholder : String}
    (hname : ¬ Desugar.Given (.node n.desugar) name → c.lacking? n = some name)
    (h : misshapen? (.node n.desugar) name placeholder = some b) :
    ∃ culprits, c.AtFault n b.rule culprits ∧ b.PlacedBy culprits := by
  rw [misshapen?, Desugar.attribute?_desugar hn hkind] at h
  cases hattr : Desugar.attribute? (.node n) name with
  | none => simp [hattr] at h
  | some attr =>
    rw [hattr, Option.map_some] at h
    dsimp only at h
    split_ifs at h with hgiven
    obtain rfl := Option.some.inj h
    refine ⟨[attr], .misshapen (hname hgiven) hattr, ?_⟩
    simp [PlacedBy, Value.place?_desugarItem]

lemma atFault_of_unexpected? (h : unexpected? (.node n.desugar) c.checkedNames = some b) :
    ∃ culprits, c.AtFault n b.rule culprits ∧ b.PlacedBy culprits := by
  obtain ⟨opening, found, hread⟩ := Attributes.exists_read hn hkind
  rw [unexpected?, Desugar.find?_attributes_desugar hn hkind, Option.map_map,
    Option.map_eq_some_iff] at h
  obtain ⟨first, hfirst, rfl⟩ := h
  have hmem := List.mem_of_find?_eq_some hfirst
  have hnames (attr : Value) (hattr : attr ∈ Desugar.attributes (.node n)) :=
    hread.attributeName_eq hattr
  obtain ⟨attr, hattr⟩ : ∃ attr, Desugar.attribute? (.node n) first.displayName = some attr :=
    Attributes.exists_last_of_name hnames hmem
  obtain ⟨a, rfl, -, ha⟩ := hread.listed first hmem
  have hname := Value.displayName_desugarItem (show (Value.node a).Everywhere _ by simpa using ha)
  refine ⟨[attr], .unexpected ⟨hfirst, hattr, fun hnodup => ?_⟩, ?_⟩
  · obtain ⟨hmem', hnamed⟩ := Desugar.mem_of_attribute? hattr
    rw [Desugar.isNamed_iff] at hnamed
    exact List.inj_on_of_nodup_map hnodup hmem' hmem (Value.displayName_of_attributeName hnamed)
  · simp [PlacedBy, hname, Desugar.attribute?_desugar hn hkind, hattr, Value.place?_desugarItem]

lemma atFault_of_unbound? (hgiven : Desugar.Given (.node n.desugar) "var")
    (h : unbound? (.node n.desugar) = some b) :
    ∃ culprits, c.AtFault n b.rule culprits ∧ b.PlacedBy culprits := by
  obtain ⟨attr', hattr', -⟩ := hgiven
  rw [Desugar.attribute?_desugar hn hkind] at hattr'
  obtain ⟨attr, hattr, rfl⟩ := Option.map_eq_some_iff.mp hattr'
  rw [unbound?, Desugar.attribute?_desugar hn hkind, hattr] at h
  split_ifs at h
  obtain rfl := Option.some.inj h
  have hplace := Desugar.place?_expression_desugar hn hkind (show "var" ≠ "..." by decide)
  refine ⟨[_, attr], .unbound hattr rfl hplace, ?_⟩
  simp [PlacedBy, Value.place?_desugarItem]

lemma atFault_of_tested? (h : tested? (.node n.desugar) = some b) :
    ∃ culprits, c.AtFault n b.rule culprits ∧ b.PlacedBy culprits := by
  rw [tested?, Desugar.attribute?_desugar hn hkind, Option.map_map, Option.map_eq_some_iff] at h
  obtain ⟨attr, hattr, rfl⟩ := h
  exact ⟨[attr], .tested hattr, by simp [PlacedBy, Value.place?_desugarItem]⟩

/-- An element that binds a variable is at fault with what its checks say. -/
lemma atFault_of_binder {held : String} (hneeded : c.attributeNames = ["var", held])
    (hchecked : c.checkedNames = ["var", held])
    (h : (ofBinder held (.node n.desugar)).findSome? id = some b) :
    ∃ culprits, c.AtFault n b.rule culprits ∧ b.PlacedBy culprits := by
  simp only [ofBinder, findSome?_id_cons, List.findSome?_nil, Option.or_none,
    Option.or_eq_some_iff] at h
  have hvar (hlacking : ¬ Desugar.Given (.node n.desugar) "var") : c.lacking? n = some "var" := by
    simp [Construct.lacking?, hneeded, hlacking]
  have hheld (hgiven : Desugar.Given (.node n.desugar) "var")
      (hlacking : ¬ Desugar.Given (.node n.desugar) held) : c.lacking? n = some held := by
    simp [Construct.lacking?, hneeded, hgiven, hlacking]
  rcases h with h | ⟨hmissing, h | ⟨hmisshapen, h⟩⟩
  · exact atFault_of_missing? hn hkind hvar h
  · exact atFault_of_misshapen? hn hkind hvar h
  have hgiven : Desugar.Given (.node n.desugar) "var" :=
    (given_iff _ _).mp ⟨hmissing, hmisshapen⟩
  rcases h with h | ⟨-, h | ⟨-, h | ⟨-, h⟩⟩⟩
  · exact atFault_of_missing? hn hkind (hheld hgiven) h
  · exact atFault_of_misshapen? hn hkind (hheld hgiven) h
  · exact atFault_of_unexpected? hn hkind (by rwa [hchecked])
  · exact atFault_of_unbound? hn hkind hgiven h

lemma atFault_of_tested (hneeded : c.attributeNames = ["test"])
    (hchecked : c.checkedNames = ["test"])
    (h : (ofTested (.node n.desugar)).findSome? id = some b) :
    ∃ culprits, c.AtFault n b.rule culprits ∧ b.PlacedBy culprits := by
  simp only [ofTested, findSome?_id_cons, List.findSome?_nil, Option.or_none,
    Option.or_eq_some_iff] at h
  have htest (hlacking : ¬ Desugar.Given (.node n.desugar) "test") :
      c.lacking? n = some "test" := by
    simp [Construct.lacking?, hneeded, hlacking]
  rcases h with h | ⟨-, h | ⟨-, h⟩⟩
  · exact atFault_of_unexpected? hn hkind (by rwa [hchecked])
  · exact atFault_of_missing? hn hkind htest h
  · exact atFault_of_misshapen? hn hkind htest h

/-- A construct is at fault with what its checks say. -/
lemma atFault_of_breaches {claimed : Bool}
    (h : (c.breaches claimed (.node n.desugar)).findSome? id = some b) :
    ∃ culprits, c.AtFault n b.rule culprits ∧ b.PlacedBy culprits := by
  have horphaned (h : [some (orphaned (.node n.desugar))].findSome? id = some b) :
      ∃ culprits, c.AtFault n b.rule culprits ∧ b.PlacedBy culprits := by
    obtain rfl : orphaned (.node n.desugar) = b := by simpa using h
    exact ⟨[], .orphaned, rfl⟩
  cases c with
  | loop | binding => exact atFault_of_binder hn hkind rfl rfl h
  | whenTrue => exact atFault_of_tested hn hkind rfl rfl h
  | otherwiseWhen =>
    rw [Construct.breaches] at h
    split_ifs at h
    · exact atFault_of_tested hn hkind rfl rfl h
    · exact horphaned h
  | otherwise =>
    rw [Construct.breaches] at h
    split_ifs at h
    · simp only [findSome?_id_cons, List.findSome?_nil, Option.or_none, Option.or_eq_some_iff] at h
      rcases h with h | ⟨-, h⟩
      · exact atFault_of_unexpected? hn hkind h
      · exact atFault_of_tested? hn hkind h
    · exact horphaned h

end Breach

namespace Expand

/-- A complaint about a construct is placed at the first located node among those at fault, the
opening tag, the construct, and the node that held it before the pass, with the range of that node;
if none of them is located, it has no place. -/
theorem tree_places_complaint {root : Node} (hroot : root.Everywhere Node.Grammatical)
    (asked : Topic → Bool) (filename : String) {c : Complaint}
    (h : (tree asked filename (.node root)).toExcept = .error (.complaint c)) :
    ∃ before o b k culprits, IsFirst root.settlingOrder before o b ∧ c.rule = b.rule ∧
      (Value.node o.element).construct? = some k ∧ k.AtFault o.element c.rule culprits ∧
      b.PlacedBy culprits ∧
      ((∃ p, o.holder = .node p ∧ Relation.ReflTransGen Node.Holds root p ∧ p.Holds o.element) ∨
        o.holder = .null ∧ o.element = root) ∧
      c.place = (culprits ++ [(Value.node o.element).content "opening_element", .node o.element,
        o.holder]).findSome? Value.place? := by
  rw [tree_eq_complaint_iff hroot, findSome?_complaint?_iff] at h
  obtain ⟨before, o, b, hfirst, rfl⟩ := h
  obtain ⟨after, hsplit⟩ := hfirst.split
  have hmem : o ∈ root.settlingOrder := by simp [hsplit]
  have hn : o.element.Everywhere Node.Grammatical := fun l hl =>
    hroot l ((Occurrence.reached_of_mem hmem List.mem_cons_self).trans hl)
  obtain ⟨k, hk, hb⟩ : ∃ k, (Value.node o.element.desugar).construct? = some k ∧
      (k.breaches (!o.chain.isEmpty) (.node o.element.desugar)).findSome? id = some b :=
    Option.bind_eq_some_iff.mp hfirst.breach
  rw [Node.construct?_desugar hn.orderly] at hk
  have hkind := Node.kind_of_construct? hk
  obtain ⟨culprits, hfault, hplaced⟩ := Breach.atFault_of_breaches hn hkind hb
  refine ⟨before, o, b, k, culprits, hfirst, rfl, hk, hfault, hplaced, ?_, ?_⟩
  · rcases Occurrence.held_of_mem_settlingOrder hmem with ⟨p, hp⟩ | ⟨hholder, -, helement⟩
    · exact .inl ⟨p, hp.holder, hp.reached, hp.slots _ List.mem_cons_self⟩
    · exact .inr ⟨hholder, helement _ List.mem_cons_self⟩
  · have hplaces (list : List Value) :
        list.findSome? Value.place? = (list.map Value.place?).findSome? id := by
      rw [List.findSome?_map]
      rfl
    have helement : (Value.node o.element.desugar).place? = (Value.node o.element).place? :=
      Value.place?_desugarItem (.node o.element)
    rw [Breach.complaint, hplaces, hplaces, List.map_append, List.map_append, hplaced]
    simp only [List.map_cons, List.map_nil, Node.place?_opening_desugar hn hkind, helement]

/-- The origin of what stands between two columns of the first line. -/
def onFirstLine (first last : Int) : Origin where
  loc := some ⟨⟨.int 1, .int first, .null⟩, ⟨.int 1, .int last, .null⟩⟩
  range := some (.int first, .int last)

/-- The tree of the attribute `var={}`. -/
def emptyVar : Node :=
  { attributeTree ("var", .node ⟨.jsxEmptyExpression, [], {}⟩) with origin := onFirstLine 6 12 }

/-- The tree of the attribute `of={xs}`. -/
def givenOf : Node :=
  { attributeTree ("of", .node (.identifier "xs")) with origin := onFirstLine 13 20 }

/-- The tree of `<$for var={} of={xs} />`, where the attributes, the tag and the element are all
located. -/
def emptyLoop : Node :=
  ⟨.jsxElement,
    [("opening_element", .node ⟨.jsxOpeningElement,
      [("name", .node (nameTree "$for")), ("attributes", .list [.node emptyVar, .node givenOf]),
        ("self_closing", .bool true)], onFirstLine 0 23⟩),
      ("children", .list []), ("closing_element", .null)], onFirstLine 0 23⟩

lemma grammatical_emptyLoop : (Node.fragment [.node emptyLoop]).Everywhere Node.Grammatical := by
  have hempty : (Value.node ⟨.jsxEmptyExpression, [], {}⟩).IsGrammatical :=
    Node.isGrammatical_of_made rfl .nil (by simp)
  have hvar : (Value.node emptyVar).IsGrammatical :=
    isGrammatical_with_origin (isGrammatical_attributeTree hempty) rfl
  have hof : (Value.node givenOf).IsGrammatical :=
    isGrammatical_with_origin (isGrammatical_attributeTree (Node.isGrammatical_identifier "xs")) rfl
  have hattributes : ∀ attr ∈ [Value.node emptyVar, .node givenOf],
      attr.IsGrammatical ∧ ∃ a : Node, attr = .node a ∧ a.kind = .jsxAttribute := by
    rw [List.forall_mem_cons, List.forall_mem_singleton]
    exact ⟨⟨hvar, _, rfl, rfl⟩, hof, _, rfl, rfl⟩
  have hopening := isGrammatical_opening "$for" true hattributes
  have hchildren : ∀ child ∈ ([] : List Value), child.IsGrammatical := by simp
  have helement : (Value.node emptyLoop).IsGrammatical :=
    isGrammatical_with_origin
      (isGrammatical_element (isGrammatical_with_origin hopening rfl) rfl hchildren) rfl
  have hfragment : (Value.node (.fragment [.node emptyLoop])).IsGrammatical :=
    Node.isGrammatical_fragment (by simpa using helement)
  simpa using hfragment.everywhere

/-- An attribute without an expression is complained of at its own place, and not at that of the
next one, with which nothing is wrong. -/
theorem emptyLoop_placed :
    (Node.fragment [.node emptyLoop]).Everywhere Node.Grammatical ∧ ∃ c : Complaint,
    (tree (fun _ => false) "a.jsx" (.node (.fragment [.node emptyLoop]))).toExcept =
      .error (.complaint c) ∧ c.rule = .invalidAttributeValueShape ∧
    c.place = some ⟨⟨.int 1, .int 6, .int 6⟩, ⟨.int 1, .int 12, .int 12⟩⟩ ∧
    ∃ o ∈ (Node.fragment [.node emptyLoop]).settlingOrder, ∃ b k culprits,
      Construct.AtFault k o.element .invalidAttributeValueShape culprits ∧
      Breach.PlacedBy b culprits ∧
      c.place = (culprits ++ [(Value.node o.element).content "opening_element", .node o.element,
        o.holder]).findSome? Value.place? := by
  have hcomplaint :
      (tree (fun _ => false) "a.jsx" (.node (.fragment [.node emptyLoop]))).toExcept =
      .error (.complaint ⟨.invalidAttributeValueShape,
        "Need var={name}, not var={}, in <$for var={} of={xs} />",
        some ⟨⟨.int 1, .int 6, .int 6⟩, ⟨.int 1, .int 12, .int 12⟩⟩⟩) := rfl
  refine ⟨grammatical_emptyLoop, _, hcomplaint, rfl, rfl, ?_⟩
  obtain ⟨before, o, b, k, culprits, ⟨⟨after, hsplit⟩, -, -⟩, -, -, hfault, hplaced, -, hplace⟩ :=
    tree_places_complaint grammatical_emptyLoop (fun _ => false) "a.jsx" hcomplaint
  exact ⟨o, by simp [hsplit], b, k, culprits, hfault, hplaced, hplace⟩

end Expand

end JsxControl
