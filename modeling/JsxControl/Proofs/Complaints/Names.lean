import JsxControl.Proofs.Acceptance.Pass

/-!
# Names that are not allowed

A complaint about a name that is not allowed quotes the first such name of the tag, but it is placed
at the last attribute of this name. The two are the same attribute unless the name is repeated. This
holds for all lists of attributes and of allowed names, and whatever else the complaint may be
placed by.
-/

namespace JsxControl

/-- An attribute of an opening tag: one with a plain name, one with a name in a namespace, or a
spread. -/
inductive Value.IsAttribute : Value → Prop
  | plain {a name : Node} {s : String} (hkind : a.kind = .jsxAttribute)
      (hname : a.field "name" = .ok (.node name)) (hplain : name.kind = .jsxIdentifier)
      (hs : name.field "name" = .ok (.text s)) : IsAttribute (.node a)
  | namespaced {a name space bare : Node} {s t : String} (hkind : a.kind = .jsxAttribute)
      (hname : a.field "name" = .ok (.node name)) (hspaced : name.kind = .jsxNamespacedName)
      (hspace : name.field "namespace" = .ok (.node space))
      (hbare : name.field "name" = .ok (.node bare)) (hs : space.field "name" = .ok (.text s))
      (ht : bare.field "name" = .ok (.text t)) : IsAttribute (.node a)
  | spread {a : Node} (hkind : a.kind = .jsxSpreadAttribute) : IsAttribute (.node a)

/-- An attribute bears the name that a message shows. -/
lemma Value.IsAttribute.attributeName_eq {attr : Value} (h : attr.IsAttribute) :
    attr.attributeName = .ok (.text attr.displayName) := by
  have hname : ∃ s, attr.attributeName = .ok (.text s) := by
    cases h with
    | @plain a name s hkind hname hplain hs =>
      exact ⟨s, by simp [attributeName, hkind, hname, hplain, hs]⟩
    | @namespaced a name space bare s t hkind hname hspaced hspace hbare hs ht =>
      exact ⟨s ++ ":" ++ t,
        by simp [attributeName, hkind, hname, hspaced, hspace, hbare, hs, ht, Value.shown]⟩
    | spread hkind => exact ⟨"...", by simp [attributeName, hkind]⟩
  obtain ⟨s, hs⟩ := hname
  rw [hs, displayName_of_attributeName hs]

lemma Value.IsAttribute.eq_node {attr : Value} (h : attr.IsAttribute) :
    ∃ n : Node, attr = .node n := by
  cases h with
  | plain | namespaced | spread => exact ⟨_, rfl⟩

/-! ### Places -/

/-- A complaint is placed at the last node of its context, if that is located. -/
lemma Fault.complain_append_located {n : Node} {place : Location}
    (h : n.origin.place? = .ok (some place)) (rule : Rule) (message : String)
    (context : List Value) :
    complain rule message (context ++ [.node n]) = .complaint ⟨rule, message, some place⟩ := by
  simp [complain, Location.ofContext, Location.firstOf, h]

/-- Otherwise it is placed as if the node were not there. -/
lemma Fault.complain_append_unlocated {n : Node} (h : n.origin.place? = .ok none) (rule : Rule)
    (message : String) (context : List Value) :
    complain rule message (context ++ [.node n]) = complain rule message context := by
  simp [complain, Location.ofContext, Location.firstOf, h]

namespace Attributes

/-- A check fails exactly if some name is not allowed. -/
lemma check_fails_iff {opening : Value} {found : List (Scalar × Value)} {list : List Value}
    (hnames : ∀ attr ∈ list, attr.attributeName = .ok (.text attr.displayName))
    (h : ofValues [] list = .ok found) (allowed : List String) (context : List Value) :
    (∃ fault, check opening found (allowed.map .text) context = .error fault) ↔
      ∃ attr ∈ list, attr.displayName ∉ allowed := by
  have hsome : (∃ attr ∈ list, attr.displayName ∉ allowed) ↔
      (list.find? fun attr => attr.displayName ∉ allowed).isSome := by
    rw [List.find?_isSome]
    simp
  rw [hsome, check_eq hnames h]
  cases list.find? fun attr => attr.displayName ∉ allowed with
  | none => simp
  | some first => cases opening.source <;> simp

/-- The attributes of an opening tag can be stored by their names. -/
lemma exists_ofOpening {opening : Value} {list : List Value}
    (hattributes : opening.field "attributes" = .ok (.list list))
    (hlist : ∀ attr ∈ list, attr.IsAttribute) :
    ∃ found, ofOpening opening = .ok found ∧ ofValues [] list = .ok found := by
  obtain ⟨found, hfound, -⟩ : ∃ found, ofValues [] list = .ok found ∧
      ∀ entry ∈ found, True ∧ ∃ s, entry.1 = .text s :=
    ofValues_eq_ok (fun attr hattr => ⟨trivial, _, (hlist attr hattr).attributeName_eq⟩) (by simp)
  exact ⟨found, by simp [ofOpening, hattributes, Value.items, hfound], hfound⟩

/-- A check fails exactly if some attribute has a name that is not allowed. It complains of the
first such name in the order of the list, but what it is placed by is the last attribute of this
name. -/
theorem check_names_first_places_last {opening : Node} {list : List Value}
    (hattributes : opening.field "attributes" = .ok (.list list))
    (hlist : ∀ attr ∈ list, attr.IsAttribute) (allowed : List String) (context : List Value) :
    ∃ found, ofOpening (.node opening) = .ok found ∧
      ((∃ fault, check (.node opening) found (allowed.map .text) context = .error fault) ↔
        ∃ attr ∈ list, attr.displayName ∉ allowed) ∧
      ∀ first, (list.find? fun attr => attr.displayName ∉ allowed) = some first →
        ∃ last : Node, list.reverse.find? (Desugar.isNamed first.displayName) = some (.node last) ∧
          (opening.Everywhere (Node.Writable False) →
            ∃ s, (Value.node opening).source = .ok (.text s)) ∧
          ∀ text, (Value.node opening).source = .ok text →
            (∀ place, last.origin.place? = .ok (some place) →
              check (.node opening) found (allowed.map .text) context =
                .error (.complaint ⟨.unexpectedAttribute,
                  "Bad attribute " ++ first.displayName ++ " in " ++ text.shown, some place⟩)) ∧
            (last.origin.place? = .ok none →
              check (.node opening) found (allowed.map .text) context =
                .error (.complain .unexpectedAttribute
                  ("Bad attribute " ++ first.displayName ++ " in " ++ text.shown) context)) := by
  obtain ⟨found, hfound, hstored⟩ :=
    exists_ofOpening (show (Value.node opening).field _ = _ from hattributes) hlist
  have hnames (attr : Value) (hattr : attr ∈ list) := (hlist attr hattr).attributeName_eq
  refine ⟨found, hfound, check_fails_iff hnames hstored allowed context, ?_⟩
  intro first hfirst
  obtain ⟨last, hlast⟩ := exists_last_of_name hnames (List.mem_of_find?_eq_some hfirst)
  obtain ⟨n, rfl⟩ := (hlist last (by simpa using List.mem_of_find?_eq_some hlast)).eq_node
  refine ⟨n, hlast, ?_, ?_⟩
  · intro hwritable
    obtain ⟨v, hv, s, rfl⟩ := (Value.source_writes hwritable).exists_ok
    exact ⟨s, hv⟩
  · intro text htext
    have hcheck : check (.node opening) found (allowed.map .text) context =
        .error (.complain .unexpectedAttribute
          ("Bad attribute " ++ first.displayName ++ " in " ++ text.shown)
          (context ++ [.node n])) := by
      rw [check_eq hnames hstored, hfirst]
      simp [hlast, htext]
    constructor
    · intro place hplace
      rw [hcheck, Fault.complain_append_located hplace]
    · intro hplace
      rw [hcheck, Fault.complain_append_unlocated hplace]

/-- The stretch of five columns that starts at a column of the first line. -/
def stretch (column : Int) : Location :=
  ⟨⟨.int 1, .int column, .null⟩, ⟨.int 1, .int (column + 5), .null⟩⟩

/-- The tree of an attribute that gives null and starts at a column of the first line. -/
def attributeAt (column : Int) (name : String) : Node :=
  { Expand.attributeTree (name, .node .nullLiteral) with
    origin := { loc := some (stretch column) } }

lemma isAttribute_attributeAt (column : Int) (name : String) :
    (Value.node (attributeAt column name)).IsAttribute :=
  .plain rfl rfl rfl rfl

/-- The tree of a tag `<$for key={null} id={null} key={null} />`, with located attributes. -/
def keyedTwice : Node :=
  ⟨.jsxOpeningElement, [("name", .node (Expand.nameTree "$for")),
    ("attributes", .list [.node (attributeAt 6 "key"), .node (attributeAt 17 "id"),
      .node (attributeAt 27 "key")]),
    ("self_closing", .bool true)], {}⟩

/-- Of three attributes that are not allowed, the first gives the complaint its name and the last
its place. -/
theorem keyedTwice_placed_last : ∃ found, ofOpening (.node keyedTwice) = .ok found ∧
    check (.node keyedTwice) found [.text "var", .text "of"] [] =
      .error (.complaint ⟨.unexpectedAttribute,
        "Bad attribute key in <$for key=\x7bnull\x7d id=\x7bnull\x7d key=\x7bnull\x7d />",
        some (stretch 27)⟩) := by
  obtain ⟨found, hfound, -, hfirst⟩ := check_names_first_places_last
    (show keyedTwice.field "attributes" = _ from rfl) (by simp [isAttribute_attributeAt])
    ["var", "of"] []
  obtain ⟨last, hlast, -, hplaced⟩ := hfirst (.node (attributeAt 6 "key")) rfl
  obtain rfl : attributeAt 27 "key" = last := by
    have hname (column : Int) (name : String) :
        (Value.node (attributeAt column name)).attributeName = .ok (.text name) := rfl
    simpa [Desugar.isNamed, Value.displayName_of_attributeName (hname _ _), hname] using hlast
  have hsource : (Value.node keyedTwice).source =
      .ok (.text "<$for key=\x7bnull\x7d id=\x7bnull\x7d key=\x7bnull\x7d />") := rfl
  exact ⟨found, hfound, (hplaced _ hsource).1 _ rfl⟩

end Attributes

end JsxControl
