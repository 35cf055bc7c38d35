import JsxControl.Expand.Replacement
import JsxControl.Proofs.Writing.Shown

/-!
# Writing typed trees

Writing a typed tree comes to a text or to no end, the same at every depth of blocks, and which of
the two it is can be told from the tree: there is no end if a node that is tried at some depth is
mistaken. Otherwise the text has in it what every node that is shown is written as.
-/

namespace JsxControl

open Source

namespace Node

variable {n m : Node}

/-! ### Parts of typed nodes -/

lemma Typed.isIntegerLiteral_eq_ok (h : n.Typed) : ∃ b, isIntegerLiteral (.node n) = .ok b := by
  by_cases hkind : n.kind = .literal
  · obtain ⟨v, hv, s, rfl⟩ := demanding.field h "value" .scalar (by rw [hkind]; rfl)
    cases s <;> exact ⟨_, by simp [isIntegerLiteral, hkind, hv]; rfl⟩
  · exact ⟨false, by simp [isIntegerLiteral, hkind]⟩

lemma Typed.levelOfNode_eq_ok (h : n.Typed) : ∃ l, levelOfNode n = .ok l := by
  cases hkind : n.kind with
  | binaryExpression | logicalExpression =>
    obtain ⟨v, hv, s, rfl⟩ := demanding.field h "operator" .text (by rw [hkind]; rfl)
    exact ⟨operatorLevel (.text s), by simp [levelOfNode, hkind, hv, Value.key]⟩
  | _ => exact ⟨_, by simp only [levelOfNode, hkind]; rfl⟩

/-- A field that is demanded, together with what the node has everywhere. -/
lemma get?_fields_eq_node (hn : n.Everywhere Typed) {name : String} {kinds? : Option (List Kind)}
    (hd : Entries.get? n.kind.types name = some (.node kinds?)) {v : Value}
    (hv : v ∈ Entries.get? n.fields name) :
    ∃ m : Node, v = .node m ∧ n.Holds m ∧ (∀ kinds ∈ kinds?, m.kind ∈ kinds) ∧
      m.Everywhere Typed := by
  obtain ⟨m, hfield, hkind, hm⟩ := Typed.demanding.field_eq_node hn name kinds? hd
  have hget := ((field_eq_ok_iff hn.here.notes).mp hfield).2
  obtain rfl : v = .node m := Option.some.inj (hv.symm.trans hget)
  exact ⟨m, rfl, ⟨_, Entries.mem_of_get? hget, by simp [Value.slotNodes]⟩, hkind, hm⟩

/-! ### One node -/

/-- What has to be known of a node to write what holds it. -/
structure Decided (n : Node) : Prop where
  written : n.Endless ∨ ∀ depth, ∃ s, n.sourceAt depth = .ok (.text s)
  level : ∃ l, levelOfNode n = .ok l
  name : n.kind = .jsxOpeningElement → ∀ depth start, n.sourceAt depth = .ok start →
    ∃ s, n.nameAt depth = .ok (.text s)
  body : n.kind = .blockStatement → ∀ depth, n.sourceAt depth =
    (n.bodyAt (depth + 1) >>= fun parts => Value.toTexts parts >>= fun statements =>
      .ok (.text (block depth statements)))

lemma Decided.prints (h : n.Decided) : (Value.node n).Prints := by
  refine ⟨fun depth => ?_, h.level⟩
  rw [Value.sourceAt]
  rcases h.written with hendless | hwritten
  · rw [hendless depth]
    exact .endless (by simp [Value.slotNodes]) hendless
  · obtain ⟨s, hs⟩ := hwritten depth
    rw [hs]
    refine .text (by simp) fun m hm => ?_
    obtain rfl : m = n := by simpa [Value.slotNodes] using hm
    exact ⟨depth, s, hs, .refl s⟩

section Slots

variable (hn : n.Everywhere Typed) (hslots : ∀ m, n.Holds m → m.Decided)

include hn hslots

/-- The fields of a node of a known kind can be written if the nodes in its slots are decided. -/
lemma printed_of_slots (hknown : n.kind.isOther = false) :
    List.Forall₂ Demand.PrintedBy n.kind.types n.fields := by
  have hfields := hn.here.fields hknown
  rw [List.forall₂_iff_get] at hfields ⊢
  refine ⟨hfields.1, fun i hi hi' => ⟨(hfields.2 i hi hi').1, ?_⟩⟩
  apply Demand.prints_of_meets (hfields.2 i hi hi').2
  intro m hm
  exact (hslots m ⟨_, List.get_mem _ _, hm⟩).prints

lemma writtenAt_function (hkind : n.kind = .functionDeclaration) (depth : Nat) :
    n.WrittenAt depth := by
  have hprinted := printed_of_slots hn hslots (by rw [hkind]; rfl)
  refine .of_conveys (by simp [hkind]) ?_
  obtain ⟨kind, fields, origin⟩ := n
  refine sourceAt_functionDeclaration depth hprinted hkind ?_ ?_
  · intro id hid
    obtain ⟨v, hv, hmeets⟩ := Typed.demanding.field hn.here "id" _ (by rw [hkind]; rfl)
    obtain rfl : id = v :=
      Option.some.inj (hid.symm.trans ((field_eq_ok_iff hn.here.notes).mp hv).2)
    rcases hmeets with rfl | ⟨m, rfl, hm⟩
    · exact ⟨"", rfl⟩
    · have hm' : m.Everywhere Typed := by simpa using hn.found hn.here.notes hv
      obtain ⟨s, hs⟩ := Typed.demanding.field_eq_text hm' "name"
        (by rw [show m.kind = _ by simpa using hm]; rfl)
      exact ⟨s, by simp [functionName, Value.isNull, hs]⟩
  · intro body hbody
    obtain ⟨m, rfl, hholds, hm, -⟩ := get?_fields_eq_node hn (by rw [hkind]; rfl) hbody
    simpa only [Value.sourceAt, Value.bodyAt] using (hslots m hholds).body (by simpa using hm) depth

lemma writtenAt_element (hkind : n.kind = .jsxElement) (depth : Nat) : n.WrittenAt depth := by
  have hprinted := printed_of_slots hn hslots (by rw [hkind]; rfl)
  obtain ⟨kind, fields, origin⟩ := n
  refine sourceAt_jsxElement depth hprinted hkind fun opening hopening => ?_
  obtain ⟨o, rfl, hholds, ho, heverywhere⟩ := get?_fields_eq_node hn (by rw [hkind]; rfl) hopening
  have hkind : o.kind = .jsxOpeningElement := by simpa using ho
  obtain ⟨closed, hclosed, -⟩ :=
    Typed.demanding.field heverywhere.here "self_closing" .scalar (by rw [hkind]; rfl)
  refine ⟨o, rfl, ⟨closed, hclosed, ?_⟩, (hslots o hholds).name hkind depth⟩
  exact ((field_eq_ok_iff heverywhere.here.notes).mp hclosed).2

lemma writtenAt_markup (hknown : n.kind.isOther = false) (hkind : n.kind.isMarkup = .ok true)
    (depth : Nat) : n.WrittenAt depth := by
  by_cases helement : n.kind = .jsxElement
  · exact writtenAt_element hn hslots helement depth
  · have hprinted := printed_of_slots hn hslots hknown
    refine .of_conveys helement ?_
    obtain ⟨kind, fields, origin⟩ := n
    refine sourceAt_markup depth hprinted hkind hknown helement fun name hd v hv => ?_
    obtain ⟨m, rfl, -, hm, heverywhere⟩ := get?_fields_eq_node hn hd hv
    exact Typed.demanding.field_eq_text heverywhere "name"
      (by rw [show m.kind = _ by simpa using hm]; rfl)

/-- A node of a known kind is written if the nodes in its slots are decided. -/
lemma writtenAt (hknown : n.kind.isOther = false) (depth : Nat) : n.WrittenAt depth := by
  obtain ⟨b, hmarkup⟩ := Kind.exists_isMarkup hknown
  cases b with
  | true => exact writtenAt_markup hn hslots hknown hmarkup depth
  | false =>
    by_cases hfunction : n.kind = .functionDeclaration
    · exact writtenAt_function hn hslots hfunction depth
    · have hprinted := printed_of_slots hn hslots hknown
      have helement : n.kind ≠ .jsxElement := by
        intro helement
        simp [helement, Kind.isMarkup, Kind.tag] at hmarkup
      refine .of_conveys helement ?_
      obtain ⟨kind, fields, origin⟩ := n
      cases hstatement : kind.isStatement with
      | true => exact sourceAt_statement depth hprinted hstatement hfunction
      | false =>
        apply sourceAt_expression depth hprinted hmarkup hknown hstatement
        intro hmember object hobject
        obtain ⟨m, rfl, -, -, hm⟩ := get?_fields_eq_node hn (by rw [hmember]; rfl) hobject
        exact hm.here.isIntegerLiteral_eq_ok

end Slots

/-- A node of an unknown kind is written as a comment, unless it is mistaken. -/
lemma sourceAt_other (hn : n.Typed) (hother : n.kind.isOther = true) :
    n.Mistaken ∧ n.Endless ∨
      ¬ n.Mistaken ∧ ∀ depth, n.sourceAt depth = .ok (.text ("/* " ++ n.kind.label ++ " */")) := by
  obtain ⟨b, hb⟩ := hn.tagged hother
  obtain ⟨kind, fields, origin⟩ := n
  cases kind with
  | other tag =>
    simp only at hb
    cases b with
    | true => exact .inl ⟨⟨rfl, hb⟩, fun depth => by simp [sourceAt, comment, hb]⟩
    | false =>
      refine .inr ⟨fun h => ?_, fun depth => by simp [sourceAt, comment, hb]⟩
      simpa [hb] using h.2
  | _ => simp [Kind.isOther] at hother

lemma not_tries_of_other (hother : n.kind.isOther = true) : ¬ n.Tries m := by
  obtain ⟨kind, fields, origin⟩ := n
  cases kind with
  | other tag => simp [Tries, Shows, shown, shownFields, Kind.fieldNames, Kind.layout]
  | _ => simp [Kind.isOther] at hother

/-- The one step of what follows for whole trees. -/
lemma endless_of_slots (hn : n.Everywhere Typed) (hslots : ∀ m, n.Holds m → m.Decided)
    (h : n.Mistaken ∨ ∃ m, n.Tries m ∧ m.Endless) : n.Endless := by
  rcases h with hmistaken | ⟨m, hm, hendless⟩
  · rcases sourceAt_other hn.here hmistaken.1 with h | h
    · exact h.2
    · exact absurd hmistaken h.1
  · have hknown : n.kind.isOther = false := by
      by_contra hother
      exact not_tries_of_other (by simpa using hother) hm
    intro depth
    cases writtenAt hn hslots hknown depth with
    | text h hshown htried => exact absurd hendless (htried m hm)
    | endless _ _ h => exact h

lemma text_of_slots (hn : n.Everywhere Typed) (hslots : ∀ m, n.Holds m → m.Decided)
    (h : ¬ (n.Mistaken ∨ ∃ m, n.Tries m ∧ m.Endless)) (depth : Nat) :
    ∃ s, n.sourceAt depth = .ok (.text s) ∧ ∀ m, n.Shows m → m.WrittenIn s := by
  obtain ⟨hmistaken, htries⟩ := not_or.mp h
  cases hother : n.kind.isOther with
  | true =>
    have hcomment := ((sourceAt_other hn.here hother).resolve_left fun h => hmistaken h.1).2 depth
    exact ⟨_, hcomment, fun m hm => absurd (.inl hm) (not_tries_of_other hother)⟩
  | false =>
    cases writtenAt hn hslots hother depth with
    | text h hshown htried => exact ⟨_, h, hshown⟩
    | endless hm hendless => exact absurd ⟨_, hm, hendless⟩ htries

/-- In a printed opening tag the name is written. -/
lemma nameAt_of_printed (hprinted : List.Forall₂ Demand.PrintedBy n.kind.types n.fields)
    (hkind : n.kind = .jsxOpeningElement) {depth : Nat} {start : Value}
    (h : n.sourceAt depth = .ok start) : ∃ s, n.nameAt depth = .ok (.text s) := by
  obtain ⟨kind, fields, origin⟩ := n
  obtain rfl : kind = .jsxOpeningElement := hkind
  simp only [Kind.types, Demand.printed_cons_iff, List.forall₂_nil_left_iff] at hprinted
  obtain ⟨name, hname, _, rfl, attributes, -, _, rfl, _, -, _, rfl, rfl⟩ := hprinted
  have hwritten := hname.written depth
  simp only [sourceAt] at h
  obtain ⟨first, hfirst, -⟩ := bind_eq_ok_iff.mp h
  rw [hfirst] at hwritten
  obtain ⟨s, rfl⟩ : ∃ s, first = .text s := by
    cases hwritten with
    | text => exact ⟨_, rfl⟩
  exact ⟨s, by simpa [nameAt, nameAmong, Kind.isOther] using hfirst⟩

/-- The text of a block is made from its body. -/
lemma sourceAt_of_printed (hprinted : List.Forall₂ Demand.PrintedBy n.kind.types n.fields)
    (hkind : n.kind = .blockStatement) (depth : Nat) :
    n.sourceAt depth = (n.bodyAt (depth + 1) >>= fun parts => Value.toTexts parts >>=
      fun statements => .ok (.text (block depth statements))) := by
  obtain ⟨kind, fields, origin⟩ := n
  obtain rfl : kind = .blockStatement := hkind
  simp only [Kind.types, Kind.demands, Demand.printed_cons_iff, List.forall₂_nil_left_iff]
    at hprinted
  obtain ⟨body, -, _, rfl, rfl⟩ := hprinted
  simp [sourceAt_block, bodyAt, bodyAmong, Kind.isOther]

/-- Every typed node is decided. -/
lemma decided (n : Node) (hn : n.Everywhere Typed) : n.Decided := by
  induction n using slot_induction with
  | step n ih =>
    have hslots (m : Node) (hm : n.Holds m) : m.Decided := by
      obtain ⟨entry, hentry, hmem⟩ := hm
      exact ih m ⟨entry, hentry, hmem⟩ (hn.field hentry m hmem)
    refine ⟨?_, hn.here.levelOfNode_eq_ok, fun hkind depth start => ?_, fun hkind => ?_⟩
    · by_cases h : n.Mistaken ∨ ∃ m, n.Tries m ∧ m.Endless
      · exact .inl (endless_of_slots hn hslots h)
      · exact .inr fun depth => (text_of_slots hn hslots h depth).imp fun _ hs => hs.1
    · exact nameAt_of_printed (printed_of_slots hn hslots (by rw [hkind]; rfl)) hkind
    · exact sourceAt_of_printed (printed_of_slots hn hslots (by rw [hkind]; rfl)) hkind

/-! ### Whole trees -/

lemma decided_of_holds (hn : n.Everywhere Typed) (m : Node) (hm : n.Holds m) : m.Decided :=
  decided m fun l hl => hn l (.head hm hl)

/-- Writing does not come to an end exactly if a mistaken node is tried at some depth. -/
lemma endless_iff (n : Node) (hn : n.Everywhere Typed) :
    n.Endless ↔ ∃ m, Relation.ReflTransGen Tries n m ∧ m.Mistaken := by
  induction n using slot_induction with
  | step n ih =>
    have hslots := decided_of_holds hn
    have hstep (m : Node) (hm : n.Tries m) :
        m.Endless ↔ ∃ l, Relation.ReflTransGen Tries m l ∧ l.Mistaken :=
      ih m hm.holds fun l hl => hn l (.head hm.holds hl)
    constructor
    · intro hendless
      by_contra hnone
      have hrest : ¬ (n.Mistaken ∨ ∃ m, n.Tries m ∧ m.Endless) := by
        rintro (h | ⟨m, hm, h⟩)
        · exact hnone ⟨n, .refl, h⟩
        · obtain ⟨l, hl, hmistaken⟩ := (hstep m hm).mp h
          exact hnone ⟨l, .head hm hl, hmistaken⟩
      obtain ⟨s, hs, -⟩ := text_of_slots hn hslots hrest 0
      rw [hendless 0] at hs
      simp at hs
    · rintro ⟨m, hm, hmistaken⟩
      apply endless_of_slots hn hslots
      obtain rfl | ⟨l, hl, hlm⟩ := hm.cases_head
      · exact .inl hmistaken
      · exact .inr ⟨l, hl, (hstep l hl).mpr ⟨m, hlm, hmistaken⟩⟩

lemma writtenIn_of_step (hn : n.Everywhere Typed) {depth : Nat} {s : String}
    (h : n.sourceAt depth = .ok (.text s)) (hm : n.Shows m) : m.WrittenIn s := by
  have hslots := decided_of_holds hn
  by_cases hrest : n.Mistaken ∨ ∃ m, n.Tries m ∧ m.Endless
  · rw [endless_of_slots hn hslots hrest depth] at h
    simp at h
  · obtain ⟨t, ht, hshown⟩ := text_of_slots hn hslots hrest depth
    obtain rfl : s = t := by simpa [h] using ht
    exact hshown m hm

/-- A node that is shown at some depth is written in the text. -/
lemma writtenIn_of_shows (hm : Relation.ReflTransGen Shows n m) (hn : n.Everywhere Typed)
    {depth : Nat} {s : String} (h : n.sourceAt depth = .ok (.text s)) : m.WrittenIn s := by
  induction hm using Relation.ReflTransGen.head_induction_on generalizing depth s with
  | refl => exact ⟨depth, s, h, .refl s⟩
  | @head n l hstep _ ih =>
    obtain ⟨inner, part, hl, hwithin⟩ := writtenIn_of_step hn h hstep
    have hl' : l.Everywhere Typed := fun k hk => hn k (.head (Tries.holds (.inl hstep)) hk)
    exact (ih hl' hl).trans hwithin

end Node

/-- Writing a typed tree gives a text, unless a mistaken node is tried; then it does not come to an
end. In a text every unknown kind that is shown stands as a comment with its name. -/
theorem Value.written_unless_mistaken {root : Node} (h : root.Everywhere Node.Typed) :
    (∃ text, (Value.node root).source = .ok (.text text) ∧
        (∀ m, Relation.ReflTransGen Node.Tries root m → ¬ m.Mistaken) ∧
        ∀ m, Relation.ReflTransGen Node.Shows root m → m.kind.isOther = true →
          Within ("/* " ++ m.kind.label ++ " */") text) ∨
      (Value.node root).source = .error .endless ∧
        ∃ m, Relation.ReflTransGen Node.Tries root m ∧ m.Mistaken := by
  have hsource : (Value.node root).source = root.sourceAt 0 := by
    rw [source, sourceAt]
  rw [hsource]
  have hdecided := root.decided h
  rcases hdecided.written with hendless | hwritten
  · exact .inr ⟨hendless 0, (root.endless_iff h).mp hendless⟩
  · obtain ⟨text, htext⟩ := hwritten 0
    have hmistaken (m : Node) (hm : Relation.ReflTransGen Node.Tries root m) : ¬ m.Mistaken := by
      intro hmistaken
      rw [(root.endless_iff h).mpr ⟨m, hm, hmistaken⟩ 0] at htext
      simp at htext
    refine .inl ⟨text, htext, hmistaken, fun m hm hother => ?_⟩
    obtain ⟨depth, part, hpart, hwithin⟩ := Node.writtenIn_of_shows hm h htext
    have htyped : m.Typed := h m (hm.lift id fun _ _ hl => Node.Tries.holds (.inl hl))
    rcases Node.sourceAt_other htyped hother with ⟨-, hendless⟩ | ⟨-, hcomment⟩
    · simp [hendless depth] at hpart
    · obtain rfl : "/* " ++ m.kind.label ++ " */" = part := by simpa [hcomment depth] using hpart
      exact hwithin

namespace Node

/-- A node of an unknown kind about the variable `xs`, such as `xs!` or `{...xs}`. -/
def unknown (tag : String) : Node :=
  ⟨.other (.text tag), [("expression", .node (.identifier "xs"))], {}⟩

lemma typed_unknown (tag : String) : (unknown tag).Everywhere Typed := by
  have hname : (identifier "xs").Typed := ⟨rfl, nofun, fun _ => .cons ⟨rfl, _, rfl⟩ .nil⟩
  refine everywhere_iff.mpr ⟨⟨rfl, fun _ => ⟨_, rfl⟩, nofun⟩, ?_⟩
  simpa [unknown, everywhere_iff, identifier] using hname

lemma typed_fragment {child : Node} (h : child.Everywhere Typed) :
    (fragment [.node child]).Everywhere Typed := by
  have htag (kind : Kind) (hknown : kind.isOther = false) (htypes : kind.types = []) :
      (Value.node ⟨kind, [], {}⟩).Everywhere Typed := by
    rw [Value.everywhere_node, everywhere_iff]
    exact ⟨⟨rfl, by simp [hknown], fun _ => htypes ▸ .nil⟩, by simp⟩
  refine everywhere_iff.mpr ⟨⟨rfl, nofun, fun _ => ?_⟩, ?_⟩
  · exact .cons ⟨rfl, _, rfl, by simp⟩ (.cons ⟨rfl, _, rfl, by simp [Value.IsNode]⟩
      (.cons ⟨rfl, _, rfl, by simp⟩ .nil))
  · have hchild : (Value.list [.node child]).Everywhere Typed :=
      Value.Everywhere.singleton (by simpa using h)
    simp only [fragment, List.forall_mem_cons]
    exact ⟨htag _ rfl rfl, hchild, htag _ rfl rfl, by simp⟩

/-- As the child of a fragment an unknown kind is written as a comment, or it is not written at all,
as its name has it. -/
theorem fragment_written_unless_mistaken :
    (fragment [.node (unknown "TSNonNullExpression")]).Everywhere Typed ∧
    (Value.node (fragment [.node (unknown "TSNonNullExpression")])).source =
      .ok (.text "<>/* TSNonNullExpression */</>") ∧
    (∀ m, Relation.ReflTransGen Tries (fragment [.node (unknown "TSNonNullExpression")]) m →
      ¬ m.Mistaken) ∧
    (fragment [.node (unknown "JSXSpreadChild")]).Everywhere Typed ∧
    (Value.node (fragment [.node (unknown "JSXSpreadChild")])).source = .error .endless ∧
    ∃ m, Relation.ReflTransGen Tries (fragment [.node (unknown "JSXSpreadChild")]) m ∧
      m.Mistaken := by
  have hplain : (Value.node (fragment [.node (unknown "TSNonNullExpression")])).source =
      .ok (.text "<>/* TSNonNullExpression */</>") := rfl
  have hmistaken : (Value.node (fragment [.node (unknown "JSXSpreadChild")])).source =
      .error .endless := rfl
  refine ⟨typed_fragment (typed_unknown _), hplain, ?_, typed_fragment (typed_unknown _),
    hmistaken, ?_⟩
  · rcases Value.written_unless_mistaken (typed_fragment (typed_unknown "TSNonNullExpression")) with
      ⟨text, htext, hnone, -⟩ | ⟨hendless, -⟩
    · exact hnone
    · simp [hplain] at hendless
  · rcases Value.written_unless_mistaken (typed_fragment (typed_unknown "JSXSpreadChild")) with
      ⟨text, htext, -⟩ | ⟨-, htried⟩
    · simp [hmistaken] at htext
    · exact htried

end Node

end JsxControl
