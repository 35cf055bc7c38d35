import JsxControl.Expand.Expansion
import JsxControl.Proofs.Acceptance.Judged
import JsxControl.Proofs.Location.Source

/-!
# Expansions without locations

An expansion looks at its element, copies parts of it, and quotes source text in a complaint. Of all
this only the place of the complaint depends on locations.
-/

namespace JsxControl

variable {α β : Type}

/-! ### Complaints -/

/-- Values without notes have a place, if any. -/
lemma Fault.unplaced_complain {context : List Value} (h : ∀ v ∈ context, v.Noteless) (rule : Rule)
    (message : String) :
    (complain rule message context).unplaced = .complaint ⟨rule, message, none⟩ := by
  have hplain : Plain context := fun n hn => (h _ hn).here
  rw [complain_eq_complaint hplain, unplaced]

/-- Complaints with the same message differ in their places only. -/
lemma Forgets.complain {P : α → Prop} {f : α → β} {context context' : List Value}
    (h : ∀ v ∈ context, v.Noteless) (h' : ∀ v ∈ context', v.Noteless) (rule : Rule)
    (message : String) :
    Forgets P f (.error (Fault.complain rule message context))
      (.error (Fault.complain rule message context')) := by
  apply Forgets.error
  rw [Fault.unplaced_complain h, Fault.unplaced_complain h']

namespace Value

/-- What a value is written as need not be without notes, as only its text counts. -/
lemma forgets_source {v : Value} (h : v.Noteless) :
    Forgets (fun _ => True) unlocated v.source v.unlocated.source :=
  .of_eq (source_unlocated h) fun _ _ => trivial

lemma noteless_context {holder element opening : Value} (hholder : holder.Noteless)
    (helement : element.Noteless) (hopening : opening.Noteless) :
    ∀ v ∈ [holder, element, opening], v.Noteless := by
  simp [hholder, helement, hopening]

lemma noteless_snoc {context : List Value} (h : ∀ v ∈ context, v.Noteless) {v : Value}
    (hv : v.Noteless) : ∀ u ∈ context ++ [v], u.Noteless := by
  simpa [or_imp, forall_and] using ⟨h, hv⟩

end Value

/-- Complaints that quote the text of a value differ in their places only. -/
lemma Forgets.quote {P : α → Prop} {f : α → β} {v : Value} {context context' : List Value}
    (hv : v.Noteless) (h : ∀ v ∈ context, v.Noteless) (h' : ∀ v ∈ context', v.Noteless)
    (rule : Rule) {message : Value → String}
    (hmessage : ∀ text, message text.unlocated = message text) :
    Forgets P f (v.source >>= fun text => .error (.complain rule (message text) context))
      (v.unlocated.source >>= fun text => .error (.complain rule (message text) context')) := by
  refine (Value.forgets_source hv).bind fun text _ => ?_
  rw [hmessage]
  exact .complain h h' rule _

/-! ### Attributes -/

namespace Attributes

/-- Attributes without the locations in them. -/
def unlocated (attributes : List (Scalar × Value)) : List (Scalar × Value) :=
  attributes.map fun entry => (entry.1, entry.2.unlocated)

/-- No attribute has notes. -/
def Noteless (attributes : List (Scalar × Value)) : Prop := ∀ entry ∈ attributes, entry.2.Noteless

variable {attributes : List (Scalar × Value)} {opening : Value} {context context' : List Value}

lemma get?_unlocated (attributes : List (Scalar × Value)) (name : Scalar) :
    get? (unlocated attributes) name = (get? attributes name).map Value.unlocated := by
  simp [get?, unlocated, List.find?_map, Function.comp_def]

lemma Noteless.get? (h : Noteless attributes) {name : Scalar} {attr : Value}
    (hattr : Attributes.get? attributes name = some attr) : attr.Noteless := by
  obtain ⟨entry, hentry, rfl⟩ := Option.map_eq_some_iff.mp hattr
  exact h entry (List.mem_of_find?_eq_some hentry)

lemma put_unlocated (name : Scalar) (attr : Value) (attributes : List (Scalar × Value)) :
    put name attr.unlocated (unlocated attributes) = unlocated (put name attr attributes) := by
  unfold unlocated
  induction attributes with
  | nil => rfl
  | cons entry rest ih =>
    obtain ⟨first, v⟩ := entry
    cases hsame : first.same name <;> simp [put, hsame, ih]

lemma Noteless.put (h : Noteless attributes) {attr : Value} (hattr : attr.Noteless)
    (name : Scalar) : Noteless (Attributes.put name attr attributes) := by
  induction attributes with
  | nil => simpa [Attributes.put, Noteless] using hattr
  | cons entry rest ih =>
    obtain ⟨first, v⟩ := entry
    obtain ⟨hv, hrest⟩ := List.forall_mem_cons.mp h
    cases hsame : first.same name with
    | true =>
      rw [Attributes.put, if_pos hsame]
      exact List.forall_mem_cons.mpr ⟨hattr, hrest⟩
    | false =>
      rw [Attributes.put, if_neg (by simp [hsame])]
      exact List.forall_mem_cons.mpr ⟨hv, ih hrest⟩

lemma forgets_ofValues {vs : List Value} (h : ∀ v ∈ vs, v.Noteless)
    (hstored : Noteless attributes) :
    Forgets Noteless unlocated (ofValues attributes vs)
      (ofValues (unlocated attributes) (vs.map Value.unlocated)) := by
  induction vs generalizing attributes with
  | nil => exact .ok hstored
  | cons attr rest ih =>
    rw [List.forall_mem_cons] at h
    refine (Value.unlocates_attributeName h.1).bind fun name _ => ?_
    rw [Value.key_unlocated]
    refine (Forgets.refl name.key).bind fun key _ => ?_
    rw [id, put_unlocated]
    exact ih h.2 (hstored.put h.1 key)

lemma forgets_ofOpening (h : opening.Noteless) :
    Forgets Noteless unlocated (ofOpening opening) (ofOpening opening.unlocated) := by
  refine (Value.unlocates_field h _).bind fun v hv => (Value.forgets_items hv).bind fun vs hvs => ?_
  exact forgets_ofValues hvs (by simp [Noteless])

lemma check_matches (h : opening.Noteless) (hattributes : Noteless attributes)
    (hcontext : ∀ v ∈ context, v.Noteless) (hcontext' : ∀ v ∈ context', v.Noteless)
    (allowed : List Scalar) :
    Matches (check opening attributes allowed context)
      (check opening.unlocated (unlocated attributes) allowed context') := by
  have hfind : (unlocated attributes).find? (fun entry => !allowed.any entry.1.same) =
      (attributes.find? fun entry => !allowed.any entry.1.same).map
        fun entry => (entry.1, entry.2.unlocated) := by
    rw [unlocated, List.find?_map]
    rfl
  unfold check
  rw [hfind]
  cases hbad : attributes.find? fun entry => !allowed.any entry.1.same with
  | none => exact .refl _
  | some entry =>
    have hattr : entry.2.Noteless := hattributes entry (List.mem_of_find?_eq_some hbad)
    exact .quote h (Value.noteless_snoc hcontext hattr)
      (Value.noteless_snoc hcontext' hattr.unlocated) _ (by simp)

lemma forgets_expression? {attr : Value} (h : attr.Noteless) :
    Forgets (fun e? => ∀ e ∈ e?, e.Noteless) (Option.map Value.unlocated) (expression? attr)
      (expression? attr.unlocated) := by
  refine (Value.unlocates_field h _).bind fun value hvalue => ?_
  rw [Value.isA_unlocated]
  split_ifs
  · refine (Value.unlocates_field hvalue _).bind fun e he => ?_
    rw [Value.isA_unlocated]
    split_ifs
    · exact .ok (by simp)
    · exact .ok (by simpa using he)
  · exact .ok (by simp)

/-- An attribute that is there holds an expression, or there is a complaint about it. -/
lemma required_of_get? {name : Scalar} {attr : Value} (hget : get? attributes name = some attr)
    (hnull : attr ≠ .null) (placeholder : String) :
    required opening attributes name placeholder context =
      expression? attr >>= fun e? => e?.elim
        (do
          let given ← attr.source
          let text ← opening.source
          .error (.complain .invalidAttributeValueShape
            (needed name placeholder ++ ", not " ++ given.shown ++ ", in " ++ text.shown)
            (context ++ [attr])))
        .ok := by
  unfold required
  rw [hget]
  cases attr with
  | scalar s =>
    cases s with
    | null => exact absurd rfl hnull
    | bool | int | float | text =>
      refine bind_congr fun e? => ?_
      cases e? <;> rfl
  | list | record | node =>
    refine bind_congr fun e? => ?_
    cases e? <;> rfl

lemma unlocates_required (h : opening.Noteless) (hattributes : Noteless attributes)
    (hcontext : ∀ v ∈ context, v.Noteless) (hcontext' : ∀ v ∈ context', v.Noteless) (name : Scalar)
    (placeholder : String) :
    Unlocates (required opening attributes name placeholder context)
      (required opening.unlocated (unlocated attributes) name placeholder context') := by
  have hmissing : Unlocates
      (do
        let text ← opening.source
        .error (.complain .missingRequiredAttribute
          (needed name placeholder ++ " in " ++ text.shown) context))
      (do
        let text ← opening.unlocated.source
        .error (.complain .missingRequiredAttribute
          (needed name placeholder ++ " in " ++ text.shown) context')) :=
    .quote h hcontext hcontext' _ (by simp)
  have hunlocated := get?_unlocated attributes name
  cases hget : get? attributes name with
  | none =>
    rw [hget, Option.map_none] at hunlocated
    unfold required
    rw [hget, hunlocated]
    exact hmissing
  | some attr =>
    rw [hget, Option.map_some] at hunlocated
    have hattr : attr.Noteless := hattributes.get? hget
    by_cases hnull : attr = .null
    · subst hnull
      rw [Value.unlocated_scalar] at hunlocated
      unfold required
      rw [hget, hunlocated]
      exact hmissing
    rw [required_of_get? hget hnull,
      required_of_get? hunlocated (mt Value.unlocated_eq_scalar_iff.mp hnull)]
    refine (forgets_expression? hattr).bind fun e? he => ?_
    cases e? with
    | some e => exact .ok (he e rfl)
    | none =>
      refine (Value.forgets_source hattr).bind fun given _ => ?_
      rw [Value.shown_unlocated]
      exact .quote h (Value.noteless_snoc hcontext hattr)
        (Value.noteless_snoc hcontext' hattr.unlocated) _ (by simp)

end Attributes

/-! ### New nodes -/

namespace Node

/-- A pass gives no notes to a node. -/
lemma lasting_noteless : Lasting fun n => n.origin.notes = [] where
  notes _ h := h
  made n h := by rw [h.origin]
  desugar n h := by rwa [origin_desugar]

variable (u v w : Value)

@[simp] lemma unlocated_identifier (name : String) :
    (identifier name).unlocated = identifier name := by
  simp [identifier]

@[simp] lemma unlocated_nullLiteral : nullLiteral.unlocated = nullLiteral := by
  simp [nullLiteral]

@[simp] lemma unlocated_emptyStatement : emptyStatement.unlocated = emptyStatement := by
  simp [emptyStatement]

@[simp] lemma unlocated_member (name : String) :
    (member u name).unlocated = member u.unlocated name := by
  simp [member]

@[simp] lemma unlocated_call : (call u v).unlocated = call u.unlocated v.unlocated := by
  simp [call]

@[simp] lemma unlocated_arrow : (arrow u v).unlocated = arrow u.unlocated v.unlocated := by
  simp [arrow]

@[simp] lemma unlocated_conditional :
    (conditional u v w).unlocated = conditional u.unlocated v.unlocated w.unlocated := by
  simp [conditional]

@[simp] lemma unlocated_container : (container u).unlocated = container u.unlocated := by
  simp [container]

@[simp] lemma unlocated_fragment (children : List Value) :
    (fragment children).unlocated = fragment (children.map Value.unlocated) := by
  simp [fragment]

end Node

/-- A node is given in both runs. -/
lemma Forgets.node {n m : Node} (h : (Value.node n).Noteless) (hm : n.unlocated = m) :
    Unlocates (.ok (.node n)) (.ok (.node m)) := by
  rw [← hm, ← Value.unlocated_node]
  exact .ok h

/-! ### Parts of an expansion -/

namespace Expand

open Node (lasting_noteless)

variable {holder element : Value} {context context' : List Value}

lemma unlocates_wrap {e : Value} (he : e.Noteless) (holder : Value) :
    Unlocates (wrap e holder) (wrap e.unlocated holder.unlocated) := by
  have hcontainer : (Value.node (.container e)).Noteless :=
    lasting_noteless.throughout_container he
  have hfragment : (Value.node (.fragment [.node (.container e)])).Noteless :=
    lasting_noteless.throughout_fragment (by simpa using hcontainer)
  unfold wrap
  rw [Value.isMarkup_unlocated]
  refine (Forgets.refl holder.isMarkup).bind fun inside _ => ?_
  cases inside with
  | true => exact .node hcontainer (by simp)
  | false => exact .node hfragment (by simp)

lemma forgets_childExpression? {child : Value} (h : child.Noteless) :
    Forgets (fun e? => ∀ e ∈ e?, e.Noteless) (Option.map Value.unlocated) (childExpression? child)
      (childExpression? child.unlocated) := by
  have hplain : Forgets (fun e? => ∀ e ∈ e?, e.Noteless) (Option.map Value.unlocated)
      (do return if ← child.isMarkup then none else some child)
      (do return if ← child.unlocated.isMarkup then none else some child.unlocated) := by
    rw [Value.isMarkup_unlocated]
    refine (Forgets.refl child.isMarkup).bind fun inside _ => ?_
    cases inside with
    | true => exact .ok (by simp)
    | false => exact .ok (by simpa using h)
  unfold childExpression?
  rw [Value.isA_unlocated]
  split_ifs
  · refine (Value.unlocates_field h _).bind fun e he => ?_
    rw [Value.isMarkup_unlocated]
    refine (Forgets.refl e.isMarkup).bind fun inside _ => ?_
    cases inside with
    | true => exact hplain
    | false => exact .ok (by simpa using he)
  · exact hplain

/-- The body of an element is made of the items of its children. -/
lemma body_eq {children : Value} (h : ∀ member, children ≠ .record [member]) :
    body children = children.items >>= fun items => body (.list items) := by
  cases children with
  | record members =>
    rcases members with _ | ⟨member, _ | ⟨next, rest⟩⟩
    · rfl
    · exact absurd rfl (h member)
    · rfl
  | scalar | list | node => rfl

lemma body_single (child : Value) :
    body (.list [child]) = childExpression? child >>= fun e? =>
      .ok (e?.getD (.node (.fragment [child]))) := by
  change childExpression? child >>= _ = _
  refine bind_congr fun e? => ?_
  cases e? <;> rfl

lemma unlocates_body_list {items : List Value} (h : ∀ item ∈ items, item.Noteless) :
    Unlocates (body (.list items)) (body (.list (items.map Value.unlocated))) := by
  have hfragment : Unlocates (.ok (.node (.fragment items)))
      (.ok (.node (.fragment (items.map Value.unlocated)))) :=
    .node (lasting_noteless.throughout_fragment h) (by simp)
  rcases items with _ | ⟨child, _ | ⟨next, rest⟩⟩
  · exact hfragment
  · rw [List.map_singleton, body_single, body_single]
    refine (forgets_childExpression? (h child (by simp))).bind fun e? he => ?_
    cases e? with
    | some e => exact .ok (he e rfl)
    | none => exact hfragment
  · exact hfragment

lemma unlocates_body {children : Value} (h : children.Noteless) :
    Unlocates (body children) (body children.unlocated) := by
  by_cases hsingle : ∃ member, children = .record [member]
  · obtain ⟨member, rfl⟩ := hsingle
    rw [Value.unlocated_record]
    exact .fault _
  rw [not_exists] at hsingle
  have hsingle' (member : String × Json) : children.unlocated ≠ .record [member] := by
    cases children <;> simp_all
  rw [body_eq hsingle, body_eq hsingle']
  exact (Value.forgets_items h).bind fun items hitems => unlocates_body_list hitems

lemma unlocates_pattern {e : Value} (he : e.Noteless) (hcontext : ∀ v ∈ context, v.Noteless)
    (hcontext' : ∀ v ∈ context', v.Noteless) :
    Unlocates (pattern e context) (pattern e.unlocated context') := by
  unfold pattern
  rw [Value.isA_unlocated]
  split_ifs
  · exact .ok he
  · exact .quote he (Value.noteless_snoc hcontext he)
      (Value.noteless_snoc hcontext' he.unlocated) _ (by simp)

/-! ### Constructs -/

lemma unlocates_binder (held : String) {join : Value → Value → Node}
    (hjoin : ∀ u v : Value, u.Noteless → v.Noteless → (Value.node (join u v)).Noteless ∧
      (join u v).unlocated = join u.unlocated v.unlocated)
    (hholder : holder.Noteless) (helement : element.Noteless) :
    Unlocates (binder held join holder element)
      (binder held join holder.unlocated element.unlocated) := by
  refine (Value.unlocates_field helement _).bind fun opening hopening => ?_
  have hcontext := Value.noteless_context hholder helement hopening
  have hcontext' :=
    Value.noteless_context hholder.unlocated helement.unlocated hopening.unlocated
  refine (Attributes.forgets_ofOpening hopening).bind fun attributes hattributes => ?_
  refine (Attributes.unlocates_required hopening hattributes hcontext hcontext' _ _).bind
    fun bound hbound => ?_
  refine (Attributes.unlocates_required hopening hattributes hcontext hcontext' _ _).bind
    fun expression hexpression => ?_
  refine (Attributes.check_matches hopening hattributes hcontext hcontext' _).bind fun _ _ => ?_
  have hall : ∀ v ∈ [holder, element, opening] ++
      (Attributes.get? attributes (.text "var")).toList, v.Noteless := by
    intro v hv
    rcases List.mem_append.mp hv with hv | hv
    · exact hcontext v hv
    · exact hattributes.get? (by simpa using hv)
  have hall' : ∀ v ∈ [holder.unlocated, element.unlocated, opening.unlocated] ++
      (Attributes.get? (Attributes.unlocated attributes) (.text "var")).toList, v.Noteless := by
    intro v hv
    rcases List.mem_append.mp hv with hv | hv
    · exact hcontext' v hv
    · rw [Attributes.get?_unlocated] at hv
      obtain ⟨attr, hattr, rfl⟩ : ∃ attr, Attributes.get? attributes (.text "var") = some attr ∧
          attr.unlocated = v := by
        simpa using hv
      exact (hattributes.get? hattr).unlocated
  refine (unlocates_pattern hbound hall hall').bind fun param hparam => ?_
  refine (Value.unlocates_field helement _).bind fun children hchildren => ?_
  refine (unlocates_body hchildren).bind fun result hresult => ?_
  have harrow := lasting_noteless.throughout_arrow hparam hresult
  obtain ⟨hnew, hmap⟩ := hjoin _ _ harrow hexpression
  have hwrap := unlocates_wrap hnew holder
  rwa [Value.unlocated_node, hmap, Value.unlocated_node, Node.unlocated_arrow] at hwrap

lemma unlocates_branch (hholder : holder.Noteless) (helement : element.Noteless) {alternate : Value}
    (halternate : alternate.Noteless) :
    Unlocates (branch holder element alternate)
      (branch holder.unlocated element.unlocated alternate.unlocated) := by
  refine (Value.unlocates_field helement _).bind fun opening hopening => ?_
  have hcontext := Value.noteless_context hholder helement hopening
  have hcontext' :=
    Value.noteless_context hholder.unlocated helement.unlocated hopening.unlocated
  have hbody : Unlocates (do body (← element.field "children"))
      (do body (← element.unlocated.field "children")) :=
    (Value.unlocates_field helement _).bind fun children hchildren => unlocates_body hchildren
  refine (Attributes.forgets_ofOpening hopening).bind fun attributes hattributes => ?_
  refine (Attributes.check_matches hopening hattributes hcontext hcontext' _).bind fun _ _ => ?_
  refine (Value.unlocates_tagName helement).bind fun name _ => ?_
  rw [Value.key_unlocated]
  refine (Forgets.refl name.key).bind fun key _ => ?_
  have htested : Unlocates
      (do
        let test ← Attributes.required opening attributes (.text "test") "expression"
          [holder, element, opening]
        let consequent ← body (← element.field "children")
        return .node (.conditional test consequent alternate))
      (do
        let test ← Attributes.required opening.unlocated (Attributes.unlocated attributes)
          (.text "test") "expression" [holder.unlocated, element.unlocated, opening.unlocated]
        let consequent ← body (← element.unlocated.field "children")
        return .node (.conditional test consequent alternate.unlocated)) := by
    refine (Attributes.unlocates_required hopening hattributes hcontext hcontext' _ _).bind
      fun test htest => ?_
    refine (Value.unlocates_field helement _).bind fun children hchildren => ?_
    refine (unlocates_body hchildren).bind fun consequent hconsequent => ?_
    exact .node (lasting_noteless.throughout_conditional htest hconsequent halternate) (by simp)
  have hbad : Unlocates
      (do
        let text ← opening.source
        .error (.complain .unreachableConstruct ("Bad element " ++ text.shown ++ " in if-chain")
          [holder, element, opening]))
      (do
        let text ← opening.unlocated.source
        .error (.complain .unreachableConstruct ("Bad element " ++ text.shown ++ " in if-chain")
          [holder.unlocated, element.unlocated, opening.unlocated])) :=
    .quote hopening hcontext hcontext' _ (by simp)
  rw [id]
  cases Construct.ofName? key with
  | none => exact hbad
  | some c =>
    cases c with
    | whenTrue | otherwiseWhen => exact htested
    | loop | binding => exact hbad
    | otherwise =>
      dsimp only
      rw [Attributes.get?_unlocated]
      cases hget : Attributes.get? attributes (.text "test") with
      | none => exact hbody
      | some attr =>
        have hattr := hattributes.get? hget
        exact .quote hopening (Value.noteless_snoc hcontext hattr)
          (Value.noteless_snoc hcontext' hattr.unlocated) _ (by simp)

lemma unlocates_branches (hholder : holder.Noteless) {elements : List Value}
    (helements : ∀ element ∈ elements, element.Noteless) :
    Unlocates (branches holder elements)
      (branches holder.unlocated (elements.map Value.unlocated)) := by
  induction elements with
  | nil => exact .node lasting_noteless.throughout_nullLiteral (by simp)
  | cons element later ih =>
    rw [List.forall_mem_cons] at helements
    exact (ih helements.2).bind fun alternate halternate =>
      unlocates_branch hholder helements.1 halternate

lemma unlocates_chain (hholder : holder.Noteless) {elements : List Value}
    (helements : ∀ element ∈ elements, element.Noteless) :
    Unlocates (chain holder elements) (chain holder.unlocated (elements.map Value.unlocated)) :=
  (unlocates_branches hholder helements).bind fun _ he => unlocates_wrap he holder

lemma unlocates_orphan (hholder : holder.Noteless) (helement : element.Noteless) :
    Unlocates (orphan holder element) (orphan holder.unlocated element.unlocated) := by
  refine (Value.unlocates_field helement _).bind fun opening hopening => ?_
  have hcontext := Value.noteless_context hholder helement hopening
  have hcontext' :=
    Value.noteless_context hholder.unlocated helement.unlocated hopening.unlocated
  exact .quote hopening hcontext hcontext' _ (by simp)

end Expand

namespace Construct

open Expand

open Node (lasting_noteless)

variable {holder element : Value} {later : List Value}

/-- An element is expanded in the same way with and without locations. -/
lemma unlocates_expand (c : Construct) (hholder : holder.Noteless) (helement : element.Noteless)
    (hlater : ∀ branch ∈ later, branch.Noteless) :
    Unlocates (c.expand holder element later)
      (c.expand holder.unlocated element.unlocated (later.map Value.unlocated)) := by
  cases c with
  | loop =>
    have hjoin (function items : Value) (hfunction : function.Noteless) (hitems : items.Noteless) :
        (Value.node (.call (.node (.member items "map")) function)).Noteless ∧
          (Node.call (.node (.member items "map")) function).unlocated =
            .call (.node (.member items.unlocated "map")) function.unlocated :=
      ⟨lasting_noteless.throughout_call (lasting_noteless.throughout_member hitems "map") hfunction,
        by simp⟩
    simp only [expand]
    exact unlocates_binder "of" hjoin hholder helement
  | binding =>
    have hjoin (function value : Value) (hfunction : function.Noteless) (hvalue : value.Noteless) :
        (Value.node (.call function value)).Noteless ∧
          (Node.call function value).unlocated = .call function.unlocated value.unlocated :=
      ⟨lasting_noteless.throughout_call hfunction hvalue, by simp⟩
    simp only [expand, Expand.binding]
    exact unlocates_binder "value" hjoin hholder helement
  | whenTrue => exact unlocates_chain hholder (List.forall_mem_cons.mpr ⟨helement, hlater⟩)
  | otherwiseWhen | otherwise => exact unlocates_orphan hholder helement

lemma forgets_opening {e : Value} (he : e.Noteless) :
    Forgets (fun _ => True) Value.unlocated (do (← e.field "opening_element").source)
      (do (← e.unlocated.field "opening_element").source) :=
  (Value.unlocates_field he _).bind fun _ hopening => Value.forgets_source hopening

lemma forgets_openings {elements : List Value} (h : ∀ e ∈ elements, e.Noteless) :
    Forgets (fun _ => True) (List.map Value.unlocated)
      (elements.mapM fun e => do (← e.field "opening_element").source)
      ((elements.map Value.unlocated).mapM fun e => do (← e.field "opening_element").source) := by
  induction elements with
  | nil => exact .ok trivial
  | cons e rest ih =>
    rw [List.forall_mem_cons] at h
    rw [List.map_cons, List.mapM_cons, List.mapM_cons]
    exact (forgets_opening h.1).bind fun _ _ => (ih h.2).bind fun _ _ => .ok trivial

/-- What is said of an element before it is expanded does not tell where it was read. -/
lemma announcement_matches (c : Construct) (helement : element.Noteless)
    (hlater : ∀ branch ∈ later, branch.Noteless) :
    Matches (c.announcement element later)
      (c.announcement element.unlocated (later.map Value.unlocated)) := by
  cases c with
  | loop | binding =>
    refine (Value.unlocates_field helement _).bind fun opening hopening => ?_
    refine (Value.forgets_source hopening).bind fun text _ => ?_
    rw [Value.shown_unlocated]
    exact .refl _
  | whenTrue =>
    have hall := List.forall_mem_cons.mpr ⟨helement, hlater⟩
    refine (forgets_openings hall).bind fun openings _ => ?_
    rw [Source.joined_unlocated]
    exact .refl _
  | otherwiseWhen | otherwise => exact .refl _

end Construct

end JsxControl
