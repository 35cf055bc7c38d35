import JsxControl.Proofs.Desugar.Basic

/-!
# Expansions are desugared constructs

The expansion of a construct checks what it reads. Where none of the checks fails, it is what
desugaring makes of the construct.
-/

namespace JsxControl

/-! ### Attributes -/

lemma Desugar.isNamed_iff {name : String} {attr : Value} :
    isNamed name attr = true ↔ attr.attributeName = .ok (.text name) := by
  rw [isNamed]
  split
  · next s hs => simp [hs]
  · next hother => simpa using hother name

lemma Desugar.mem_of_attribute? {element attr : Value} {name : String}
    (h : attribute? element name = some attr) : attr ∈ attributes element ∧ isNamed name attr :=
  ⟨by simpa using List.mem_of_find?_eq_some h, List.find?_some h⟩

/-- The last attribute of a name gives an expression. -/
def Desugar.Gives (element : Value) (name : String) (expression : Value) : Prop :=
  ∃ attr, attribute? element name = some attr ∧
    Attributes.expression? attr = .ok (some expression)

namespace Attributes

lemma get?_put (k : Scalar) (attr : Value) (stored : List (Scalar × Value)) (name : String) :
    get? (put k attr stored) (.text name) =
      if k.same (.text name) then some attr else get? stored (.text name) := by
  induction stored with
  | nil => by_cases h : k.same (.text name) <;> simp [put, get?, h]
  | cons entry rest ih =>
    obtain ⟨first, v⟩ := entry
    by_cases hk : first.same k
    · have hsame : first.same (.text name) = k.same (.text name) := by
        have hplain : first.plain = k.plain := by simpa [Scalar.same] using hk
        rw [Bool.eq_iff_iff]
        simp only [Scalar.same, decide_eq_true_eq, hplain]
      by_cases h : k.same (.text name) <;> simp [put, get?, hk, hsame, h]
    · by_cases hf : first.same (.text name)
      · have hne : k.same (.text name) = false := by
          simp only [Scalar.same, decide_eq_true_eq, decide_eq_false_iff_not] at hk hf ⊢
          exact fun h => hk (hf.trans h.symm)
        simp [put, get?, hk, hf, hne]
      · simp only [get?] at ih
        simp [put, get?, hk, hf, ih]

lemma same_text_iff {k : Scalar} {name : String} :
    k.same (.text name) = true ↔ k = .text name := by
  cases k with
  | float x =>
    have hplain : (Scalar.float x).plain ≠ .text name := by
      simp only [Scalar.plain]
      split <;> simp
    simp [Scalar.same, hplain]
  | null | bool | int | text => simp [Scalar.same, Scalar.plain]

lemma isNamed_of_key {attr : Value} {k : Scalar} (h : attr.attributeName = .ok (.scalar k))
    (name : String) : Desugar.isNamed name attr = k.same (.text name) := by
  rw [Bool.eq_iff_iff, same_text_iff]
  cases k <;> simp [Desugar.isNamed, h]

/-- Among the attributes by their names, a name has the last attribute that bears it. -/
lemma get?_ofValues {stored found : List (Scalar × Value)} {list : List Value}
    (h : ofValues stored list = .ok found) (name : String) :
    get? found (.text name) =
      (list.reverse.find? (Desugar.isNamed name)).or (get? stored (.text name)) := by
  induction list generalizing stored with
  | nil =>
    obtain rfl : stored = found := by simpa [ofValues] using h
    simp
  | cons attr rest ih =>
    obtain ⟨named, hnamed, k, hk, h⟩ : ∃ named, attr.attributeName = .ok named ∧ ∃ k,
        named.key = .ok k ∧ ofValues (put k attr stored) rest = .ok found := by
      simpa [ofValues] using h
    obtain rfl := Value.key_eq_ok_iff.mp hk
    rw [ih h, get?_put, List.reverse_cons, List.find?_append, Option.or_assoc]
    congr 1
    by_cases hn : k.same (.text name) <;> simp [isNamed_of_key hnamed, hn]

lemma get?_ofOpening {element opening : Value} {found : List (Scalar × Value)}
    (hopening : element.field "opening_element" = .ok opening)
    (h : ofOpening opening = .ok found) (name : String) :
    get? found (.text name) = Desugar.attribute? element name := by
  obtain ⟨v, hv, list, hlist, h⟩ : ∃ v, opening.field "attributes" = .ok v ∧ ∃ list,
      v.items = .ok list ∧ ofValues [] list = .ok found := by
    simpa [ofOpening] using h
  rw [get?_ofValues h, Desugar.attribute?, Desugar.attributes, Value.content_of_field hopening,
    Value.content_of_field hv, Value.parts_of_items hlist]
  simp [get?]

lemma expression?_eq_ok {attr e : Value} (h : expression? attr = .ok (some e)) :
    ∃ v, attr.field "value" = .ok v ∧ v.isA .jsxExpressionContainer ∧
      v.field "expression" = .ok e ∧ e.isA .jsxEmptyExpression = false := by
  obtain ⟨v, hv, h⟩ : ∃ v, attr.field "value" = .ok v ∧ _ := by
    simpa only [expression?, bind_eq_ok_iff] using h
  split_ifs at h with hc
  · obtain ⟨e', he', h⟩ := bind_eq_ok_iff.mp h
    cases hempty : e'.isA .jsxEmptyExpression with
    | true => simp [hempty] at h
    | false =>
      obtain rfl : e' = e := by simpa [hempty] using h
      exact ⟨v, hv, hc, he', hempty⟩
  · simp at h

/-- What a required attribute holds is read from the attribute of the name. -/
lemma required_eq_ok {opening : Value} {found : List (Scalar × Value)} {name : Scalar}
    {placeholder : String} {context : List Value} {e : Value}
    (h : required opening found name placeholder context = .ok e) :
    ∃ attr, get? found name = some attr ∧ expression? attr = .ok (some e) := by
  rw [required] at h
  split at h
  · simp at h
  · simp at h
  · next attr hne hattr =>
    obtain ⟨e?, he?, h⟩ := bind_eq_ok_iff.mp h
    cases e? with
    | none => simp at h
    | some e' =>
      obtain rfl : e' = e := by simpa using h
      exact ⟨attr, hattr, he?⟩

/-- A required attribute gives its expression. -/
lemma gives_of_required {element opening : Value} {found : List (Scalar × Value)}
    (hopening : element.field "opening_element" = .ok opening)
    (hfound : ofOpening opening = .ok found) {name placeholder : String} {context : List Value}
    {e : Value} (h : required opening found (.text name) placeholder context = .ok e) :
    Desugar.Gives element name e := by
  obtain ⟨attr, hattr, he⟩ := required_eq_ok h
  rw [get?_ofOpening hopening hfound] at hattr
  exact ⟨attr, hattr, he⟩

end Attributes

lemma Desugar.Gives.eq_expression {element e : Value} {name : String} (h : Gives element name e) :
    expression element name = e := by
  obtain ⟨attr, hattr, he⟩ := h
  obtain ⟨v, hv, -, hve, -⟩ := Attributes.expression?_eq_ok he
  simp [expression, hattr, Value.content_of_field hv, Value.content_of_field hve]

/-! ### Bodies and branches -/

namespace Expand

/-- As an expression a child is what it has in braces, if that is no markup, and else the child
itself, if that is none. -/
lemma exists_of_childExpression?_eq_ok {child : Value} {e? : Option Value}
    (h : childExpression? child = .ok e?) :
    (∃ e, child.isA .jsxExpressionContainer ∧ child.field "expression" = .ok e ∧
      e.isMarkup = .ok false ∧ e? = some e) ∨
    ((child.isA .jsxExpressionContainer →
        ∃ e, child.field "expression" = .ok e ∧ e.isMarkup = .ok true) ∧
      ∃ b, child.isMarkup = .ok b ∧ e? = if b then none else some child) := by
  have hplain (h : (do return if ← child.isMarkup then none else some child)
      = Except.ok (ε := Fault) e?) :
      ∃ b, child.isMarkup = .ok b ∧ e? = if b then none else some child := by
    obtain ⟨b, hb, h⟩ := bind_eq_ok_iff.mp h
    exact ⟨b, hb, (Except.ok.inj h).symm⟩
  rw [childExpression?] at h
  cases hc : child.isA .jsxExpressionContainer with
  | false =>
    rw [hc] at h
    exact .inr ⟨by simp, hplain (by simpa using h)⟩
  | true =>
    obtain ⟨e, he, b, hb, h⟩ : ∃ e, child.field "expression" = .ok e ∧ ∃ b,
        e.isMarkup = .ok b ∧ _ := by
      simpa only [hc, if_true, bind_eq_ok_iff] using h
    cases b with
    | true => exact .inr ⟨fun _ => ⟨e, he, hb⟩, hplain (by simpa using h)⟩
    | false => exact .inl ⟨e, rfl, he, hb, by simpa using h.symm⟩

lemma childExpression?_eq_ok {child : Value} {e? : Option Value}
    (h : childExpression? child = .ok e?) :
    Desugar.body [child] = e?.getD (.node (.fragment [child])) := by
  rw [Desugar.body]
  rcases exists_of_childExpression?_eq_ok h with ⟨e, hc, he, hb, rfl⟩ | ⟨hmarkup, b, hb, rfl⟩
  · simp [hc, Value.content_of_field he, Value.isJsx_of_isMarkup hb]
  · have hbraces :
        (child.isA .jsxExpressionContainer && !(child.content "expression").isJsx) = false := by
      cases hc : child.isA .jsxExpressionContainer with
      | false => rfl
      | true =>
        obtain ⟨e, he, hb⟩ := hmarkup hc
        simp [Value.content_of_field he, Value.isJsx_of_isMarkup hb]
    rw [hbraces, Value.isJsx_of_isMarkup hb]
    cases b <;> rfl

/-- A body is what an only child is as an expression, and otherwise the fragment of all children. -/
lemma exists_of_body_eq_ok {v result : Value} (h : body v = .ok result) :
    ∃ items, v.items = .ok items ∧
      ((∀ child, items = [child] → childExpression? child = .ok none) ∧
          result = .node (.fragment items) ∨
        ∃ child, items = [child] ∧ childExpression? child = .ok (some result)) := by
  unfold body at h
  split at h
  · simp at h
  · obtain ⟨items, hitems, h⟩ := bind_eq_ok_iff.mp h
    refine ⟨items, hitems, ?_⟩
    split at h
    · next child =>
      obtain ⟨e?, he?, h⟩ := bind_eq_ok_iff.mp h
      cases e? with
      | none => exact .inl ⟨by simpa using he?, by simpa using h.symm⟩
      | some e =>
        obtain rfl : e = result := by simpa using h
        exact .inr ⟨child, rfl, he?⟩
    · next hlong =>
      refine .inl ⟨fun child hsingle => absurd hsingle (hlong child), ?_⟩
      simpa using h.symm

lemma body_eq_ok {v result : Value} (h : body v = .ok result) :
    result = Desugar.body v.parts := by
  obtain ⟨items, hitems, ⟨hnone, rfl⟩ | ⟨child, rfl, hchild⟩⟩ := exists_of_body_eq_ok h
  · rw [Value.parts_of_items hitems]
    match items, hnone with
    | [], _ => rfl
    | [child], hnone => exact (childExpression?_eq_ok (hnone child rfl)).symm
    | _ :: _ :: _, _ => rfl
  · rw [Value.parts_of_items hitems]
    exact (childExpression?_eq_ok hchild).symm

lemma pattern_eq_ok {e result : Value} {context : List Value} (h : pattern e context = .ok result) :
    result = e ∧ e.isA .identifier := by
  rw [pattern] at h
  split_ifs at h with hid
  · exact ⟨by simpa using h.symm, hid⟩
  · simp at h

lemma wrap_eq_ok {e holder result : Value} (h : wrap e holder = .ok result) :
    result = Desugar.wrap holder.isJsx e := by
  obtain ⟨b, hb, h⟩ := bind_eq_ok_iff.mp h
  rw [Value.isJsx_of_isMarkup hb]
  cases b <;> simpa [Desugar.wrap] using h.symm

/-- The body of an element. -/
def bodyOf (element : Value) : Except Fault Value := do body (← element.field "children")

lemma bodyOf_eq_ok {element result : Value} (h : bodyOf element = .ok result) :
    result = Desugar.body (Desugar.children element) := by
  obtain ⟨v, hv, h⟩ := bind_eq_ok_iff.mp h
  rw [Desugar.children, Value.content_of_field hv, body_eq_ok h]

/-- An element that binds a variable has the variable and the expression that it needs, and is the
join of its function and that expression. -/
lemma exists_of_binder_eq_ok {held : String} {join : Value → Value → Node}
    {holder element v : Value} (h : binder held join holder element = .ok v) :
    ∃ param e result, Desugar.Gives element "var" param ∧ Desugar.Gives element held e ∧
      bodyOf element = .ok result ∧
      v = Desugar.wrap holder.isJsx (.node (join (.node (.arrow param result)) e)) := by
  rw [binder] at h
  simp only [bind_eq_ok_iff] at h
  obtain ⟨opening, hopening, found, hfound, bound, hbound, e, he, -, -, param, hparam, children,
    hchildren, result, hresult, h⟩ := h
  obtain ⟨rfl, -⟩ := pattern_eq_ok hparam
  refine ⟨param, e, result, ?_, ?_, ?_, wrap_eq_ok h⟩
  · exact Attributes.gives_of_required hopening hfound hbound
  · exact Attributes.gives_of_required hopening hfound he
  · simp [bodyOf, hchildren, hresult]

/-- A terminal branch is its body. Any other chooses between its body and what the later branches
make. -/
lemma exists_of_branch_eq_ok {holder element alternate v : Value}
    (h : branch holder element alternate = .ok v) :
    ∃ result, bodyOf element = .ok result ∧
      (element.construct? = some .otherwise ∧ v = result ∨
        element.construct? ≠ some .otherwise ∧ ∃ test, Desugar.Gives element "test" test ∧
          v = .node (.conditional test result alternate)) := by
  rw [branch] at h
  simp only [bind_eq_ok_iff] at h
  obtain ⟨opening, hopening, found, hfound, -, -, name, hname, k, hk, h⟩ := h
  have hconstruct : element.construct? = Construct.ofName? k := by
    apply Value.construct?_of_ofValue?
    simp [Construct.ofValue?, hname, hk]
  rw [hconstruct]
  split at h
  case h_3 hc =>
    split at h
    · simp at h
    · exact ⟨v, h, .inl ⟨hc, rfl⟩⟩
  case h_4 => simp at h
  all_goals
    next hc =>
    obtain ⟨test, htest, children, hchildren, result, hresult, h⟩ : ∃ test, _ = Except.ok test ∧
        ∃ children, element.field "children" = .ok children ∧ ∃ result,
          body children = .ok result ∧ _ := by
      simpa only [bind_eq_ok_iff] using h
    obtain rfl : Value.node (.conditional test result alternate) = v := by simpa using h
    refine ⟨result, by simp [bodyOf, hchildren, hresult], .inr ⟨by simp [hc], test, ?_, rfl⟩⟩
    exact Attributes.gives_of_required hopening hfound htest

lemma branches_eq_ok {holder result : Value} {elements : List Value}
    (h : branches holder elements = .ok result) : result = Desugar.chain elements := by
  induction elements generalizing result with
  | nil => simpa [branches, Desugar.chain] using h.symm
  | cons element later ih =>
    obtain ⟨alternate, halternate, h⟩ := bind_eq_ok_iff.mp (by simpa only [branches] using h)
    obtain ⟨body, hbody, ⟨hc, rfl⟩ | ⟨hc, test, htest, rfl⟩⟩ := exists_of_branch_eq_ok h
    · rw [Desugar.chain, if_pos hc, bodyOf_eq_ok hbody]
    · rw [Desugar.chain, if_neg hc, htest.eq_expression, bodyOf_eq_ok hbody, ih halternate]

end Expand

/-! ### Constructs -/

lemma Construct.expand_eq_ok {c : Construct} {holder element result : Value} {later : List Value}
    (hc : element.construct? = some c) (h : c.expand holder element later = .ok result) :
    result = Desugar.single holder.isJsx element later := by
  rw [Desugar.single, Desugar.expansion?, hc]
  cases c with
  | loop =>
    rw [expand, Expand.loop] at h
    obtain ⟨param, e, body, hparam, he, hbody, rfl⟩ := Expand.exists_of_binder_eq_ok h
    rw [Expand.bodyOf_eq_ok hbody, Desugar.function, hparam.eq_expression, he.eq_expression]
  | binding =>
    rw [expand, Expand.binding] at h
    obtain ⟨param, e, body, hparam, he, hbody, rfl⟩ := Expand.exists_of_binder_eq_ok h
    rw [Expand.bodyOf_eq_ok hbody, Desugar.function, hparam.eq_expression, he.eq_expression]
  | whenTrue =>
    obtain ⟨e, he, h⟩ := bind_eq_ok_iff.mp h
    rw [Expand.wrap_eq_ok h, Expand.branches_eq_ok he]
  | otherwiseWhen | otherwise =>
    obtain ⟨opening, -, text, -, h⟩ : ∃ opening, element.field "opening_element" = .ok opening ∧
        ∃ text, opening.source = .ok text ∧ Except.error _ = Except.ok result := by
      simpa only [expand, Expand.orphan, bind_eq_ok_iff] using h
    simp at h

end JsxControl
