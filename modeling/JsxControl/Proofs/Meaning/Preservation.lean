import JsxControl.Proofs.Meaning.Markup
import JsxControl.Proofs.Meaning.Semantics

/-!
# Desugaring keeps the meaning

What markup is desugared to renders to what the markup means. The argument is an induction on the
children of markup, for all environments at once, since a construct renders its children in another
one. It rests on the nodes of a list: a run behind a `$if` means nothing by itself, and all that it
stands for is in the conditional expression in front of it.
-/

namespace JsxControl

namespace Semantics

variable {V O : Type} [Monoid O] (S : Semantics V O) (env : String → V)

/-! ### Expressions -/

lemma value_nullLiteral : S.value env (.node .nullLiteral) = S.null := rfl

lemma value_conditional (test consequent alternate : Value) :
    S.value env (.node (.conditional test consequent alternate)) =
      if S.isTrue (S.value env test) then S.value env consequent else S.value env alternate := by
  rw [value, denote, Node.conditional, denoteNode]
  rfl

lemma value_map (list param body : Value) :
    S.value env (.node (.call (.node (.member list "map")) (.node (.arrow param body)))) =
      S.list ((S.items (S.value env list)).map fun v =>
        S.value (Function.update env param.identifierName v) body) := by
  have hname : (Value.node (.identifier "map")).identifierName = "map" := rfl
  rw [value, denote, Node.call, denoteNode, denote, denote, Node.member, Node.arrow, denoteNode,
    denoteNode, if_pos ⟨hname, rfl⟩]
  rfl

lemma value_apply (param body argument : Value) :
    S.value env (.node (.call (.node (.arrow param body)) argument)) =
      S.value (Function.update env param.identifierName (S.value env argument)) body := by
  rw [value, denote, Node.call, denoteNode, denote, Node.arrow, denoteNode]
  rfl

/-! ### Markup -/

variable {n : Node}

lemma render_text (hkind : n.kind = .jsxText) : S.render (S.value env (.node n)) = S.text n := by
  obtain ⟨kind, fields, origin⟩ := n
  obtain rfl : kind = .jsxText := hkind
  rw [value, denote, denoteNode, valueOf, render_markup]

lemma render_container (hkind : n.kind = .jsxExpressionContainer) {name : String}
    {expression : Value} (hfields : n.fields = [(name, expression)]) :
    S.render (S.value env (.node n)) = S.render (S.value env expression) := by
  obtain ⟨kind, fields, origin⟩ := n
  obtain rfl : kind = .jsxExpressionContainer := hkind
  obtain rfl : fields = [(name, expression)] := hfields
  rw [value, denote, denoteNode, valueOf, render_markup, value]

lemma render_fragment (hkind : n.kind = .jsxFragment) {first last : String × Value} {name : String}
    {items : List Value} (hfields : n.fields = [first, (name, .list items), last]) :
    S.render (S.value env (.node n)) = S.renderAll env items := by
  obtain ⟨kind, fields, origin⟩ := n
  obtain rfl : kind = .jsxFragment := hkind
  obtain rfl : fields = [first, (name, .list items), last] := hfields
  rw [value, denote, denoteNode, valueOf, render_markup]

lemma render_element (hkind : n.kind = .jsxElement) {first last : String × Value} {name : String}
    {items : List Value} (hfields : n.fields = [first, (name, .list items), last]) :
    S.render (S.value env (.node n)) = S.element first.2 last.2 env (S.renderAll env items) := by
  obtain ⟨kind, fields, origin⟩ := n
  obtain rfl : kind = .jsxElement := hkind
  obtain rfl : fields = [first, (name, .list items), last] := hfields
  rw [value, denote, denoteNode, valueOf, render_markup]

/-- Markup that is no construct renders to what it means by what its children render to. -/
lemma render_markup_node {m : Node} {P : Node → Prop} (h : m.IsMarkup P) (hkind : n.kind = m.kind)
    (hn : n.Grammatical) : S.render (S.value env (.node n)) =
      S.ordinary env (S.renderAll env (Desugar.children (.node n))) (.node n) := by
  cases h with
  | text htext =>
    rw [htext] at hkind
    simp [ordinary, hkind, render_text]
  | container hcontainer =>
    rw [hcontainer] at hkind
    simpa [ordinary, hkind] using S.render_container env hkind (hn.fields_of_container hkind)
  | fragment hfragment =>
    rw [hfragment] at hkind
    obtain ⟨first, last, hfields, -⟩ := hn.fields_of_parent (.inl hkind)
    simpa [ordinary, hkind] using S.render_fragment env hkind hfields
  | element helement =>
    rw [helement] at hkind
    obtain ⟨first, last, hfields, hnames⟩ := hn.fields_of_parent (.inr hkind)
    obtain ⟨rfl, rfl⟩ := hnames hkind
    simpa [ordinary, hkind] using S.render_element env hkind hfields

/-- An expression renders to the same in braces, and in a fragment of that. -/
lemma render_wrap (b : Bool) (expression : Value) :
    S.render (S.value env (Desugar.wrap b expression)) = S.render (S.value env expression) := by
  cases b with
  | true => exact S.render_container env rfl rfl
  | false =>
    have hfragment := S.render_fragment env (n := .fragment [.node (.container expression)]) rfl rfl
    rw [Desugar.wrap, if_neg (by decide), hfragment, renderAll, renderAll, mul_one]
    exact S.render_container env rfl rfl

/-- The body of an element renders to what its children render to. -/
lemma render_body {children : List Value}
    (h : ∀ child ∈ children, child.isJsx = true ∧ ∃ m : Node, child = .node m ∧ m.Grammatical) :
    S.render (S.value env (Desugar.body children)) = S.renderAll env children := by
  have hfragment (items : List Value) :
      S.render (S.value env (.node (.fragment items))) = S.renderAll env items :=
    S.render_fragment env rfl rfl
  unfold Desugar.body
  split
  · next child =>
    obtain ⟨hjsx, m, rfl, hm⟩ := h child (by simp)
    split_ifs with hcontainer
    · have hkind : m.kind = .jsxExpressionContainer := by simp_all
      rw [renderAll, renderAll, mul_one]
      exact (S.render_container env hkind (hm.fields_of_container hkind)).symm
    · exact hfragment _
  · exact hfragment _

lemma innerNode_of_fields {first last : String × Value} {name : String} {items : List Value}
    (hfields : n.fields = [first, (name, .list items), last]) :
    S.innerNode env n = S.meanings env items := by
  obtain ⟨kind, fields, origin⟩ := n
  obtain rfl : fields = [first, (name, .list items), last] := hfields
  rw [innerNode]

lemma innerNode_of_length (hlength : n.fields.length < 3) : S.innerNode env n = 1 := by
  obtain ⟨kind, fields, origin⟩ := n
  rw [innerNode]
  rintro first name items last rfl
  simp at hlength

/-- What the children of a node mean is what they mean one after the other. -/
lemma inner_eq {P : Node → Prop} (h : n.IsMarkup P) (hn : n.Grammatical) :
    S.inner env (.node n) = S.meanings env (Desugar.children (.node n)) := by
  have hparent (hkind : n.kind = .jsxFragment ∨ n.kind = .jsxElement) :
      S.inner env (.node n) = S.meanings env (Desugar.children (.node n)) := by
    obtain ⟨first, last, hfields, -⟩ := hn.fields_of_parent hkind
    rw [inner, S.innerNode_of_fields env hfields]
  have hleaf (hlength : n.fields.length < 3) (hnames : "children" ∉ n.kind.fieldNames) :
      S.inner env (.node n) = S.meanings env (Desugar.children (.node n)) := by
    rw [inner, S.innerNode_of_length env hlength, Node.children_eq_nil hn hnames, meanings]
  have hlength := congrArg List.length (hn.fields_eq h.isOther)
  cases h with
  | text hkind =>
    rw [List.length_map, hkind] at hlength
    exact hleaf (hlength.trans_lt (by decide)) (by rw [hkind]; decide)
  | container hkind =>
    rw [List.length_map, hkind] at hlength
    exact hleaf (hlength.trans_lt (by decide)) (by rw [hkind]; decide)
  | fragment hkind => exact hparent (.inl hkind)
  | element hkind => exact hparent (.inr hkind)

/-! ### Constructs -/

/-- A node is markup whose children, desugared, render to what they mean. -/
structure Faithful (n : Node) : Prop where
  markup : n.IsMarkup Node.Stays
  grammatical : n.Everywhere Node.Grammatical
  children (env : String → V) :
    S.renderAll env (Desugar.children (.node n.desugar)) = S.inner env (.node n)

namespace Faithful

variable {S}

lemma desugared (h : S.Faithful n) : n.desugar.Everywhere Node.Grammatical :=
  n.grammatical_desugar h.grammatical (h.markup.accepted h.grammatical).1.sound

lemma construct? (h : S.Faithful n) :
    (Value.node n.desugar).construct? = (Value.node n).construct? :=
  Node.construct?_desugar h.grammatical.orderly

lemma expression (h : S.Faithful n) :
    Desugar.expression (.node n.desugar) = Desugar.expression (.node n) :=
  Desugar.expression_congr (h.markup.content_desugar h.grammatical (by decide))

lemma given (h : S.Faithful n) (name : String) :
    S.value env (Desugar.expression (.node n.desugar) name) = S.given env (.node n) name := by
  rw [h.expression, Semantics.given]

/-- The body of a desugared element renders to what its children mean. -/
lemma body (h : S.Faithful n) :
    S.render (S.value env (Desugar.body (Desugar.children (.node n.desugar)))) =
      S.inner env (.node n) := by
  rw [S.render_body env fun child hchild => ?_, h.children]
  obtain ⟨m, hm, hgrammar⟩ := (Node.children_of_grammatical h.desugared).2 child hchild
  exact ⟨h.markup.isJsx_of_mem_children h.grammatical hchild, m, hm, hgrammar.here⟩

/-- Desugared branches of a chain render to what they mean where the tests in front fail. -/
lemma chain {rest : List Value} (hrest : ∀ item ∈ rest, ∃ m : Node, item = .node m ∧ S.Faithful m) :
    S.render (S.value env
        (Desugar.chain ((rest.take (Desugar.run rest)).map Value.desugarItem))) =
      S.alternative env rest := by
  have hend : S.render (S.value env (Desugar.chain [])) = 1 := by
    rw [Desugar.chain, value_nullLiteral, S.render_null]
  induction rest with
  | nil => rwa [alternative, List.take_nil, List.map_nil]
  | cons item rest ih =>
    obtain ⟨m, rfl, hm⟩ := hrest item (by simp)
    have ih := ih fun item hitem => hrest item (by simp [hitem])
    rw [alternative, branch, Desugar.run]
    cases hc : (Value.node m).construct? with
    | none => rwa [List.take_zero, List.map_nil]
    | some c =>
      cases c with
      | otherwiseWhen =>
        rw [List.take_succ_cons, List.map_cons, Value.desugarItem, Desugar.chain,
          if_neg (by rw [hm.construct?, hc]; simp), value_conditional, hm.given, apply_ite S.render,
          hm.body, ih]
      | otherwise =>
        rw [List.take_succ_cons, List.map_cons, Value.desugarItem, Desugar.chain,
          if_pos (by rw [hm.construct?, hc]), hm.body]
      | loop | whenTrue | binding => rwa [List.take_zero, List.map_nil]

/-- Markup that is no construct means what it is by what its children mean, desugared or not. -/
lemma ordinary (h : S.Faithful n) (inner : O) :
    S.ordinary env inner (.node n.desugar) = S.ordinary env inner (.node n) := by
  have hcontent {name : String} (hname : name ≠ "children") :=
    h.markup.content_desugar h.grammatical hname
  cases h.markup with
  | text hkind => rw [Node.IsMarkup.desugar_text hkind h.grammatical]
  | container hkind | fragment hkind | element hkind =>
    simp [Semantics.ordinary, hkind, hcontent]

/-- What takes the place of an item, together with the branches that continue it, renders to what
they mean. -/
lemma single (h : S.Faithful n) (hplaced : ¬ (Value.node n).Continues) (b : Bool)
    {rest : List Value} (hrest : ∀ item ∈ rest, ∃ m : Node, item = .node m ∧ S.Faithful m) :
    S.render (S.value env (Desugar.single b (.node n.desugar)
        ((rest.take (Desugar.taken (.node n) rest)).map Value.desugarItem))) =
      S.item env (fun env => S.inner env (.node n)) (S.alternative env rest) (.node n) := by
  rw [Desugar.single, Desugar.expansion?, h.construct?, item]
  cases hc : (Value.node n).construct? with
  | none =>
    have hguard : (Value.node n.desugar).isGuardStatement = false := by
      rw [Node.isGuardStatement_desugar h.grammatical.orderly,
        h.markup.not_guardStatement]
    simp only [hguard, Bool.false_eq_true, if_false]
    rw [S.render_markup_node env h.markup n.kind_desugar h.desugared.here, h.children, h.ordinary]
  | some c =>
    cases c with
    | loop =>
      simp only [render_wrap, value_map, h.given, Desugar.function, S.render_list, List.map_map]
      congr 2
      funext v
      rw [Function.comp_apply, h.body, h.expression, bound]
    | binding =>
      simp only [render_wrap, Desugar.function, value_apply, h.given]
      rw [h.body, h.expression, bound]
    | whenTrue =>
      have htaken : Desugar.taken (.node n) rest = Desugar.run rest := by
        rw [Desugar.taken, if_pos hc]
      simp only [render_wrap, htaken]
      rw [Desugar.chain, if_neg (by rw [h.construct?, hc]; simp), value_conditional, h.given,
        apply_ite S.render, h.body, chain env hrest]
    | otherwiseWhen => exact absurd (.inl hc) hplaced
    | otherwise => exact absurd (.inr hc) hplaced

end Faithful

/-! ### Lists and trees -/

/-- The run behind a `$if` means nothing by itself. -/
lemma meanings_drop_run (rest : List Value) :
    S.meanings env (rest.drop (Desugar.run rest)) = S.meanings env rest := by
  induction rest with
  | nil => rw [List.drop_nil]
  | cons v rest ih =>
    rw [Desugar.run]
    cases hc : v.construct? with
    | none => rw [List.drop_zero]
    | some c =>
      cases c with
      | otherwiseWhen => rw [List.drop_succ_cons, ih, meanings, item, hc, one_mul]
      | otherwise => rw [List.drop_succ_cons, List.drop_zero, meanings, item, hc, one_mul]
      | loop | whenTrue | binding => rw [List.drop_zero]

/-- What takes the place of the items of a list renders to what they mean. -/
lemma renderAll_items {list : List Value}
    (hlist : ∀ item ∈ list, ∃ m : Node, item = .node m ∧ S.Faithful m)
    (hplaced : Chained false list) (b : Bool) :
    S.renderAll env (Desugar.items b (list.map Value.desugarItem)) = S.meanings env list := by
  match list with
  | [] => rw [List.map_nil, Desugar.items, renderAll, meanings]
  | v :: rest =>
    obtain ⟨m, rfl, hm⟩ := hlist v (by simp)
    have hrest (item : Value) (hitem : item ∈ rest) : ∃ m : Node, item = .node m ∧ S.Faithful m :=
      hlist item (by simp [hitem])
    have hgrammatical (m : Node) (hm : .node m ∈ rest) : m.Everywhere Node.Grammatical := by
      obtain ⟨_, hnode, h⟩ := hrest _ hm
      exact Value.node.inj hnode ▸ h.grammatical
    obtain ⟨hcontinues, hdrop⟩ := chained_cons_iff.mp hplaced
    have htail := renderAll_items
      (fun item hitem => hrest item (List.mem_of_mem_drop hitem)) hdrop b
    have hmeanings : S.meanings env (rest.drop (Desugar.taken (.node m) rest)) =
        S.meanings env rest := by
      rw [Desugar.taken]
      split_ifs
      · exact S.meanings_drop_run env rest
      · rw [List.drop_zero]
    rw [List.map_cons, Value.desugarItem, Desugar.items,
      Expand.taken_desugarItem hm.grammatical hgrammatical, ← List.map_take, ← List.map_drop,
      renderAll, meanings, htail, hmeanings, ← hm.single env hcontinues b hrest, value]
termination_by list.length
decreasing_by
  rw [List.length_drop, List.length_cons]
  omega

/-- The children of markup, desugared, render to what they mean. -/
lemma faithful (h : n.IsMarkup Node.Stays) (hn : n.Everywhere Node.Grammatical) :
    S.Faithful n := by
  refine Node.IsMarkup.child_induction (motive := S.Faithful)
    (fun n h hn hplaced ih => ⟨h, hn, fun env => ?_⟩) h hn
  obtain ⟨hlist, hnodes⟩ := Node.children_of_grammatical hn
  rw [Node.children_desugar hn.here.notes hlist, S.inner_eq env h hn.here]
  refine S.renderAll_items env (fun item hitem => ?_) (branchesFollow_iff_chained.mp hplaced) _
  obtain ⟨m, rfl, -⟩ := hnodes item hitem
  exact ⟨m, rfl, (ih m hitem).2.2⟩

/-- What the content of a field is desugared to renders to what the content means. -/
lemma rendering_desugar {v : Value} (h : v.IsMarkup Node.Stays)
    (hv : v.Everywhere Node.Grammatical) (b : Bool) :
    S.rendering env (v.desugar b) = S.meaning env v := by
  cases v with
  | scalar | record => exact absurd h id
  | node n =>
    have hn : S.Faithful n := S.faithful h.1 (by simpa using hv)
    have hnone : ∀ item ∈ ([] : List Value), ∃ m : Node, item = .node m ∧ S.Faithful m := by simp
    have hsingle := hn.single env h.2 b hnone
    rw [List.take_nil, List.map_nil, alternative] at hsingle
    have hmeaning : S.meaning env (.node n) =
        S.item env (fun env => S.inner env (.node n)) 1 (.node n) := rfl
    rw [Value.desugar, hmeaning, ← hsingle]
    rcases Desugar.single_eq b (.node n.desugar) [] with hkeep | ⟨r, hr, -⟩
    · rw [hkeep, rendering]
    · rw [hr, rendering]
  | list items =>
    rw [Value.desugar, Value.desugarItems_eq_map, rendering, meaning]
    refine S.renderAll_items env (fun item hitem => ?_) (branchesFollow_iff_chained.mp h.2) b
    obtain ⟨n, rfl, hn⟩ := h.1 item hitem
    exact ⟨n, rfl, S.faithful hn (Value.everywhere_list.mp hv n hitem)⟩

end Semantics

end JsxControl
