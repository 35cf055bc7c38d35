import JsxControl.Proofs.Complaints.Silent
import JsxControl.Proofs.Desugar.Agreement

/-!
# Chains keep their branches

The branches of a chain are recognised by their names before their slots are settled, and the
expansion of the chain looks at the names again. It has a complaint about branches of any other
name. It is never made: whatever replaces nodes inside a branch, however malformed the tree is,
settling the slots of a node leaves the name that it bears.
-/

namespace JsxControl

open Expand

variable {P : Rule → Prop} {traced : Bool} {holder element : Value} {later : List Value}

/-- A rule that is complained of where a branch does not bear a name of a branch is the only one
that no markup breaks. -/
abbrev Rule.IsReachable (rule : Rule) : Prop := rule ≠ .unreachableConstruct

lemma Value.isBranch_iff {v : Value} : v.IsBranch ↔
    ∃ c ∈ [Construct.whenTrue, .otherwiseWhen, .otherwise], v.tagName = .ok (.text c.name) := by
  simp [IsBranch, Continues, construct?_eq_some_iff]

/-! ### Attributes -/

namespace Attributes

lemma silent_ofValues (stored : List (Scalar × Value)) (values : List Value) :
    Complains P (ofValues stored values) := by
  induction values generalizing stored with
  | nil => simp [ofValues]
  | cons attr rest ih => simp [ofValues, ih]

@[simp] lemma silent_ofOpening (opening : Value) : Complains P (ofOpening opening) := by
  simp [ofOpening, silent_ofValues]

@[simp] lemma silent_expression? (attr : Value) : Complains P (expression? attr) := by
  simp [expression?]

variable (opening : Value) (attributes : List (Scalar × Value)) (context : List Value)

@[simp] lemma complains_check (allowed : List Scalar) :
    Complains Rule.IsReachable (check opening attributes allowed context) := by
  unfold check
  split
  · simp
  · exact .bind opening.silent_source fun _ => complains_complain (by decide) _ _

@[simp] lemma complains_required (name : Scalar) (placeholder : String) :
    Complains Rule.IsReachable (required opening attributes name placeholder context) := by
  unfold required
  split
  · exact .bind opening.silent_source fun _ => complains_complain (by decide) _ _
  · exact .bind opening.silent_source fun _ => complains_complain (by decide) _ _
  · next attr _ _ =>
    refine .bind (silent_expression? attr) fun expression? => ?_
    split
    · simp
    · exact .bind attr.silent_source fun _ => .bind opening.silent_source fun _ =>
        complains_complain (by decide) _ _

end Attributes

/-! ### Expansions -/

namespace Expand

@[simp] lemma silent_wrap (expression holder : Value) : Complains P (wrap expression holder) := by
  simp [wrap]

@[simp] lemma silent_childExpression? (child : Value) : Complains P (childExpression? child) := by
  simp [childExpression?]

@[simp] lemma silent_body (children : Value) : Complains P (body children) := by
  unfold body
  split
  · simp
  · refine .bind children.silent_items fun items => ?_
    split
    · refine .bind (silent_childExpression? _) fun expression? => ?_
      split <;> simp
    · simp

@[simp] lemma complains_pattern (expression : Value) (context : List Value) :
    Complains Rule.IsReachable (pattern expression context) := by
  unfold pattern
  split
  · simp
  · exact .bind expression.silent_source fun _ => complains_complain (by decide) _ _

lemma complains_binder (held : String) (join : Value → Value → Node) (holder element : Value) :
    Complains Rule.IsReachable (binder held join holder element) := by
  simp [binder]

lemma complains_orphan (holder element : Value) :
    Complains Rule.IsReachable (orphan holder element) :=
  .bind (element.silent_field _) fun opening => .bind opening.silent_source fun _ =>
    complains_complain (by decide) _ _

/-- A branch that bears the name of one is not taken for anything else. -/
lemma complains_branch (h : element.IsBranch) (alternate : Value) :
    Complains Rule.IsReachable (branch holder element alternate) := by
  obtain ⟨c, hc, hname⟩ := Value.isBranch_iff.mp h
  refine .bind (element.silent_field _) fun opening => ?_
  refine .bind (Attributes.silent_ofOpening opening) fun attributes => ?_
  refine .bind (Attributes.complains_check _ _ _ _) fun _ => ?_
  rw [hname, ok_bind, Value.key, ok_bind, Construct.ofName?_name]
  obtain rfl | rfl | rfl : c = .whenTrue ∨ c = .otherwiseWhen ∨ c = .otherwise := by simpa using hc
  case inl | inr.inl => simp
  case inr.inr =>
    cases Attributes.get? attributes (.text "test") with
    | none => simp
    | some attr => exact .bind opening.silent_source fun _ => complains_complain (by decide) _ _

lemma complains_branches {elements : List Value} (h : ∀ e ∈ elements, e.IsBranch) :
    Complains Rule.IsReachable (branches holder elements) := by
  induction elements with
  | nil => simp [branches]
  | cons element later ih =>
    rw [List.forall_mem_cons] at h
    exact .bind (ih h.2) fun alternate => complains_branch h.1 alternate

end Expand

namespace Construct

variable {c : Construct}

lemma complains_expand (hc : element.construct? = some c) (hlater : ∀ e ∈ later, e.IsBranch) :
    Complains Rule.IsReachable (c.expand holder element later) := by
  cases c with
  | loop =>
    rw [expand, Expand.loop]
    exact complains_binder _ _ _ _
  | binding =>
    rw [expand, Expand.binding]
    exact complains_binder _ _ _ _
  | otherwiseWhen | otherwise =>
    rw [expand]
    exact complains_orphan holder element
  | whenTrue =>
    have hbranches : ∀ e ∈ element :: later, e.IsBranch :=
      List.forall_mem_cons.mpr ⟨.inl hc, hlater⟩
    rw [expand, chain]
    exact (complains_branches hbranches).bind fun expression => silent_wrap expression holder

lemma silent_announcement : Complains P (c.announcement element later) := by
  have hopenings : Complains P ((element :: later).mapM fun e => do
      (← e.field "opening_element").source) :=
    complains_mapM fun e _ => by simp
  cases c with
  | whenTrue => exact hopenings.bind fun openings => by simp
  | loop | binding | otherwiseWhen | otherwise => simp [announcement]

end Construct

/-! ### Single nodes -/

namespace Expand

/-- Nothing is complained of when a statement is disarmed, or when nothing takes the place of a
node. -/
lemma complains_leave {n : Node} {c? : Option Construct}
    (hc : Construct.ofValue? (.node n) = .ok c?)
    (hlater : ∀ e ∈ later, e.IsBranch) :
    Complains Rule.IsReachable (leave traced holder n c? later).toExcept := by
  unfold leave
  cases c? with
  | some c =>
    have hexpand : Complains Rule.IsReachable (c.expand holder (.node n) later) :=
      Construct.complains_expand (Value.construct?_of_ofValue? hc) hlater
    simp [Construct.silent_announcement, hexpand]
  | none =>
    by_cases hkind : n.kind = .expressionStatement
    · simp only [hkind, if_true, Settled.toExcept_orStop]
      refine .bind (by simp) fun isGuard => ?_
      cases isGuard <;> simp
    · simp [hkind]

lemma complains_leaveAlone (n : Node) :
    Complains Rule.IsReachable (leaveAlone traced holder n).toExcept := by
  simp only [leaveAlone, Settled.toExcept_orStop, complains_bind, Construct.silent_ofValue?,
    true_and]
  intro c? hc
  exact complains_leave hc (by simp)

/-! ### Chains -/

@[simp] lemma silent_runLength (items : List Value) : Complains P (runLength items) := by
  induction items with
  | nil => simp [runLength]
  | cons item rest ih => simp [runLength, ih]

/-- A branch that a chain has claimed bears its name still when its slots are settled. -/
lemma isBranch_of_settleBranches {rest : List Value} {c? : Option Construct} {run : Nat}
    (hrest : ∀ m : Node, .node m ∈ rest → m.Everywhere Node.Orderly)
    (hrun : (if c? = some .whenTrue then runLength rest else .ok 0) = .ok run)
    (hlater : (Value.settleBranches traced run rest).toExcept = .ok later) :
    ∀ e ∈ later, e.IsBranch := by
  have hcontinue := continues_of_run hrun
  intro e he
  obtain ⟨item, hitem, m, m', rfl, rfl, hm⟩ :=
    exists_of_mem_right_of_forall₂ (settleBranches_eq_ok hcontinue hlater) he
  have horderly := hrest m (List.mem_of_mem_take hitem)
  rw [m.settle_eq_desugar horderly hm]
  exact .inr ((Node.continues_desugar horderly).mpr (hcontinue _ hitem))

lemma complains_settleBranches {rest : List Value} {run : Nat}
    (ih : ∀ m : Node, .node m ∈ rest → Complains P (m.settle traced).toExcept) :
    Complains P (Value.settleBranches traced run rest).toExcept := by
  induction rest generalizing run with
  | nil => simp [Value.settleBranches]
  | cons item rest ihrest =>
    have hrest (run : Nat) := @ihrest run fun m hm => ih m (by simp [hm])
    cases run with
    | zero => simp [Value.settleBranches]
    | succ run =>
      cases item with
      | node n => simp [Value.settleBranches, ih n (by simp), hrest]
      | scalar | record | list => simp [Value.settleBranches, hrest]

-- The branches that a construct claims are settled with it and then passed over, so the recursion
-- is on how many items are left.
lemma complains_settleItems {items : List Value}
    (hitems : ∀ n : Node, .node n ∈ items → n.Everywhere Node.Orderly)
    (ih : ∀ n : Node, .node n ∈ items → Complains Rule.IsReachable (n.settle traced).toExcept) :
    Complains Rule.IsReachable (Value.settleItems traced holder 0 items).toExcept := by
  match items with
  | [] => simp [Value.settleItems]
  | .node n :: rest =>
    have hrest (m : Node) (hm : .node m ∈ rest) : m.Everywhere Node.Orderly :=
      hitems m (by simp [hm])
    have ihrest (m : Node) (hm : .node m ∈ rest) := ih m (by simp [hm])
    simp only [Value.settleItems, Settled.toExcept_andThen, Settled.toExcept_orStop,
      Settled.toExcept_map, complains_bind, complains_map, Construct.silent_ofValue?, true_and]
    refine ⟨ih n (by simp), fun n' _ c? hc => ⟨by simp, fun run hrun => ?_⟩⟩
    refine ⟨complains_settleBranches ihrest, fun later hlater => ?_⟩
    refine ⟨complains_leave hc (isBranch_of_settleBranches hrest hrun hlater), fun v? _ => ?_⟩
    rw [settleItems_drop]
    exact complains_settleItems (fun m hm => hrest m (List.mem_of_mem_drop hm))
      fun m hm => ihrest m (List.mem_of_mem_drop hm)
  | .scalar _ :: rest | .record _ :: rest | .list _ :: rest =>
    simp only [Value.settleItems, Settled.toExcept_map, complains_map]
    exact complains_settleItems (fun n hn => hitems n (by simp [hn])) fun n hn =>
      ih n (by simp [hn])
termination_by items.length
decreasing_by
  all_goals simp only [List.length_drop, List.length_cons]
  all_goals omega

end Expand

/-! ### Trees -/

lemma Value.complains_settle {v : Value} (hv : v.Everywhere Node.Orderly)
    (ih : ∀ m ∈ v.slotNodes, Complains Rule.IsReachable (m.settle traced).toExcept) :
    Complains Rule.IsReachable (Value.settle traced holder v).toExcept := by
  cases v with
  | scalar | record => simp [Value.settle]
  | list items =>
    simp only [Value.settle, Settled.toExcept_map, complains_map]
    exact complains_settleItems (everywhere_list.mp hv) fun n hn => ih n (by simpa using hn)
  | node n =>
    simp only [Value.settle, Settled.toExcept_andThen, Settled.toExcept_map]
    refine .bind (ih n (by simp [slotNodes])) fun n' => ?_
    simpa only [complains_map] using complains_leaveAlone n'

lemma Node.complains_settleFields {fields : List (String × Value)}
    (h : ∀ entry ∈ fields, Complains P (Value.settle traced holder entry.2).toExcept) :
    Complains P (Node.settleFields traced holder fields).toExcept := by
  induction fields with
  | nil => simp [Node.settleFields]
  | cons entry rest ih =>
    rw [List.forall_mem_cons] at h
    simp [Node.settleFields, h.1, ih h.2]

lemma Node.complains_settle (n : Node) (hn : n.Everywhere Orderly) :
    Complains Rule.IsReachable (n.settle traced).toExcept := by
  induction n using slot_induction with
  | step n ih =>
    rw [toExcept_settle, complains_map]
    refine complains_settleFields fun entry hentry => ?_
    exact Value.complains_settle (hn.field hentry) fun m hm =>
      ih m ⟨entry, hentry, hm⟩ (hn.field hentry m hm)

namespace Expand

@[simp] lemma silent_report (asked : Topic → Bool) (word filename ending : String) (tree : Value) :
    Complains P (report asked word filename ending tree).toExcept := by
  simp [report]

lemma complains_settleRoot {root : Value} (hroot : root.Everywhere Node.Orderly)
    (filename : String) :
    Complains Rule.IsReachable (settleRoot traced filename root).toExcept := by
  cases root with
  | node n =>
    have hn : n.Everywhere Node.Orderly := by simpa using hroot
    simp only [settleRoot, Settled.toExcept_andThen]
    refine .bind (n.complains_settle hn) fun n' => .bind (complains_leaveAlone n') fun v? => ?_
    cases v? <;> simp
  | scalar | list | record => simp [settleRoot]

lemma complains_tree {root : Value} (hroot : root.Everywhere Node.Orderly) (asked : Topic → Bool)
    (filename : String) : Complains Rule.IsReachable (tree asked filename root).toExcept := by
  simp only [tree, Settled.toExcept_andThen, complains_bind, silent_report, true_and]
  intro root' hroot'
  obtain ⟨-, -, rfl⟩ : ∃ source?, _ = Except.ok source? ∧ root = root' := by
    simpa [report] using hroot'
  exact ⟨complains_settleRoot hroot filename, fun _ _ => trivial⟩

end Expand

/-! ### Folds -/

/-- A node stands in a tree in front of some siblings: behind it in a list, or none. -/
inductive Node.Precedes (root : Node) : Node → List Value → Prop
  | root : Precedes root root []
  | slot {p n : Node} {entry : String × Value} (hp : Relation.ReflTransGen Holds root p)
      (hentry : entry ∈ p.fields) (hn : entry.2 = .node n) : Precedes root n []
  | item {p n : Node} {entry : String × Value} {items rest : List Value}
      (hp : Relation.ReflTransGen Holds root p) (hentry : entry ∈ p.fields)
      (hitems : entry.2 = .list items) (hrest : (.node n :: rest) <:+ items) : Precedes root n rest

/-- The elements that a pass over a tree folds into one expression: an element whose slots are
settled and that opens a chain, and the branches that it has claimed, settled as well. -/
inductive Node.Folds (traced : Bool) (root : Node) : List Value → Prop
  | mk {n n' : Node} {rest later : List Value} {run : Nat} (hn : root.Precedes n rest)
      (hsettle : (n.settle traced).toExcept = .ok n')
      (hopens : Construct.ofValue? (.node n') = .ok (some .whenTrue))
      (hrun : runLength rest = .ok run)
      (hlater : (Value.settleBranches traced run rest).toExcept = .ok later) :
      Folds traced root (.node n' :: later)

lemma Node.Precedes.everywhere {Q : Node → Prop} {root n : Node} {rest : List Value}
    (h : root.Precedes n rest) (hroot : root.Everywhere Q) :
    ∀ m : Node, .node m ∈ rest → m.Everywhere Q := by
  cases h with
  | root | slot => simp
  | @item p n entry items rest hp hentry hitems hrest =>
    have hp : p.Everywhere Q := fun l hl => hroot l (hp.trans hl)
    have hlist : (Value.list items).Everywhere Q := hitems ▸ hp.field hentry
    intro m hm
    exact Value.everywhere_list.mp hlist m (hrest.subset (by simp [hm]))

lemma Node.Folds.isBranch {root : Node} {chain : List Value} (h : root.Folds traced chain)
    (hroot : root.Everywhere Orderly) : ∀ e ∈ chain, e.IsBranch := by
  obtain ⟨hn, -, hopens, hrun, hlater⟩ := h
  have hopens := Value.construct?_of_ofValue? hopens
  have hrun :
      (if some Construct.whenTrue = some .whenTrue then runLength _ else .ok 0) = .ok _ := hrun
  exact List.forall_mem_cons.mpr
    ⟨.inl hopens, isBranch_of_settleBranches (hn.everywhere hroot) hrun hlater⟩

/-- A pass over a tree that was read never complains of an unreachable construct, be the tree well
formed or not: whenever it folds a chain, all elements of the chain still bear the names of
branches. -/
theorem Expand.tree_folds_branches {json : Json} {tree : Value}
    (hread : Value.ofJson json = .ok tree) :
    (∀ (asked : Topic → Bool) (filename : String) (c : Complaint),
      (Expand.tree asked filename tree).toExcept = .error (.complaint c) →
        c.rule ≠ .unreachableConstruct) ∧
    ∀ root : Node, tree = .node root → ∀ (traced : Bool) (chain : List Value),
      root.Folds traced chain → ∀ e ∈ chain,
        ∃ c ∈ [Construct.whenTrue, .otherwiseWhen, .otherwise], e.tagName = .ok (.text c.name) := by
  have horderly : tree.Everywhere Node.Orderly := Value.ofJson_orderly hread
  refine ⟨fun asked filename c hc => complains_tree horderly asked filename c hc, ?_⟩
  rintro root rfl traced chain hchain e he
  exact Value.isBranch_iff.mp (hchain.isBranch (by simpa using horderly) e he)

/-- The document of `<><$if test={a}>b</$if><$else test={c}>d</$else></>`. -/
def testedElseDocument : Json :=
  .record [("type", .text "JSXFragment"), ("children", .list [
    elementDocument "$if" [("test", "a")] "b", elementDocument "$else" [("test", "c")] "d"])]

/-- The fold of this chain complains of its last branch, by its name. -/
theorem Expand.testedElse_folds_branches : ∃ root : Node,
    Value.ofJson testedElseDocument = .ok (.node root) ∧
    (∃ c : Complaint,
      (tree (fun _ => false) "a.jsx" (.node root)).toExcept = .error (.complaint c) ∧
        c.rule = .malformedTerminalBranch ∧ c.rule ≠ .unreachableConstruct) ∧
    ∃ opener branch : Value, root.Folds false [opener, branch] ∧ ∀ e ∈ [opener, branch],
      ∃ c ∈ [Construct.whenTrue, .otherwiseWhen, .otherwise], e.tagName = .ok (.text c.name) := by
  obtain ⟨root, hread, c, hc, hrule, opener, branch, hfolds⟩ : ∃ root : Node,
      Value.ofJson testedElseDocument = .ok (.node root) ∧ ∃ c : Complaint,
        (tree (fun _ => false) "a.jsx" (.node root)).toExcept = .error (.complaint c) ∧
        c.rule = .malformedTerminalBranch ∧
        ∃ opener branch : Value, root.Folds false [opener, branch] := by
    refine ⟨_, rfl, _, rfl, rfl, _, _, .mk (.item .refl (.tail _ (.head _)) rfl List.suffix_rfl)
      rfl rfl rfl rfl⟩
  obtain ⟨hrules, hnames⟩ := tree_folds_branches hread
  exact ⟨root, hread, ⟨c, hc, hrule, hrules _ _ c hc⟩, opener, branch, hfolds,
    hnames root rfl false _ hfolds⟩

end JsxControl
