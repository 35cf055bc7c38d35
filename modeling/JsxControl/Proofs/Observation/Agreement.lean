import JsxControl.Proofs.Observation.Writable
import JsxControl.Trace.Channel

/-!
# Observed passes

What a pass is asked to tell makes no difference to its outcome, as long as all that it tells of can
be written. Two runs are compared here, one that tells and one that does not: they take the same
steps, and the first only writes source text in between. `Agrees` is what is kept along both.
-/

namespace JsxControl

variable {J : Prop} {α β : Type}

/-! ### Runs that agree -/

/-- Two computations come to the same, or `J` holds and the first does not come to an end. -/
def Agrees (J : Prop) (x y : Except Fault α) : Prop := x = y ∨ J ∧ x = .error .endless

namespace Agrees

variable {x y : Except Fault α}

@[refl] lemma refl (x : Except Fault α) : Agrees J x x := .inl rfl

lemma bind {f g : α → Except Fault β} (h : Agrees J x y)
    (hfg : ∀ a, y = .ok a → Agrees J (f a) (g a)) : Agrees J (x >>= f) (y >>= g) := by
  rcases h with rfl | ⟨hJ, rfl⟩
  · cases x with
    | ok a => exact hfg a rfl
    | error => exact .refl _
  · exact .inr ⟨hJ, rfl⟩

lemma map (h : Agrees J x y) (f : α → β) : Agrees J (f <$> x) (f <$> y) := by
  rcases h with rfl | ⟨hJ, rfl⟩
  · exact .refl _
  · exact .inr ⟨hJ, rfl⟩

end Agrees

/-- What is computed beside the point makes no difference, unless it does not come to an end. -/
lemma Yields.agrees {P : α → Prop} {x : Except Fault α} {f : α → Except Fault β}
    {y : Except Fault β} (h : Yields J P x) (hf : ∀ a, Agrees J (f a) y) :
    Agrees J (x >>= f) y := by
  cases h with
  | ok => exact hf _
  | endless hJ => exact .inr ⟨hJ, rfl⟩

/-! ### Single nodes -/

/-- The source of a node can be told. -/
lemma Value.source_told {n : Node} (hn : n.Everywhere (Node.Writable J)) :
    Yields J (fun _ => True) (some <$> (Value.node n).source) :=
  (source_writes hn).map fun _ _ => trivial

namespace Expand

variable {holder : Value} {n : Node} {later : List Value} {c? : Option Construct}

lemma leave_agrees (hn : n.Everywhere (Node.Writable J))
    (hc : Construct.ofValue? (.node n) = .ok c?)
    (hlater : ∀ branch ∈ later, branch.IsWritableElement J) :
    Agrees J (leave true holder n c? later).toExcept (leave false holder n c? later).toExcept := by
  unfold leave
  cases c? with
  | some c =>
    have hkind : n.kind = .jsxElement :=
      Node.kind_of_construct? (Value.construct?_of_ofValue? hc)
    have hannounced := Construct.announcement_yields (c := c) ⟨n, rfl, hkind, hn⟩ hlater
    simp only [if_true, Bool.false_eq_true, if_false, Settled.toExcept_orStop,
      Settled.toExcept_andThen, Settled.toExcept_say, ok_bind]
    exact hannounced.agrees fun _ => .refl _
  | none =>
    by_cases hkind : n.kind = .expressionStatement
    · simp only [hkind, if_true, Bool.false_eq_true, if_false, Settled.toExcept_orStop]
      refine Agrees.bind (.refl _) fun isGuard _ => ?_
      cases isGuard with
      | true =>
        simp only [if_true, Settled.toExcept_orStop, Settled.toExcept_say, ok_bind]
        exact (Value.source_told hn).agrees fun _ => .refl _
      | false => exact .refl _
    · simp only [hkind, if_false]
      exact .refl _

lemma leaveAlone_agrees (hn : n.Everywhere (Node.Writable J)) :
    Agrees J (leaveAlone true holder n).toExcept (leaveAlone false holder n).toExcept := by
  simp only [leaveAlone, Settled.toExcept_orStop]
  exact .bind (.refl _) fun c? hc => leave_agrees hn hc (by simp)

/-! ### Lists -/

lemma settleBranches_agrees {rest : List Value} {run : Nat}
    (ih : ∀ m : Node, .node m ∈ rest → Agrees J (m.settle true).toExcept (m.settle false).toExcept) :
    Agrees J (Value.settleBranches true run rest).toExcept
      (Value.settleBranches false run rest).toExcept := by
  induction rest generalizing run with
  | nil => exact .inl (by simp only [Value.settleBranches])
  | cons item rest ihrest =>
    cases run with
    | zero => exact .inl (by simp only [Value.settleBranches])
    | succ run =>
      have hrest := @ihrest run fun m hm => ih m (by simp [hm])
      cases item with
      | node n =>
        simp only [Value.settleBranches, Settled.toExcept_andThen, Settled.toExcept_map]
        exact (ih n (by simp)).bind fun _ _ => hrest.map _
      | scalar | record | list => simpa only [Value.settleBranches] using hrest

/-- The branches of a chain are elements, and they are typed when their slots are settled. -/
lemma writable_of_settleBranches {traced : Bool} {rest later : List Value} {run : Nat}
    (hrest : ∀ m : Node, .node m ∈ rest → m.Everywhere (Node.Writable J))
    (hrun : (if c? = some .whenTrue then runLength rest else .ok 0) = .ok run)
    (hlater : (Value.settleBranches traced run rest).toExcept = .ok later) :
    ∀ branch ∈ later, branch.IsWritableElement J := by
  have hcontinue := continues_of_run hrun
  intro branch hbranch
  obtain ⟨item, hitem, m, m', rfl, rfl, hm⟩ :=
    exists_of_mem_right_of_forall₂ (settleBranches_eq_ok hcontinue hlater) hbranch
  have hwritable := hrest m (List.mem_of_mem_take hitem)
  refine ⟨m', rfl, ?_, m.settle_writable hwritable hm⟩
  rw [m.settle_eq_desugar (hwritable.imp fun _ h => h.orderly) hm, Node.kind_desugar]
  rcases hcontinue _ hitem with h | h <;> exact Node.kind_of_construct? h

-- The branches that a construct claims are settled with it and then passed over, so the recursion is
-- on how many items are left.
lemma settleItems_agrees {items : List Value}
    (hitems : ∀ n : Node, .node n ∈ items → n.Everywhere (Node.Writable J))
    (ih : ∀ n : Node, .node n ∈ items →
      Agrees J (n.settle true).toExcept (n.settle false).toExcept) :
    Agrees J (Value.settleItems true holder 0 items).toExcept
      (Value.settleItems false holder 0 items).toExcept := by
  match items with
  | [] => exact .inl (by simp only [Value.settleItems])
  | .node n :: rest =>
    have hrest (m : Node) (hm : .node m ∈ rest) : m.Everywhere (Node.Writable J) :=
      hitems m (by simp [hm])
    have ihrest (m : Node) (hm : .node m ∈ rest) := ih m (by simp [hm])
    simp only [Value.settleItems, Settled.toExcept_andThen, Settled.toExcept_orStop,
      Settled.toExcept_map]
    refine (ih n (by simp)).bind fun n' hn => .bind (.refl _) fun c? hc => ?_
    refine .bind (.refl _) fun run hrun => (settleBranches_agrees ihrest).bind fun later hlater => ?_
    have hwritable := n.settle_writable (hitems n (by simp)) hn
    refine (leave_agrees hwritable hc (writable_of_settleBranches hrest hrun hlater)).bind
      fun v? _ => .map ?_ _
    rw [@settleItems_drop true, @settleItems_drop false]
    exact settleItems_agrees (fun m hm => hrest m (List.mem_of_mem_drop hm))
      fun m hm => ihrest m (List.mem_of_mem_drop hm)
  | .scalar _ :: rest | .record _ :: rest | .list _ :: rest =>
    simp only [Value.settleItems, Settled.toExcept_map]
    exact (settleItems_agrees (fun n hn => hitems n (by simp [hn]))
      fun n hn => ih n (by simp [hn])).map _
termination_by items.length
decreasing_by
  all_goals simp only [List.length_drop, List.length_cons]
  all_goals omega

end Expand

/-! ### Trees -/

open Expand

variable {holder : Value}

lemma Value.settle_agrees {v : Value} (hv : v.Everywhere (Node.Writable J))
    (ih : ∀ m ∈ v.slotNodes, Agrees J (m.settle true).toExcept (m.settle false).toExcept) :
    Agrees J (Value.settle true holder v).toExcept (Value.settle false holder v).toExcept := by
  cases v with
  | scalar | record => exact .inl (by simp only [Value.settle])
  | list items =>
    simp only [Value.settle, Settled.toExcept_map]
    exact (settleItems_agrees (everywhere_list.mp hv) fun n hn => ih n (by simpa using hn)).map _
  | node n =>
    rw [everywhere_node] at hv
    simp only [Value.settle, Settled.toExcept_andThen, Settled.toExcept_map]
    refine (ih n (by simp [slotNodes])).bind fun n' hn => ?_
    exact (leaveAlone_agrees (n.settle_writable hv hn)).map _

lemma Node.settleFields_agrees {fields : List (String × Value)}
    (hfields : ∀ entry ∈ fields, Agrees J (Value.settle true holder entry.2).toExcept
      (Value.settle false holder entry.2).toExcept) :
    Agrees J (Node.settleFields true holder fields).toExcept
      (Node.settleFields false holder fields).toExcept := by
  induction fields with
  | nil => exact .inl (by simp only [Node.settleFields])
  | cons entry rest ih =>
    rw [List.forall_mem_cons] at hfields
    simp only [Node.settleFields, Settled.toExcept_andThen, Settled.toExcept_map]
    exact hfields.1.bind fun _ _ => (ih hfields.2).map _

/-- Settling the slots of a typed node has the same outcome whether the steps are told or not. -/
lemma Node.settle_agrees (n : Node) (hn : n.Everywhere (Writable J)) :
    Agrees J (n.settle true).toExcept (n.settle false).toExcept := by
  induction n using slot_induction with
  | step n ih =>
    rw [toExcept_settle, toExcept_settle]
    refine (settleFields_agrees fun entry hentry => ?_).map _
    exact Value.settle_agrees (hn.field hentry) fun m hm =>
      ih m ⟨entry, hentry, hm⟩ (hn.field hentry m hm)

namespace Expand

/-- A report leaves the tree as it was, and if nothing is asked for, there is none. -/
lemma report_agrees {n : Node} (hn : n.Everywhere (Node.Writable J)) (asked : Topic → Bool)
    (word filename ending : String) :
    Agrees J (report asked word filename ending (.node n)).toExcept
      (report (fun _ => false) word filename ending (.node n)).toExcept := by
  simp only [report, Settled.toExcept_orStop, Settled.toExcept_say, Bool.false_eq_true, if_false,
    ok_bind]
  split_ifs
  · exact (Value.source_told hn).agrees fun _ => .refl _
  · exact .refl _

lemma settleRoot_agrees {root : Node} (hroot : root.Everywhere (Node.Writable J)) (traced : Bool)
    (filename : String) :
    Agrees J (settleRoot traced filename (.node root)).toExcept
      (settleRoot false filename (.node root)).toExcept := by
  cases traced with
  | false => exact .refl _
  | true =>
    simp only [settleRoot, Settled.toExcept_andThen]
    refine (root.settle_agrees hroot).bind fun root' hroot' => ?_
    exact (leaveAlone_agrees (root.settle_writable hroot hroot')).bind fun _ _ => .refl _

/-- Two runs over a typed tree, one that tells what is asked for and one that tells nothing. -/
lemma tree_agrees {root : Node} (hroot : root.Everywhere (Node.Writable J)) (asked : Topic → Bool)
    (filename : String) :
    Agrees J (tree asked filename (.node root)).toExcept
      (tree (fun _ => false) filename (.node root)).toExcept := by
  simp only [tree, Settled.toExcept_andThen]
  refine (report_agrees hroot asked _ _ _).bind fun old hold => ?_
  obtain rfl : .node root = old := by simpa [report] using hold
  refine (settleRoot_agrees hroot _ _).bind fun new hnew => ?_
  obtain ⟨root', hroot', rfl, -⟩ := settleRoot_eq_ok hnew
  exact report_agrees (root.settle_writable hroot hroot') asked _ _ _

end Expand

/-! ### Channels -/

lemma Channels.asks_initial (topic : Topic) : initial.asks topic = false := by
  cases topic <;> rfl

/-- Which channels are switched on makes no difference to the outcome of a pass over a typed tree,
whatever the list that says so. There is one exception: where a node somewhere in the tree is
mistaken, a pass that tells of it may not come to an end. -/
theorem Expand.tree_observed {root : Node} (hroot : root.Everywhere Node.Typed)
    (list : EnableList) (filename : String) :
    (tree (Channels.initial.configure list).asks filename (.node root)).toExcept =
        (tree Channels.initial.asks filename (.node root)).toExcept ∨
      (∃ m, Relation.ReflTransGen Node.Holds root m ∧ m.Mistaken) ∧
        (tree (Channels.initial.configure list).asks filename (.node root)).toExcept =
          .error .endless := by
  have hsilent : Channels.initial.asks = fun _ => false := funext Channels.asks_initial
  rw [hsilent]
  exact tree_agrees (hroot.writable fun m hm hmistaken => ⟨m, hm, hmistaken⟩) _ _

namespace Expand

/-- The node for the child `{...xs}` of an element, which is of no known kind. -/
def spreadChild : Node :=
  ⟨.other (.text "JSXSpreadChild"), [("expression", .node (.identifier "xs"))], {}⟩

/-- The string `"$for"`. -/
def forLiteral : Node := ⟨.literal, [("value", .text "$for"), ("raw", .null)], {}⟩

/-- The expression `_missingMdxReference("$for", {...xs})`. -/
def spreadCall : Node :=
  ⟨.callExpression,
    [("callee", .node (.identifier guardFunction)),
      ("arguments", .list [.node forLiteral, .node spreadChild]),
      ("optional", .scalar (.bool false))], {}⟩

/-- The program `_missingMdxReference("$for", {...xs});`. -/
def spreadGuard : Node :=
  ⟨.program,
    [("body", .list [.node ⟨.expressionStatement, [("expression", .node spreadCall)], {}⟩]),
      ("source_type", .text "module")], {}⟩

/-- The program `;`. -/
def emptyProgram : Node :=
  ⟨.program, [("body", .list [.node .emptyStatement]), ("source_type", .text "module")], {}⟩

lemma is_spreadCall : (Value.node spreadCall).Is (Node.Writable True) := by
  have hname (name : String) : (Value.node (.identifier name)).Is (Node.Writable True) :=
    Node.isGrammatical_identifier name
  have hchild : (Value.node spreadChild).Is (Node.Writable True) := by
    have hwritable : spreadChild.Writable True :=
      ⟨⟨rfl, fun _ => ⟨true, rfl⟩, nofun⟩, fun _ => trivial⟩
    refine ⟨_, rfl, Node.everywhere_iff.mpr ⟨hwritable, ?_⟩⟩
    simpa [spreadChild] using (hname "xs").everywhere
  have hliteral : (Value.node forLiteral).Is (Node.Writable True) :=
    Node.isGrammatical_of_made rfl (.cons ⟨rfl, _, rfl⟩ (.cons ⟨rfl, .inl rfl⟩ .nil)) (by simp)
  have harguments : (Value.list [.node forLiteral, .node spreadChild]).Everywhere
      (Node.Writable True) :=
    .of_items (by simp [hliteral.everywhere, hchild.everywhere])
  refine Node.isGrammatical_of_made rfl (.cons ⟨rfl, (hname _).isNode⟩ (.cons ⟨rfl, _, rfl, ?_⟩
    (.cons ⟨rfl, _, rfl⟩ .nil))) ?_
  · simp [hliteral.isNode, hchild.isNode]
  · simp [(hname _).everywhere, harguments]

lemma typed_spreadGuard : spreadGuard.Everywhere Node.Typed := by
  have hstatement : (Value.node ⟨.expressionStatement, [("expression", .node spreadCall)], {}⟩).Is
      (Node.Writable True) :=
    Node.isGrammatical_of_made rfl (.cons ⟨rfl, is_spreadCall.isNode⟩ .nil)
      (by simpa using is_spreadCall.everywhere)
  have hprogram : (Value.node spreadGuard).Is (Node.Writable True) := by
    refine Node.isGrammatical_of_made rfl (.cons ⟨rfl, _, rfl, ?_⟩ (.cons ⟨rfl, _, rfl⟩ .nil)) ?_
    · simpa using hstatement.isNode
    · simp [hstatement.everywhere.singleton]
  exact Node.Everywhere.typed (by simpa using hprogram.everywhere)

/-- A pass over this program comes to its end, unless it is asked to tell what it disables. -/
theorem spreadGuard_observed : spreadGuard.Everywhere Node.Typed ∧
    (tree Channels.initial.asks "a.mdx" (.node spreadGuard)).toExcept = .ok (.node emptyProgram) ∧
    (∃ m, Relation.ReflTransGen Node.Holds spreadGuard m ∧ m.Mistaken) ∧
    (tree (Channels.initial.configure (.ofString "jsx-if-for")).asks "a.mdx"
      (.node spreadGuard)).toExcept = .error .endless := by
  have hsilent : (tree Channels.initial.asks "a.mdx" (.node spreadGuard)).toExcept =
      .ok (.node emptyProgram) := rfl
  have hasked : (tree (Channels.initial.configure (.ofString "jsx-if-for")).asks "a.mdx"
      (.node spreadGuard)).toExcept = .error .endless := rfl
  refine ⟨typed_spreadGuard, hsilent,
    (tree_observed typed_spreadGuard (.ofString "jsx-if-for") "a.mdx").resolve_left ?_⟩
  simp [hsilent, hasked]

end Expand

end JsxControl
