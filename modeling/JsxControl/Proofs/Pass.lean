import JsxControl.Expand.Run
import JsxControl.Proofs.Access
import JsxControl.Proofs.Entries

/-!
# What a pass can do

A pass that comes to its end has done the same few things in every slot. They are set down here once
as relations: `Expand.Gives` says what takes the place of a node whose slots are settled, and
`Expand.Settling` how the items of a list become those behind it. What every pass keeps is shown by
induction on the second and by cases on the first.
-/

namespace JsxControl

namespace Expand

variable {traced : Bool} {holder : Value}

/-! ### Single nodes -/

/-- What takes the place of a settled node that the branches `later` continue. -/
inductive Gives (holder : Value) (n : Node) (later : List Value) : Value → Prop
  | expanded {c : Construct} {v : Value} (hc : Construct.ofValue? (.node n) = .ok (some c))
      (h : c.expand holder (.node n) later = .ok v) : Gives holder n later v
  | disarmed {e : Value} (hc : Construct.ofValue? (.node n) = .ok none)
      (hkind : n.kind = .expressionStatement) (hfield : n.field "expression" = .ok e)
      (hguard : e.isReferenceGuard = .ok true) : Gives holder n later (.node .emptyStatement)
  | kept (hc : Construct.ofValue? (.node n) = .ok none)
      (hguard : n.kind = .expressionStatement →
        ∃ e, n.field "expression" = .ok e ∧ e.isReferenceGuard = .ok false) :
      Gives holder n later (.node n)

lemma gives_of_leave {n : Node} {c? : Option Construct} {later : List Value} {v? : Option Value}
    (hc : Construct.ofValue? (.node n) = .ok c?)
    (h : (leave traced holder n c? later).toExcept = .ok v?) :
    Gives holder n later (v?.getD (.node n)) := by
  unfold leave at h
  cases c? with
  | some c =>
    obtain ⟨-, -, v, hv, h⟩ : ∃ line?, _ = Except.ok line? ∧ ∃ v,
        c.expand holder (.node n) later = .ok v ∧ some v = v? := by
      simpa using h
    subst h
    exact .expanded hc hv
  | none =>
    by_cases hkind : n.kind = .expressionStatement
    · obtain ⟨isGuard, ⟨e, he, hguard⟩, h⟩ : ∃ isGuard, (∃ e, n.field "expression" = .ok e ∧
          e.isReferenceGuard = .ok isGuard) ∧ _ := by
        simpa only [hkind, if_true, Settled.toExcept_orStop, bind_eq_ok_iff] using h
      cases isGuard with
      | true =>
        obtain ⟨-, -, rfl⟩ : ∃ text?, _ = Except.ok text? ∧
            some (Value.node .emptyStatement) = v? := by
          simpa using h
        exact .disarmed hc hkind he hguard
      | false =>
        obtain rfl : none = v? := by simpa using h
        exact .kept hc fun _ => ⟨e, he, hguard⟩
    · obtain rfl : none = v? := by simpa [hkind] using h
      exact .kept hc fun h => absurd h hkind

lemma gives_of_leaveAlone {n : Node} {v? : Option Value}
    (h : (leaveAlone traced holder n).toExcept = .ok v?) :
    Gives holder n [] (v?.getD (.node n)) := by
  obtain ⟨c?, hc, h⟩ := bind_eq_ok_iff.mp (by simpa only [leaveAlone, Settled.toExcept_orStop] using h)
  exact gives_of_leave hc h

/-! ### Chains -/

lemma runLength_cons_eq_ok {item : Value} {rest : List Value} {run : Nat}
    (h : runLength (item :: rest) = .ok run) :
    (∃ run', item.construct? = some .otherwiseWhen ∧ runLength rest = .ok run' ∧
        run = run' + 1) ∨
      item.construct? = some .otherwise ∧ run = 1 ∨
      item.construct? ≠ some .otherwiseWhen ∧ item.construct? ≠ some .otherwise ∧ run = 0 := by
  obtain ⟨b, hb, h⟩ := bind_eq_ok_iff.mp (by simpa only [runLength] using h)
  have hcontinues := Construct.isTagOf_eq_ok_iff hb
  cases b with
  | true =>
    obtain ⟨run', hrun', rfl⟩ : ∃ run', runLength rest = .ok run' ∧ run' + 1 = run := by
      simpa using h
    exact .inl ⟨run', by simpa using hcontinues, hrun', rfl⟩
  | false =>
    obtain ⟨e, he, h⟩ := bind_eq_ok_iff.mp (by simpa only [Bool.false_eq_true, if_false] using h)
    have hends := Construct.isTagOf_eq_ok_iff he
    cases e with
    | true => exact .inr (.inl ⟨by simpa using hends, by simpa using h.symm⟩)
    | false => exact .inr (.inr ⟨by simpa using hcontinues, by simpa using hends, by simpa using h.symm⟩)

/-- The items of a run continue a chain; in particular they are nodes. -/
lemma runLength_eq_ok {rest : List Value} {run : Nat} (h : runLength rest = .ok run) :
    ∀ item ∈ rest.take run,
      item.construct? = some .otherwiseWhen ∨ item.construct? = some .otherwise := by
  induction rest generalizing run with
  | nil => simp
  | cons first rest ih =>
    rcases runLength_cons_eq_ok h with ⟨run', hfirst, hrun', rfl⟩ | ⟨hfirst, rfl⟩ | ⟨-, -, rfl⟩
    · simpa [hfirst] using ih hrun'
    · simp [hfirst]
    · simp

/-- The items that an element takes continue its chain, if it opens one. -/
lemma continues_of_run {c? : Option Construct} {rest : List Value} {run : Nat}
    (h : (if c? = some .whenTrue then runLength rest else .ok 0) = .ok run) :
    ∀ item ∈ rest.take run,
      item.construct? = some .otherwiseWhen ∨ item.construct? = some .otherwise := by
  split_ifs at h
  · exact runLength_eq_ok h
  · obtain rfl : 0 = run := by simpa using h
    simp

/-- A branch that a chain has claimed, and the branch once its slots are settled. -/
def SettledBranch (traced : Bool) (item item' : Value) : Prop :=
  ∃ n n' : Node, item = .node n ∧ item' = .node n' ∧ (n.settle traced).toExcept = .ok n'

/-- The branches of a chain are the items of its run, with the slots of each settled. -/
lemma settleBranches_eq_ok {rest later : List Value} {run : Nat}
    (hrun : ∀ item ∈ rest.take run,
      item.construct? = some .otherwiseWhen ∨ item.construct? = some .otherwise)
    (h : (Value.settleBranches traced run rest).toExcept = .ok later) :
    List.Forall₂ (SettledBranch traced) (rest.take run) later := by
  induction rest generalizing run later with
  | nil =>
    obtain rfl : [] = later := by simpa [Value.settleBranches] using h
    simp
  | cons item rest ih =>
    cases run with
    | zero =>
      obtain rfl : [] = later := by simpa [Value.settleBranches] using h
      simp
    | succ run =>
      obtain ⟨n, rfl⟩ : ∃ n : Node, item = .node n := by
        rcases hrun item (by simp) with h | h <;>
          exact (Value.eq_node_of_construct? h).imp fun _ => And.left
      obtain ⟨n', hn, later', hlater, rfl⟩ : ∃ n', (n.settle traced).toExcept = .ok n' ∧ ∃ later',
          (Value.settleBranches traced run rest).toExcept = .ok later' ∧
            .node n' :: later' = later := by
        simpa [Value.settleBranches] using h
      rw [List.take_succ_cons]
      refine .cons ⟨n, n', rfl, rfl, hn⟩ (ih (fun item hitem => hrun item ?_) hlater)
      simp [hitem]

/-! ### Lists -/

/-- The items of a list become what a pass leaves of them. An item that opens a chain takes the run
behind it, whose slots are settled as well. -/
inductive Settling (traced : Bool) (holder : Value) : List Value → List Value → Prop
  | nil : Settling traced holder [] []
  | passed {item : Value} {rest rest' : List Value} (hitem : item.node? = none)
      (hrest : Settling traced holder rest rest') :
      Settling traced holder (item :: rest) (item :: rest')
  | node {n n' : Node} {c? : Option Construct} {run : Nat} {later : List Value} {v : Value}
      {rest rest' : List Value} (hn : (n.settle traced).toExcept = .ok n')
      (hc : Construct.ofValue? (.node n') = .ok c?)
      (hrun : (if c? = some .whenTrue then runLength rest else .ok 0) = .ok run)
      (hlater : List.Forall₂ (SettledBranch traced) (rest.take run) later)
      (hv : Gives holder n' later v) (hrest : Settling traced holder (rest.drop run) rest') :
      Settling traced holder (.node n :: rest) (v :: rest')

/-- The items that a chain has claimed are passed over. -/
lemma settleItems_drop (taken : Nat) (items : List Value) :
    Value.settleItems traced holder taken items =
      Value.settleItems traced holder 0 (items.drop taken) := by
  induction items generalizing taken with
  | nil => simp [Value.settleItems]
  | cons item rest ih =>
    cases taken with
    | zero => rfl
    | succ taken => simpa [Value.settleItems] using ih taken

lemma settling_of_settleItems {items items' : List Value}
    (h : (Value.settleItems traced holder 0 items).toExcept = .ok items') :
    Settling traced holder items items' := by
  match items with
  | [] =>
    obtain rfl : [] = items' := by simpa [Value.settleItems] using h
    exact .nil
  | .node n :: rest =>
    simp only [Value.settleItems, Settled.toExcept_andThen, Settled.toExcept_orStop,
      Settled.toExcept_map, bind_eq_ok_iff, map_eq_ok_iff] at h
    obtain ⟨n', hn, c?, hc, run, hrun, later, hlater, v?, hv, rest', hrest, rfl⟩ := h
    rw [settleItems_drop] at hrest
    exact .node hn hc hrun (settleBranches_eq_ok (continues_of_run hrun) hlater)
      (gives_of_leave hc hv) (settling_of_settleItems hrest)
  | .scalar _ :: rest | .record _ :: rest | .list _ :: rest =>
    obtain ⟨rest', hrest, rfl⟩ : ∃ rest',
        (Value.settleItems traced holder 0 rest).toExcept = .ok rest' ∧ _ :: rest' = items' := by
      simpa [Value.settleItems] using h
    exact .passed rfl (settling_of_settleItems hrest)
termination_by items.length
decreasing_by
  all_goals simp only [List.length_drop, List.length_cons]
  all_goals omega

end Expand

/-! ### Trees -/

open Expand

variable {traced : Bool} {holder : Value}

lemma Node.toExcept_settle (n : Node) : (n.settle traced).toExcept =
    (Node.mk n.kind · n.origin) <$> (Node.settleFields traced (.node n) n.fields).toExcept := by
  cases n
  rw [Node.settle, Settled.toExcept_map]

/-- The fields of a node are settled one by one, each under its name. -/
lemma Node.settleFields_eq_ok {fields fields' : List (String × Value)}
    (h : (Node.settleFields traced holder fields).toExcept = .ok fields') :
    List.Forall₂ (fun entry entry' => entry'.1 = entry.1 ∧
      (Value.settle traced holder entry.2).toExcept = .ok entry'.2) fields fields' := by
  induction fields generalizing fields' with
  | nil =>
    obtain rfl : [] = fields' := by simpa [Node.settleFields] using h
    exact .nil
  | cons entry rest ih =>
    obtain ⟨name, v⟩ := entry
    obtain ⟨v', hv, rest', hrest, rfl⟩ : ∃ v', (Value.settle traced holder v).toExcept = .ok v' ∧
        ∃ rest', (Node.settleFields traced holder rest).toExcept = .ok rest' ∧
          (name, v') :: rest' = fields' := by
      simpa [Node.settleFields] using h
    exact .cons ⟨rfl, hv⟩ (ih hrest)

lemma Value.settle_node_eq_ok {n : Node} {v : Value}
    (h : (Value.settle traced holder (.node n)).toExcept = .ok v) :
    ∃ n', (n.settle traced).toExcept = .ok n' ∧ Gives holder n' [] v := by
  obtain ⟨n', hn, v?, hv, rfl⟩ : ∃ n', (n.settle traced).toExcept = .ok n' ∧ ∃ v?,
      (leaveAlone traced holder n').toExcept = .ok v? ∧ v?.getD (.node n') = v := by
    simpa [Value.settle] using h
  exact ⟨n', hn, gives_of_leaveAlone hv⟩

lemma Value.settle_list_eq_ok {items : List Value} {v : Value}
    (h : (Value.settle traced holder (.list items)).toExcept = .ok v) :
    ∃ items', Settling traced holder items items' ∧ v = .list items' := by
  obtain ⟨items', hitems, rfl⟩ : ∃ items',
      (Value.settleItems traced holder 0 items).toExcept = .ok items' ∧ .list items' = v := by
    simpa [Value.settle] using h
  exact ⟨items', settling_of_settleItems hitems, rfl⟩

/-- The root of a tree that is settled is the node with its slots settled; it is not replaced. -/
lemma Expand.settleRoot_eq_ok {root : Node} {filename : String} {tree : Value}
    (h : (settleRoot traced filename (.node root)).toExcept = .ok tree) :
    ∃ root', (root.settle traced).toExcept = .ok root' ∧ tree = .node root' ∧
      Gives .null root' [] (.node root') := by
  simp only [settleRoot, Settled.toExcept_andThen, bind_eq_ok_iff] at h
  obtain ⟨root', hroot, v?, hv, hkept⟩ := h
  have hgives := gives_of_leaveAlone hv
  cases v? with
  | some v => simp at hkept
  | none => exact ⟨root', hroot, by simpa using hkept.symm, hgives⟩

/-- A tree that is expanded is a node whose slots are settled and that is not replaced itself. -/
lemma Expand.tree_eq_ok {asked : Topic → Bool} {filename : String} {tree tree' : Value}
    (h : (Expand.tree asked filename tree).toExcept = .ok tree') :
    ∃ n n' : Node, tree = .node n ∧ (n.settle (asked .steps)).toExcept = .ok n' ∧
      tree' = .node n' ∧ Gives .null n' [] (.node n') := by
  have hreport {word ending : String} {tree tree' : Value}
      (h : (report asked word filename ending tree).toExcept = .ok tree') : tree' = tree := by
    obtain ⟨-, -, rfl⟩ : ∃ source?, _ = Except.ok source? ∧ tree = tree' := by
      simpa [report] using h
    rfl
  simp only [Expand.tree, Settled.toExcept_andThen, bind_eq_ok_iff] at h
  obtain ⟨old, hold, new, hnew, h⟩ := h
  obtain rfl := hreport hold
  obtain rfl := hreport h
  cases old with
  | node n => exact (settleRoot_eq_ok hnew).elim fun n' hn => ⟨n, n', rfl, hn⟩
  | scalar | list | record => simp [settleRoot] at hnew

end JsxControl
