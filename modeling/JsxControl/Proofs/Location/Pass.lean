import JsxControl.Proofs.Acceptance.Pass
import JsxControl.Proofs.Location.Expansion
import JsxControl.Trace.Channel

/-!
# Passes over trees without locations

A pass comes to the same on a tree and on the tree without locations. So it does on any two trees
that are the same without locations: either it gives two trees of which this holds again, or it
fails on both, in the same way and with the same message.
-/

namespace JsxControl

open Expand

open Node (lasting_noteless)

variable {traced : Bool} {holder : Value} {n : Node}

/-! ### Single nodes -/

/-- What takes the place of a node, if anything does, is the same without locations. -/
abbrev UnlocatesOption : Except Fault (Option Value) → Except Fault (Option Value) → Prop :=
  Forgets (fun v? => ∀ v ∈ v?, v.Noteless) (Option.map Value.unlocated)

/-- Lists of values that are the same without locations. -/
abbrev UnlocatesList : Except Fault (List Value) → Except Fault (List Value) → Prop :=
  Forgets (fun vs => ∀ v ∈ vs, v.Noteless) (List.map Value.unlocated)

/-- A value takes the place of a node in both runs. -/
lemma Forgets.some {v w : Value} (h : v.Noteless) (hw : v.unlocated = w) :
    UnlocatesOption (.ok (some v)) (.ok (some w)) := by
  subst hw
  exact Forgets.ok (by simpa using h)

lemma Value.Noteless.slot {v : Value} (h : v.Noteless) {m : Node} (hm : m ∈ v.slotNodes) :
    (Value.node m).Noteless := by
  cases v with
  | node n =>
    obtain rfl : m = n := by simpa [slotNodes] using hm
    exact h
  | list items => exact h.item (by simpa using hm)
  | scalar | record => simp [slotNodes] at hm

/-- A node has its slots settled in the same way with and without locations. -/
def Node.SettlesAlike (traced : Bool) (n : Node) : Prop :=
  Forgets (fun m => (Value.node m).Noteless) unlocated (n.settle traced).toExcept
    (n.unlocated.settle traced).toExcept

namespace Expand

lemma runLength_matches {items : List Value} (h : ∀ item ∈ items, item.Noteless) :
    Matches (runLength items) (runLength (items.map Value.unlocated)) := by
  induction items with
  | nil => exact .refl _
  | cons item rest ih =>
    rw [List.forall_mem_cons] at h
    refine (Construct.isTagOf_matches _ h.1).bind fun continues _ => ?_
    cases continues with
    | true => exact (ih h.2).bind fun _ _ => .refl _
    | false => exact (Construct.isTagOf_matches _ h.1).bind fun _ _ => .refl _

lemma unlocates_leave (hholder : holder.Noteless) (hn : (Value.node n).Noteless)
    (c? : Option Construct) {later : List Value} (hlater : ∀ branch ∈ later, branch.Noteless) :
    UnlocatesOption (leave traced holder n c? later).toExcept
      (leave traced holder.unlocated n.unlocated c? (later.map Value.unlocated)).toExcept := by
  have hnode := Value.unlocated_node n
  cases c? with
  | some c =>
    have hannounced : Matches (if traced then c.announcement (.node n) later else .ok none)
        (if traced then c.announcement (.node n.unlocated) (later.map Value.unlocated)
          else .ok none) := by
      rw [← hnode]
      split_ifs
      · exact c.announcement_matches hn hlater
      · exact .refl _
    simp only [leave, Settled.toExcept_orStop, Settled.toExcept_andThen, Settled.toExcept_say,
      ok_bind, Settled.toExcept_done]
    refine hannounced.bind fun _ _ => ?_
    rw [← hnode]
    refine (c.unlocates_expand hholder hn hlater).bind fun v hv => .ok ?_
    simpa using hv
  | none =>
    have hkept : UnlocatesOption (.ok none) (.ok none) := Forgets.ok (by simp)
    have hguard : Matches (n.field "expression" >>= Value.isReferenceGuard)
        (n.unlocated.field "expression" >>= Value.isReferenceGuard) := by
      have hfield := Value.unlocates_field hn "expression"
      rw [hnode] at hfield
      exact hfield.bind fun e he => Value.isReferenceGuard_matches he
    have htold : Forgets (fun _ => True) (Option.map Value.unlocated)
        (if traced then some <$> (Value.node n).source else .ok none)
        (if traced then some <$> (Value.node n.unlocated).source else .ok none) := by
      rw [← hnode]
      split_ifs
      · exact (Value.forgets_source hn).map fun _ _ => ⟨trivial, rfl⟩
      · exact .ok trivial
    simp only [leave, Node.kind_unlocated]
    by_cases hkind : n.kind = .expressionStatement
    · rw [if_pos hkind, if_pos hkind, Settled.toExcept_orStop, Settled.toExcept_orStop]
      refine hguard.bind fun isGuard _ => ?_
      cases isGuard with
      | true =>
        simp only [id, if_true, Settled.toExcept_orStop, Settled.toExcept_say]
        refine htold.bind fun _ _ => ?_
        have hempty : (Value.node .emptyStatement).Noteless :=
          lasting_noteless.throughout_bare rfl rfl
        exact .some hempty (by simp)
      | false => exact hkept
    · rw [if_neg hkind, if_neg hkind]
      exact hkept

lemma unlocates_leaveAlone (hholder : holder.Noteless) (hn : (Value.node n).Noteless) :
    UnlocatesOption (leaveAlone traced holder n).toExcept
      (leaveAlone traced holder.unlocated n.unlocated).toExcept := by
  have hc := Construct.ofValue?_matches hn
  rw [Value.unlocated_node] at hc
  simp only [leaveAlone, Settled.toExcept_orStop]
  exact hc.bind fun c? _ => unlocates_leave hholder hn c? (by simp)

/-- What takes its place, or else the node itself. -/
lemma unlocated_getD {v? : Option Value} (h : ∀ v ∈ v?, v.Noteless) (hn : (Value.node n).Noteless) :
    (v?.getD (.node n)).Noteless ∧
      (v?.map Value.unlocated).getD (.node n.unlocated) = (v?.getD (.node n)).unlocated := by
  cases v? with
  | none => exact ⟨hn, by simp⟩
  | some v => exact ⟨h v rfl, rfl⟩

/-! ### Lists -/

lemma unlocates_settleBranches {rest : List Value} {run : Nat}
    (ih : ∀ m : Node, .node m ∈ rest → m.SettlesAlike traced) :
    UnlocatesList (Value.settleBranches traced run rest).toExcept
      (Value.settleBranches traced run (rest.map Value.unlocated)).toExcept := by
  have hnil : UnlocatesList (.ok []) (.ok []) := Forgets.ok (by simp)
  induction rest generalizing run with
  | nil => simpa only [List.map_nil, Value.settleBranches, Settled.toExcept_done] using hnil
  | cons item rest ihrest =>
    cases run with
    | zero => simpa only [List.map_cons, Value.settleBranches, Settled.toExcept_done] using hnil
    | succ run =>
      have hrest := @ihrest run fun m hm => ih m (by simp [hm])
      cases item with
      | node n =>
        simp only [List.map_cons, Value.unlocated_node, Value.settleBranches,
          Settled.toExcept_andThen, Settled.toExcept_map]
        refine (ih n (by simp)).bind fun m hm => hrest.map fun later hlater => ?_
        exact ⟨List.forall_mem_cons.mpr ⟨hm, hlater⟩, by simp⟩
      | scalar | record | list => simpa [Value.settleBranches] using hrest

-- The branches that a construct claims are settled with it and then passed over, so the recursion
-- is on how many items are left.
lemma unlocates_settleItems {items : List Value} (hholder : holder.Noteless)
    (hitems : ∀ item ∈ items, item.Noteless)
    (ih : ∀ m : Node, .node m ∈ items → m.SettlesAlike traced) :
    UnlocatesList (Value.settleItems traced holder 0 items).toExcept
      (Value.settleItems traced holder.unlocated 0 (items.map Value.unlocated)).toExcept := by
  match items with
  | [] =>
    simp only [List.map_nil, Value.settleItems, Settled.toExcept_done]
    exact .ok (by simp)
  | .node n :: rest =>
    have hrest := (List.forall_mem_cons.mp hitems).2
    have ihrest (m : Node) (hm : .node m ∈ rest) := ih m (by simp [hm])
    simp only [List.map_cons, Value.unlocated_node, Value.settleItems, Settled.toExcept_andThen,
      Settled.toExcept_orStop, Settled.toExcept_map]
    refine (ih n (by simp)).bind fun m hm => ?_
    have hc := Construct.ofValue?_matches hm
    rw [Value.unlocated_node] at hc
    refine hc.bind fun c? _ => ?_
    have hrun : Matches (if c? = some .whenTrue then runLength rest else .ok 0)
        (if c? = some .whenTrue then runLength (rest.map Value.unlocated) else .ok 0) := by
      split_ifs
      · exact runLength_matches hrest
      · exact .refl _
    refine hrun.bind fun run _ => (unlocates_settleBranches ihrest).bind fun later hlater => ?_
    refine (unlocates_leave hholder hm c? hlater).bind fun v? hv => ?_
    rw [settleItems_drop, id, settleItems_drop run (rest.map _), ← List.map_drop]
    have hleft : ∀ item ∈ rest.drop run, item.Noteless :=
      fun item hitem => hrest item (List.mem_of_mem_drop hitem)
    have hdropped := unlocates_settleItems hholder hleft
      fun m hm => ihrest m (List.mem_of_mem_drop hm)
    obtain ⟨hnoteless, hmap⟩ := unlocated_getD hv hm
    rw [hmap]
    exact hdropped.map fun later hlater => ⟨List.forall_mem_cons.mpr ⟨hnoteless, hlater⟩, by simp⟩
  | .scalar _ :: rest | .record _ :: rest | .list _ :: rest =>
    obtain ⟨hitem, hrest⟩ := List.forall_mem_cons.mp hitems
    have hsettled := unlocates_settleItems hholder hrest fun m hm => ih m (by simp [hm])
    simp only [List.map_cons, Value.unlocated_scalar, Value.unlocated_record, Value.unlocated_list,
      Value.settleItems, Settled.toExcept_map]
    exact hsettled.map fun later hlater => ⟨List.forall_mem_cons.mpr ⟨hitem, hlater⟩, by simp⟩
termination_by items.length
decreasing_by
  all_goals simp only [List.length_drop, List.length_cons]
  all_goals omega

end Expand

/-! ### Trees -/

lemma Value.unlocates_settle {v : Value} (hholder : holder.Noteless) (hv : v.Noteless)
    (ih : ∀ m ∈ v.slotNodes, m.SettlesAlike traced) :
    Unlocates (Value.settle traced holder v).toExcept
      (Value.settle traced holder.unlocated v.unlocated).toExcept := by
  cases v with
  | scalar s =>
    simp only [unlocated_scalar, settle]
    exact .ok hv
  | record members =>
    simp only [unlocated_record, settle]
    exact .ok hv
  | list items =>
    simp only [unlocated_list, settle, Settled.toExcept_map]
    have hitems := unlocates_settleItems hholder (noteless_list.mp hv)
      fun m hm => ih m (by simpa using hm)
    exact hitems.map fun items' hitems' => ⟨.list hitems', by simp⟩
  | node n =>
    simp only [unlocated_node, settle, Settled.toExcept_andThen, Settled.toExcept_map]
    refine (ih n (by simp [slotNodes])).bind fun m hm => ?_
    exact (unlocates_leaveAlone hholder hm).map fun v? hv => unlocated_getD hv hm

lemma Node.unlocates_settleFields {fields : List (String × Value)}
    (h : ∀ entry ∈ fields, Unlocates (Value.settle traced holder entry.2).toExcept
      (Value.settle traced holder.unlocated entry.2.unlocated).toExcept) :
    Forgets (fun fields => ∀ entry ∈ fields, entry.2.Noteless)
      (List.map fun entry => (entry.1, entry.2.unlocated))
      (settleFields traced holder fields).toExcept
      (settleFields traced holder.unlocated
        (fields.map fun entry => (entry.1, entry.2.unlocated))).toExcept := by
  induction fields with
  | nil =>
    simp only [List.map_nil, settleFields, Settled.toExcept_done]
    exact .ok (by simp)
  | cons entry rest ih =>
    rw [List.forall_mem_cons] at h
    simp only [List.map_cons, settleFields, Settled.toExcept_andThen, Settled.toExcept_map]
    refine h.1.bind fun v hv => (ih h.2).map fun fields hfields => ?_
    exact ⟨List.forall_mem_cons.mpr ⟨hv, hfields⟩, by simp⟩

lemma Node.settlesAlike (n : Node) (hn : (Value.node n).Noteless) : n.SettlesAlike traced := by
  induction n using slot_induction with
  | step n ih =>
    rw [SettlesAlike, toExcept_settle, toExcept_settle, fields_unlocated, kind_unlocated,
      origin_unlocated, ← Value.unlocated_node]
    refine (unlocates_settleFields fun entry hentry => ?_).map fun fields hfields => ?_
    · have hv : entry.2.Noteless := Value.Throughout.field hn hentry
      exact Value.unlocates_settle hn hv fun m hm => ih m ⟨entry, hentry, hm⟩ (hv.slot hm)
    · exact ⟨.node hn.here hfields, by simp⟩

namespace Expand

variable {t t' : Value}

lemma unlocates_report (ht : t.Noteless) (asked : Topic → Bool) (word filename ending : String) :
    Unlocates (report asked word filename ending t).toExcept
      (report asked word filename ending t.unlocated).toExcept := by
  have htold : Forgets (fun _ => True) (Option.map Value.unlocated)
      (if asked .sources then some <$> t.source else .ok none)
      (if asked .sources then some <$> t.unlocated.source else .ok none) := by
    split_ifs
    · exact (Value.forgets_source ht).map fun _ _ => ⟨trivial, rfl⟩
    · exact .ok trivial
  simp only [report, Settled.toExcept_orStop, Settled.toExcept_say]
  exact htold.bind fun _ _ => .ok ht

lemma unlocates_settleRoot (ht : t.Noteless) (traced : Bool) (filename : String) :
    Unlocates (settleRoot traced filename t).toExcept
      (settleRoot traced filename t.unlocated).toExcept := by
  cases t with
  | node n =>
    simp only [Value.unlocated_node, settleRoot, Settled.toExcept_andThen]
    refine (n.settlesAlike ht).bind fun m hm => ?_
    have hleave := @unlocates_leaveAlone traced .null m (.scalar _) hm
    rw [Value.unlocated_scalar] at hleave
    refine hleave.bind fun v? _ => ?_
    cases v? with
    | some v =>
      simp only [Option.map_some, Settled.toExcept_stop, Node.kind_unlocated]
      exact .fault _
    | none => exact .node hm rfl
  | scalar | list | record => simpa [settleRoot] using Forgets.fault .notNode

/-- A pass comes to the same on a tree without locations, but for the locations in what it gives. -/
lemma unlocates_tree (ht : t.Noteless) (asked : Topic → Bool) (filename : String) :
    Unlocates (tree asked filename t).toExcept (tree asked filename t.unlocated).toExcept := by
  simp only [tree, Settled.toExcept_andThen]
  refine (unlocates_report ht asked _ _ _).bind fun t ht => ?_
  refine (unlocates_settleRoot ht _ _).bind fun t ht => ?_
  exact unlocates_report ht asked _ _ _

/-- Passes over two trees that differ in nothing but the locations, ranges and extra members of
their nodes both come to their end with such trees, or both fail, and then in the same way but for
the place of a complaint. -/
theorem tree_indifferent_to_locations (ht : t.Noteless) (h : t.unlocated = t'.unlocated)
    (asked : Topic → Bool) (filename : String) :
    (∃ v v', (tree asked filename t).toExcept = .ok v ∧ (tree asked filename t').toExcept = .ok v' ∧
        v.unlocated = v'.unlocated) ∨
      ∃ fault fault', (tree asked filename t).toExcept = .error fault ∧
        (tree asked filename t').toExcept = .error fault' ∧ fault.unplaced = fault'.unplaced := by
  have ht' : t'.Noteless := Value.noteless_of_unlocated t' (h ▸ ht.unlocated)
  rcases (unlocates_tree ht asked filename).outcome with
    ⟨v, hv, hmap⟩ | ⟨fault, g, hfault, hg, hplace⟩
  all_goals rcases (unlocates_tree ht' asked filename).outcome with
    ⟨v', hv', hmap'⟩ | ⟨fault', g', hfault', hg', hplace'⟩
  · rw [h, hmap'] at hmap
    exact .inl ⟨v, v', hv, hv', by simpa using hmap.symm⟩
  · rw [h, hg'] at hmap
    simp at hmap
  · rw [h, hmap'] at hg
    simp at hg
  · rw [h, hg'] at hg
    obtain rfl : g' = g := by simpa using hg
    exact .inr ⟨fault, fault', hfault, hfault', hplace.trans hplace'.symm⟩

/-- The tree of `<$else/>` with the place at which it was read. -/
def locatedElse : Node :=
  { loneElse with origin := {
      loc := some ⟨⟨.scalar (.int 1), .scalar (.int 2), .scalar .null⟩,
        ⟨.scalar (.int 1), .scalar (.int 10), .scalar .null⟩⟩
      range := some (.scalar (.int 2), .scalar (.int 10)) } }

lemma noteless_locatedElse : (Value.node (.fragment [.node locatedElse])).Noteless := by
  have hname : (Value.node (nameTree "$else")).Noteless :=
    .node rfl (by simp [nameTree, Value.Throughout.scalar])
  have hempty : (Value.list []).Noteless := .list (by simp)
  have hopening : (Value.node (openingTree "$else" [] true)).Noteless :=
    .node rfl (by simp [openingTree, hname, hempty, Value.Throughout.scalar])
  have helement : (Value.node locatedElse).Noteless :=
    .node rfl (by
      simp [locatedElse, loneElse, elementTree, hopening, hempty, Value.Throughout.scalar])
  exact lasting_noteless.throughout_fragment (by simpa using helement)

/-- A branch without a chain is complained of in the same words, whether its place is known or
not. -/
theorem locatedElse_indifferent_to_locations :
    (Value.node (.fragment [.node locatedElse])).Noteless ∧
    (Value.node (.fragment [.node locatedElse])).unlocated =
      (Value.node (.fragment [.node loneElse])).unlocated ∧
    (tree Channels.initial.asks "a.jsx" (.node (.fragment [.node locatedElse]))).toExcept ≠
      (tree Channels.initial.asks "a.jsx" (.node (.fragment [.node loneElse]))).toExcept ∧
    ∃ fault fault',
      (tree Channels.initial.asks "a.jsx" (.node (.fragment [.node locatedElse]))).toExcept =
        .error fault ∧
      (tree Channels.initial.asks "a.jsx" (.node (.fragment [.node loneElse]))).toExcept =
        .error fault' ∧
      fault.unplaced = fault'.unplaced := by
  have hmap : (Value.node (.fragment [.node locatedElse])).unlocated =
      (Value.node (.fragment [.node loneElse])).unlocated := rfl
  have hlocated :
      (tree Channels.initial.asks "a.jsx" (.node (.fragment [.node locatedElse]))).toExcept =
        .error (.complaint ⟨.orphanChainContinuation, "Need preceding <$if> for <$else />",
          some ⟨⟨.scalar (.int 1), .scalar (.int 2), .scalar (.int 2)⟩,
            ⟨.scalar (.int 1), .scalar (.int 10), .scalar (.int 10)⟩⟩⟩) := rfl
  have hplain : (tree Channels.initial.asks "a.jsx" (.node (.fragment [.node loneElse]))).toExcept =
      .error (.complaint
        ⟨.orphanChainContinuation, "Need preceding <$if> for <$else />", none⟩) := rfl
  refine ⟨noteless_locatedElse, hmap, by simp [hlocated, hplain], ?_⟩
  refine (tree_indifferent_to_locations noteless_locatedElse hmap _ "a.jsx").resolve_left ?_
  simp [hlocated]

end Expand

end JsxControl
