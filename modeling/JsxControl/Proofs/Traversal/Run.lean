import JsxControl.Proofs.Entries
import JsxControl.Proofs.Traversal.Progress
import JsxControl.Traversal.Rules

/-!
# What a traversal visits

A visitor may replace the node that it sees and cut items behind it. Then the traversal of a tree
ends, and its calls are a tour of the tree as it was at the start: every node is visited after those
in its slots, except for nodes in items that were cut before, and nothing else is. The tree that it
leaves is the one at the start with what these calls have done.

The calls are what a second visitor notes down that does the same as the first one. The traversal is
followed part by part: through the items behind a place of a list, the content of a field, the
fields behind a place, and so through all nodes.
-/

namespace JsxControl.Traversal

variable {σ α : Type}

/-! ### Visitors -/

/-- An edit that does no more than to replace the visited node and to cut items behind it. -/
structure Edit.Mild (edit : Edit) : Prop where
  again : edit.again = false
  added : edit.added = []
  drop : edit.drop = false

/-- A visitor that never fails, and replaces nodes and cuts items at will. -/
def Visitor.Mild (visitor : Visitor σ) : Prop :=
  ∀ visit s, ∃ edit s', visitor visit s = .ok (edit, s') ∧ edit.Mild

/-- A state together with notes on the calls so far. -/
abbrev Noting (σ : Type) := σ × List (Visit × Edit)

/-- The visitor that does the same and notes down what it has seen and done. -/
def recording (visitor : Visitor σ) : Visitor (Noting σ) := fun visit (s, log) => do
  let (edit, s) ← visitor visit s
  return (edit, s, log ++ [(visit, edit)])

/-- What is noted down of a call. -/
def Call.entry (c : Call) : Visit × Edit := (c.visit, c.edit)

@[simp] lemma Call.entry_own (visit : Visit) (edit : Edit) :
    (Call.own visit edit).entry = (visit, edit) := rfl

@[simp] lemma Call.entry_under (step : Step) (c : Call) : (c.under step).entry = c.entry := rfl

/-- A part of a traversal gives a result and makes certain calls, which are noted down if the
visitor does so. -/
structure Makes (run : σ → Except Fault (α × σ)) (noting : Noting σ → Except Fault (α × Noting σ))
    (s : σ) (result : α) (s' : σ) (calls : List Call) : Prop where
  plain : run s = .ok (result, s')
  noted : ∀ log, noting (s, log) = .ok (result, s', log ++ calls.map Call.entry)

variable {visitor : Visitor σ} {beyond : Beyond σ} {beyond' : Beyond (Noting σ)}

variable (beyond beyond') in
/-- A single call. -/
lemma leave_eq_ok (hmild : visitor.Mild) (visit : Visit) (s : σ) :
    ∃ edit s', edit.Mild ∧ leave visitor beyond visit s = .ok (visit.node, edit, s') ∧
      ∀ log, leave (recording visitor) beyond' visit (s, log) =
        .ok (visit.node, edit, s', log ++ [(visit, edit)]) := by
  obtain ⟨edit, s', hvisitor, hedit⟩ := hmild visit s
  refine ⟨edit, s', hedit, ?_, fun log => ?_⟩
  · simp [leave, hvisitor, hedit.again, bind, Except.bind, pure, Except.pure]
  · simp [leave, recording, hvisitor, hedit.again, bind, Except.bind, pure, Except.pure]

/-! ### Nodes and their slots -/

/-- The traversal of what is below a node visits all of it, and the node becomes what its calls make
of it. -/
def Toured (visitor : Visitor σ) (beyond : Beyond σ) (beyond' : Beyond (Noting σ)) (n : Node) :
    Prop :=
  ∀ s, ∃ s' calls,
    Makes (children visitor beyond n) (children (recording visitor) beyond' n) s (n.edited calls) s'
      calls ∧ Tours n (· ≠ []) [] calls

/-! ### Lists -/

lemma drop_eq_cons {α : Type} {list rest : List α} {a : α} {j : Nat}
    (h : list.drop j = a :: rest) : list[j]? = some a ∧ list.drop (j + 1) = rest := by
  rw [← List.head?_drop, ← List.tail_drop, h]
  exact ⟨rfl, rfl⟩

section Items

variable {τ : Type} {v : Visitor τ} {b : Beyond τ} {whole : List Value → Node} {key : String}

lemma inItems_cons_of_cut (before : List Value) (cut : Nat) (item : Value) (rest : List Value) :
    inItems v b whole key before (cut + 1) false [] (item :: rest) =
      inItems v b whole key before cut false [] rest := by
  funext s
  rw [inItems]

lemma inItems_cons_of_other {item : Value} (h : item.node? = none) (before rest : List Value) :
    inItems v b whole key before 0 false [] (item :: rest) =
      inItems v b whole key (before ++ [item]) 0 false [] rest := by
  funext s
  cases item with
  | node => simp [Value.node?] at h
  | scalar | list | record =>
    rw [inItems]
    rfl

lemma inItems_cons_of_node {before rest : List Value} {m m' : Node} {s s' s'' : τ} {edit : Edit}
    (hedit : edit.Mild) (hchildren : children v b m s = .ok (m', s'))
    (hleave : leave v b ⟨m', some ⟨whole (before ++ .node m' :: rest), key, before.length⟩⟩ s' =
      .ok (m', edit, s'')) :
    inItems v b whole key before 0 false [] (.node m :: rest) s =
      inItems v b whole key (before ++ [edit.replacement?.getD (.node m')]) edit.cut false [] rest
        s'' := by
  rw [inItems]
  simp [hchildren, hleave, hedit.added, hedit.drop, bind, Except.bind]

variable {n : Node} {i : Nat} {all : List Value}

/-- An item that is reached: the traversal goes through all that is below it, calls the visitor, and
goes on behind it with what these calls have left. -/
lemma inItems_node (hmild : visitor.Mild) (hentry : n.fields[i]? = some (key, .list all))
    (hheld : ∀ items, Entries.get? (whole items).fields key = some (.list items))
    {m : Node} (hm : Toured visitor beyond beyond' m) {past : List Call} {j : Nat}
    (hreached : Reached past i j 0) (hitem : all[j]? = some (.node m)) {rest : List Value}
    (hrest : all.drop (j + 1) = rest)
    (hwhole : ∀ calls : List Call, (∀ c ∈ calls, Address.InItems i j c.address) →
      n.edited (past ++ calls) = whole (editedItems (past ++ calls) i 0 all)) (s : σ) :
    ∃ cut s' here,
      inItems visitor beyond whole key (editedItems past i 0 (all.take j)) 0 false []
        (.node m :: rest) s =
      inItems visitor beyond whole key (editedItems (past ++ here) i 0 (all.take (j + 1))) cut false
        [] rest s' ∧
      (∀ log,
        inItems (recording visitor) beyond' whole key (editedItems past i 0 (all.take j)) 0 false []
          (.node m :: rest) (s, log) =
        inItems (recording visitor) beyond' whole key
          (editedItems (past ++ here) i 0 (all.take (j + 1))) cut false [] rest
          (s', log ++ here.map Call.entry)) ∧
      Tours n (fun p => ∃ q, p = ⟨i, j⟩ :: q) past here ∧ Reached here i (j + 1) cut := by
  obtain ⟨s₁, below, hbelow, htours⟩ := hm s
  have hne (c : Call) (hc : c ∈ below) : c.address ≠ [] := htours.mem_region hc
  have hchild : n.child? ⟨i, j⟩ = some m := by
    simp [Node.child?_of_entry hentry, Value.slot?, hitem, Value.node?]
  -- The visitor sees the list with only what is below the item done since the item was reached.
  have hlist : editedItems (past ++ below.map (Call.under ⟨i, j⟩)) i 0 all =
      editedItems past i 0 (all.take j) ++ .node (m.edited below) :: rest := by
    rw [hreached.editedItems_all hitem hrest hne, Value.editedItem, replacement?_of_ne_nil hne,
      Option.getD_none]
  have hparent : n.edited (past ++ below.map (Call.under ⟨i, j⟩)) =
      whole (editedItems past i 0 (all.take j) ++ .node (m.edited below) :: rest) := by
    rw [← hlist]
    apply hwhole
    rw [List.forall_mem_map]
    exact fun c _ => ⟨j, c.address, rfl, Nat.le_refl j⟩
  let slot : Slot :=
    ⟨whole (editedItems past i 0 (all.take j) ++ .node (m.edited below) :: rest), key,
      (editedItems past i 0 (all.take j)).length⟩
  let visit : Visit := ⟨m.edited below, some slot⟩
  have hseen : n.seen? (past ++ below.map (Call.under ⟨i, j⟩)) [⟨i, j⟩] = some visit := by
    rw [hreached.seen?_item hentry hitem, hparent]
  have hholds : slot.Holds visit.node := ⟨_, hheld _, by simp [visit]⟩
  obtain ⟨edit, s', hedit, hleave, hnoted⟩ := leave_eq_ok beyond beyond' hmild visit s₁
  have htaken := hreached.editedItems_take hitem (below ++ [.own visit edit])
  rw [Value.editedItem_own hne] at htaken
  refine ⟨edit.cut, s', (below ++ [Call.own visit edit]).map (Call.under ⟨i, j⟩), ?_, ?_, ?_, ?_⟩
  · rw [inItems_cons_of_node hedit hbelow.plain hleave, htaken]
  · intro log
    rw [inItems_cons_of_node hedit (hbelow.noted log) (hnoted _), htaken]
    simp [Function.comp_def]
  · apply htours.slot hchild (hreached.spared j (Nat.le_refl j)).outside hseen
    intro given hgiven
    obtain rfl : slot = given := Option.some.inj hgiven
    exact hholds
  · exact .of_item hne visit edit

/-- The items of a list behind those that are passed or cut. -/
lemma inItems_tours (hmild : visitor.Mild) (hentry : n.fields[i]? = some (key, .list all))
    (hheld : ∀ items, Entries.get? (whole items).fields key = some (.list items))
    {items : List Value} (hitems : ∀ m, .node m ∈ items → Toured visitor beyond beyond' m)
    {past : List Call} {j cut : Nat} (hreached : Reached past i j cut)
    (hdrop : all.drop j = items)
    (hwhole : ∀ calls : List Call, (∀ c ∈ calls, Address.InItems i j c.address) →
      n.edited (past ++ calls) = whole (editedItems (past ++ calls) i 0 all)) (s : σ) :
    ∃ s' calls,
      Makes
        (inItems visitor beyond whole key (editedItems past i 0 (all.take j)) cut false [] items)
        (inItems (recording visitor) beyond' whole key (editedItems past i 0 (all.take j)) cut false
          [] items)
        s (editedItems (past ++ calls) i 0 all) s' calls ∧
      Tours n (Address.InItems i (j + cut)) past calls := by
  have hslot (k : Nat) : n.child? ⟨i, k⟩ = all[k]?.bind Value.node? := by
    simp [Node.child?_of_entry hentry, Value.slot?]
  induction items generalizing past j cut s with
  | nil =>
    have hlength : all.length ≤ j := List.drop_eq_nil_iff.mp hdrop
    refine ⟨s, [], ⟨?_, fun log => ?_⟩, .nil ?_⟩
    · rw [inItems, List.append_nil, List.take_of_length_le hlength]
    · rw [inItems, List.append_nil, List.take_of_length_le hlength, List.map_nil, List.append_nil]
    · rintro _ ⟨k, rest, rfl, hk⟩
      apply Node.at?_cons_of_none
      rw [hslot, List.getElem?_eq_none (by omega), Option.bind_none]
  | cons item rest ih =>
    obtain ⟨hitem, hrest⟩ := drop_eq_cons hdrop
    have hlater (m : Node) (hm : .node m ∈ rest) := hitems m (List.mem_cons_of_mem _ hm)
    have hbehind {calls : List Call} (h : ∀ c ∈ calls, Address.InItems i (j + 1) c.address) :
        ∀ c ∈ calls, Address.InItems i j c.address :=
      fun c hc => (h c hc).mono (Nat.le_succ j)
    cases cut with
    | succ cut =>
      obtain ⟨s', calls, hmakes, htours⟩ :=
        ih hlater hreached.pass_cut hrest (fun calls hcalls => hwhole calls (hbehind hcalls)) s
      rw [hreached.editedItems_cut hitem] at hmakes
      rw [show j + (cut + 1) = j + 1 + cut by omega]
      rw [inItems_cons_of_cut, inItems_cons_of_cut]
      exact ⟨s', calls, hmakes, htours⟩
    | zero =>
      cases hnode : item.node? with
      | none =>
        have htaken := hreached.editedItems_take hitem []
        rw [List.map_nil, List.append_nil, Value.editedItem_of_other hnode] at htaken
        obtain ⟨s', calls, hmakes, htours⟩ :=
          ih hlater hreached.pass hrest (fun calls hcalls => hwhole calls (hbehind hcalls)) s
        rw [htaken] at hmakes
        rw [inItems_cons_of_other hnode, inItems_cons_of_other hnode]
        refine ⟨s', calls, hmakes, htours.extend ?_ ?_⟩
        · exact fun p hp => hp.mono (Nat.le_succ j)
        · rintro _ ⟨k, q, rfl, hk⟩ hsome
          rcases Nat.eq_or_lt_of_le hk with rfl | hk
          · rw [Nat.add_zero, Node.at?_cons_of_none (by simp [hslot, hitem, hnode])] at hsome
            simp at hsome
          · exact .inl ⟨k, q, rfl, by omega⟩
      | some m =>
        obtain rfl : item = .node m := by cases item <;> simp_all [Value.node?]
        obtain ⟨cut, s₁, here, hplain, hnoted, hhere, hcut⟩ :=
          inItems_node hmild hentry hheld (hitems m (by simp)) hreached hitem hrest hwhole s
        have hwhole' (calls : List Call)
            (hcalls : ∀ c ∈ calls, Address.InItems i (j + 1) c.address) :
            n.edited (past ++ here ++ calls) =
              whole (editedItems (past ++ here ++ calls) i 0 all) := by
          rw [List.append_assoc]
          apply hwhole
          rw [List.forall_mem_append]
          refine ⟨fun c hc => ?_, hbehind hcalls⟩
          obtain ⟨q, hq⟩ := hhere.mem_region hc
          exact ⟨j, q, hq, Nat.le_refl j⟩
        obtain ⟨s', later, hmakes, hlaterTours⟩ :=
          ih hlater (hreached.append hcut) hrest hwhole' s₁
        rw [List.append_assoc] at hmakes
        refine ⟨s', here ++ later, ⟨?_, fun log => ?_⟩, hhere.behind hcut hlaterTours⟩
        · rw [hplain]
          exact hmakes.plain
        · rw [hnoted, hmakes.noted, List.map_append, List.append_assoc]

end Items

/-! ### Fields -/

section Fields

variable {n : Node} {i : Nat} {key : String} {past : List Call}

lemma inValue_node {τ : Type} {v : Visitor τ} {b : Beyond τ} {whole : Value → Node} {m m' : Node}
    {s s' s'' : τ} {edit : Edit} (hchildren : children v b m s = .ok (m', s'))
    (hleave : leave v b ⟨m', some ⟨whole (.node m'), key, none⟩⟩ s' = .ok (m', edit, s'')) :
    inValue v b whole key (.node m) s = .ok (edit.replacement?.getD (.node m'), s'') := by
  simp [inValue, hchildren, hleave, bind, Except.bind, pure, Except.pure]

/-- A node in a field that nothing has been done to. -/
lemma inValue_node_tours (hmild : visitor.Mild) {m : Node}
    (hentry : n.fields[i]? = some (key, .node m)) {whole : Value → Node}
    (hheld : ∀ v, Entries.get? (whole v).fields key = some v)
    (hm : Toured visitor beyond beyond' m) (hspared : Spared past ⟨i, 0⟩)
    (hwhole : ∀ calls : List Call, (∀ c ∈ calls, Address.InItems i 0 c.address) →
      n.edited (past ++ calls) = whole ((Value.node m).edited (past ++ calls) i)) (s : σ) :
    ∃ s' calls,
      Makes (inValue visitor beyond whole key (.node m))
        (inValue (recording visitor) beyond' whole key (.node m)) s
        ((Value.node m).edited (past ++ calls) i) s' calls ∧
      Tours n (Address.InItems i 0) past calls := by
  obtain ⟨s₁, below, hbelow, htours⟩ := hm s
  have hne (c : Call) (hc : c ∈ below) : c.address ≠ [] := htours.mem_region hc
  have hheldHere : (Value.node m).slot? 0 = some m := by simp [Value.slot?]
  have hchild : n.child? ⟨i, 0⟩ = some m := (Node.child?_of_entry hentry 0).trans hheldHere
  have houtside : within ⟨i, 0⟩ past = [] := hspared.outside
  have hparent : n.edited (past ++ below.map (Call.under ⟨i, 0⟩)) =
      whole (.node (m.edited below)) := by
    rw [hwhole, Value.edited, within_append, houtside, within_map_under, List.nil_append,
      replacement?_of_ne_nil hne, Option.getD_none]
    rw [List.forall_mem_map]
    exact fun c _ => ⟨0, c.address, rfl, Nat.le_refl 0⟩
  let slot : Slot := ⟨whole (.node (m.edited below)), key, none⟩
  let visit : Visit := ⟨m.edited below, some slot⟩
  have hseen : n.seen? (past ++ below.map (Call.under ⟨i, 0⟩)) [⟨i, 0⟩] = some visit := by
    rw [Node.seen?_slot hentry hheldHere, within_append, houtside, within_map_under,
      List.nil_append, hparent, Value.position?]
  have hholds : slot.Holds visit.node := hheld _
  obtain ⟨edit, s', hedit, hleave, hnoted⟩ := leave_eq_ok beyond beyond' hmild visit s₁
  have htaken : (Value.node m).edited
      (past ++ (below ++ [Call.own visit edit]).map (Call.under ⟨i, 0⟩)) i =
        edit.replacement?.getD (.node (m.edited below)) := by
    rw [Value.edited, within_append, houtside, within_map_under, List.nil_append,
      replacement?_append_own hne, Node.edited_append_own]
  have hslotTours := htours.slot hchild houtside hseen
    (fun given hgiven => Option.some.inj hgiven ▸ hholds) edit
  refine ⟨s', _, ⟨?_, fun log => ?_⟩, hslotTours.extend ?_ ?_⟩
  · rw [inValue_node hbelow.plain hleave, htaken]
  · rw [inValue_node (hbelow.noted log) (hnoted _), htaken]
    simp [Function.comp_def]
  · rintro _ ⟨q, rfl⟩
    exact ⟨0, q, rfl, Nat.le_refl 0⟩
  · rintro _ ⟨k, q, rfl, -⟩ hsome
    by_cases hk : k = 0
    · exact .inl ⟨q, by rw [hk]⟩
    · rw [Node.at?_cons_of_none (by simp [Node.child?_of_entry hentry, Value.slot?, hk])] at hsome
      simp at hsome

/-- The content of a field that nothing has been done to. -/
lemma inValue_tours (hmild : visitor.Mild) {v : Value} (hentry : n.fields[i]? = some (key, v))
    {whole : Value → Node} (hheld : ∀ v, Entries.get? (whole v).fields key = some v)
    (hslots : ∀ m ∈ v.slotNodes, Toured visitor beyond beyond' m)
    (hspared : ∀ k, Spared past ⟨i, k⟩)
    (hwhole : ∀ calls : List Call, (∀ c ∈ calls, Address.InItems i 0 c.address) →
      n.edited (past ++ calls) = whole (v.edited (past ++ calls) i)) (s : σ) :
    ∃ s' calls,
      Makes (inValue visitor beyond whole key v) (inValue (recording visitor) beyond' whole key v)
        s (v.edited (past ++ calls) i) s' calls ∧
      Tours n (Address.InItems i 0) past calls := by
  cases v with
  | scalar | record =>
    refine ⟨s, [], ⟨by rw [inValue, Value.edited], fun log => ?_⟩, .nil ?_⟩
    · rw [inValue, Value.edited, List.map_nil, List.append_nil]
    · rintro _ ⟨k, rest, rfl, -⟩
      exact Node.at?_cons_of_none (Node.child?_of_entry hentry k) rest
  | list items =>
    obtain ⟨s', calls, hmakes, htours⟩ :=
      inItems_tours hmild hentry (fun items => hheld (.list items))
        (fun m hm => hslots m (Value.mem_slotNodes_list.mpr hm)) (.start hspared) List.drop_zero
        (fun calls hcalls => by rw [hwhole calls hcalls, Value.edited]) s
    rw [List.take_zero, editedItems] at hmakes
    refine ⟨s', calls, ⟨?_, fun log => ?_⟩, htours⟩
    · simp [inValue, Value.edited, hmakes.plain, bind, Except.bind, pure, Except.pure]
    · simp [inValue, Value.edited, hmakes.noted, bind, Except.bind, pure, Except.pure]
  | node m =>
    exact inValue_node_tours hmild hentry hheld (hslots m (by simp [Value.slotNodes])) (hspared 0)
      hwhole s

/-- The fields behind those that are passed. -/
lemma inFields_tours (hmild : visitor.Mild) (hnodup : (Entries.names n.fields).Nodup)
    {fields : List (String × Value)}
    (hslots : ∀ entry ∈ fields, ∀ m ∈ entry.2.slotNodes, Toured visitor beyond beyond' m)
    (hspared : ∀ f k, i ≤ f → Spared past ⟨f, k⟩) (hdrop : n.fields.drop i = fields) (s : σ) :
    ∃ s' calls,
      Makes
        (inFields visitor beyond (⟨n.kind, ·, n.origin⟩) (editedFields past 0 (n.fields.take i))
          fields)
        (inFields (recording visitor) beyond' (⟨n.kind, ·, n.origin⟩)
          (editedFields past 0 (n.fields.take i)) fields)
        s (editedFields (past ++ calls) 0 n.fields) s' calls ∧
      Tours n (Address.InFields i) past calls := by
  induction fields generalizing i past s with
  | nil =>
    have hlength : n.fields.length ≤ i := List.drop_eq_nil_iff.mp hdrop
    refine ⟨s, [], ⟨?_, fun log => ?_⟩, .nil ?_⟩
    · rw [inFields, List.append_nil, List.take_of_length_le hlength]
    · rw [inFields, List.append_nil, List.take_of_length_le hlength, List.map_nil, List.append_nil]
    · rintro _ ⟨step, rest, rfl, hstep⟩
      apply Node.at?_cons_of_none
      rw [Node.child?, List.getElem?_eq_none (by omega), Option.bind_none]
  | cons entry rest ih =>
    obtain ⟨key, v⟩ := entry
    obtain ⟨hentry, hrest⟩ := drop_eq_cons hdrop
    let whole (u : Value) : Node :=
      ⟨n.kind, editedFields past 0 (n.fields.take i) ++ (key, u) :: rest, n.origin⟩
    have hheld (u : Value) : Entries.get? (whole u).fields key = some u := by
      refine Entries.get?_of_mem ?_ (by simp [whole])
      have hnames : Entries.names (whole u).fields = Entries.names n.fields := by
        conv_rhs => rw [← List.take_append_drop i n.fields, hdrop]
        simp [whole]
      rwa [hnames]
    have hwhole (calls : List Call) (hcalls : ∀ c ∈ calls, Address.InItems i 0 c.address) :
        n.edited (past ++ calls) = whole (v.edited (past ++ calls) i) := by
      rw [Node.edited_eq, editedFields_all hspared hentry hrest hcalls]
    obtain ⟨s₁, here, hhere, hhereTours⟩ :=
      inValue_tours hmild hentry hheld (hslots (key, v) (by simp))
        (fun k => hspared i k (Nat.le_refl i)) hwhole s
    have hfield (c : Call) (hc : c ∈ here) : Address.InItems i 0 c.address :=
      hhereTours.mem_region hc
    have hspared' (f k : Nat) (hf : i + 1 ≤ f) : Spared (past ++ here) ⟨f, k⟩ :=
      (hspared f k (by omega)).append (spared_of_other_field hfield (by omega))
    obtain ⟨s', later, hlater, hlaterTours⟩ :=
      ih (fun e he => hslots e (List.mem_cons_of_mem _ he)) hspared' hrest s₁
    rw [editedFields_take hentry hfield, List.append_assoc past] at hlater
    refine ⟨s', here ++ later, ⟨?_, fun log => ?_⟩, hhereTours.nextField hlaterTours⟩
    · rw [inFields, hhere.plain]
      exact hlater.plain
    · rw [inFields, hhere.noted, List.map_append, ← List.append_assoc log]
      exact hlater.noted _

end Fields

/-! ### Trees -/

lemma children_eq {τ : Type} (v : Visitor τ) (b : Beyond τ) (n : Node) (s : τ) :
    children v b n s = do
      let (fields, s) ← inFields v b (⟨n.kind, ·, n.origin⟩) [] n.fields s
      return (⟨n.kind, fields, n.origin⟩, s) := by
  obtain ⟨kind, fields, origin⟩ := n
  rw [children]

/-- All that is below a node, by induction on its slots. -/
lemma toured (hmild : visitor.Mild) (n : Node)
    (hnames : n.Everywhere fun m => (Entries.names m.fields).Nodup) :
    Toured visitor beyond beyond' n := by
  induction n using Node.slot_induction with
  | step n ih =>
    intro s
    obtain ⟨s', calls, hmakes, htours⟩ :=
      inFields_tours hmild hnames.here
        (fun entry hentry m hm => ih m ⟨entry, hentry, hm⟩ (hnames.field hentry m hm))
        (fun f k _ => spared_nil ⟨f, k⟩) List.drop_zero s
    rw [List.take_zero, editedFields, List.nil_append] at hmakes
    refine ⟨s', calls, ⟨?_, fun log => ?_⟩, htours.extend ?_ ?_⟩
    · simp [children_eq, Node.edited_eq, hmakes.plain, bind, Except.bind, pure, Except.pure]
    · simp [children_eq, Node.edited_eq, hmakes.noted, bind, Except.bind, pure, Except.pure]
    · rintro _ ⟨step, r, rfl, -⟩
      exact List.cons_ne_nil step r
    · rintro (_ | ⟨step, r⟩) hp -
      · exact absurd rfl hp
      · exact .inl ⟨step, r, rfl, Nat.zero_le _⟩

/-- A visitor that only replaces the nodes it sees and cuts items behind them gets through every
tree, however far it may go beyond it. Its calls are a tour of the tree as it was at the start, with
at most one for each node, and what the traversal gives is the tree with all that these calls have
done, and what the call for the root puts in its place. -/
theorem run_tours (hmild : visitor.Mild) {root : Node}
    (hnames : root.Everywhere fun n => (Entries.names n.fields).Nodup) (limit : Nat) (s : σ) :
    ∃ s' calls,
      run visitor limit (.node root) s = .ok (root.edited calls, replacement? calls, s') ∧
      run (recording visitor) limit (.node root) (s, []) =
        .ok (root.edited calls, replacement? calls, s', calls.map Call.entry) ∧
      Tours root (fun _ => True) [] calls ∧ (calls.map Call.address).Nodup := by
  let beyond := upTo visitor limit
  let beyond' := upTo (recording visitor) limit
  obtain ⟨s₁, below, hbelow, htours⟩ : ∃ s₁ below,
      Makes (children visitor beyond root) (children (recording visitor) beyond' root) s
        (root.edited below) s₁ below ∧ Tours root (· ≠ []) [] below := toured hmild root hnames s
  let visit : Visit := ⟨root.edited below, none⟩
  obtain ⟨edit, s', -, hleave, hnoted⟩ := leave_eq_ok beyond beyond' hmild visit s₁
  have hwhole : Tours root (fun _ => True) [] (below ++ [.own visit edit]) := htours.whole edit
  have htree : root.edited (below ++ [.own visit edit]) = root.edited below :=
    root.edited_append_own below visit edit
  have hroot : replacement? (below ++ [.own visit edit]) = edit.replacement? :=
    replacement?_append_own (fun c hc => htours.mem_region hc) visit edit
  refine ⟨s', below ++ [.own visit edit], ?_, ?_, hwhole, hwhole.nodup⟩
  · rw [htree, hroot]
    simp [run, beyond, hbelow.plain, hleave, visit, bind, Except.bind, pure, Except.pure]
  · rw [htree, hroot]
    simp [run, beyond', hbelow.noted, hnoted, visit, bind, Except.bind, pure, Except.pure]

/-- The list of some identifiers. -/
def row (names : List String) : Node :=
  ⟨.arrayExpression, [("elements", .list (names.map fun name =>
    .node ⟨.identifier, [("name", .text name)], {}⟩))], {}⟩

/-- The visitor that puts the list `[z]` in the place of `a` and cuts one item behind `stop`. -/
def trimmer : Visitor (List Sighting) := fun visit seen =>
  let edit : Edit :=
    match nameOf visit.node with
    | .text "a" => { replacement? := some (row ["z"]) }
    | .text "stop" => { cut := 1 }
    | _ => {}
  .ok (edit, seen ++ [visit.sighting])

lemma trimmer_mild : trimmer.Mild := by
  intro visit seen
  refine ⟨_, _, rfl, ?_⟩
  split
  · exact ⟨rfl, rfl, rfl⟩
  · exact ⟨rfl, rfl, rfl⟩
  · exact ⟨rfl, rfl, rfl⟩

lemma row_names (names : List String) :
    (row names).Everywhere fun n => (Entries.names n.fields).Nodup := by
  rw [Node.everywhere_iff]
  simp [row, Value.everywhere_list, Node.everywhere_iff, Entries.names]

/-- Of `[a, stop, b, c]` the items `b`, which is cut, and `z`, which is put in, are not visited. -/
theorem run_row :
    trimmer.Mild ∧
    ((row ["a", "stop", "b", "c"]).Everywhere fun n => (Entries.names n.fields).Nodup) ∧
    (∃ s' calls,
      run trimmer 0 (row ["a", "stop", "b", "c"]) [] =
        .ok ((row ["a", "stop", "b", "c"]).edited calls, replacement? calls, s') ∧
      run (recording trimmer) 0 (row ["a", "stop", "b", "c"]) ([], []) =
        .ok ((row ["a", "stop", "b", "c"]).edited calls, replacement? calls, s',
          calls.map Call.entry) ∧
      Tours (row ["a", "stop", "b", "c"]) (fun _ => True) [] calls ∧
      (calls.map Call.address).Nodup) ∧
    (run trimmer 0 (row ["a", "stop", "b", "c"]) []).map (fun result =>
        (result.1.fields, result.2.2.map fun sighting => (sighting.name, sighting.index))) =
      .ok
        ([("elements", .list (.node (row ["z"]) :: ["stop", "c"].map fun name =>
          .node ⟨.identifier, [("name", .text name)], {}⟩))],
        [(.text "a", .int 0), (.text "stop", .int 1), (.text "c", .int 2), (.null, .null)]) := by
  refine ⟨trimmer_mild, row_names _, ?_, ?_⟩
  · exact run_tours trimmer_mild (row_names _) 0 []
  · rfl

end JsxControl.Traversal
