import JsxControl.Proofs.Slots
import JsxControl.Proofs.Traversal.Address
import JsxControl.Traversal.Basic

/-!
# What calls make of a tree

A call of a visitor is made for the node at an address. `Node.edited` gives what a tree has become
when certain calls are made: every slot holds what the call for its node has put there, or else the
node with its own slots edited, and the items are gone that some call has cut. `Node.seen?` gives
what the next call sees at an address. Both speak of the calls alone and not of the way in which a
traversal comes to make them.

Addresses are those of the tree as it was before all calls. A call matters to a slot only if it is
made there or below, or if it cuts the item there; `Spared` says that none of some calls does.
-/

namespace JsxControl.Traversal

/-- A call of a visitor: the address of the node, what the visitor sees, and what it does. -/
structure Call where
  address : Address
  visit : Visit
  edit : Edit

namespace Call

/-- The nodes below an address that a call takes away: those in the items that it cuts. -/
def Removes (c : Call) (p : Address) : Prop := c.address.Follows c.edit.cut p

instance (c : Call) (p : Address) : Decidable (c.Removes p) :=
  inferInstanceAs (Decidable (c.address.Follows c.edit.cut p))

/-- The call for the node itself, from which the addresses of the others lead on. -/
def own (visit : Visit) (edit : Edit) : Call := ⟨[], visit, edit⟩

/-- A call for a node that is reached through a slot. -/
def under (step : Step) (c : Call) : Call := { c with address := step :: c.address }

/-- A call that is made in a slot or below it, with the address taken from there. -/
def within? (step : Step) (c : Call) : Option Call :=
  match c.address with
  | [] => none
  | first :: rest => if first = step then some { c with address := rest } else none

end Call

/-- The calls in a slot and below it. -/
def within (step : Step) (calls : List Call) : List Call := calls.filterMap (Call.within? step)

/-- Some call has cut the item in a slot. -/
def Removed (calls : List Call) (step : Step) : Prop := ∃ c ∈ calls, c.Removes [step]

instance (calls : List Call) (step : Step) : Decidable (Removed calls step) :=
  inferInstanceAs (Decidable (∃ c ∈ calls, c.Removes [step]))

variable {calls more : List Call} {step : Step} {i j : Nat}

/-! ### Calls and slots -/

@[simp] lemma within_nil (step : Step) : within step [] = [] := rfl

@[simp] lemma within_append (step : Step) (calls more : List Call) :
    within step (calls ++ more) = within step calls ++ within step more :=
  List.filterMap_append

/-- Calls that have been taken into a slot are found there again. -/
@[simp] lemma within_map_under (step : Step) (calls : List Call) :
    within step (calls.map (Call.under step)) = calls := by
  induction calls with
  | nil => rfl
  | cons c rest ih => simpa [within, Call.within?, Call.under] using ih

@[simp] lemma not_removed_nil (step : Step) : ¬ Removed [] step := by
  simp [Removed]

@[simp] lemma removed_append :
    Removed (calls ++ more) step ↔ Removed calls step ∨ Removed more step := by
  simp [Removed, or_and_right, exists_or]

/-- No item is taken away by the calls at it or below. -/
lemma not_removed_map_under (step : Step) (calls : List Call) :
    ¬ Removed (calls.map (Call.under step)) step := by
  rintro ⟨c, hc, hremoves⟩
  obtain ⟨d, -, rfl⟩ := List.mem_map.mp hc
  exact Address.not_follows_nil (Address.follows_cons_self.mp hremoves)

/-- No call has anything to do with a slot: none is made there or below, and none cuts the item. -/
structure Spared (calls : List Call) (step : Step) : Prop where
  outside : within step calls = []
  kept : ¬ Removed calls step

lemma spared_nil (step : Step) : Spared [] step := ⟨within_nil step, not_removed_nil step⟩

lemma Spared.append (h : Spared calls step) (h' : Spared more step) :
    Spared (calls ++ more) step := by
  constructor
  · rw [within_append, h.outside, h'.outside, List.append_nil]
  · rw [removed_append, not_or]
    exact ⟨h.kept, h'.kept⟩

lemma spared_iff :
    Spared calls step ↔
      ∀ c ∈ calls, (∀ rest, c.address ≠ step :: rest) ∧ ¬ c.Removes [step] := by
  constructor
  · rintro ⟨houtside, hkept⟩ c hc
    refine ⟨fun rest hrest => ?_, fun hremoves => hkept ⟨c, hc, hremoves⟩⟩
    have hnone := List.filterMap_eq_nil_iff.mp houtside c hc
    simp [Call.within?, hrest] at hnone
  · intro h
    refine ⟨List.filterMap_eq_nil_iff.mpr fun c hc => ?_, fun ⟨c, hc, hremoves⟩ =>
      (h c hc).2 hremoves⟩
    cases haddress : c.address with
    | nil => simp [Call.within?, haddress]
    | cons first rest =>
      have hfirst : first ≠ step := by
        rintro rfl
        exact (h c hc).1 rest haddress
      simp [Call.within?, haddress, hfirst]

/-- A call for the node itself does nothing to what is below. -/
lemma spared_of_nil {c : Call} (h : c.address = []) (step : Step) : Spared [c] step := by
  rw [spared_iff]
  intro d hd
  obtain rfl : d = c := List.mem_singleton.mp hd
  refine ⟨by simp [h], ?_⟩
  rw [Call.Removes, h]
  nofun

/-- Calls below a slot do nothing to the other slots. -/
lemma spared_of_below {step' : Step} (h : ∀ c ∈ calls, c.address ≠ []) (hstep : step' ≠ step) :
    Spared (calls.map (Call.under step)) step' := by
  rw [spared_iff, List.forall_mem_map]
  intro c hc
  constructor
  · rintro rest hrest
    exact hstep (List.cons.inj hrest).1.symm
  · rw [Call.Removes, Call.under, Address.follows_cons_iff]
    rintro (⟨hsame, -⟩ | ⟨hnil, -⟩)
    · exact hstep hsame
    · exact h c hc hnil

/-- Calls in other fields and calls further on in the same list do nothing to a slot. -/
lemma spared_of_elsewhere (h : ∀ c ∈ calls, ∃ first rest, c.address = first :: rest ∧
    (step.field = first.field → step.item < first.item)) : Spared calls step := by
  rw [spared_iff]
  intro c hc
  obtain ⟨first, rest, haddress, hlater⟩ := h c hc
  constructor
  · intro q hq
    obtain ⟨rfl, -⟩ := List.cons.inj (haddress.symm.trans hq)
    exact absurd (hlater rfl) (Nat.lt_irrefl _)
  · rw [Call.Removes, haddress, Address.follows_cons_iff]
    rintro (⟨rfl, -⟩ | ⟨-, hfield, hitem, -⟩)
    · exact absurd (hlater rfl) (Nat.lt_irrefl _)
    · exact absurd (hlater hfield) (Nat.lt_asymm hitem)

lemma spared_of_other_field (h : ∀ c ∈ calls, Address.InItems i 0 c.address) {f k : Nat}
    (hf : f ≠ i) : Spared calls ⟨f, k⟩ := by
  apply spared_of_elsewhere
  intro c hc
  obtain ⟨item, rest, haddress, -⟩ := h c hc
  exact ⟨_, rest, haddress, fun hsame => absurd hsame hf⟩

lemma spared_of_lt {k : Nat} (h : ∀ c ∈ calls, Address.InItems i j c.address) (hk : k < j) :
    Spared calls ⟨i, k⟩ := by
  apply spared_of_elsewhere
  intro c hc
  obtain ⟨item, rest, haddress, hitem⟩ := h c hc
  exact ⟨_, rest, haddress, fun _ => Nat.lt_of_lt_of_le hk hitem⟩

/-! ### Replacements -/

/-- What the call for the node itself puts in its place. -/
def replacement? (calls : List Call) : Option Value :=
  (calls.find? (·.address.isEmpty)).bind (·.edit.replacement?)

@[simp] lemma replacement?_nil : replacement? [] = none := rfl

/-- Below the own node there is nothing that replaces it. -/
lemma replacement?_of_ne_nil (h : ∀ c ∈ calls, c.address ≠ []) : replacement? calls = none := by
  rw [replacement?, List.find?_eq_none.mpr, Option.bind_none]
  intro c hc
  simpa using h c hc

/-- The call for the node itself comes after those for what is below. -/
lemma replacement?_append_own (h : ∀ c ∈ calls, c.address ≠ []) (visit : Visit) (edit : Edit) :
    replacement? (calls ++ [.own visit edit]) = edit.replacement? := by
  have hbelow : calls.find? (·.address.isEmpty) = none :=
    List.find?_eq_none.mpr fun c hc => by simpa using h c hc
  simp [replacement?, List.find?_append, hbelow, Call.own]

end JsxControl.Traversal

namespace JsxControl

open Traversal

variable {calls more : List Call} {step : Step} {i j : Nat}

/-! ### Edited trees -/

mutual

/-- A node with all that some calls have done to what is below it. -/
def Node.edited (calls : List Call) : Node → Node
  | ⟨kind, fields, origin⟩ => ⟨kind, editedFields calls 0 fields, origin⟩

/-- The fields of a node from the one with the number `i` on. -/
def editedFields (calls : List Call) (i : Nat) : List (String × Value) → List (String × Value)
  | [] => []
  | (key, v) :: rest => (key, v.edited calls i) :: editedFields calls (i + 1) rest

/-- The content of the field with the number `i`. -/
def Value.edited (calls : List Call) (i : Nat) : Value → Value
  | .scalar s => .scalar s
  | .record members => .record members
  | .list items => .list (editedItems calls i 0 items)
  | .node n =>
    let here := within ⟨i, 0⟩ calls
    (replacement? here).getD (.node (n.edited here))

/-- The items from the one with the number `j` on of the list in the field with the number `i`. -/
def editedItems (calls : List Call) (i j : Nat) : List Value → List Value
  | [] => []
  | item :: rest =>
    if Removed calls ⟨i, j⟩ then editedItems calls i (j + 1) rest
    else item.editedItem (within ⟨i, j⟩ calls) :: editedItems calls i (j + 1) rest

/-- An item that stays in its list, by the calls in its slot and below. -/
def Value.editedItem (here : List Call) : Value → Value
  | .scalar s => .scalar s
  | .record members => .record members
  | .list items => .list items
  | .node n => (replacement? here).getD (.node (n.edited here))

end

lemma Node.edited_eq (n : Node) (calls : List Call) :
    n.edited calls = ⟨n.kind, editedFields calls 0 n.fields, n.origin⟩ := by
  obtain ⟨kind, fields, origin⟩ := n
  rw [Node.edited]

/-- Where an item stands when certain calls are made, by how many of those before it are left. -/
def Value.position? (calls : List Call) (step : Step) : Value → Option Nat
  | .list items => some (editedItems calls step.field 0 (items.take step.item)).length
  | .scalar _ | .record _ | .node _ => none

/-- What a visitor sees at an address when certain calls are made: the node there with what is below
it edited, in its slot of the holder with all fields edited. The node at the start has no slot. -/
def Node.seen? (n : Node) (calls : List Call) : Address → Option Visit
  | [] => some ⟨n.edited calls, none⟩
  | [step] => do
    let (key, content) ← n.fields[step.field]?
    let m ← content.slot? step.item
    return ⟨m.edited (within step calls), some ⟨n.edited calls, key, content.position? calls step⟩⟩
  | step :: next :: rest => do
    let m ← n.child? step
    m.seen? (within step calls) (next :: rest)

/-! ### What is not edited -/

lemma Value.editedItem_of_other {item : Value} (h : item.node? = none) (calls : List Call) :
    item.editedItem calls = item := by
  cases item with
  | node => simp [Value.node?] at h
  | scalar | list | record => rw [Value.editedItem]

lemma editedItems_cons_of_removed {item : Value} {rest : List Value} (h : Removed calls ⟨i, j⟩) :
    editedItems calls i j (item :: rest) = editedItems calls i (j + 1) rest := by
  rw [editedItems, if_pos h]

lemma editedItems_cons_of_not_removed {item : Value} {rest : List Value}
    (h : ¬ Removed calls ⟨i, j⟩) :
    editedItems calls i j (item :: rest) =
      item.editedItem (within ⟨i, j⟩ calls) :: editedItems calls i (j + 1) rest := by
  rw [editedItems, if_neg h]

/-- Items to which no call does anything, with nothing to be done below them. -/
lemma editedItems_eq_self {items : List Value} (hnodes : ∀ m, .node m ∈ items → m.edited [] = m)
    (hspared : ∀ k, j ≤ k → k < j + items.length → Spared calls ⟨i, k⟩) :
    editedItems calls i j items = items := by
  induction items generalizing j with
  | nil => rw [editedItems]
  | cons item rest ih =>
    have hhere : Spared calls ⟨i, j⟩ := hspared j (Nat.le_refl j) (by simp)
    have hrest : editedItems calls i (j + 1) rest = rest := by
      apply ih
      · exact fun m hm => hnodes m (List.mem_cons_of_mem _ hm)
      · intro k hk hlength
        apply hspared
        · omega
        · simp only [List.length_cons]
          omega
    rw [editedItems_cons_of_not_removed hhere.kept, hhere.outside, hrest]
    cases item with
    | node m => simp [Value.editedItem, hnodes m]
    | scalar | list | record => rw [Value.editedItem]

lemma Value.edited_eq_self {v : Value} (hnodes : ∀ m ∈ v.slotNodes, m.edited [] = m)
    (hspared : ∀ k, Spared calls ⟨i, k⟩) : v.edited calls i = v := by
  cases v with
  | scalar | record => rw [Value.edited]
  | list items =>
    rw [Value.edited, editedItems_eq_self fun m hm => hnodes m (Value.mem_slotNodes_list.mpr hm)]
    exact fun k _ _ => hspared k
  | node m =>
    rw [Value.edited, (hspared 0).outside, hnodes m (by simp [Value.slotNodes])]
    rfl

lemma editedFields_eq_self {fields : List (String × Value)}
    (hnodes : ∀ entry ∈ fields, ∀ m ∈ entry.2.slotNodes, m.edited [] = m)
    (hspared : ∀ f k, i ≤ f → Spared calls ⟨f, k⟩) : editedFields calls i fields = fields := by
  induction fields generalizing i with
  | nil => rw [editedFields]
  | cons entry rest ih =>
    obtain ⟨key, v⟩ := entry
    have hcontent : v.edited calls i = v :=
      Value.edited_eq_self (hnodes (key, v) (by simp)) fun k => hspared i k (Nat.le_refl i)
    rw [editedFields, hcontent, ih fun e he => hnodes e (List.mem_cons_of_mem _ he)]
    exact fun f k hf => hspared f k (by omega)

/-- Without calls a node stays as it is. -/
lemma Node.edited_nil (n : Node) : n.edited [] = n := by
  induction n using Node.slot_induction with
  | step n ih =>
    obtain ⟨kind, fields, origin⟩ := n
    rw [Node.edited, editedFields_eq_self]
    · exact fun entry hentry m hm => ih m ⟨entry, hentry, hm⟩
    · exact fun f k _ => spared_nil _

/-! ### Further calls -/

/-- Calls that spare some items change nothing in what has become of them. -/
lemma editedItems_append_calls {items : List Value}
    (hspared : ∀ k, j ≤ k → k < j + items.length → Spared more ⟨i, k⟩) :
    editedItems (calls ++ more) i j items = editedItems calls i j items := by
  induction items generalizing j with
  | nil => rw [editedItems, editedItems]
  | cons item rest ih =>
    have hhere : Spared more ⟨i, j⟩ := hspared j (Nat.le_refl j) (by simp)
    have hrest : editedItems (calls ++ more) i (j + 1) rest = editedItems calls i (j + 1) rest := by
      apply ih
      intro k hk hlength
      apply hspared
      · omega
      · simp only [List.length_cons]
        omega
    by_cases hremoved : Removed calls ⟨i, j⟩
    · rw [editedItems_cons_of_removed hremoved,
        editedItems_cons_of_removed (removed_append.mpr (.inl hremoved)), hrest]
    · have hkept : ¬ Removed (calls ++ more) ⟨i, j⟩ := by
        rw [removed_append, not_or]
        exact ⟨hremoved, hhere.kept⟩
      rw [editedItems_cons_of_not_removed hremoved, editedItems_cons_of_not_removed hkept,
        within_append, hhere.outside, List.append_nil, hrest]

lemma Value.edited_append_calls {v : Value} (hspared : ∀ k, Spared more ⟨i, k⟩) :
    v.edited (calls ++ more) i = v.edited calls i := by
  cases v with
  | scalar | record => rw [Value.edited, Value.edited]
  | list items =>
    rw [Value.edited, Value.edited, editedItems_append_calls]
    exact fun k _ _ => hspared k
  | node m =>
    rw [Value.edited, Value.edited, within_append, (hspared 0).outside, List.append_nil]

lemma editedFields_append_calls {fields : List (String × Value)}
    (hspared : ∀ f k, f < i + fields.length → Spared more ⟨f, k⟩) :
    editedFields (calls ++ more) i fields = editedFields calls i fields := by
  induction fields generalizing i with
  | nil => rw [editedFields, editedFields]
  | cons entry rest ih =>
    obtain ⟨key, v⟩ := entry
    rw [List.length_cons] at hspared
    have hcontent : v.edited (calls ++ more) i = v.edited calls i :=
      Value.edited_append_calls fun k => hspared i k (by omega)
    rw [editedFields, editedFields, hcontent, ih]
    exact fun f k hf => hspared f k (by omega)

/-- The call for a node itself comes too late to change what is below. -/
lemma Node.edited_append_own (n : Node) (calls : List Call) (visit : Visit) (edit : Edit) :
    n.edited (calls ++ [.own visit edit]) = n.edited calls := by
  obtain ⟨kind, fields, origin⟩ := n
  rw [Node.edited, Node.edited, editedFields_append_calls]
  exact fun f k _ => spared_of_nil rfl ⟨f, k⟩

/-! ### Parts of lists -/

lemma editedItems_append (calls : List Call) (i j : Nat) (items items' : List Value) :
    editedItems calls i j (items ++ items') =
      editedItems calls i j items ++ editedItems calls i (j + items.length) items' := by
  induction items generalizing j with
  | nil => simp [editedItems]
  | cons item rest ih =>
    have hlength : j + (item :: rest).length = j + 1 + rest.length := by
      simp only [List.length_cons]
      omega
    rw [List.cons_append, hlength]
    by_cases hremoved : Removed calls ⟨i, j⟩
    · rw [editedItems_cons_of_removed hremoved, editedItems_cons_of_removed hremoved, ih]
    · rw [editedItems_cons_of_not_removed hremoved, editedItems_cons_of_not_removed hremoved, ih,
        List.cons_append]

lemma editedFields_append (calls : List Call) (i : Nat) (fields fields' : List (String × Value)) :
    editedFields calls i (fields ++ fields') =
      editedFields calls i fields ++ editedFields calls (i + fields.length) fields' := by
  induction fields generalizing i with
  | nil => simp [editedFields]
  | cons entry rest ih =>
    obtain ⟨key, v⟩ := entry
    have hlength : i + ((key, v) :: rest).length = i + 1 + rest.length := by
      simp only [List.length_cons]
      omega
    rw [List.cons_append, hlength, editedFields, editedFields, ih, List.cons_append]

@[simp] lemma names_editedFields (calls : List Call) (i : Nat) (fields : List (String × Value)) :
    Entries.names (editedFields calls i fields) = Entries.names fields := by
  induction fields generalizing i with
  | nil => rw [editedFields]
  | cons entry rest ih =>
    obtain ⟨key, v⟩ := entry
    rw [editedFields]
    simpa [Entries.names] using ih (i + 1)

/-- An item with the calls that have been made in its slot. -/
lemma Value.editedItem_own {m : Node} (h : ∀ c ∈ calls, c.address ≠ []) (visit : Visit)
    (edit : Edit) :
    (Value.node m).editedItem (calls ++ [.own visit edit]) =
      edit.replacement?.getD (.node (m.edited calls)) := by
  rw [Value.editedItem, replacement?_append_own h, Node.edited_append_own]

/-! ### What is seen -/

lemma Node.seen?_slot {n m : Node} {key : String} {content : Value}
    (hentry : n.fields[step.field]? = some (key, content))
    (hslot : content.slot? step.item = some m) (calls : List Call) :
    n.seen? calls [step] = some ⟨m.edited (within step calls),
      some ⟨n.edited calls, key, content.position? calls step⟩⟩ := by
  simp [Node.seen?, hentry, hslot]

/-- Below a slot only the calls in it count. -/
lemma Node.seen?_cons {n m : Node} (hchild : n.child? step = some m) (calls : List Call)
    {p : Address} (hp : p ≠ []) : n.seen? calls (step :: p) = m.seen? (within step calls) p := by
  cases p with
  | nil => exact absurd rfl hp
  | cons next rest => simp [Node.seen?, hchild]

end JsxControl
