import JsxControl.Proofs.Traversal.Tour

/-!
# How far a tree has been gone through

A list is gone through from left to right. What the calls so far have left of it is in front what
they have made of the items that were reached, and behind the items as they were, of which the next
ones may be gone. `Reached` is this state of a list; it is kept by passing an item and by the calls
at an item. Fields are gone through in the same way, but none of them is ever taken away.
-/

namespace JsxControl.Traversal

/-! ### Lists -/

/-- How far a list has been gone through: of the items from `j` on the next `cut` are gone, and
nothing has been done to those behind them. -/
structure Reached (past : List Call) (i j cut : Nat) : Prop where
  gone : ∀ k, j ≤ k → k < j + cut → Removed past ⟨i, k⟩
  spared : ∀ k, j + cut ≤ k → Spared past ⟨i, k⟩

section Reached

variable {i j cut : Nat} {past here below : List Call} {all : List Value} {item : Value}

namespace Reached

lemma start (h : ∀ k, Spared past ⟨i, k⟩) : Reached past i 0 0 :=
  ⟨fun k _ hk => by omega, fun k _ => h k⟩

lemma pass_cut (h : Reached past i j (cut + 1)) : Reached past i (j + 1) cut :=
  ⟨fun k hj hk => h.gone k (by omega) (by omega), fun k hk => h.spared k (by omega)⟩

lemma pass (h : Reached past i j 0) : Reached past i (j + 1) 0 :=
  ⟨fun k hj hk => by omega, fun k hk => h.spared k (by omega)⟩

/-- The calls at an item leave of those behind it what its own call does not cut. -/
lemma of_item (hbelow : ∀ c ∈ below, c.address ≠ []) (visit : Visit) (edit : Edit) :
    Reached ((below ++ [Call.own visit edit]).map (Call.under ⟨i, j⟩)) i (j + 1) edit.cut := by
  constructor
  · intro k hj hk
    refine ⟨(Call.own visit edit).under ⟨i, j⟩, by simp, ?_⟩
    apply Address.Follows.behind
    · omega
    · simp only [Call.under, Call.own]
      omega
  · intro k hk
    rw [List.map_append]
    apply Spared.append
    · apply spared_of_below hbelow
      simp only [ne_eq, Step.mk.injEq]
      omega
    · rw [spared_iff]
      intro c hc
      obtain rfl : c = (Call.own visit edit).under ⟨i, j⟩ := by simpa using hc
      constructor
      · intro rest hrest
        have hsame := (List.cons.inj hrest).1
        simp only [Step.mk.injEq] at hsame
        omega
      · rw [Call.Removes, Call.under, Call.own, Address.follows_cons_iff]
        simp only [Step.mk.injEq]
        omega

lemma append (h : Reached past i j 0) (hhere : Reached here i (j + 1) cut) :
    Reached (past ++ here) i (j + 1) cut := by
  constructor
  · intro k hj hk
    rw [removed_append]
    exact .inr (hhere.gone k hj hk)
  · intro k hk
    exact (h.spared k (by omega)).append (hhere.spared k hk)

/-- An item that is gone adds nothing to what has become of the list. -/
lemma editedItems_cut (h : Reached past i j (cut + 1)) (hitem : all[j]? = some item) :
    editedItems past i 0 (all.take (j + 1)) = editedItems past i 0 (all.take j) := by
  obtain ⟨hj, -⟩ := List.getElem?_eq_some_iff.mp hitem
  have hgone : Removed past ⟨i, j⟩ := h.gone j (Nat.le_refl j) (by omega)
  rw [List.take_add_one, hitem, editedItems_append, Option.toList_some,
    List.length_take_of_le (by omega), Nat.zero_add, editedItems_cons_of_removed hgone,
    editedItems, List.append_nil]

/-- Calls at the item that is reached change nothing in what comes before it. -/
lemma editedItems_before (calls : List Call) :
    editedItems (past ++ calls.map (Call.under ⟨i, j⟩)) i 0 (all.take j) =
      editedItems past i 0 (all.take j) := by
  apply editedItems_append_calls
  intro k _ hk
  apply spared_of_lt (j := j)
  · rw [List.forall_mem_map]
    exact fun c _ => ⟨j, c.address, rfl, Nat.le_refl j⟩
  · rw [List.length_take] at hk
    omega

/-- What has become of a list up to the item that is reached, after calls at that item. -/
lemma editedItems_take (h : Reached past i j 0) (hitem : all[j]? = some item)
    (calls : List Call) :
    editedItems (past ++ calls.map (Call.under ⟨i, j⟩)) i 0 (all.take (j + 1)) =
      editedItems past i 0 (all.take j) ++ [item.editedItem calls] := by
  obtain ⟨hj, -⟩ := List.getElem?_eq_some_iff.mp hitem
  have hhere : Spared past ⟨i, j⟩ := h.spared j (Nat.le_refl j)
  have hkept : ¬ Removed (past ++ calls.map (Call.under ⟨i, j⟩)) ⟨i, j⟩ := by
    rw [removed_append, not_or]
    exact ⟨hhere.kept, not_removed_map_under _ _⟩
  rw [List.take_add_one, hitem, editedItems_append, editedItems_before, Option.toList_some,
    List.length_take_of_le (by omega), Nat.zero_add, editedItems_cons_of_not_removed hkept,
    within_append, hhere.outside, within_map_under, List.nil_append, editedItems]

/-- What has become of the whole list after calls below the item that is reached. -/
lemma editedItems_all (h : Reached past i j 0) (hitem : all[j]? = some item)
    {rest : List Value} (hrest : all.drop (j + 1) = rest) (hbelow : ∀ c ∈ below, c.address ≠ []) :
    editedItems (past ++ below.map (Call.under ⟨i, j⟩)) i 0 all =
      editedItems past i 0 (all.take j) ++ item.editedItem below :: rest := by
  obtain ⟨hj, -⟩ := List.getElem?_eq_some_iff.mp hitem
  have hlater : editedItems (past ++ below.map (Call.under ⟨i, j⟩)) i (j + 1) rest = rest := by
    apply editedItems_eq_self fun m _ => m.edited_nil
    intro k hk _
    apply (h.spared k (by omega)).append
    apply spared_of_below hbelow
    simp only [ne_eq, Step.mk.injEq]
    omega
  conv_lhs => rw [← List.take_append_drop (j + 1) all]
  rw [editedItems_append, h.editedItems_take hitem, List.length_take_of_le (by omega),
    Nat.zero_add, hrest, hlater, List.append_assoc, List.singleton_append]

/-- What the visitor of the item that is reached sees. -/
lemma seen?_item {n m : Node} {key : String} (h : Reached past i j 0)
    (hentry : n.fields[i]? = some (key, .list all)) (hitem : all[j]? = some (.node m))
    (below : List Call) :
    n.seen? (past ++ below.map (Call.under ⟨i, j⟩)) [⟨i, j⟩] =
      some ⟨m.edited below, some ⟨n.edited (past ++ below.map (Call.under ⟨i, j⟩)), key,
        (editedItems past i 0 (all.take j)).length⟩⟩ := by
  have hslot : (Value.list all).slot? j = some m := by simp [Value.slot?, hitem, Value.node?]
  rw [Node.seen?_slot hentry hslot, within_append, (h.spared j (Nat.le_refl j)).outside,
    within_map_under, List.nil_append, Value.position?, editedItems_before]

end Reached

/-- The tour of an item, and then that of the items behind it that are not cut by then. -/
lemma Tours.behind {n : Node} {later : List Call}
    (hhere : Tours n (fun p => ∃ q, p = ⟨i, j⟩ :: q) past here)
    (hreached : Reached here i (j + 1) cut)
    (hlater : Tours n (Address.InItems i (j + 1 + cut)) (past ++ here) later) :
    Tours n (Address.InItems i j) past (here ++ later) := by
  -- Whether an item is cut does not depend on where the address leads on below it.
  have hremoves (c : Call) (hc : c ∈ here) {k : Nat} (hk : j < k) (p : Address) :
      c.Removes (⟨i, k⟩ :: p) ↔ c.Removes [⟨i, k⟩] := by
    obtain ⟨q, hq⟩ := hhere.mem_region hc
    have hne : (⟨i, k⟩ : Step) ≠ ⟨i, j⟩ := by
      simp only [ne_eq, Step.mk.injEq]
      omega
    simp [Call.Removes, hq, Address.follows_cons_iff, hne]
  refine (hhere.append hlater ?_ ?_).extend ?_ ?_
  · rintro _ _ ⟨q, rfl⟩ ⟨k, r, rfl, hk⟩
    exact .earlierItem (by omega) q r
  · rintro c hc _ ⟨k, r, rfl, hk⟩
    rw [hremoves c hc (by omega)]
    exact fun hremoved => (hreached.spared k hk).kept ⟨c, hc, hremoved⟩
  · rintro _ (⟨q, rfl⟩ | ⟨k, r, rfl, hk⟩)
    · exact ⟨j, q, rfl, Nat.le_refl j⟩
    · exact ⟨k, r, rfl, by omega⟩
  · rintro _ ⟨k, r, rfl, hk⟩ -
    by_cases hhead : k = j
    · exact .inl (.inl ⟨r, by rw [hhead]⟩)
    by_cases hkept : j + 1 + cut ≤ k
    · exact .inl (.inr ⟨k, r, rfl, hkept⟩)
    · obtain ⟨c, hc, hcut⟩ := hreached.gone k (by omega) (by omega)
      exact .inr ⟨c, List.mem_append_left _ hc, (hremoves c hc (by omega) r).mpr hcut⟩

end Reached

/-! ### Fields -/

section Fields

variable {n : Node} {i : Nat} {key : String} {v : Value} {past calls : List Call}

/-- What has become of the fields up to the one that is reached, after calls in that field. -/
lemma editedFields_take (hentry : n.fields[i]? = some (key, v))
    (hcalls : ∀ c ∈ calls, Address.InItems i 0 c.address) :
    editedFields (past ++ calls) 0 (n.fields.take (i + 1)) =
      editedFields past 0 (n.fields.take i) ++ [(key, v.edited (past ++ calls) i)] := by
  obtain ⟨hi, -⟩ := List.getElem?_eq_some_iff.mp hentry
  have hbefore : editedFields (past ++ calls) 0 (n.fields.take i) =
      editedFields past 0 (n.fields.take i) := by
    apply editedFields_append_calls
    intro f k hf
    apply spared_of_other_field hcalls
    rw [List.length_take] at hf
    omega
  rw [List.take_add_one, hentry, editedFields_append, hbefore, Option.toList_some,
    List.length_take_of_le (by omega), Nat.zero_add, editedFields, editedFields]

/-- What has become of all fields by then. -/
lemma editedFields_all (hspared : ∀ f k, i ≤ f → Spared past ⟨f, k⟩)
    (hentry : n.fields[i]? = some (key, v)) {rest : List (String × Value)}
    (hrest : n.fields.drop (i + 1) = rest)
    (hcalls : ∀ c ∈ calls, Address.InItems i 0 c.address) :
    editedFields (past ++ calls) 0 n.fields =
      editedFields past 0 (n.fields.take i) ++ (key, v.edited (past ++ calls) i) :: rest := by
  obtain ⟨hi, -⟩ := List.getElem?_eq_some_iff.mp hentry
  have hlater : editedFields (past ++ calls) (i + 1) rest = rest := by
    apply editedFields_eq_self fun _ _ m _ => m.edited_nil
    intro f k hf
    apply (hspared f k (by omega)).append
    exact spared_of_other_field hcalls (by omega)
  conv_lhs => rw [← List.take_append_drop (i + 1) n.fields]
  rw [editedFields_append, editedFields_take hentry hcalls, List.length_take_of_le (by omega),
    Nat.zero_add, hrest, hlater, List.append_assoc, List.singleton_append]

/-- The tour of a field, and then that of the fields behind it. -/
lemma Tours.nextField {later : List Call} (hhere : Tours n (Address.InItems i 0) past calls)
    (hlater : Tours n (Address.InFields (i + 1)) (past ++ calls) later) :
    Tours n (Address.InFields i) past (calls ++ later) := by
  refine (hhere.append hlater ?_ ?_).extend ?_ ?_
  · rintro _ _ ⟨k, q, rfl, -⟩ ⟨step, r, rfl, hstep⟩
    exact .earlierField (by simp only; omega) q r
  · -- No item of one field is cut by the calls in another one.
    rintro c hc _ ⟨step, r, rfl, hstep⟩ hremoves
    obtain ⟨k, q, hq, -⟩ := hhere.mem_region hc
    rw [Call.Removes, hq, Address.follows_cons_iff] at hremoves
    obtain ⟨rfl, -⟩ | ⟨-, hsame, -⟩ := hremoves
    · simp only at hstep
      omega
    · simp only at hsame
      omega
  · rintro _ (⟨k, q, rfl, -⟩ | ⟨step, r, rfl, hstep⟩)
    · exact ⟨_, q, rfl, Nat.le_refl i⟩
    · exact ⟨step, r, rfl, by omega⟩
  · rintro _ ⟨⟨f, k⟩, r, rfl, hstep⟩ -
    rcases Nat.eq_or_lt_of_le hstep with rfl | hstep
    · exact .inl (.inl ⟨k, r, rfl, Nat.zero_le k⟩)
    · exact .inl (.inr ⟨_, r, rfl, hstep⟩)

end Fields

end JsxControl.Traversal
