import JsxControl.Proofs.Acceptance.Construct

/-!
# Where branches may stand

An `$else-if` or an `$else` has to stand in a list, in the run `($else-if)* ($else)?` directly
behind an `$if`. `BranchesFollow` says so of a list by its parts; `Chained` reads the list from the
left, and knows of an item only whether a chain is open in front of it.
-/

namespace JsxControl

/-- Every branch in a list stands behind an `$if` with nothing but `$else-if` between them. -/
def BranchesFollow (items : List Value) : Prop :=
  ∀ before item after, items = before ++ item :: after → item.Continues →
    ∃ early first run, before = early ++ first :: run ∧ first.construct? = some .whenTrue ∧
      ∀ branch ∈ run, branch.construct? = some .otherwiseWhen

lemma branchesFollow_of_not_continues {items : List Value} (h : ∀ item ∈ items, ¬ item.Continues) :
    BranchesFollow items := by
  intro before item after hsplit hitem
  exact absurd hitem (h item (by simp [hsplit]))

/-- The branches that a content puts into slots stand where they may stand. -/
def Value.BranchesPlaced : Value → Prop
  | .node n => ¬ (Value.node n).Continues
  | .list items => BranchesFollow items
  | .scalar _ | .record _ => True

/-- The branches in the slots of a node stand where they may stand. -/
def Node.BranchesPlaced (n : Node) : Prop := ∀ entry ∈ n.fields, entry.2.BranchesPlaced

/-! ### Reading a list from the left -/

/-- Whether a chain is open behind an item. -/
def Value.opens (v : Value) : Bool :=
  v.construct? = some .whenTrue || v.construct? = some .otherwiseWhen

/-- Every branch of a list has an open chain in front of it. -/
def Chained (opened : Bool) : List Value → Prop
  | [] => True
  | item :: rest => (item.Continues → opened = true) ∧ Chained item.opens rest

lemma chained_iff {opened : Bool} {items : List Value} :
    Chained opened items ↔ ∀ before item after, items = before ++ item :: after → item.Continues →
      (∃ early first run, before = early ++ first :: run ∧ first.construct? = some .whenTrue ∧
        ∀ branch ∈ run, branch.construct? = some .otherwiseWhen) ∨
      opened = true ∧ ∀ branch ∈ before, branch.construct? = some .otherwiseWhen := by
  induction items generalizing opened with
  | nil => simp [Chained]
  | cons x rest ih =>
    rw [Chained, ih]
    constructor
    · rintro ⟨hopened, hrest⟩ before item after hsplit hitem
      cases before with
      | nil =>
        obtain ⟨rfl, rfl⟩ : x = item ∧ rest = after := by simpa using hsplit
        exact .inr ⟨hopened hitem, by simp⟩
      | cons y before =>
        obtain ⟨rfl, rfl⟩ : x = y ∧ rest = before ++ item :: after := by simpa using hsplit
        rcases hrest before item after rfl hitem with ⟨early, first, run, rfl, hfirst, hrun⟩ |
          ⟨hopens, hbefore⟩
        · exact .inl ⟨x :: early, first, run, rfl, hfirst, hrun⟩
        · obtain hx | hx : x.construct? = some .whenTrue ∨ x.construct? = some .otherwiseWhen := by
            simpa [Value.opens] using hopens
          · exact .inl ⟨[], x, before, rfl, hx, hbefore⟩
          · exact .inr ⟨hopened (.inl hx), by simpa [hx] using hbefore⟩
    · intro h
      refine ⟨fun hx => ?_, fun before item after hsplit hitem => ?_⟩
      · rcases h [] x rest rfl hx with ⟨early, first, run, hnil, -⟩ | ⟨hopened, -⟩
        · simp at hnil
        · exact hopened
      · rcases h (x :: before) item after (by simp [hsplit]) hitem with
          ⟨early, first, run, hbefore, hfirst, hrun⟩ | ⟨-, hbefore⟩
        · cases early with
          | nil =>
            obtain ⟨rfl, rfl⟩ : x = first ∧ before = run := by simpa using hbefore
            exact .inr ⟨by simp [Value.opens, hfirst], hrun⟩
          | cons y early =>
            obtain ⟨rfl, rfl⟩ : x = y ∧ before = early ++ first :: run := by simpa using hbefore
            exact .inl ⟨early, first, run, rfl, hfirst, hrun⟩
        · rw [List.forall_mem_cons] at hbefore
          exact .inr ⟨by simp [Value.opens, hbefore.1], hbefore.2⟩

lemma branchesFollow_iff_chained {items : List Value} :
    BranchesFollow items ↔ Chained false items := by
  rw [chained_iff]
  simp [BranchesFollow]

/-! ### Runs -/

/-- Behind an open chain the run that continues it may stand. -/
lemma chained_true_iff {items : List Value} :
    Chained true items ↔ Chained false (items.drop (Desugar.run items)) := by
  induction items with
  | nil => simp [Chained]
  | cons item rest ih =>
    rw [Desugar.run]
    split
    · next h => simpa [Chained, Value.opens, h] using ih
    · next h => simp [Chained, Value.opens, h]
    · next hwhen hother =>
      have hcontinues : ¬ item.Continues := not_or.mpr ⟨hwhen, hother⟩
      simp [Chained, hcontinues]

/-- An item and the branches that it takes are passed over together. -/
lemma chained_cons_iff {item : Value} {rest : List Value} :
    Chained false (item :: rest) ↔
      ¬ item.Continues ∧ Chained false (rest.drop (Desugar.taken item rest)) := by
  rw [Chained, Desugar.taken]
  simp only [Bool.false_eq_true, imp_false]
  apply and_congr_right
  intro hcontinues
  split_ifs with hwhen
  · rw [Value.opens, hwhen, ← chained_true_iff]
    rfl
  · have hopens : item.opens = false := by
      simp only [Value.Continues, not_or] at hcontinues
      simp [Value.opens, hwhen, hcontinues.1]
    rw [hopens, List.drop_zero]

end JsxControl
