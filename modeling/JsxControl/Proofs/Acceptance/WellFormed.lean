import JsxControl.Proofs.Complaints.Breach

/-!
# Well-formed constructs

A construct passes its checks exactly if it is well-formed, and a branch only if a chain has claimed
it. So in a grammatical tree a construct is expanded exactly if it can stand where it does and is
well-formed, together with the branches that continue it.
-/

namespace JsxControl

section Checks

variable {element : Node} (h : element.Everywhere Node.Grammatical)
  (hkind : element.kind = .jsxElement)

include h hkind

lemma Breach.unexpected?_eq_none_iff (allowed : List String) :
    unexpected? (.node element) allowed = none ↔
      ∀ attr ∈ Desugar.attributes (.node element), ∃ name ∈ allowed, Desugar.isNamed name attr := by
  obtain ⟨opening, found, hread⟩ := Attributes.exists_read h hkind
  rw [unexpected?, Option.map_eq_none_iff, List.find?_eq_none]
  refine forall₂_congr fun attr hattr => ?_
  simp [Value.isNamed_displayName (hread.attributeName_eq hattr)]

/-- The last branch of a chain passes its checks if it has no attributes. -/
lemma Breach.tested?_eq_none_iff :
    unexpected? (.node element) ["test"] = none ∧ tested? (.node element) = none ↔
      Desugar.attributes (.node element) = [] := by
  rw [unexpected?_eq_none_iff h hkind, tested?, Option.map_eq_none_iff]
  refine ⟨?_, fun hnil => by simp [hnil, Desugar.attribute?]⟩
  rintro ⟨hall, hnone⟩
  rw [List.eq_nil_iff_forall_not_mem]
  intro attr hattr
  obtain ⟨name, hname, hnamed⟩ := hall attr hattr
  obtain rfl : name = "test" := by simpa using hname
  simp only [Desugar.attribute?, List.find?_eq_none, List.mem_reverse] at hnone
  exact hnone attr hattr hnamed

/-- A construct passes its checks if it is well-formed, unless no chain has claimed it. -/
lemma Construct.breaches_eq_none_iff (c : Construct) (claimed : Bool) :
    (c.breaches claimed (.node element)).findSome? id = none ↔
      (claimed = false → c ≠ .otherwiseWhen ∧ c ≠ .otherwise) ∧ c.WellFormed (.node element) := by
  have hunexpected := Breach.unexpected?_eq_none_iff h hkind
  have hunbound : Breach.unbound? (.node element) = none ↔
      (Desugar.expression (.node element) "var").isA .identifier = true := by
    simp [Breach.unbound?]
  have htested : (Breach.ofTested (.node element)).findSome? id = none ↔
      (∀ attr ∈ Desugar.attributes (.node element), ∃ name ∈ ["test"], Desugar.isNamed name attr) ∧
        Desugar.Given (.node element) "test" := by
    simp [Breach.ofTested, hunexpected, ← Breach.given_iff "test" "expression"]
  have hbinder (held : String) : (Breach.ofBinder held (.node element)).findSome? id = none ↔
      Desugar.Given (.node element) "var" ∧ Desugar.Given (.node element) held ∧
        (∀ attr ∈ Desugar.attributes (.node element), ∃ name ∈ ["var", held],
          Desugar.isNamed name attr) ∧
        (Desugar.expression (.node element) "var").isA .identifier = true := by
    simp [Breach.ofBinder, hunexpected, hunbound, ← Breach.given_iff "var" "name",
      ← Breach.given_iff held "expression", and_assoc]
  rw [wellFormed_iff]
  cases c with
  | loop | binding =>
    simp [breaches, hbinder, attributeNames, and_assoc, and_comm, and_left_comm]
  | whenTrue => simp [breaches, htested, attributeNames]
  | otherwiseWhen => cases claimed <;> simp [breaches, htested, attributeNames]
  | otherwise =>
    have hterminal := Breach.tested?_eq_none_iff h hkind
    cases claimed with
    | false => simp [breaches]
    | true => simp [breaches, attributeNames, hterminal, ← List.eq_nil_iff_forall_not_mem]

end Checks

variable {element : Node} {holder : Value} {later : List Value}

/-- Nothing is complained of in a value that is well-formed, unless it continues a chain and none
has claimed it. -/
lemma Value.complaint?_eq_none_iff (h : element.Everywhere Node.Grammatical) (claimed : Bool) :
    complaint? holder claimed (.node element) = none ↔
      (claimed = false → ¬ (Value.node element).Continues) ∧ (Value.node element).WellFormed := by
  rw [complaint?, Option.map_eq_none_iff, breach?]
  cases hc : (Value.node element).construct? with
  | none => simp [Continues, WellFormed, hc]
  | some c =>
    have hchecks := Construct.breaches_eq_none_iff h (Node.kind_of_construct? hc) c claimed
    simp [Continues, WellFormed, hc, hchecks]

/-- Nothing is complained of in a node and in the branches that it takes if it can stand alone and
all of them are well-formed. -/
lemma Value.no_complaint_iff (h : element.Everywhere Node.Grammatical) (hlater : Branches later)
    (hnone : (Value.node element).construct? ≠ some .whenTrue → later = []) :
    (Value.node element :: later).reverse.findSome?
        (complaint? holder ((Value.node element).construct? = some .whenTrue)) = none ↔
      ¬ (Value.node element).Continues ∧ (Value.node element).WellFormed ∧
        ∀ e ∈ later, e.WellFormed := by
  by_cases hopens : (Value.node element).construct? = some .whenTrue
  · have hplaced : ¬ (Value.node element).Continues := by simp [Continues, hopens]
    have hbranches : (∀ e ∈ later, complaint? holder true e = none) ↔
        ∀ e ∈ later, e.WellFormed := by
      refine forall₂_congr fun e he => ?_
      obtain ⟨n, rfl, hn, -⟩ := hlater e he
      simp [complaint?_eq_none_iff hn]
    simp [hopens, hplaced, hbranches, complaint?_eq_none_iff h, and_comm]
  · obtain rfl := hnone hopens
    simp [hopens, complaint?_eq_none_iff h]

/-- A node is left if it is no construct, or one that can stand alone and is well-formed with all
its branches. -/
lemma Expand.leave_judged (h : element.Everywhere Node.Grammatical) (hholder : CanHold holder)
    (hlater : Branches later)
    (hnone : (Value.node element).construct? ≠ some .whenTrue → later = []) (traced : Bool) :
    Judged (¬ (Value.node element).Continues ∧ (Value.node element).WellFormed ∧
        ∀ e ∈ later, e.WellFormed)
      (leave traced holder element (Value.node element).construct? later).toExcept
      (Desugar.replacement? holder.isJsx (.node element) later) :=
  .of_answer (leave_eq h hholder hlater hnone traced) (Value.no_complaint_iff h hlater hnone)

end JsxControl
