import JsxControl.Proofs.Desugar.Agreement

/-!
# Checks for pseudo-elements

Desugaring leaves alone what a check for a pseudo-element is made of, and makes no such check of
anything else.
-/

namespace JsxControl

/-- Only lists have nodes among their parts. -/
lemma Value.eq_list_of_items {v : Value} {n : Node} {rest : List Value}
    (h : v.items = .ok (.node n :: rest)) : v = .list (.node n :: rest) := by
  cases v with
  | list list => simpa [items] using h
  | scalar s =>
    cases s with
    | text t => cases hchars : t.toList <;> simp [items, hchars] at h
    | null | bool | int | float => simp [items] at h
  | record members => cases members <;> simp [items] at h
  | node => simp [items] at h

/-- A value is the name of a pseudo-element if its key is one. -/
lemma Value.isSome_ofName?_iff {v : Value} :
    (∃ k, v.key = .ok k ∧ (Construct.ofName? k).isSome = true) ↔
      ∃ c : Construct, v = .text c.name := by
  constructor
  · rintro ⟨k, hk, hsome⟩
    obtain ⟨c, hc⟩ := Option.isSome_iff_exists.mp hsome
    obtain rfl := Construct.ofName?_eq_some_iff.mp hc
    exact ⟨c, key_eq_ok_iff.mp hk⟩
  · rintro ⟨c, rfl⟩
    exact ⟨_, rfl, by simp⟩

/-- The parts of a call that checks for a pseudo-element. -/
lemma Value.isReferenceGuard_iff {n : Node} : (Value.node n).isReferenceGuard = .ok true ↔
    n.kind = .callExpression ∧ ∃ callee : Node, n.field "callee" = .ok (.node callee) ∧
      callee.kind = .identifier ∧ callee.field "name" = .ok (.text guardFunction) ∧
      ∃ first : Node, ∃ rest, n.field "arguments" = .ok (.list (.node first :: rest)) ∧
        first.kind = .literal ∧ ∃ c : Construct, first.field "value" = .ok (.text c.name) := by
  constructor
  · intro h
    rw [isReferenceGuard] at h
    split_ifs at h with hcall
    · obtain ⟨v, hcallee, hrest⟩ := bind_eq_ok_iff.mp h
      split_ifs at hrest with hident
      · simp at hrest
      obtain ⟨callee, rfl, hidentifier⟩ := isA_iff.mp (by simpa using hident)
      obtain ⟨u, hname, hguarded⟩ := bind_eq_ok_iff.mp hrest
      split at hguarded
      · next s =>
        split_ifs at hguarded with hguard
        · simp at hguarded
        obtain rfl : s = guardFunction := by simpa using hguard
        obtain ⟨w, harguments, hitems⟩ := bind_eq_ok_iff.mp hguarded
        split at hitems
        · simp at hitems
        obtain ⟨list, hlist, hchecked⟩ := bind_eq_ok_iff.mp hitems
        split at hchecked
        · simp at hchecked
        split_ifs at hchecked with hfirst
        · obtain ⟨first, rfl, hliteral⟩ := isA_iff.mp hfirst
          obtain rfl := eq_list_of_items hlist
          obtain ⟨value, hvalue, hkey⟩ : ∃ value, first.field "value" = .ok value ∧
              ∃ k, value.key = .ok k ∧ (Construct.ofName? k).isSome = true := by
            simpa using hchecked
          obtain ⟨c, rfl⟩ := isSome_ofName?_iff.mp hkey
          exact ⟨by simpa using hcall, callee, hcallee, hidentifier, hname, first, _, harguments,
            hliteral, c, hvalue⟩
        · simp at hchecked
      · simp at hguarded
    · simp at h
  · rintro ⟨hkind, callee, hcallee, hident, hname, first, rest, harguments, hliteral, c, hvalue⟩
    simp [isReferenceGuard, hkind, hcallee, hident, hname, harguments, items, hliteral, hvalue, key]

/-! ### Desugared checks -/

/-- Where a kind is that of no replacement and is never replaced, desugaring keeps it. -/
lemma Desugar.single_eq_node_iff {n r : Node} {b : Bool} {later : List Value} {kind : Kind}
    (hkind : kind ∈ [Kind.callExpression, .identifier, .literal]) :
    (single b (.node n) later = .node r ∧ r.kind = kind) ↔ (n = r ∧ n.kind = kind) := by
  constructor
  · rintro ⟨hsingle, rfl⟩
    rcases single_eq b (.node n) later with hkeep | ⟨r', hr', hmade, -⟩
    · obtain rfl := Value.node.inj (hkeep.symm.trans hsingle)
      exact ⟨rfl, rfl⟩
    · obtain rfl := Value.node.inj (hr'.symm.trans hsingle)
      rcases hmade with h | h | h <;> simp [h] at hkind
  · rintro ⟨rfl, rfl⟩
    refine ⟨single_of_kind ?_ ?_ b later, rfl⟩ <;> intro h <;> simp [h] at hkind

/-- A node of a kind that is no replacement and is never replaced is in a desugared content exactly
if it was there before. -/
lemma Value.desugar_eq_node_iff {v : Value} {r : Node} {b : Bool} {kind : Kind}
    (hkind : kind ∈ [Kind.callExpression, .identifier, .literal]) :
    (v.desugar b = .node r ∧ r.kind = kind) ↔ ∃ n : Node, v = .node n ∧ r = n.desugar ∧ n.kind = kind := by
  cases v with
  | node n =>
    rw [Value.desugar, Desugar.single_eq_node_iff hkind]
    constructor
    · rintro ⟨rfl, h⟩
      exact ⟨n, rfl, rfl, by simpa using h⟩
    · rintro ⟨_, h, rfl, hn⟩
      obtain rfl := Value.node.inj h
      exact ⟨rfl, by simpa using hn⟩
  | scalar | list | record => simp [Value.desugar]

/-- A field with a node of such a kind is one before and after its node is desugared. -/
lemma Node.field_desugar_eq_node_iff {n r : Node} (hn : n.origin.notes = []) {name : String}
    {kind : Kind} (hkind : kind ∈ [Kind.callExpression, .identifier, .literal]) :
    (n.desugar.field name = .ok (.node r) ∧ r.kind = kind) ↔
      ∃ m : Node, n.field name = .ok (.node m) ∧ r = m.desugar ∧ m.kind = kind := by
  rw [field_desugar hn, map_eq_ok_iff]
  constructor
  · rintro ⟨⟨v, hv, hdesugar⟩, hr⟩
    obtain ⟨m, rfl, rfl, hm⟩ := (Value.desugar_eq_node_iff hkind).mp ⟨hdesugar, hr⟩
    exact ⟨m, hv, rfl, hm⟩
  · rintro ⟨m, hm, rfl, hmkind⟩
    obtain ⟨hdesugar, hr⟩ := (Value.desugar_eq_node_iff hkind).mpr ⟨m, rfl, rfl, hmkind⟩
    exact ⟨⟨_, hm, hdesugar⟩, hr⟩

lemma Node.field_desugar_eq_text_iff {n : Node} (hn : n.origin.notes = []) {name s : String} :
    n.desugar.field name = .ok (.text s) ↔ n.field name = .ok (.text s) := by
  rw [field_desugar hn, map_eq_ok_iff]
  constructor
  · rintro ⟨v, hv, hdesugar⟩
    exact Value.eq_text_of_desugar hdesugar ▸ hv
  · intro h
    exact ⟨_, h, by rw [Value.desugar]⟩

/-- A literal comes first in a list exactly if it does so before. -/
lemma Value.desugar_eq_literal_cons_iff {v : Value} {b : Bool} {r : Node} :
    (∃ rest, v.desugar b = .list (.node r :: rest)) ∧ r.kind = .literal ↔
      ∃ m : Node, ∃ rest, v = .list (.node m :: rest) ∧ r = m.desugar ∧ m.kind = .literal := by
  constructor
  · rintro ⟨⟨rest', hdesugar⟩, hr⟩
    cases v with
    | list items =>
      cases items with
      | nil => simp [Value.desugar, desugarItems, Desugar.items] at hdesugar
      | cons item rest =>
        rw [Value.desugar, desugarItems_eq_map, List.map_cons, Desugar.items, Value.list.injEq,
          List.cons.injEq] at hdesugar
        cases item with
        | node m =>
          obtain ⟨rfl, hm⟩ := (Desugar.single_eq_node_iff (by simp)).mp ⟨hdesugar.1, hr⟩
          exact ⟨m, rest, rfl, rfl, by simpa using hm⟩
        | scalar | list | record =>
          simp [desugarItem, Desugar.single, Desugar.expansion?, isGuardStatement, isA] at hdesugar
    | node n =>
      rw [Value.desugar] at hdesugar
      rcases Desugar.single_eq b (.node n.desugar) [] with h | ⟨r', h, -⟩ <;>
        simp [h] at hdesugar
    | scalar | record => simp [Value.desugar] at hdesugar
  · rintro ⟨m, rest, rfl, rfl, hm⟩
    have hkeep : Desugar.single b (.node m.desugar)
        ((rest.map desugarItem).take (Desugar.taken (.node m.desugar) (rest.map desugarItem))) =
          .node m.desugar :=
      ((Desugar.single_eq_node_iff (show Kind.literal ∈ _ by simp)).mpr
        ⟨rfl, by simpa using hm⟩).1
    rw [Value.desugar, desugarItems_eq_map, List.map_cons, Desugar.items, desugarItem, hkeep]
    exact ⟨⟨_, rfl⟩, by simpa using hm⟩

/-- A node checks for a pseudo-element exactly if it does so desugared. -/
lemma Node.isReferenceGuard_desugar {n : Node} (hn : n.Everywhere Orderly) :
    (Value.node n.desugar).isReferenceGuard = .ok true ↔
      (Value.node n).isReferenceGuard = .ok true := by
  have hnotes {name : String} {m : Node} (hm : n.field name = .ok (.node m)) :
      m.origin.notes = [] := by
    have hfound : m.Everywhere Orderly := by simpa using hn.found hn.here.1 hm
    exact hfound.here.1
  have hnotesFirst {name : String} {m : Node} {rest : List Value}
      (hm : n.field name = .ok (.list (.node m :: rest))) : m.origin.notes = [] :=
    (Value.everywhere_list.mp (hn.found hn.here.1 hm) m (by simp)).here.1
  rw [Value.isReferenceGuard_iff, Value.isReferenceGuard_iff, kind_desugar]
  refine and_congr_right fun _ => ⟨?_, ?_⟩
  · rintro ⟨callee', hcallee', hident', hname, first', rest', harguments, hliteral', c, hvalue⟩
    obtain ⟨callee, hcallee, rfl, hident⟩ :=
      (field_desugar_eq_node_iff hn.here.1 (by simp)).mp ⟨hcallee', hident'⟩
    rw [field_desugar_eq_text_iff (hnotes hcallee)] at hname
    rw [field_desugar hn.here.1, map_eq_ok_iff] at harguments
    obtain ⟨v, hv, hdesugar⟩ := harguments
    obtain ⟨first, rest, rfl, rfl, hliteral⟩ :=
      Value.desugar_eq_literal_cons_iff.mp ⟨⟨rest', hdesugar⟩, hliteral'⟩
    rw [field_desugar_eq_text_iff (hnotesFirst hv)] at hvalue
    exact ⟨callee, hcallee, hident, hname, first, rest, hv, hliteral, c, hvalue⟩
  · rintro ⟨callee, hcallee, hident, hname, first, rest, harguments, hliteral, c, hvalue⟩
    obtain ⟨hcallee', hident'⟩ :=
      (field_desugar_eq_node_iff hn.here.1 (by simp)).mpr ⟨callee, hcallee, rfl, hident⟩
    obtain ⟨⟨rest', hdesugar⟩, hliteral'⟩ :=
      Value.desugar_eq_literal_cons_iff.mpr ⟨first, rest, rfl, rfl, hliteral⟩
    refine ⟨callee.desugar, hcallee', hident', ?_, first.desugar, rest', ?_, hliteral', c, ?_⟩
    · rwa [field_desugar_eq_text_iff (hnotes hcallee)]
    · rw [field_desugar hn.here.1, harguments, map_ok, hdesugar]
    · rwa [field_desugar_eq_text_iff (hnotesFirst harguments)]

lemma Value.isGuardStatement_iff {n : Node} : (Value.node n).isGuardStatement = true ↔
    n.kind = .expressionStatement ∧
      ∃ e, n.field "expression" = .ok e ∧ e.isReferenceGuard = .ok true := by
  have htrue {x : Except Fault Bool} : x.toOption.getD false = true ↔ x = .ok true := by
    cases x <;> simp [Except.toOption]
  rw [isGuardStatement, Bool.and_eq_true, isA_node, decide_eq_true_eq, htrue]
  apply and_congr_right
  intro _
  cases hfield : n.field "expression" with
  | ok e => simp [content_of_node_field hfield]
  | error =>
    have hnull : (Value.node n).content "expression" = .null := by
      simp [content, hfield, Except.toOption]
    simp [hnull, isReferenceGuard, isA]

/-- A statement checks for a pseudo-element exactly if it does so desugared. -/
lemma Node.isGuardStatement_desugar {n : Node} (hn : n.Everywhere Orderly) :
    (Value.node n.desugar).isGuardStatement = (Value.node n).isGuardStatement := by
  have hnode {e : Value} (he : e.isReferenceGuard = .ok true) :
      ∃ m : Node, e = .node m ∧ m.kind = .callExpression := by
    cases e with
    | node m => exact ⟨m, rfl, (Value.isReferenceGuard_iff.mp he).1⟩
    | scalar | list | record => simp [Value.isReferenceGuard, Value.isA] at he
  rw [Bool.eq_iff_iff, Value.isGuardStatement_iff, Value.isGuardStatement_iff, kind_desugar]
  refine and_congr_right fun _ => ⟨?_, ?_⟩
  · rintro ⟨e', he', hguard⟩
    obtain ⟨m', rfl, hkind⟩ := hnode hguard
    obtain ⟨m, hm, rfl, -⟩ := (field_desugar_eq_node_iff hn.here.1 (by simp)).mp ⟨he', hkind⟩
    have horderly : m.Everywhere Orderly := by simpa using hn.found hn.here.1 hm
    exact ⟨_, hm, (isReferenceGuard_desugar horderly).mp hguard⟩
  · rintro ⟨e, he, hguard⟩
    obtain ⟨m, rfl, hkind⟩ := hnode hguard
    have horderly : m.Everywhere Orderly := by simpa using hn.found hn.here.1 he
    have hm := (field_desugar_eq_node_iff hn.here.1 (show Kind.callExpression ∈ _ by simp)).mpr
      ⟨m, he, rfl, hkind⟩
    exact ⟨_, hm.1, (isReferenceGuard_desugar horderly).mpr hguard⟩

end JsxControl
