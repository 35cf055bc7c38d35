import JsxControl.Proofs.Location.Unlocated
import JsxControl.Proofs.Parsing.Spelling
import JsxControl.Proofs.Parsing.Unambiguous
import JsxControl.Proofs.Writing.Conveyed

/-!
# Printed expressions are read back

The text of a simple expression has parentheses where they are needed: read by the grammar of
expressions it is the expression itself, without its locations, and nothing else.
-/

namespace JsxControl

open Source

namespace Parsing

/-! ### Simple expressions -/

/-- Simple expressions, and items of a list if `spread` is set, which may be spread. Names are not
reserved, except for those of properties; integers are not negative and have no text of their
own. -/
inductive Simple (L : Letters) : Bool → Value → Prop
  | name {s : String} {o : Origin} (ho : o.notes = []) (hs : L.IsName s) :
    Simple L false (.node ⟨.identifier, [("name", .text s)], o⟩)
  | integer {n : Nat} {o : Origin} (ho : o.notes = []) :
    Simple L false (.node ⟨.literal, [("value", .int n), ("raw", .null)], o⟩)
  | array {items : List Value} {o : Origin} (ho : o.notes = [])
    (hitems : ∀ item ∈ items, Simple L true item) :
    Simple L false (.node ⟨.arrayExpression, [("elements", .list items)], o⟩)
  | member {v : Value} {s : String} {o o' : Origin} (ho : o.notes = []) (ho' : o'.notes = [])
    (hv : Simple L false v) (hs : L.IsWord s) :
    Simple L false (.node ⟨.memberExpression,
      [("object", v), ("property", .node ⟨.identifier, [("name", .text s)], o'⟩),
       ("computed", .bool false), ("optional", .bool false)], o⟩)
  | element {v index : Value} {o : Origin} (ho : o.notes = []) (hv : Simple L false v)
    (hindex : Simple L false index) :
    Simple L false (.node ⟨.memberExpression,
      [("object", v), ("property", index), ("computed", .bool true), ("optional", .bool false)], o⟩)
  | call {v : Value} {arguments : List Value} {o : Origin} (ho : o.notes = [])
    (hv : Simple L false v) (harguments : ∀ argument ∈ arguments, Simple L true argument) :
    Simple L false (.node ⟨.callExpression,
      [("callee", v), ("arguments", .list arguments), ("optional", .bool false)], o⟩)
  | binary {operator : String} {left right : Value} {o : Origin} (ho : o.notes = [])
    (hoperator : operator ∈ operatorLevels.map Prod.fst) (hcoalesce : operator ≠ "??")
    (hleft : Simple L false left) (hright : Simple L false right) :
    Simple L false (.node ⟨Tree.kindOf operator,
      [("operator", .text operator), ("left", left), ("right", right)], o⟩)
  | conditional {test first second : Value} {o : Origin} (ho : o.notes = [])
    (htest : Simple L false test) (hfirst : Simple L false first)
    (hsecond : Simple L false second) :
    Simple L false (.node ⟨.conditionalExpression,
      [("test", test), ("consequent", first), ("alternate", second)], o⟩)
  | arrow {params : List (String × Origin)} {body : Value} {o : Origin} (ho : o.notes = [])
    (hparams : ∀ param ∈ params, L.IsName param.1 ∧ param.2.notes = [])
    (hbody : Simple L false body) :
    Simple L false (.node ⟨.arrowFunctionExpression,
      [("params", .list (params.map fun param =>
        .node ⟨.identifier, [("name", .text param.1)], param.2⟩)),
       ("body", body), ("expression", .bool true)], o⟩)
  | spread {v : Value} {o : Origin} (ho : o.notes = []) (hv : Simple L false v) :
    Simple L true (.node ⟨.spreadElement, [("argument", v)], o⟩)
  | item {v : Value} (hv : Simple L false v) : Simple L true v

/-! ### Printed expressions -/

/-- An expression of the level `l` is written as a text that is read as the expression. A text that
does not end with a number has any punctuator behind it. -/
structure Printed (L : Letters) (v : Value) (l : Nat) (s : String) (ts : List Token) : Prop where
  level : Source.level v = .ok l
  bounds : 2 ≤ l ∧ l ≤ 20 ∧ (l ≤ 14 ∨ 18 ≤ l)
  written : ∀ depth, v.sourceAt depth = .ok (.text s)
  spells : L.Spells L.BreaksNumber s ts
  derives : Derives (.level l) ts [v.unlocated]
  number : ∃ isNumber, isIntegerLiteral v = .ok isNumber ∧
    (isNumber = false → 18 ≤ l → L.Spells L.Breaks s ts)
  body : v.isA .blockStatement = false ∧ v.isA .objectExpression = false

/-- What an item of a list is written as, and read as. -/
structure PrintedItem (L : Letters) (spread : Bool) (v : Value) (s : String) (ts : List Token) :
    Prop where
  written : ∀ depth, v.sourceAt depth = .ok (.text s)
  bare : enclose assignLevel v (.text s) = .ok (.text s)
  spells : L.Spells L.BreaksNumber s ts
  derives : Derives (.item spread) ts [v.unlocated]

variable {L : Letters} {v : Value} {l : Nat} {s : String} {ts : List Token}

/-- Every expression that is at least an assignment can stand in parentheses. -/
lemma Derives.asExpression (h : Derives (.level l) ts [v]) (hl : 2 ≤ l) :
    Derives .expression ts [v] :=
  .expression (.last (.plain (h.tighter hl))) (List.cons_ne_nil v [])

namespace Printed

variable (h : Printed L v l s ts)
include h

/-- In a place that asks for a level an expression is written in parentheses, or it has the
level. -/
lemma enclosed (least least' : Nat) (hleast : least' ≤ 20) (hl : least ≤ l → least' ≤ l) :
    ∃ s' ts', enclose least v (.text s) = .ok (.text s') ∧ L.Spells L.BreaksNumber s' ts' ∧
      Derives (.level least') ts' [v.unlocated] ∧
      (isIntegerLiteral v = .ok false → 18 ≤ least → L.Spells L.Breaks s' ts') := by
  by_cases hlow : l < least
  · have hspells : L.Spells (fun _ => True) ("(" ++ s ++ ")") (.mark "(" :: ts ++ [.mark ")"]) :=
      h.spells.bracketed (by simp)
    refine ⟨"(" ++ s ++ ")", _, ?_, hspells.anywhere, ?_, fun _ _ => hspells.anywhere⟩
    · simp [enclose, h.level, hlow]
    · exact (Derives.parentheses (h.derives.asExpression h.bounds.1)).tighter hleast
  · have hhigh : least ≤ l := Nat.le_of_not_lt hlow
    refine ⟨s, ts, ?_, h.spells, h.derives.tighter (hl hhigh), fun hnumber hleast' => ?_⟩
    · simp [enclose, h.level, hlow]
    · obtain ⟨isNumber, hisNumber, hspells⟩ := h.number
      obtain rfl : isNumber = false := Except.ok.inj (hisNumber.symm.trans hnumber)
      exact hspells rfl (Nat.le_trans hleast' hhigh)

lemma item (spread : Bool) : PrintedItem L spread v s ts where
  written := h.written
  bare := by
    have hlow : ¬ l < assignLevel := Nat.not_lt.mpr h.bounds.1
    simp [enclose, h.level, hlow]
  spells := h.spells
  derives := .plain (h.derives.tighter h.bounds.1)

end Printed

/-! ### Names and integers -/

lemma sourceAt_name (s : String) (o : Origin) (depth : Nat) :
    Value.sourceAt depth (.node ⟨.identifier, [("name", .text s)], o⟩) = .ok (.text s) := by
  simp [Value.sourceAt, Node.sourceAt]

lemma printed_name {o : Origin} (ho : o.notes = []) (hs : L.IsName s) :
    Printed L (.node ⟨.identifier, [("name", .text s)], o⟩) 20 s [.word s] where
  level := rfl
  bounds := by decide
  written := sourceAt_name s o
  spells := Letters.spells_name hs
  derives := by simpa [ho, Tree.name] using Derives.name hs.2
  number := ⟨false, rfl, fun _ _ => Letters.spells_word hs.1⟩
  body := ⟨rfl, rfl⟩

lemma printed_integer (n : Nat) {o : Origin} (ho : o.notes = []) :
    Printed L (.node ⟨.literal, [("value", .int n), ("raw", .null)], o⟩) 20 (toString n)
      [.integer n] where
  level := rfl
  bounds := by decide
  written depth := by
    simp [Value.sourceAt, Node.sourceAt, Source.literal, Value.isNull, valueText, scalarText]
    rfl
  spells := Letters.spells_integer n
  derives := by simpa [ho, Tree.integer] using Derives.integer n
  number := ⟨true, rfl, fun h => by cases h⟩
  body := ⟨rfl, rfl⟩

/-! ### Accesses and calls -/

section Accesses

variable (h : Printed L v l s ts)
include h

/-- The object of an access is an operand of the tightest level, and a point can stand behind it. -/
lemma Printed.holder :
    ∃ s' ts' isNumber inner, enclose callLevel v (.text s) = .ok (.text inner) ∧
      isIntegerLiteral v = .ok isNumber ∧
      s' = (if isNumber then "(" ++ inner ++ ")" else inner) ∧ L.Spells L.Breaks s' ts' ∧
      Derives (.level 18) ts' [v.unlocated] := by
  obtain ⟨isNumber, hnumber, -⟩ := h.number
  obtain ⟨inner, ts', henclose, hspells, hderives, hbreaks⟩ :=
    h.enclosed callLevel 18 (by decide) id
  cases isNumber with
  | false => exact ⟨inner, ts', false, inner, henclose, hnumber, rfl,
      hbreaks hnumber (Nat.le_refl 18), hderives⟩
  | true =>
    refine ⟨"(" ++ inner ++ ")", _, true, inner, henclose, hnumber, rfl,
      (hspells.bracketed (by simp)).anywhere, ?_⟩
    exact (Derives.parentheses (hderives.asExpression (by decide))).tighter (by decide)

lemma printed_member {o o' : Origin} (ho : o.notes = []) (ho' : o'.notes = []) {name : String}
    (hname : L.IsWord name) : ∃ s ts, Printed L (.node ⟨.memberExpression,
      [("object", v), ("property", .node ⟨.identifier, [("name", .text name)], o'⟩),
       ("computed", .bool false), ("optional", .bool false)], o⟩) 18 s ts := by
  obtain ⟨holder, ts', isNumber, inner, henclose, hnumber, hholder, hspells, hderives⟩ := h.holder
  have hall := hspells.append (Letters.spells_property hname) fun rest _ =>
    Letters.breaks_point name rest
  refine ⟨holder ++ ("." ++ name), _, rfl, by decide, fun depth => ?_,
    hall.mono fun _ hrest => hrest.1, ?_, ⟨false, rfl, fun _ _ => hall⟩, rfl, rfl⟩
  · rw [Value.sourceAt, Node.sourceAt]
    simp [h.written, henclose, hnumber, hholder, sourceAt_name, Value.isSet,
      String.append_assoc]
  · simpa [ho, ho', Tree.member, Tree.name] using hderives.member name

lemma printed_element {index : Value} {l' : Nat} {s' : String} {ts' : List Token}
    (h' : Printed L index l' s' ts') {o : Origin} (ho : o.notes = []) :
    ∃ s ts, Printed L (.node ⟨.memberExpression,
      [("object", v), ("property", index), ("computed", .bool true), ("optional", .bool false)],
      o⟩) 18 s ts := by
  obtain ⟨holder, ts₁, isNumber, inner, henclose, hnumber, hholder, hspells, hderives⟩ := h.holder
  have hall : L.Spells (fun _ => True) (holder ++ ("[" ++ s' ++ "]"))
      (ts₁ ++ (.mark "[" :: ts' ++ [.mark "]"])) :=
    hspells.append_bracketed (fun _ hrest => hrest.1) h'.spells (by simp)
  refine ⟨_, _, rfl, by decide, fun depth => ?_, hall.anywhere, ?_,
    ⟨false, rfl, fun _ _ => hall.anywhere⟩, rfl, rfl⟩
  · rw [Value.sourceAt, Node.sourceAt]
    simp [h.written, henclose, hnumber, hholder, h'.written, Value.isSet, String.append_assoc]
  · simpa [ho, Tree.element] using
      hderives.element (h'.derives.asExpression h'.bounds.1)

lemma printed_call {texts : List String} {arguments : List Value} {ts' : List Token}
    (hitems : ∀ depth, Value.sourceItems depth (.operand assignLevel) arguments =
      .ok (texts.map .text))
    (hspells : L.Spells L.BreaksNumber (", ".intercalate texts) ts')
    (hderives : Derives (.list true) ts' (arguments.map Value.unlocated)) {o : Origin}
    (ho : o.notes = []) :
    ∃ s ts, Printed L (.node ⟨.callExpression,
      [("callee", v), ("arguments", .list arguments), ("optional", .bool false)], o⟩) 18 s ts := by
  obtain ⟨callee, ts₁, henclose, hcallee, hderives', -⟩ :=
    h.enclosed callLevel 18 (by decide) id
  have hall : L.Spells (fun _ => True) (callee ++ ("(" ++ ", ".intercalate texts ++ ")"))
      (ts₁ ++ (.mark "(" :: ts' ++ [.mark ")"])) :=
    hcallee.append_bracketed (fun _ hrest => hrest) hspells (by simp)
  refine ⟨_, _, rfl, by decide, fun depth => ?_, hall.anywhere, ?_,
    ⟨false, rfl, fun _ _ => hall.anywhere⟩, rfl, rfl⟩
  · rw [Value.sourceAt, Node.sourceAt]
    simp [h.written, henclose, Value.sourceParts, hitems, Source.joined_map_text, Value.isSet,
      String.append_assoc]
  · simpa [ho, Tree.call] using hderives'.call hderives

end Accesses

/-! ### Operators and functions -/

/-- The operators of the printer are those of the grammar, and their operands are written with the
levels that the grammar asks for; on the left of `**` no level is between the two. -/
lemma operators_spec : ∀ operator ∈ operatorLevels.map Prod.fst, operator ≠ "??" →
    ∃ e ∈ binaries, e.1.text = operator ∧ operatorLevel (.text operator) = e.2 ∧
      (operandLevels (.text operator) e.2).2 = rightLevel e.1 e.2 ∧
      ((operandLevels (.text operator) e.2).1 = leftLevel e.1 e.2 ∨
        (operandLevels (.text operator) e.2).1 = 15 ∧ leftLevel e.1 e.2 = 16) ∧
      leftLevel e.1 e.2 ≤ 20 ∧ rightLevel e.1 e.2 ≤ 20 ∧ 2 ≤ e.2 ∧ e.2 ≤ 14 := by
  decide

lemma kindOf_eq (operator : String) :
    Tree.kindOf operator = .binaryExpression ∨ Tree.kindOf operator = .logicalExpression := by
  rw [Tree.kindOf]
  split_ifs <;> simp

variable {v' v'' : Value} {l' l'' : Nat} {s' s'' : String} {ts' ts'' : List Token} {o : Origin}

lemma printed_binary {operator : String} (hoperator : operator ∈ operatorLevels.map Prod.fst)
    (hcoalesce : operator ≠ "??") (h : Printed L v l s ts) (h' : Printed L v' l' s' ts')
    (ho : o.notes = []) :
    ∃ l s ts, Printed L (.node ⟨Tree.kindOf operator,
      [("operator", .text operator), ("left", v), ("right", v')], o⟩) l s ts := by
  obtain ⟨⟨t, level⟩, ht, rfl, hlevel, hright, hleft, hleft20, hright20, hlevel2, hlevel14⟩ :=
    operators_spec operator hoperator hcoalesce
  have hleftHolds : (operandLevels (.text t.text) level).1 ≤ l → leftLevel t level ≤ l := by
    have := h.bounds
    simp only at hleft
    omega
  obtain ⟨first, ts₁, hfirst, hspells, hderives, -⟩ := h.enclosed _ _ hleft20 hleftHolds
  obtain ⟨second, ts₂, hsecond, hspells', hderives', -⟩ :=
    h'.enclosed _ _ hright20 (Nat.le_trans (Nat.le_of_eq hright.symm))
  have hall := hspells.spaced (Letters.spells_binary ht) hspells'
  refine ⟨level, _, _, ?_, ⟨hlevel2, by omega, .inl hlevel14⟩, fun depth => ?_, hall, ?_,
    ⟨false, ?_, fun _ hl => by omega⟩, ?_⟩
  · rcases kindOf_eq t.text with hkind | hkind <;>
      simp [hkind, Source.level, levelOfNode, Node.field, Kind.isOther, Entries.get?_cons,
        Value.key, hlevel]
  · rcases kindOf_eq t.text with hkind | hkind <;> rw [hkind, Value.sourceAt, Node.sourceAt] <;>
      simp [Value.key, hlevel, h.written, h'.written, hfirst, hsecond]
  · simpa [ho, Tree.binary] using Derives.binary ht hderives hderives'
  · rcases kindOf_eq t.text with hkind | hkind <;> rw [hkind] <;> rfl
  · rcases kindOf_eq t.text with hkind | hkind <;> rw [hkind] <;> exact ⟨rfl, rfl⟩

lemma printed_conditional (h : Printed L v l s ts) (h' : Printed L v' l' s' ts')
    (h'' : Printed L v'' l'' s'' ts'') (ho : o.notes = []) :
    ∃ s ts, Printed L (.node ⟨.conditionalExpression,
      [("test", v), ("consequent", v'), ("alternate", v'')], o⟩) 3 s ts := by
  obtain ⟨test, ts₁, htest, hspells, hderives, -⟩ :=
    h.enclosed (conditionalLevel + 1) 4 (by decide) id
  obtain ⟨first, ts₂, hfirst, hspells', hderives', -⟩ :=
    h'.enclosed assignLevel 2 (by decide) id
  obtain ⟨second, ts₃, hsecond, hspells'', hderives'', -⟩ :=
    h''.enclosed assignLevel 2 (by decide) id
  have hquestion : L.Spells (fun _ => True) (" " ++ "?" ++ " ") [.mark "?"] :=
    Letters.spells_spaced fun _ => rfl
  have hcolon : L.Spells (fun _ => True) (" " ++ ":" ++ " ") [.mark ":"] :=
    Letters.spells_spaced fun _ => rfl
  have hall := (hspells.spaced hquestion hspells').spaced hcolon hspells''
  refine ⟨_, _, rfl, by decide, fun depth => ?_, hall, ?_, ⟨false, rfl, fun _ hl => by omega⟩,
    rfl, rfl⟩
  · rw [Value.sourceAt, Node.sourceAt]
    have htext : test ++ " ? " ++ first ++ " : " ++ second =
        test ++ " " ++ "?" ++ " " ++ first ++ " " ++ ":" ++ " " ++ second := by
      simp only [show " ? " = " " ++ "?" ++ " " from rfl, show " : " = " " ++ ":" ++ " " from rfl,
        String.append_assoc]
    simp [h.written, h'.written, h''.written, htest, hfirst, hsecond, htext]
  · simpa [ho, Tree.conditional] using Derives.conditional hderives hderives' hderives''

lemma sourceItems_names (params : List (String × Origin)) (depth : Nat) :
    Value.sourceItems depth .plain (params.map fun param =>
      .node ⟨.identifier, [("name", .text param.1)], param.2⟩) =
        .ok ((params.map Prod.fst).map .text) := by
  induction params with
  | nil => rw [List.map_nil, Value.sourceItems]; rfl
  | cons param params ih =>
    simp only [List.map_cons, Value.sourceItems, ih]
    rfl

lemma spells_names {names : List String} (h : ∀ name ∈ names, L.IsName name) :
    L.Spells L.BreaksNumber (", ".intercalate names) (nameTokens names) := by
  induction names with
  | nil => exact Letters.spells_nil.anywhere
  | cons name names ih =>
    rw [List.forall_mem_cons] at h
    have hname := Letters.spells_name h.1
    cases names with
    | nil =>
      rw [String.intercalate_singleton]
      exact hname
    | cons name' names =>
      rw [String.intercalate_cons_cons]
      exact hname.comma (ih h.2)

lemma printed_arrow {params : List (String × Origin)}
    (hparams : ∀ param ∈ params, L.IsName param.1 ∧ param.2.notes = [])
    (h : Printed L v l s ts) (ho : o.notes = []) :
    ∃ s ts, Printed L (.node ⟨.arrowFunctionExpression,
      [("params", .list (params.map fun param =>
        .node ⟨.identifier, [("name", .text param.1)], param.2⟩)),
       ("body", v), ("expression", .bool true)], o⟩) 2 s ts := by
  have hnames : ∀ name ∈ params.map Prod.fst, L.IsName name := by
    rw [List.forall_mem_map]
    exact fun param hparam => (hparams param hparam).1
  have hunlocated : (params.map fun param =>
      Value.node ⟨.identifier, [("name", .text param.1)], param.2⟩).map Value.unlocated =
        (params.map Prod.fst).map Tree.name := by
    rw [List.map_map, List.map_map]
    apply List.map_congr_left
    intro param hparam
    simp [(hparams param hparam).2, Tree.name]
  obtain ⟨body, ts', hbody, hspells, hderives, -⟩ := h.enclosed assignLevel 2 (by decide) id
  have hopen : L.Spells (fun _ => True) "(" [.mark "("] := Letters.spells_mark fun _ => rfl
  have hhead : L.Spells (fun _ => True) ("(" ++ ", ".intercalate (params.map Prod.fst) ++ ") => ")
      ([.mark "("] ++ nameTokens (params.map Prod.fst) ++ [.mark ")", .mark "=>"]) := by
    refine (hopen.followed (spells_names hnames)).append Letters.spells_arrow ?_
    exact fun rest _ => Letters.breaksNumber_cons (by decide) (by decide) (by decide) _
  have hall := hhead.followed hspells
  refine ⟨_, _, rfl, by decide, fun depth => ?_, hall, ?_, ⟨false, rfl, fun _ hl => by omega⟩,
    rfl, rfl⟩
  · rw [Value.sourceAt, Node.sourceAt]
    simp [Value.sourceParts, sourceItems_names, Source.joined_map_text, h.written, h.body, hbody,
      -List.map_map]
  · have harrow := Derives.arrow (fun name hname => (hnames name hname).2) hderives
    simpa [ho, Tree.arrow, hunlocated] using harrow

/-! ### Lists of items -/

lemma printed_spread (h : Printed L v l s ts) (ho : o.notes = []) :
    ∃ s ts, PrintedItem L true (.node ⟨.spreadElement, [("argument", v)], o⟩) s ts := by
  obtain ⟨operand, ts', henclose, hspells, hderives, -⟩ := h.enclosed assignLevel 2 (by decide) id
  have hdots : L.Spells (fun _ => True) "..." [.mark "..."] := Letters.spells_mark fun _ => rfl
  refine ⟨_, _, fun depth => ?_, rfl, hdots.followed hspells, ?_⟩
  · rw [Value.sourceAt, Node.sourceAt]
    simp [h.written, henclose, Value.toText]
  · simpa [ho, Tree.spread] using Derives.spread hderives

/-- Items are written with commas between them, and read as a list. -/
lemma printed_items {items : List Value}
    (h : ∀ item ∈ items, ∃ s ts, PrintedItem L true item s ts) :
    ∃ texts ts, texts.length = items.length ∧
      (∀ depth, Value.sourceItems depth (.operand assignLevel) items = .ok (texts.map .text)) ∧
      L.Spells L.BreaksNumber (", ".intercalate texts) ts ∧
      Derives (.list true) ts (items.map Value.unlocated) := by
  induction items with
  | nil =>
    refine ⟨[], [], rfl, fun depth => ?_, Letters.spells_nil.anywhere, .empty⟩
    rw [Value.sourceItems]
    rfl
  | cons item items ih =>
    rw [List.forall_mem_cons] at h
    obtain ⟨⟨s, ts, hitem⟩, hitems⟩ := h
    obtain ⟨texts, ts', hlength, hwritten, hspells, hderives⟩ := ih hitems
    refine ⟨s :: texts, ?_⟩
    have hall (depth : Nat) : Value.sourceItems depth (.operand assignLevel) (item :: items) =
        .ok ((s :: texts).map .text) := by
      rw [Value.sourceItems]
      simp [Role.finish, Role.admit, hitem.written, hitem.bare, hwritten]
    cases items with
    | nil =>
      obtain rfl := List.length_eq_zero_iff.mp hlength
      refine ⟨ts, rfl, hall, ?_, .last hitem.derives⟩
      rw [String.intercalate_singleton]
      exact hitem.spells
    | cons item' items =>
      obtain ⟨s', texts', rfl⟩ := List.exists_cons_of_length_eq_add_one hlength
      refine ⟨ts ++ .mark "," :: ts', by simpa using hlength, hall, ?_,
        .cons hitem.derives hderives (List.cons_ne_nil _ _)⟩
      rw [String.intercalate_cons_cons]
      exact hitem.spells.comma hspells

lemma printed_array {items : List Value}
    (h : ∀ item ∈ items, ∃ s ts, PrintedItem L true item s ts) (ho : o.notes = []) :
    ∃ s ts, Printed L (.node ⟨.arrayExpression, [("elements", .list items)], o⟩) 20 s ts := by
  obtain ⟨texts, ts', -, hwritten, hspells, hderives⟩ := printed_items h
  have hall : L.Spells (fun _ => True) ("[" ++ ", ".intercalate texts ++ "]")
      (.mark "[" :: ts' ++ [.mark "]"]) := hspells.bracketed (by simp)
  refine ⟨_, _, rfl, by decide, fun depth => ?_, hall.anywhere, ?_,
    ⟨false, rfl, fun _ _ => hall.anywhere⟩, rfl, rfl⟩
  · rw [Value.sourceAt, Node.sourceAt]
    simp [Value.sourceParts, hwritten, Source.joined_map_text]
  · simpa [ho, Tree.array] using Derives.array hderives

/-! ### Simple expressions are read back -/

/-- What printing comes to, for expressions and for items. -/
def PrintedAs (L : Letters) : Bool → Value → Prop
  | false, v => ∃ l s ts, Printed L v l s ts
  | true, v => ∃ s ts, PrintedItem L true v s ts

lemma Simple.printed {spread : Bool} (h : Simple L spread v) : PrintedAs L spread v := by
  induction h with
  | name ho hs => exact ⟨_, _, _, printed_name ho hs⟩
  | integer ho => exact ⟨_, _, _, printed_integer _ ho⟩
  | array ho _ ih => exact ⟨_, printed_array ih ho⟩
  | member ho ho' _ hs ih =>
    obtain ⟨l, s, ts, h⟩ := ih
    exact ⟨_, printed_member h ho ho' hs⟩
  | element ho _ _ ih ih' =>
    obtain ⟨l, s, ts, h⟩ := ih
    obtain ⟨l', s', ts', h'⟩ := ih'
    exact ⟨_, printed_element h h' ho⟩
  | call ho _ _ ih ih' =>
    obtain ⟨l, s, ts, h⟩ := ih
    obtain ⟨texts, ts', -, hwritten, hspells, hderives⟩ := printed_items ih'
    exact ⟨_, printed_call h hwritten hspells hderives ho⟩
  | binary ho hoperator hcoalesce _ _ ih ih' =>
    obtain ⟨l, s, ts, h⟩ := ih
    obtain ⟨l', s', ts', h'⟩ := ih'
    exact printed_binary hoperator hcoalesce h h' ho
  | conditional ho _ _ _ ih ih' ih'' =>
    obtain ⟨l, s, ts, h⟩ := ih
    obtain ⟨l', s', ts', h'⟩ := ih'
    obtain ⟨l'', s'', ts'', h''⟩ := ih''
    exact ⟨_, printed_conditional h h' h'' ho⟩
  | arrow ho hparams _ ih =>
    obtain ⟨l, s, ts, h⟩ := ih
    exact ⟨_, printed_arrow hparams h ho⟩
  | spread ho _ ih =>
    obtain ⟨l, s, ts, h⟩ := ih
    exact printed_spread h ho
  | item _ ih =>
    obtain ⟨l, s, ts, h⟩ := ih
    exact ⟨_, _, h.item true⟩

/-- The source text of a simple expression is read as the expression itself, up to locations, and as
nothing else, whatever letters there are. -/
theorem simple_reads_back (L : Letters) {v : Value} (h : Simple L false v) :
    ∃ text, v.source = .ok (.text text) ∧ ∀ v', ReadsAs L text v' ↔ v' = v.unlocated := by
  obtain ⟨l, text, ts, hprinted⟩ := h.printed
  have htokens : L.tokens? text.toList = some ts := by
    simpa [Letters.tokens?] using hprinted.spells [] Letters.breaksNumber_nil
  have hderives : Derives .expression ts [v.unlocated] :=
    hprinted.derives.asExpression hprinted.bounds.1
  refine ⟨text, hprinted.written 0, fun v' => ?_⟩
  constructor
  · rintro ⟨ts', hts', hderives'⟩
    obtain rfl : ts = ts' := Option.some.inj (htokens.symm.trans hts')
    exact hderives'.unique hderives
  · rintro rfl
    exact ⟨ts, htokens, hderives⟩

/-- The expression `(((n) => n - (n - 1))(...xs) ** 2) ** 3`. -/
def nestedPower : Value :=
  Tree.binary "**"
    (Tree.binary "**"
      (Tree.call
        (Tree.arrow ["n"]
          (Tree.binary "-" (Tree.name "n") (Tree.binary "-" (Tree.name "n") (Tree.integer 1))))
        [Tree.spread (Tree.name "xs")])
      (Tree.integer 2))
    (Tree.integer 3)

lemma simple_nestedPower : Simple Letters.ascii false nestedPower := by
  have hname {s : String} (hs : Letters.ascii.IsName s) :
      Simple Letters.ascii false (Tree.name s) := .name rfl hs
  have hn : Letters.ascii.IsName "n" := ⟨Letters.isWord_of_ascii rfl rfl rfl rfl, by decide⟩
  have hxs : Letters.ascii.IsName "xs" := ⟨Letters.isWord_of_ascii rfl rfl rfl rfl, by decide⟩
  have hbinary {operator : String} (hoperator : operator ∈ operatorLevels.map Prod.fst)
      (hcoalesce : operator ≠ "??") {v v' : Value} (h : Simple Letters.ascii false v)
      (h' : Simple Letters.ascii false v') :
      Simple Letters.ascii false (Tree.binary operator v v') :=
    .binary rfl hoperator hcoalesce h h'
  have hparams : ∀ param ∈ [(("n", {}) : String × Origin)],
      Letters.ascii.IsName param.1 ∧ param.2.notes = [] := by simp [hn]
  have harrow : Simple Letters.ascii false (Tree.arrow ["n"]
      (Tree.binary "-" (Tree.name "n") (Tree.binary "-" (Tree.name "n") (Tree.integer 1)))) :=
    .arrow rfl hparams (hbinary (by decide) (by decide) (hname hn)
      (hbinary (by decide) (by decide) (hname hn) (.integer rfl)))
  refine hbinary (by decide) (by decide) (hbinary (by decide) (by decide) ?_ (.integer rfl))
    (.integer rfl)
  exact .call rfl harrow (by simpa using .spread rfl (hname hxs))

theorem nestedPower_reads_back :
    Simple Letters.ascii false nestedPower ∧
    ∃ text, nestedPower.source = .ok (.text text) ∧
      ∀ v', ReadsAs Letters.ascii text v' ↔ v' = nestedPower.unlocated :=
  ⟨simple_nestedPower, simple_reads_back Letters.ascii simple_nestedPower⟩

example : nestedPower.source = .ok (.text "(((n) => n - (n - 1))(...xs) ** 2) ** 3") := by
  rfl

end Parsing

end JsxControl
