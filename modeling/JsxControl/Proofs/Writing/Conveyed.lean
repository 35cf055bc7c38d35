import JsxControl.Proofs.Outcome
import JsxControl.Proofs.Slots
import JsxControl.Source.Text

/-!
# What a text conveys

A text is made from smaller ones, and writing a node may not come to an end. `Conveys parts nodes`
says of a computation that it gives a text in which all the parts stand and all the nodes are
written, or else that it does not come to an end, and then because of one of these nodes. The
judgement goes along `bind`, so that it is read off the text of a node one field at a time.
-/

namespace JsxControl

namespace Source

/-! ### Texts within texts -/

/-- A text stands somewhere in another. -/
def Within (part whole : String) : Prop := part.toList <:+: whole.toList

namespace Within

variable {part middle whole : String}

@[grind .]
lemma refl (s : String) : Within s s := List.infix_rfl

lemma trans (h : Within part middle) (h' : Within middle whole) : Within part whole :=
  List.IsInfix.trans h h'

@[grind .]
lemma append_left (h : Within part whole) (more : String) : Within part (whole ++ more) := by
  rw [Within, String.toList_append]
  exact List.infix_append_of_infix_left h

@[grind .]
lemma append_right (h : Within part whole) (more : String) : Within part (more ++ whole) := by
  rw [Within, String.toList_append]
  exact List.infix_append_of_infix_right h

@[grind .]
lemma inBraces (h : Within part whole) : Within part (inBraces whole) :=
  (h.append_right _).append_left _

attribute [grind =] Value.shown_text

lemma intercalate (separator : String) {parts : List String} (h : part ∈ parts) :
    Within part (separator.intercalate parts) := by
  induction parts with
  | nil => simp at h
  | cons first rest ih =>
    cases rest with
    | nil =>
      obtain rfl : part = first := by simpa using h
      rw [String.intercalate_singleton]
      exact .refl part
    | cons second rest =>
      rw [String.intercalate_cons_cons]
      rcases List.mem_cons.mp h with rfl | h
      · exact ((refl part).append_left _).append_left _
      · exact (ih h).append_right _

lemma block (depth : Nat) {statements : List String} (h : part ∈ statements) :
    Within part (block depth statements) := by
  have hline : Within part ("\n".intercalate (statements.map (indent (depth + 1) ++ ·))) :=
    ((refl part).append_right (indent (depth + 1))).trans
      (intercalate _ (List.mem_map_of_mem h))
  have hfull : statements.isEmpty = false := by
    cases statements <;> simp_all
  rw [Source.block, hfull, if_neg Bool.false_ne_true]
  exact (((hline.append_right _).append_left _).append_left _).inBraces

end Within

/-! ### Joined texts -/

lemma toTexts_map_text (texts : List String) : Value.toTexts (texts.map .text) = .ok texts := by
  induction texts with
  | nil => rfl
  | cons s rest ih => simp [Value.toTexts, Value.toText, ih]

lemma joined_map_text (separator : String) (texts : List String) :
    joined separator (texts.map .text) = .ok (separator.intercalate texts) := by
  simp [joined, toTexts_map_text]

end Source

open Source

/-! ### Nodes in texts -/

namespace Node

/-- A node is written somewhere in a text, inside some number of blocks. -/
def WrittenIn (n : Node) (whole : String) : Prop :=
  ∃ depth part, n.sourceAt depth = .ok (.text part) ∧ Within part whole

/-- Writing a node does not come to an end, whatever it stands in. -/
def Endless (n : Node) : Prop := ∀ depth, n.sourceAt depth = .error .endless

variable {n : Node} {part whole : String}

lemma WrittenIn.trans (h : n.WrittenIn part) (hpart : Within part whole) : n.WrittenIn whole := by
  obtain ⟨depth, s, hs, hwithin⟩ := h
  exact ⟨depth, s, hs, hwithin.trans hpart⟩

lemma WrittenIn.not_endless (h : n.WrittenIn whole) : ¬ n.Endless := by
  obtain ⟨depth, s, hs, -⟩ := h
  intro hendless
  rw [hendless depth] at hs
  simp at hs

end Node

/-! ### The judgement -/

/-- A computation gives a text in which the parts stand and the nodes are written, or it does not
come to an end because one of the nodes does not. -/
inductive Conveys (parts : List String) (nodes : List Node) : Except Fault Value → Prop
  | text {s : String} (hparts : ∀ part ∈ parts, Within part s)
      (hnodes : ∀ m ∈ nodes, m.WrittenIn s) : Conveys parts nodes (.ok (.text s))
  | endless {m : Node} (hm : m ∈ nodes) (h : m.Endless) : Conveys parts nodes (.error .endless)

/-- The same of a computation that gives several texts: each of the nodes is written in one. -/
inductive ConveysAll (nodes : List Node) : Except Fault (List Value) → Prop
  | texts {texts : List String} (h : ∀ m ∈ nodes, ∃ s ∈ texts, m.WrittenIn s) :
    ConveysAll nodes (.ok (texts.map .text))
  | endless {m : Node} (hm : m ∈ nodes) (h : m.Endless) : ConveysAll nodes (.error .endless)

namespace Conveys

variable {parts : List String} {nodes others : List Node} {x : Except Fault Value}

/-- A text that is made from other texts alone. -/
lemma made {s : String} (h : ∀ part ∈ parts, Within part s) : Conveys parts [] (.ok (.text s)) :=
  .text h (by simp)

/-- What a text has as its parts also tells which other parts and nodes are in it. -/
lemma mono {more : List String} (h : Conveys more nodes x)
    (hparts : ∀ s, (∀ part ∈ more, Within part s) → ∀ part ∈ parts, Within part s)
    (hnodes : ∀ s, (∀ part ∈ more, Within part s) → ∀ m ∈ others, m ∈ nodes ∨ m.WrittenIn s)
    (hsubset : ∀ m ∈ nodes, m ∈ others) : Conveys parts others x := by
  cases h with
  | endless hm hendless => exact .endless (hsubset _ hm) hendless
  | @text s hmore hwritten =>
    refine .text (hparts s hmore) fun m hm => ?_
    rcases hnodes s hmore m hm with hm | hm
    · exact hwritten m hm
    · exact hm

lemma congr (h : Conveys parts nodes x) (hnodes : ∀ m, m ∈ others ↔ m ∈ nodes) :
    Conveys parts others x :=
  h.mono (fun _ hs => hs) (fun _ _ m hm => .inl ((hnodes m).mp hm)) fun m hm => (hnodes m).mpr hm

/-- A text becomes a part of the text that is made from it, and its nodes are written there too. -/
lemma bind {f : Value → Except Fault Value} (h : Conveys [] nodes x)
    (hf : ∀ s, x = .ok (.text s) → Conveys (s :: parts) others (f (.text s))) :
    Conveys parts (nodes ++ others) (x >>= f) := by
  cases h with
  | endless hm hendless => exact .endless (List.mem_append_left _ hm) hendless
  | @text s _ hwritten =>
    refine (hf s rfl).mono ?_ ?_ fun m hm => List.mem_append_right _ hm
    · exact fun whole hparts => (List.forall_mem_cons.mp hparts).2
    · intro whole hparts m hm
      rcases List.mem_append.mp hm with hm | hm
      · exact .inr ((hwritten m hm).trans (List.forall_mem_cons.mp hparts).1)
      · exact .inl hm

/-- What is computed first and is not conveyed cannot fail. -/
lemma after {α : Type} {y : Except Fault α} {f : α → Except Fault Value} (h : ∃ a, y = .ok a)
    (hf : ∀ a, Conveys parts nodes (f a)) : Conveys parts nodes (y >>= f) := by
  obtain ⟨a, rfl⟩ := h
  exact hf a

end Conveys

namespace ConveysAll

variable {parts : List String} {nodes others : List Node} {x : Except Fault (List Value)}

/-- One text more, once it is finished, in front of others. -/
lemma cons {y : Except Fault Value} {g : Value → Except Fault Value} (h : Conveys [] nodes y)
    (hg : ∀ s, ∃ t, g (.text s) = .ok (.text t) ∧ Within s t) (hrest : ConveysAll others x) :
    ConveysAll (nodes ++ others) (do
      let written ← g (← y)
      return written :: (← x)) := by
  cases h with
  | endless hm hendless => exact .endless (List.mem_append_left _ hm) hendless
  | @text s _ hwritten =>
    obtain ⟨t, ht, hst⟩ := hg s
    simp only [ok_bind, ht]
    cases hrest with
    | endless hm hendless => exact .endless (List.mem_append_right _ hm) hendless
    | @texts texts hothers =>
      refine @ConveysAll.texts _ (t :: texts) fun m hm => ?_
      rcases List.mem_append.mp hm with hm | hm
      · exact ⟨t, List.mem_cons_self, (hwritten m hm).trans hst⟩
      · exact (hothers m hm).imp fun u hu => ⟨List.mem_cons_of_mem _ hu.1, hu.2⟩

/-- The texts become parts of one text. -/
lemma bind {f : List Value → Except Fault Value} (h : ConveysAll nodes x)
    (hf : ∀ texts : List String, Conveys (texts ++ parts) others (f (texts.map .text))) :
    Conveys parts (nodes ++ others) (x >>= f) := by
  cases h with
  | endless hm hendless => exact .endless (List.mem_append_left _ hm) hendless
  | @texts texts hwritten =>
    refine (hf texts).mono ?_ ?_ fun m hm => List.mem_append_right _ hm
    · exact fun whole hparts part hpart => hparts part (List.mem_append_right _ hpart)
    · intro whole hparts m hm
      rcases List.mem_append.mp hm with hm | hm
      · obtain ⟨s, hs, hms⟩ := hwritten m hm
        exact .inr (hms.trans (hparts s (List.mem_append_left _ hs)))
      · exact .inl hm

/-- The texts are joined, and the whole becomes a part of a text. -/
lemma joined (h : ConveysAll nodes x) (separator : String) {f : String → Except Fault Value}
    (hf : ∀ s, Conveys (s :: parts) others (f s)) :
    Conveys parts (nodes ++ others) (x >>= fun vs => Source.joined separator vs >>= f) := by
  refine h.bind fun texts => ?_
  rw [joined_map_text, ok_bind]
  refine (hf _).mono ?_ (fun _ _ m hm => .inl hm) fun m hm => hm
  intro whole hparts part hpart
  rw [List.forall_mem_cons] at hparts
  rcases List.mem_append.mp hpart with hpart | hpart
  · exact (Within.intercalate separator hpart).trans hparts.1
  · exact hparts.2 part hpart

/-- The texts are the statements of a block. -/
lemma block (h : ConveysAll nodes x) (depth : Nat) :
    Conveys [] nodes (x >>= fun vs => Value.toTexts vs >>= fun statements =>
      .ok (.text (Source.block depth statements))) := by
  have hmade (texts : List String) : Conveys (texts ++ []) []
      (Value.toTexts (texts.map .text) >>= fun statements =>
        .ok (.text (Source.block depth statements))) := by
    rw [toTexts_map_text, ok_bind]
    exact .made fun part hpart => Within.block depth (by simpa using hpart)
  exact (h.bind hmade).congr (by simp)

end ConveysAll

/-! ### Contents of fields -/

/-- What a value is written as conveys its nodes, and it has a level. -/
structure Value.Prints (v : Value) : Prop where
  written : ∀ depth, Conveys [] v.slotNodes (v.sourceAt depth)
  level : ∃ l, Source.level v = .ok l

/-- What the parts of a value are written as in a role conveys its nodes. -/
def Value.PartsPrint (v : Value) (role : Role) : Prop :=
  ∀ depth, ConveysAll v.slotNodes (v.sourceParts depth role)

namespace Value

variable {v : Value}

lemma Prints.enclose (h : v.Prints) (least : Nat) (s : String) :
    ∃ t, Source.enclose least v (.text s) = .ok (.text t) ∧ Within s t := by
  obtain ⟨l, hl⟩ := h.level
  by_cases hleast : l < least
  · exact ⟨"(" ++ s ++ ")", by simp [Source.enclose, hl, hleast], by grind⟩
  · exact ⟨s, by simp [Source.enclose, hl, hleast], .refl s⟩

/-- A value in a place that asks for a level. -/
lemma Prints.enclosed {parts : List String} {others : List Node} (h : v.Prints) (depth least : Nat)
    {f : Value → Except Fault Value} (hf : ∀ s, Conveys (s :: parts) others (f (.text s))) :
    Conveys parts (v.slotNodes ++ others)
      (v.sourceAt depth >>= fun written => Source.enclose least v written >>= f) := by
  refine (h.written depth).bind fun s _ => ?_
  obtain ⟨t, ht, hst⟩ := h.enclose least s
  rw [ht, ok_bind]
  refine (hf t).mono ?_ (fun _ _ m hm => .inl hm) fun m hm => hm
  intro whole hparts
  rw [List.forall_mem_cons] at hparts ⊢
  exact ⟨hst.trans hparts.1, hparts.2⟩

lemma eq_null_of_isNull (h : v.isNull = true) : v = .null := by
  unfold isNull at h
  split at h
  · rfl
  · simp at h

lemma prints_null : Value.null.Prints := by
  refine ⟨fun depth => ?_, ⟨_, rfl⟩⟩
  rw [sourceAt]
  exact .made (by simp)

lemma sourceItems_conveys {items : List Value} {role : Role}
    (hitems : ∀ item ∈ items, item = .null ∨ ∃ n : Node, item = .node n)
    (hprints : ∀ item ∈ items, item.Prints) (hrole : ∀ item ∈ items, role.admit item = .ok ())
    (depth : Nat) : ConveysAll (Value.list items).slotNodes (sourceItems depth role items) := by
  induction items with
  | nil =>
    rw [sourceItems]
    exact @ConveysAll.texts _ [] (by simp)
  | cons item rest ih =>
    rw [List.forall_mem_cons] at hitems hprints hrole
    have hfinish (s : String) : ∃ t, role.finish item (.text s) = .ok (.text t) ∧ Within s t := by
      cases role with
      | operand least => exact hprints.1.enclose least s
      | statement => exact ⟨s, rfl, .refl s⟩
      | declarator => exact ⟨s, rfl, .refl s⟩
    have hslots : (Value.list (item :: rest)).slotNodes =
        item.slotNodes ++ (Value.list rest).slotNodes := by
      rcases hitems.1 with rfl | ⟨n, rfl⟩ <;> rfl
    rw [hslots, sourceItems, hrole.1, ok_bind]
    exact .cons (hprints.1.written depth) hfinish (ih hitems.2 hprints.2 hrole.2)

end Value

end JsxControl
