import JsxControl.Proofs.Writing.Decided

/-!
# Source text of typed trees

A typed tree can be written as source text, and what it is written as is a text, unless an unknown
kind in it is called markup: writing such a node does not come to an end. Messages and traces quote
the source, so that this is what keeps them from failing.
-/

namespace JsxControl

open Source

variable {α : Type} {J : Prop}

/-! ### Texts -/

/-- A computation gives a text. -/
def Writes (J : Prop) : Except Fault Value → Prop := Yields J fun v => ∃ s, v = .text s

/-- A computation gives texts. -/
def WritesAll (J : Prop) : Except Fault (List Value) → Prop :=
  Yields J fun vs => ∃ texts : List String, vs = texts.map .text

lemma Writes.bind {P : α → Prop} {x : Except Fault Value} {f : Value → Except Fault α}
    (h : Writes J x) (hf : ∀ s, Yields J P (f (.text s))) : Yields J P (x >>= f) := by
  refine Yields.bind h ?_
  rintro _ ⟨s, rfl⟩
  exact hf s

namespace WritesAll

variable {P : α → Prop} {x : Except Fault (List Value)}

lemma bind {f : List Value → Except Fault α} (h : WritesAll J x)
    (hf : ∀ texts : List String, Yields J P (f (texts.map .text))) : Yields J P (x >>= f) := by
  refine Yields.bind h ?_
  rintro _ ⟨texts, rfl⟩
  exact hf texts

lemma joined (h : WritesAll J x) (separator : String) {f : String → Except Fault α}
    (hf : ∀ s, Yields J P (f s)) :
    Yields J P (x >>= fun parts => Source.joined separator parts >>= f) := by
  refine h.bind fun texts => ?_
  rw [joined_map_text, ok_bind]
  exact hf _

end WritesAll

/-! ### All nodes -/

/-- The source of a writable node is a text. -/
lemma Value.source_writes {n : Node} (hn : n.Everywhere (Node.Writable J)) :
    Writes J (Value.node n).source := by
  rw [source, sourceAt]
  rcases (n.decided hn.typed).written with hendless | hwritten
  · obtain ⟨m, hm, hmistaken⟩ := (n.endless_iff hn.typed).mp hendless
    rw [hendless 0]
    exact .endless ((hn m (hm.lift id fun _ _ h => h.holds)).2 hmistaken)
  · obtain ⟨s, hs⟩ := hwritten 0
    rw [hs]
    exact .ok ⟨s, rfl⟩

/-- The source of a grammatical node is a text. -/
lemma Value.source_eq_ok {n : Node} (hn : n.Everywhere Node.Grammatical) :
    ∃ s, (Value.node n).source = .ok (.text s) := by
  obtain ⟨v, hv, s, rfl⟩ := (source_writes (hn.imp fun _ h => h.writable)).exists_ok
  exact ⟨s, hv⟩

end JsxControl
