import JsxControl.Proofs.Traversal.Edited

/-!
# Tours of trees

`Tours n R past calls` says that some calls, made after those in `past`, go through the part `R` of
the tree below `n` as they should: in post-order, to every node there except those that a call takes
away, each seeing what all calls before it have made of the tree, with the slot that is named
holding the visited node. Tours of parts are put together to tours of larger ones.
-/

namespace JsxControl.Traversal

/-- A slot holds a node. -/
def Slot.Holds (slot : Slot) (n : Node) : Prop :=
  match slot.index? with
  | none => Entries.get? slot.parent.fields slot.key = some (.node n)
  | some i => ∃ items, Entries.get? slot.parent.fields slot.key = some (.list items) ∧
      items[i]? = some (.node n)

/-- Each call sees the tree as all calls before it have left it, those in `past` the first. -/
def Sees (n : Node) (past : List Call) : List Call → Prop
  | [] => True
  | c :: later => n.seen? past c.address = some c.visit ∧ Sees n (past ++ [c]) later

/-- Calls that go through a part of the tree below a node, after the calls in `past`. -/
structure Tours (n : Node) (R : Address → Prop) (past calls : List Call) : Prop where
  ordered : calls.Pairwise fun c d => c.address.Precedes d.address
  exact : ∀ p, (∃ c ∈ calls, c.address = p) ↔
    R p ∧ (n.at? p).isSome ∧ ∀ c ∈ calls, ¬ c.Removes p
  sees : Sees n past calls
  holds : ∀ c ∈ calls, ∀ slot, c.visit.slot? = some slot → slot.Holds c.visit.node

variable {n m : Node} {R R' : Address → Prop} {past calls calls' : List Call} {step : Step}

lemma sees_append :
    Sees n past (calls ++ calls') ↔ Sees n past calls ∧ Sees n (past ++ calls) calls' := by
  induction calls generalizing past with
  | nil => simp [Sees]
  | cons c rest ih =>
    rw [List.cons_append, Sees, Sees, ih, and_assoc, List.append_assoc, List.singleton_append]

/-- What is seen below a slot is seen through it. -/
lemma Sees.under (h : Sees m (within step past) calls) (hchild : n.child? step = some m)
    (hbelow : ∀ c ∈ calls, c.address ≠ []) : Sees n past (calls.map (Call.under step)) := by
  induction calls generalizing past with
  | nil => trivial
  | cons c rest ih =>
    obtain ⟨hseen, hrest⟩ := h
    rw [List.forall_mem_cons] at hbelow
    constructor
    · rw [Call.under, Node.seen?_cons hchild past hbelow.1]
      exact hseen
    · apply ih _ hbelow.2
      rw [within_append]
      exact (within_map_under step [c]).symm ▸ hrest

namespace Tours

lemma mem_region (h : Tours n R past calls) {c : Call} (hc : c ∈ calls) : R c.address :=
  ((h.exact _).mp ⟨c, hc, rfl⟩).1

/-- No node is visited twice. -/
lemma nodup (h : Tours n R past calls) : (calls.map Call.address).Nodup := by
  rw [List.Nodup, List.pairwise_map]
  exact h.ordered.imp fun hcd => hcd.ne

/-- Where there are no nodes, there are no calls. -/
lemma nil (h : ∀ p, R p → n.at? p = none) : Tours n R past [] := by
  refine ⟨.nil, fun p => ?_, trivial, by simp⟩
  constructor
  · simp
  · rintro ⟨hp, hsome, -⟩
    simp [h p hp] at hsome

/-- A single call. -/
lemma single {c : Call} {p : Address} (h : c.address = p) (hat : (n.at? p).isSome)
    (hseen : n.seen? past p = some c.visit)
    (hholds : ∀ slot, c.visit.slot? = some slot → slot.Holds c.visit.node) :
    Tours n (· = p) past [c] := by
  subst h
  have hself : ¬ c.Removes c.address := fun hremoves => hremoves.precedes.ne rfl
  refine ⟨List.pairwise_singleton _ _, fun q => ?_, ⟨hseen, trivial⟩, ?_⟩
  · constructor
    · rintro ⟨d, hd, rfl⟩
      obtain rfl : d = c := List.mem_singleton.mp hd
      refine ⟨rfl, hat, fun e he => ?_⟩
      obtain rfl : e = d := List.mem_singleton.mp he
      exact hself
    · rintro ⟨rfl, -, -⟩
      exact ⟨c, List.mem_singleton_self c, rfl⟩
  · intro d hd
    obtain rfl : d = c := List.mem_singleton.mp hd
    exact hholds

/-- One part of a tree after another. No call takes away anything of the second part, apart from its
own calls. -/
lemma append (h : Tours n R past calls) (h' : Tours n R' (past ++ calls) calls')
    (hprecedes : ∀ p q, R p → R' q → p.Precedes q)
    (hkept : ∀ c ∈ calls, ∀ p, R' p → ¬ c.Removes p) :
    Tours n (fun p => R p ∨ R' p) past (calls ++ calls') := by
  -- A call takes away only what comes after it.
  have hkept' (c : Call) (hc : c ∈ calls') (p : Address) (hp : R p) : ¬ c.Removes p := by
    intro hremoves
    exact (hprecedes p _ hp (h'.mem_region hc)).asymm hremoves.precedes
  refine ⟨?_, fun p => ?_, sees_append.mpr ⟨h.sees, h'.sees⟩,
    List.forall_mem_append.mpr ⟨h.holds, h'.holds⟩⟩
  · rw [List.pairwise_append]
    exact ⟨h.ordered, h'.ordered, fun c hc d hd =>
      hprecedes _ _ (h.mem_region hc) (h'.mem_region hd)⟩
  · constructor
    · rintro ⟨c, hc, rfl⟩
      rcases List.mem_append.mp hc with hc | hc
      · obtain ⟨hregion, hsome, hstays⟩ := (h.exact c.address).mp ⟨c, hc, rfl⟩
        refine ⟨.inl hregion, hsome, fun d hd => ?_⟩
        rcases List.mem_append.mp hd with hd | hd
        · exact hstays d hd
        · exact hkept' d hd _ hregion
      · obtain ⟨hregion, hsome, hstays⟩ := (h'.exact c.address).mp ⟨c, hc, rfl⟩
        refine ⟨.inr hregion, hsome, fun d hd => ?_⟩
        rcases List.mem_append.mp hd with hd | hd
        · exact hkept d hd _ hregion
        · exact hstays d hd
    · rintro ⟨hregion, hsome, hstays⟩
      rw [List.forall_mem_append] at hstays
      rcases hregion with hregion | hregion
      · obtain ⟨c, hc, hp⟩ := (h.exact p).mpr ⟨hregion, hsome, hstays.1⟩
        exact ⟨c, List.mem_append_left _ hc, hp⟩
      · obtain ⟨c, hc, hp⟩ := (h'.exact p).mpr ⟨hregion, hsome, hstays.2⟩
        exact ⟨c, List.mem_append_right _ hc, hp⟩

/-- A part of a tree may be taken larger by what holds no nodes and by what a call takes away. -/
lemma extend (h : Tours n R past calls) (hsubset : ∀ p, R p → R' p)
    (hrest : ∀ p, R' p → (n.at? p).isSome → R p ∨ ∃ c ∈ calls, c.Removes p) :
    Tours n R' past calls := by
  refine ⟨h.ordered, fun p => ?_, h.sees, h.holds⟩
  rw [h.exact]
  constructor
  · rintro ⟨hregion, hsome, hstays⟩
    exact ⟨hsubset p hregion, hsome, hstays⟩
  · rintro ⟨hregion, hsome, hstays⟩
    rcases hrest p hregion hsome with h | ⟨c, hc, hremoves⟩
    · exact ⟨h, hsome, hstays⟩
    · exact absurd hremoves (hstays c hc)

/-! ### Going down into a slot -/

/-- The tour of what is below a node is one of what is below a slot that holds it. -/
lemma under (h : Tours m (· ≠ []) (within step past) calls) (hchild : n.child? step = some m) :
    Tours n (fun p => ∃ q, p = step :: q ∧ q ≠ []) past (calls.map (Call.under step)) := by
  refine ⟨?_, fun p => ?_, h.sees.under hchild fun c hc => h.mem_region hc, ?_⟩
  · rw [List.pairwise_map]
    exact h.ordered.imp fun hcd => .inside step hcd
  · constructor
    · rintro ⟨d, hd, rfl⟩
      obtain ⟨c, hc, rfl⟩ := List.mem_map.mp hd
      obtain ⟨hbelow, hsome, hstays⟩ := (h.exact c.address).mp ⟨c, hc, rfl⟩
      refine ⟨⟨c.address, rfl, hbelow⟩, ?_, ?_⟩
      · simpa [Call.under, Node.at?_cons hchild] using hsome
      · rw [List.forall_mem_map]
        exact fun e he hremoves => hstays e he (Address.follows_cons_self.mp hremoves)
    · rintro ⟨⟨q, rfl, hq⟩, hsome, hstays⟩
      rw [Node.at?_cons hchild] at hsome
      rw [List.forall_mem_map] at hstays
      obtain ⟨c, hc, rfl⟩ := (h.exact q).mpr ⟨hq, hsome, fun c hc hremoves =>
        hstays c hc (Address.follows_cons_self.mpr hremoves)⟩
      exact ⟨c.under step, List.mem_map_of_mem hc, rfl⟩
  · rw [List.forall_mem_map]
    exact h.holds

/-- The call for a node after those for all that is below it. -/
lemma whole (h : Tours n (· ≠ []) [] calls) (edit : Edit) :
    Tours n (fun _ => True) [] (calls ++ [.own ⟨n.edited calls, none⟩ edit]) := by
  have hown : Tours n (· = []) ([] ++ calls) [.own ⟨n.edited calls, none⟩ edit] :=
    .single rfl rfl rfl nofun
  refine (h.append hown ?_ ?_).extend (fun _ _ => trivial) fun p _ _ => .inl (ne_or_eq p [])
  · rintro (_ | ⟨first, p⟩) q hp rfl
    · exact absurd rfl hp
    · exact .under first p
  · rintro c - p rfl
    exact Address.not_follows_nil

/-- The call for a node in a slot after those for all that is below it, where nothing has been done
to the slot before. -/
lemma slot (h : Tours m (· ≠ []) [] calls) (hchild : n.child? step = some m)
    (hpast : within step past = []) {visit : Visit}
    (hseen : n.seen? (past ++ calls.map (Call.under step)) [step] = some visit)
    (hholds : ∀ slot, visit.slot? = some slot → slot.Holds visit.node) (edit : Edit) :
    Tours n (fun p => ∃ q, p = step :: q) past
      ((calls ++ [Call.own visit edit]).map (Call.under step)) := by
  have hbelow : Tours n (fun p => ∃ q, p = step :: q ∧ q ≠ []) past
      (calls.map (Call.under step)) := by
    apply under _ hchild
    rwa [hpast]
  have hown : Tours n (· = [step]) (past ++ calls.map (Call.under step))
      [(Call.own visit edit).under step] :=
    .single rfl (by rw [Node.at?_cons hchild]; rfl) hseen hholds
  rw [List.map_append]
  refine (hbelow.append hown ?_ ?_).extend ?_ ?_
  · rintro _ q ⟨p, rfl, hp⟩ rfl
    obtain ⟨first, p, rfl⟩ := List.exists_cons_of_ne_nil hp
    exact .inside step (.under first p)
  · rintro c hc p rfl
    obtain ⟨d, -, rfl⟩ := List.mem_map.mp hc
    intro hremoves
    exact Address.not_follows_nil (Address.follows_cons_self.mp hremoves)
  · rintro _ (⟨q, rfl, -⟩ | rfl)
    · exact ⟨q, rfl⟩
    · exact ⟨[], rfl⟩
  · rintro _ ⟨q, rfl⟩ -
    by_cases hq : q = []
    · exact .inl (.inr (by rw [hq]))
    · exact .inl (.inl ⟨q, rfl, hq⟩)

end Tours

end JsxControl.Traversal
