import JsxControl.Proofs.Location.Source
import JsxControl.Proofs.Parsing.Parentheses
import JsxControl.Proofs.Parsing.Statements

/-!
# Printed conditionals

The text of a conditional has no braces around its consequent. Where that ends with a conditional
without an alternate, the alternate behind it is read as part of that one. `reattached` is the
statement with each alternate where it is read.
-/

namespace JsxControl

open Source

namespace Parsing

/-! ### Statements -/

/-- Conditionals, blocks, returns, empty statements, and names as statements; the operands are
names. -/
inductive Statement
  | expression (s : String)
  | empty
  | returns (s : Option String)
  | block (body : List Statement)
  | ifThen (test : String) (consequent : Statement)
  | ifElse (test : String) (consequent alternate : Statement)

namespace Statement

/-- Statements are made from those in their blocks and in their conditionals. -/
@[elab_as_elim]
lemma parts_induction {motive : Statement → Prop} (expression : ∀ s, motive (.expression s))
    (empty : motive .empty) (returns : ∀ s, motive (.returns s))
    (block : ∀ body, (∀ s ∈ body, motive s) → motive (.block body))
    (ifThen : ∀ test s, motive s → motive (.ifThen test s))
    (ifElse : ∀ test s s', motive s → motive s' → motive (.ifElse test s s')) (s : Statement) :
    motive s := by
  refine @Statement.rec motive (fun body => ∀ s ∈ body, motive s) expression empty returns block
    ifThen ifElse (by simp) (fun s body ih ih' => ?_) s
  exact List.forall_mem_cons.mpr ⟨ih, ih'⟩

/-- The names in a statement are not reserved. -/
def Named (L : Letters) : Statement → Prop
  | .expression s => L.IsName s
  | .empty => True
  | .returns s => ∀ name ∈ s, L.IsName name
  | .block body => ∀ s ∈ body, s.Named L
  | .ifThen test s => L.IsName test ∧ s.Named L
  | .ifElse test s s' => L.IsName test ∧ s.Named L ∧ s'.Named L

/-- The tree of a statement. -/
def tree : Statement → Value
  | .expression s => Tree.expressionStatement (Tree.name s)
  | .empty => Tree.emptyStatement
  | .returns s => Tree.returnStatement ((s.map Tree.name).getD .null)
  | .block body => Tree.block (body.map tree)
  | .ifThen test s => Tree.ifStatement (Tree.name test) s.tree .null
  | .ifElse test s s' => Tree.ifStatement (Tree.name test) s.tree s'.tree

/-! ### Alternates -/

/-- Whether a statement takes an alternate that follows it. -/
def isOpen : Statement → Bool
  | .ifThen _ _ => true
  | .ifElse _ _ s => s.isOpen
  | _ => false

/-- No conditional with an alternate has a consequent that would take it. -/
def Sound : Statement → Prop
  | .block body => ∀ s ∈ body, s.Sound
  | .ifThen _ s => s.Sound
  | .ifElse _ s s' => s.isOpen = false ∧ s.Sound ∧ s'.Sound
  | _ => True

/-- The statement with an alternate for the last conditional in it that can take one. -/
def attach (s alternate : Statement) : Statement :=
  match s with
  | .ifThen test s =>
    if s.isOpen then .ifThen test (s.attach alternate) else .ifElse test s alternate
  | .ifElse test s s' => .ifElse test s (s'.attach alternate)
  | s => s

/-- A conditional on `test` with the consequent `s` and an alternate behind it, as it is read. -/
def conditional (test : String) (s alternate : Statement) : Statement :=
  if s.isOpen then .ifThen test (s.attach alternate) else .ifElse test s alternate

/-- The statement with each alternate at the nearest conditional before it that can take one. -/
def reattached : Statement → Statement
  | .block body => .block (body.map reattached)
  | .ifThen test s => .ifThen test s.reattached
  | .ifElse test s s' => conditional test s.reattached s'.reattached
  | s => s

/-! ### Texts and tokens -/

/-- The text of a statement inside `depth` blocks. -/
def text (depth : ℕ) : Statement → String
  | .expression s => expressionStatement s
  | .empty => ";"
  | .returns none => "return;"
  | .returns (some s) => "return " ++ s ++ ";"
  | .block body => Source.block depth (body.map (text (depth + 1)))
  | .ifThen test s => "if (" ++ test ++ ") " ++ s.text depth
  | .ifElse test s s' => "if (" ++ test ++ ") " ++ s.text depth ++ " else " ++ s'.text depth

/-- The tokens of a statement. -/
def tokens : Statement → List Token
  | .expression s =>
    if beginsWith s "function" then [.mark "(", .word s, .mark ")", .mark ";"]
    else [.word s, .mark ";"]
  | .empty => [.mark ";"]
  | .returns none => [.word "return", .mark ";"]
  | .returns (some s) => [.word "return", .word s, .mark ";"]
  | .block body => .mark "\x7b" :: (body.map tokens).flatten ++ [.mark "\x7d"]
  | .ifThen test s => [.word "if", .mark "(", .word test, .mark ")"] ++ s.tokens
  | .ifElse test s s' =>
    [.word "if", .mark "(", .word test, .mark ")"] ++ s.tokens ++ .word "else" :: s'.tokens

/-! ### Alternates are read at the nearest conditional -/

variable {s s' : Statement}

lemma attach_spec (h : s.Sound) (h' : s'.Sound) (hopen : s.isOpen) :
    (s.attach s').Sound ∧ (s.attach s').tokens = s.tokens ++ .word "else" :: s'.tokens := by
  induction s using parts_induction with
  | ifThen test s ih =>
    rw [Sound] at h
    rw [attach]
    split_ifs with hs
    · obtain ⟨hsound, htokens⟩ := ih h hs
      exact ⟨by rwa [Sound], by simp [tokens, htokens]⟩
    · exact ⟨by simp [Sound, hs, h, h'], by simp [tokens]⟩
  | ifElse test s s₁ ih ih' =>
    rw [Sound] at h
    rw [isOpen] at hopen
    obtain ⟨hsound, htokens⟩ := ih' h.2.2 hopen
    rw [attach]
    exact ⟨by simp [Sound, h, hsound], by simp [tokens, htokens]⟩
  | _ => simp [isOpen] at hopen

lemma Named.attach {L : Letters} (h : s.Named L) (h' : s'.Named L) :
    (s.attach s').Named L := by
  induction s using parts_induction with
  | ifThen test s ih =>
    rw [Named] at h
    rw [Statement.attach]
    split_ifs
    · rw [Named]
      exact ⟨h.1, ih h.2⟩
    · rw [Named]
      exact ⟨h.1, h.2, h'⟩
  | ifElse test s s₁ ih ih' =>
    rw [Named] at h
    rw [Statement.attach, Named]
    exact ⟨h.1, h.2.1, ih' h.2.2⟩
  | _ => simpa [Statement.attach] using h

lemma reattached_spec (s : Statement) : s.reattached.Sound ∧ s.reattached.tokens = s.tokens := by
  induction s using parts_induction with
  | block body ih =>
    constructor
    · simpa [reattached, Sound] using fun s hs => (ih s hs).1
    · have hbody : (body.map reattached).map tokens = body.map tokens := by
        simpa using fun s hs => (ih s hs).2
      rw [reattached, tokens, hbody, tokens]
  | ifThen test s ih =>
    rw [reattached]
    exact ⟨by simpa [Sound] using ih.1, by simp [tokens, ih.2]⟩
  | ifElse test s s' ih ih' =>
    rw [reattached, conditional]
    split_ifs with hopen
    · obtain ⟨hsound, htokens⟩ := attach_spec ih.1 ih'.1 hopen
      exact ⟨by rwa [Sound], by simp [tokens, htokens, ih.2, ih'.2]⟩
    · exact ⟨by simp [Sound, hopen, ih.1, ih'.1], by simp [tokens, ih.2, ih'.2]⟩
  | _ => simp [reattached, Sound]

lemma Named.reattached {L : Letters} (h : s.Named L) : s.reattached.Named L := by
  induction s using parts_induction with
  | block body ih =>
    rw [Named] at h
    simpa [Statement.reattached, Named] using fun s hs => ih s hs (h s hs)
  | ifThen test s ih =>
    rw [Named] at h
    rw [Statement.reattached, Named]
    exact ⟨h.1, ih h.2⟩
  | ifElse test s s' ih ih' =>
    rw [Named] at h
    rw [Statement.reattached, conditional]
    split_ifs
    · rw [Named]
      exact ⟨h.1, (ih h.2.1).attach (ih' h.2.2)⟩
    · rw [Named]
      exact ⟨h.1, ih h.2.1, ih' h.2.2⟩
  | _ => simpa [Statement.reattached] using h

lemma Sound.reattached_eq (h : s.Sound) : s.reattached = s := by
  induction s using parts_induction with
  | block body ih =>
    rw [Sound] at h
    rw [reattached, List.map_congr_left fun s hs => ih s hs (h s hs), List.map_id']
  | ifThen test s ih =>
    rw [Sound] at h
    rw [reattached, ih h]
  | ifElse test s s' ih ih' =>
    rw [Sound] at h
    rw [reattached, conditional, ih h.2.1, ih' h.2.2, h.1]
    rfl
  | _ => rw [reattached] <;> simp

lemma isNull_tree (s : Statement) : s.tree.isNull = false := by
  cases s <;> rw [tree] <;> rfl

lemma sound_of_tree_reattached (h : s.reattached.tree = s.tree) : s.Sound := by
  induction s using parts_induction with
  | block body ih =>
    have hbody : ∀ s ∈ body, s.reattached.tree = s.tree := by
      simpa [reattached, tree, Tree.block] using h
    rw [Sound]
    exact fun s hs => ih s hs (hbody s hs)
  | ifThen test s ih =>
    rw [Sound]
    exact ih (by simpa [reattached, tree, Tree.ifStatement] using h)
  | ifElse test s s' ih ih' =>
    rw [reattached, conditional] at h
    split_ifs at h with hopen
    · have hnull : Value.null = s'.tree := by
        simp only [tree, Tree.ifStatement] at h
        simp at h
        exact h.2
      exact absurd s'.isNull_tree (by rw [← hnull]; simp [Value.isNull])
    · have htrees : s.reattached.tree = s.tree ∧ s'.reattached.tree = s'.tree := by
        simpa [tree, Tree.ifStatement] using h
      have hsound := ih htrees.1
      rw [hsound.reattached_eq] at hopen
      rw [Sound]
      exact ⟨by simpa using hopen, hsound, ih' htrees.2⟩
  | _ => simp [Sound]

lemma sound_iff : s.Sound ↔ s.reattached.tree = s.tree :=
  ⟨fun h => by rw [h.reattached_eq], sound_of_tree_reattached⟩

/-- A statement does not begin like the alternate of a conditional. -/
lemma head?_tokens {L : Letters} (hs : s.Named L) (rest : List Token) :
    (s.tokens ++ rest).head? ≠ some (.word "else") := by
  rcases s with s | _ | _ | _ | _ | _
  case expression =>
    rw [Named] at hs
    rw [tokens]
    split_ifs
    · simp
    · have hne : s ≠ "else" := by
        rintro rfl
        exact hs.2 (by decide)
      simpa using hne
  case returns s => cases s <;> simp [tokens]
  all_goals simp [tokens]

/-- Statements in braces are read one after another: none of them begins like the alternate of a
conditional before it. -/
lemma parses_body {L : Letters} {body : List Statement} (hbody : ∀ s ∈ body, s.Named L)
    (h : ∀ s ∈ body, ∀ rest : List Token, rest.head? ≠ some (.word "else") →
      Parses .statement (s.tokens ++ rest) [s.tree] rest) (rest : List Token) :
    Parses .body ((body.map tokens).flatten ++ .mark "\x7d" :: rest) (body.map tree)
      (.mark "\x7d" :: rest) := by
  induction body with
  | nil => exact .nil rfl
  | cons s body ih =>
    rw [List.forall_mem_cons] at hbody h
    rw [List.map_cons, List.flatten_cons, List.append_assoc, List.map_cons]
    refine .cons (h.1 _ ?_) (ih hbody.2 h.2)
    cases body with
    | nil => simp
    | cons s' body =>
      rw [List.map_cons, List.flatten_cons, List.append_assoc]
      exact head?_tokens (hbody.2 s' List.mem_cons_self) _

lemma derives_name {L : Letters} {name : String} (hname : L.IsName name) :
    Derives .expression [.word name] [Tree.name name] :=
  (Derives.name hname.2).asExpression (by decide)

lemma Sound.parses (h : s.Sound) {L : Letters} (hs : s.Named L) {rest : List Token}
    (hrest : s.isOpen → rest.head? ≠ some (.word "else")) :
    Parses .statement (s.tokens ++ rest) [s.tree] rest := by
  induction s using parts_induction generalizing rest with
  | expression s =>
    rw [Named] at hs
    rw [tokens, tree]
    split_ifs
    · have hparentheses := (Derives.parentheses (derives_name hs)).asExpression (by decide)
      exact .expression hparentheses (by simp)
    · exact .expression (derives_name hs) (by simp)
  | empty =>
    rw [tokens, tree]
    exact .empty
  | returns s =>
    rw [Named] at hs
    cases s with
    | none =>
      rw [tokens, tree]
      exact .returnNothing
    | some s =>
      rw [tokens, tree]
      exact .returnValue (derives_name (hs s rfl))
  | block body ih =>
    rw [Sound] at h
    rw [Named] at hs
    rw [tokens, tree, List.append_assoc, List.cons_append]
    exact .block (parses_body hs (fun s hmem rest hrest => ih s hmem (h s hmem) (hs s hmem)
      fun _ => hrest) rest)
  | ifThen test s ih =>
    rw [Sound] at h
    rw [Named] at hs
    have hrest' := hrest (by rw [isOpen])
    rw [tokens, tree, List.append_assoc]
    exact .ifThen (derives_name hs.1) (ih h hs.2 fun _ => hrest') hrest'
  | ifElse test s s' ih ih' =>
    rw [Sound] at h
    rw [Named] at hs
    rw [isOpen] at hrest
    have hfirst : Parses .statement (s.tokens ++ .word "else" :: (s'.tokens ++ rest)) [s.tree]
        (.word "else" :: (s'.tokens ++ rest)) := ih h.2.1 hs.2.1 (by simp [h.1])
    have hsecond := ih' h.2.2 hs.2.2 hrest
    rw [tokens, tree]
    simpa using Parses.ifElse (derives_name hs.1) hfirst hsecond

/-! ### Printed statements -/

lemma sourceItems_tree {body : List Statement} {depth : ℕ}
    (h : ∀ s ∈ body, s.tree.sourceAt depth = .ok (.text (s.text depth))) :
    Value.sourceItems depth .statement (body.map tree) =
      .ok ((body.map (text depth)).map .text) := by
  induction body with
  | nil =>
    rw [List.map_nil, Value.sourceItems]
    rfl
  | cons s body ih =>
    rw [List.forall_mem_cons] at h
    rw [List.map_cons, Value.sourceItems, ih h.2, h.1]
    rfl

lemma sourceAt_tree (s : Statement) (depth : ℕ) :
    s.tree.sourceAt depth = .ok (.text (s.text depth)) := by
  induction s using parts_induction generalizing depth with
  | expression s =>
    rw [tree, Tree.expressionStatement, Value.sourceAt, Node.sourceAt]
    simp [Tree.name, sourceAt_name, Value.spelling, text]
  | empty =>
    rw [tree, Tree.emptyStatement, Value.sourceAt, Node.sourceAt, text]
  | returns s =>
    rw [tree, Tree.returnStatement, Value.sourceAt, Node.sourceAt]
    cases s <;> simp [Tree.name, sourceAt_name, Value.isNull, text]
  | block body ih =>
    have hitems := sourceItems_tree fun s hs => ih s hs (depth + 1)
    rw [tree, Tree.block, Value.sourceAt, Node.sourceAt]
    simp only [Value.sourceParts, hitems]
    simp [toTexts_map_text, text, -List.map_map]
  | ifThen test s ih =>
    rw [tree, Tree.ifStatement, Value.sourceAt, Node.sourceAt]
    simp [Tree.name, sourceAt_name, ih, Value.isNull, text]
  | ifElse test s s' ih ih' =>
    rw [tree, Tree.ifStatement, Value.sourceAt, Node.sourceAt]
    simp [Tree.name, sourceAt_name, ih, ih', isNull_tree, text]

section Tokens

variable {L : Letters}

lemma spells_newline : L.Spells (fun _ => True) "\n" [] := by
  intro rest _
  rw [show "\n".toList ++ rest = '\n' :: rest from rfl, Letters.tokens?, if_pos (by decide)]
  simp

lemma spells_indent (depth : ℕ) : L.Spells (fun _ => True) (indent depth) [] := by
  intro rest _
  rw [indent, String.toList_ofList]
  induction 2 * depth with
  | zero => simp
  | succ n ih => rw [List.replicate_succ, List.cons_append, Letters.tokens?_blank, ih]

/-- The lines of a block have the tokens of its statements. -/
lemma spells_lines (depth : ℕ) {statements : List (String × List Token)}
    (h : ∀ e ∈ statements, L.Spells (fun _ => True) e.1 e.2) :
    L.Spells (fun _ => True)
      ("\n".intercalate ((statements.map Prod.fst).map (indent depth ++ ·)))
      (statements.map Prod.snd).flatten := by
  induction statements with
  | nil => exact Letters.spells_nil
  | cons e statements ih =>
    rw [List.forall_mem_cons] at h
    have hline := (spells_indent (L := L) depth).followed h.1
    cases statements with
    | nil => simpa using hline
    | cons e' statements =>
      have hlines := spells_newline.followed (ih h.2)
      have hall := hline.followed hlines
      simpa [String.intercalate_cons_cons, String.append_assoc] using hall

/-- The text of a block has the tokens of its statements in braces. -/
lemma spells_block (depth : ℕ) {statements : List (String × List Token)}
    (h : ∀ e ∈ statements, L.Spells (fun _ => True) e.1 e.2) :
    L.Spells (fun _ => True) (Source.block depth (statements.map Prod.fst))
      (.mark "\x7b" :: (statements.map Prod.snd).flatten ++ [.mark "\x7d"]) := by
  have hopen : L.Spells (fun _ => True) "\x7b" [.mark "\x7b"] := Letters.spells_mark fun _ => rfl
  have hclose : L.Spells (fun _ => True) "\x7d" [.mark "\x7d"] :=
    Letters.spells_mark fun _ => rfl
  rw [Source.block]
  split_ifs with hempty
  · obtain rfl : statements = [] := by simpa using hempty
    exact hopen.followed hclose
  · have hlines := spells_newline.followed (spells_lines (depth + 1) h)
    have hlast := spells_newline.followed (spells_indent (L := L) depth)
    have hall := (hopen.followed (hlines.followed hlast)).followed hclose
    simpa [inBraces, String.append_assoc] using hall

lemma beginsWith_brace {s : String} (hs : L.IsWord s) : beginsWith s "\x7b" = false := by
  obtain ⟨c, cs, hchars, hc, -⟩ := hs
  have hne : '\x7b' ≠ c := Letters.ne_of_starts hc (by decide) (by decide)
  simp [beginsWith, hchars, List.isPrefixOf, hne]

lemma spells_semicolon : L.Spells (fun _ => True) ";" [.mark ";"] :=
  Letters.spells_mark fun _ => rfl

lemma breaksNumber_semicolon (rest : List Char) : L.BreaksNumber (";".toList ++ rest) :=
  Letters.breaksNumber_cons (by decide) (by decide) (by decide) rest

/-- The test of a conditional in its parentheses. -/
lemma spells_test {test : String} (htest : L.IsName test) :
    L.Spells (fun _ => True) ("if (" ++ test ++ ") ")
      [.word "if", .mark "(", .word test, .mark ")"] := by
  have hif : L.Spells (fun _ => True) ("if" ++ " ") [.word "if"] :=
    Letters.spells_keyword (Letters.isWord_of_ascii rfl rfl rfl rfl)
  have hparentheses : L.Spells (fun _ => True) ("(" ++ test ++ ")")
      (.mark "(" :: [.word test] ++ [.mark ")"]) :=
    (Letters.spells_name htest).bracketed (by simp)
  have hall := hif.followed (hparentheses.followed Letters.spells_blank)
  have htext : "if (" ++ test ++ ") " = "if" ++ " " ++ ("(" ++ test ++ ")" ++ " ") := by
    rw [show "if (" = "if" ++ " " ++ "(" from rfl, show ") " = ")" ++ " " from rfl]
    simp only [String.append_assoc]
  rwa [htext]

/-- The text of a statement has the tokens that are meant, whatever follows it. -/
lemma spells (hs : s.Named L) (depth : ℕ) :
    L.Spells (fun _ => True) (s.text depth) s.tokens := by
  induction s using parts_induction generalizing depth with
  | expression s =>
    rw [Named] at hs
    rw [text, tokens, expressionStatement, beginsWith_brace hs.1, Bool.false_or]
    have hname := Letters.spells_name hs
    split_ifs
    · exact (hname.bracketed (by simp)).followed spells_semicolon
    · exact hname.append spells_semicolon fun rest _ => breaksNumber_semicolon rest
  | empty =>
    rw [text, tokens]
    exact spells_semicolon
  | returns s =>
    have hreturn : L.IsWord "return" := Letters.isWord_of_ascii rfl rfl rfl rfl
    rw [Named] at hs
    cases s with
    | none =>
      rw [text, tokens]
      exact (Letters.spells_word hreturn).append spells_semicolon fun rest _ =>
        (breaksNumber_semicolon rest).1
    | some s =>
      rw [text, tokens]
      have hvalue := (Letters.spells_keyword hreturn).followed (Letters.spells_name (hs s rfl))
      exact hvalue.append spells_semicolon fun rest _ => breaksNumber_semicolon rest
  | block body ih =>
    rw [Named] at hs
    have hbody : ∀ e ∈ body.map fun s => (s.text (depth + 1), s.tokens),
        L.Spells (fun _ => True) e.1 e.2 := by
      simpa using fun s hmem => ih s hmem (hs s hmem) (depth + 1)
    rw [text, tokens]
    simpa [Function.comp_def] using spells_block depth hbody
  | ifThen test s ih =>
    rw [Named] at hs
    rw [text, tokens]
    exact (spells_test hs.1).followed (ih hs.2 depth)
  | ifElse test s s' ih ih' =>
    have hword : L.IsWord "else" := Letters.isWord_of_ascii rfl rfl rfl rfl
    have helse := Letters.spells_blank.followed (Letters.spells_keyword hword)
    rw [Named] at hs
    rw [text, tokens]
    have hfirst := (spells_test hs.1).followed (ih hs.2.1 depth)
    have hall := hfirst.followed (helse.followed (ih' hs.2.2 depth))
    simpa [String.append_assoc] using hall

end Tokens

lemma placeless_tree (s : Statement) : s.tree.Placeless := by
  have hname (s : String) : (Tree.name s).Placeless :=
    .node rfl (by simp [Value.Throughout.scalar])
  induction s using parts_induction with
  | expression s =>
    rw [tree]
    exact .node rfl (by simpa using hname s)
  | empty =>
    rw [tree]
    exact .node rfl (by simp)
  | returns s =>
    rw [tree]
    cases s with
    | none => exact .node rfl (by simp [Value.Throughout.scalar])
    | some s => exact .node rfl (by simpa using hname s)
  | block body ih =>
    rw [tree]
    exact .node rfl (by simpa using Value.Throughout.list (by simpa using ih))
  | ifThen test s ih =>
    rw [tree]
    exact .node rfl (by simpa [Value.Throughout.scalar] using ⟨hname test, ih⟩)
  | ifElse test s s' ih ih' =>
    rw [tree]
    exact .node rfl (by simpa using ⟨hname test, ih, ih'⟩)

end Statement

/-- The text of a statement is read as the statement with each alternate at the nearest conditional
before it that can take one, and as nothing else. This is the statement itself if and only if no
conditional with an alternate has a consequent that would take it. -/
theorem statement_reads_back_iff {L : Letters} {s : Statement} (hs : s.Named L) {v : Value}
    (hv : v.unlocated = s.tree) :
    ∃ text, v.source = .ok (.text text) ∧
      (∀ v', ReadsAsStatement L text v' ↔ v' = s.reattached.tree) ∧
      (ReadsAsStatement L text s.tree ↔ s.Sound) := by
  have hsource : v.unlocated.source = .ok (.text (s.text 0)) := hv ▸ s.sourceAt_tree 0
  have htokens : L.tokens? (s.text 0).toList = some s.tokens := by
    simpa [Letters.tokens?] using s.spells hs 0 [] trivial
  have hparses : Parses .statement s.tokens [s.reattached.tree] [] := by
    have hread : Parses .statement (s.reattached.tokens ++ []) [s.reattached.tree] [] :=
      s.reattached_spec.1.parses hs.reattached (by simp)
    rwa [s.reattached_spec.2, List.append_nil] at hread
  have hreads (v' : Value) : ReadsAsStatement L (s.text 0) v' ↔ v' = s.reattached.tree := by
    constructor
    · rintro ⟨ts, hts, h⟩
      obtain rfl : s.tokens = ts := Option.some.inj (htokens.symm.trans hts)
      exact List.singleton_inj.mp (h.settles hparses).1
    · rintro rfl
      exact ⟨s.tokens, htokens, hparses⟩
  refine ⟨s.text 0, Value.source_of_unlocated (hv ▸ s.placeless_tree.noteless) hsource, hreads, ?_⟩
  rw [hreads, Statement.sound_iff, eq_comm]

/-- The statement `if (a) { if (b) x; } else y;`. -/
def danglingElse : Statement := .ifElse "a" (.ifThen "b" (.expression "x")) (.expression "y")

theorem danglingElse_misread :
    danglingElse.Named Letters.ascii ∧ danglingElse.tree.unlocated = danglingElse.tree ∧
      ∃ text, danglingElse.tree.source = .ok (.text text) ∧ text = "if (a) if (b) x; else y;" ∧
        ReadsAsStatement Letters.ascii text
          (Statement.ifThen "a" (.ifElse "b" (.expression "x") (.expression "y"))).tree ∧
        ¬ ReadsAsStatement Letters.ascii text danglingElse.tree := by
  have hname (s : String) (hs : s ∈ ["a", "b", "x", "y"]) : Letters.ascii.IsName s := by
    simp only [List.mem_cons, List.not_mem_nil, or_false] at hs
    rcases hs with rfl | rfl | rfl | rfl <;>
      exact ⟨Letters.isWord_of_ascii rfl rfl rfl rfl, by decide⟩
  have hnamed : danglingElse.Named Letters.ascii := by
    simp [danglingElse, Statement.Named, hname]
  have hreattached : danglingElse.reattached =
      .ifThen "a" (.ifElse "b" (.expression "x") (.expression "y")) := by
    simp [danglingElse, Statement.reattached, Statement.conditional, Statement.attach,
      Statement.isOpen]
  have hsound : ¬ danglingElse.Sound := by
    simp [danglingElse, Statement.Sound, Statement.isOpen]
  have hunlocated := danglingElse.placeless_tree.unlocated_eq
  obtain ⟨text, hsource, hreads, hself⟩ := statement_reads_back_iff hnamed hunlocated
  refine ⟨hnamed, hunlocated, text, hsource, ?_, ?_, mt hself.mp hsound⟩
  · have htext : danglingElse.text 0 = "if (a) if (b) x; else y;" := by
      simp [danglingElse, Statement.text, expressionStatement, beginsWith]
    simpa [htext] using hsource.symm.trans (danglingElse.sourceAt_tree 0)
  · rw [hreads, hreattached]

end Parsing

end JsxControl
