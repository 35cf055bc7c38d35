import JsxControl.Trace.Channel
import Mathlib.Data.List.Induction
import Mathlib.Tactic.Common

/-!
# Sinks along a history of lists

The channels of the topics are created under some list and then take up one list after the other.
A record of a topic goes to the sink of its own channel and to that of the steps, whose logger is
above all others. Which sinks there are depends on the whole history: a channel opens one if the
steps are off, and keeps it until it is switched off itself, also when the steps come on. From then
on its records are written twice.
-/

namespace JsxControl

/-- Whether a list asks for a topic. -/
def EnableList.asks (list : EnableList) (topic : Topic) : Bool := list.enables topic.channelName

namespace Topic

/-- The topics whose loggers are that of a topic or above it, nearest first. -/
def above : Topic → List Topic
  | steps => [steps]
  | topic => [topic, steps]

/-- What the sink of a topic writes for a message. -/
def line (topic : Topic) (message : String) : String :=
  topic.channelName ++ " " ++ message ++ "\n"

end Topic

namespace Channels

variable {list : EnableList} {enabled sinks : Topic → Bool} {topic : Topic}

/-! ### The channels of the topics -/

/-- The channel of a topic, given which channels are on and which have sinks. -/
def channelOf (enabled sinks : Topic → Bool) (topic : Topic) : Channel :=
  ⟨topic.channelName, topic.loggerName, enabled topic, sinks topic⟩

/-- The channels of all topics. -/
def channelsOf (enabled sinks : Topic → Bool) : List Channel :=
  Topic.all.map (channelOf enabled sinks)

lemma filter_channelsOf (topic : Topic) :
    (channelsOf enabled sinks).filter (fun c => c.hasSink && c.logger = topic.loggerName) =
      ([topic].filter sinks).map (channelOf enabled sinks) := by
  cases topic <;>
    simp [channelsOf, channelOf, Topic.all, Topic.loggerName, List.filter_cons, apply_ite]

/-- The sinks that a record reaches are those of its own topic and of the topics above it. -/
lemma sinksFor_channelsOf (topic : Topic) : sinksFor (channelsOf enabled sinks) topic.loggerName =
    (topic.above.filter sinks).map (channelOf enabled sinks) := by
  have hline : Logger.line (Topic.all.map Topic.loggerName) topic.loggerName =
      topic.above.map Topic.loggerName ++ [Logger.root] := by
    cases topic <;> rfl
  have hroot : (channelsOf enabled sinks).filter (fun c => c.hasSink && c.logger = Logger.root) =
      [] := by
    simp [channelsOf, channelOf, Topic.all, Topic.loggerName, Logger.root]
  have hloggers : (channelsOf enabled sinks).map (·.logger) = Topic.all.map Topic.loggerName := rfl
  have hfilter (topics : List Topic) :
      topics.flatMap (fun topic => ([topic].filter sinks).map (channelOf enabled sinks)) =
        (topics.filter sinks).map (channelOf enabled sinks) := by
    rw [← List.map_flatMap, ← List.filter_flatMap, List.flatMap_singleton']
  rw [sinksFor, hloggers, hline, List.flatMap_append, List.flatMap_map, List.flatMap_singleton,
    hroot, List.append_nil]
  simp only [filter_channelsOf, hfilter]

/-- A channel that takes up a list opens a sink if it can reach none. -/
lemma refresh_channelsOf (list : EnableList) (enabled sinks : Topic → Bool) (topic : Topic) :
    refresh list (channelsOf enabled sinks) (channelOf enabled sinks topic) =
      ⟨topic.channelName, topic.loggerName, list.asks topic,
        list.asks topic && (sinks topic || topic = .steps || !sinks .steps)⟩ := by
  have hempty : (sinksFor (channelsOf enabled sinks) topic.loggerName).isEmpty =
      !topic.above.any sinks := by
    rw [sinksFor_channelsOf, List.isEmpty_map, Bool.eq_iff_iff]
    simp
  have habove : (sinks topic || !topic.above.any sinks) =
      (sinks topic || topic = .steps || !sinks .steps) := by
    cases topic <;> simp [Topic.above, Bool.or_and_distrib_left]
  rw [← habove, ← hempty, refresh, EnableList.asks,
    show (channelOf enabled sinks topic).name = topic.channelName from rfl]
  split_ifs with hasks
  · rw [hasks, Bool.true_and]
    rfl
  · rw [Bool.eq_false_iff.mpr hasks, Bool.false_and]
    rfl

/-- Which channels have sinks when all of them have taken up a list. -/
def kept (list : EnableList) (sinks : Topic → Bool) (topic : Topic) : Bool :=
  list.asks topic && (sinks topic || topic = .steps || !list.asks .steps)

/-- The steps are the first to take up a list, and what they do is seen by the others. -/
lemma refreshAll_channelsOf (list : EnableList) (enabled sinks : Topic → Bool) :
    refreshAll list [] (channelsOf enabled sinks) = channelsOf list.asks (kept list sinks) := by
  have hsteps := refresh_channelsOf list enabled sinks .steps
  have hsources := refresh_channelsOf list (Function.update enabled .steps (list.asks .steps))
    (Function.update sinks .steps (list.asks .steps)) .sources
  have houtlines := refresh_channelsOf list
    (Function.update (Function.update enabled .steps (list.asks .steps)) .sources
      (list.asks .sources))
    (Function.update (Function.update sinks .steps (list.asks .steps)) .sources
      (kept list sinks .sources)) .outlines
  simp only [channelsOf, channelOf, Topic.all, List.map_cons, List.map_nil, Function.update, kept,
    decide_true, decide_false, Bool.or_true, Bool.true_or, Bool.or_false, Bool.and_true,
    ↓reduceDIte, reduceCtorEq] at hsteps hsources houtlines
  simp [channelsOf, channelOf, Topic.all, refreshAll, hsteps, hsources, houtlines, kept]

/-! ### Histories -/

/-- The channels of the topics as they are created under a list. -/
def started (list : EnableList) : Channels :=
  Topic.all.foldl (fun cs topic => (cs.create topic.channelName topic.loggerName).1) { list }

/-- The channels of the topics when they have taken up some lists, the first of which they were
created under. -/
def afterLists (first : EnableList) (rest : List EnableList) : Channels :=
  rest.foldl configure (started first)

/-- Which channels have sinks when they have taken up some lists. -/
def sinksAfter (lists : List EnableList) : Topic → Bool :=
  lists.foldl (fun sinks list => kept list sinks) fun _ => false

lemma started_eq (list : EnableList) :
    started list = ⟨list, channelsOf list.asks (sinksAfter [list])⟩ := by
  have hsteps : Logger.line [] "jsx_if_for" = ["jsx_if_for", "root"] := rfl
  have hsources : Logger.line ["jsx_if_for"] "jsx_if_for.file" =
      ["jsx_if_for.file", "jsx_if_for", "root"] := rfl
  have houtlines : Logger.line ["jsx_if_for", "jsx_if_for.file"] "jsx_if_for.tree" =
      ["jsx_if_for.tree", "jsx_if_for", "root"] := rfl
  cases h₁ : list.enables "jsx-if-for" <;> cases h₂ : list.enables "jsx-if-for-file" <;>
    cases h₃ : list.enables "jsx-if-for-tree" <;>
      simp [started, Topic.all, create, find?, refresh, channelsOf, channelOf, sinksAfter, kept,
        EnableList.asks, Topic.channelName, Topic.loggerName, Logger.named, sinksFor, h₁, h₂, h₃,
        hsteps, hsources, houtlines]

example : started {} = initial := rfl

lemma sinksAfter_append (lists : List EnableList) (list : EnableList) :
    sinksAfter (lists ++ [list]) = kept list (sinksAfter lists) := by
  rw [sinksAfter, List.foldl_append]
  rfl

lemma afterLists_eq (first : EnableList) (rest : List EnableList) :
    afterLists first rest = ⟨rest.getLastD first,
      channelsOf (rest.getLastD first).asks (sinksAfter (first :: rest))⟩ := by
  induction rest using List.reverseRecOn with
  | nil => exact started_eq first
  | append_singleton rest list ih =>
    have hstep : afterLists first (rest ++ [list]) = (afterLists first rest).configure list := by
      rw [afterLists, List.foldl_append]
      rfl
    rw [hstep, ih, configure, refreshAll_channelsOf, List.getLastD_concat, ← sinksAfter_append,
      List.cons_append]

/-- A channel has a sink of its own exactly if some list asked for it, but not for the steps if it
is not theirs, and all lists since then have asked for it. -/
lemma sinksAfter_iff (lists : List EnableList) (topic : Topic) : sinksAfter lists topic = true ↔
    ∃ before list after, lists = before ++ list :: after ∧
      (topic = .steps ∨ list.asks .steps = false) ∧ ∀ l ∈ list :: after, l.asks topic = true := by
  induction lists using List.reverseRecOn with
  | nil => simp [sinksAfter]
  | append_singleton lists last ih =>
    rw [sinksAfter_append, kept, Bool.and_eq_true, Bool.or_eq_true, Bool.or_eq_true, ih]
    constructor
    · rintro ⟨hlast, (⟨before, list, after, rfl, hsteps, hall⟩ | hfirst) | hoff⟩
      · refine ⟨before, list, after ++ [last], by simp, hsteps, ?_⟩
        rw [← List.cons_append, List.forall_mem_append]
        exact ⟨hall, by simpa using hlast⟩
      · exact ⟨lists, last, [], rfl, .inl (by simpa using hfirst), by simpa using hlast⟩
      · exact ⟨lists, last, [], rfl, .inr (by simpa using hoff), by simpa using hlast⟩
    · rintro ⟨before, list, after, hsplit, hsteps, hall⟩
      rcases List.eq_nil_or_concat after with rfl | ⟨after, l, rfl⟩
      · obtain ⟨rfl, hlist⟩ := List.append_inj' hsplit rfl
        obtain rfl : last = list := List.singleton_inj.mp hlist
        exact ⟨hall _ (by simp), hsteps.elim (fun h => .inl (.inr (by simpa using h)))
          fun h => .inr (by simp [h])⟩
      · rw [List.concat_eq_append, ← List.cons_append, ← List.append_assoc] at hsplit
        obtain ⟨rfl, hlist⟩ := List.append_inj' hsplit rfl
        obtain rfl : last = l := List.singleton_inj.mp hlist
        rw [List.concat_eq_append, ← List.cons_append, List.forall_mem_append] at hall
        exact ⟨by simpa using hall.2, .inl (.inl ⟨before, list, after, rfl, hsteps, hall.1⟩)⟩

/-! ### Records -/

lemma filter_above (h : topic ≠ .steps) : topic.above.filter sinks =
    (if sinks topic then [topic] else []) ++ if sinks .steps then [.steps] else [] := by
  cases topic with
  | steps => exact absurd rfl h
  | sources | outlines =>
    simp only [Topic.above, List.filter_cons, List.filter_nil]
    split_ifs <;> rfl

lemma find?_channelsOf (list : EnableList) (topic : Topic) :
    find? ⟨list, channelsOf enabled sinks⟩ topic.channelName =
      some (channelOf enabled sinks topic) := by
  cases topic <;> simp [find?, channelsOf, channelOf, Topic.all, Topic.channelName]

/-- A record of a topic that is asked for is written once by each of the sinks that it reaches. -/
lemma emit_channelsOf (list : EnableList) (topic : Topic) (message : String) :
    emit ⟨list, channelsOf enabled sinks⟩ (channelOf enabled sinks topic) message =
      if enabled topic then
        String.join ((topic.above.filter sinks).map fun writer => writer.line message)
      else "" := by
  have hheading (writer : Topic) :
      heading (channelOf enabled sinks writer) = writer.channelName := by
    cases writer <;> simp [heading, heading.halve, channelOf, Topic.channelName]
  rw [emit, show (channelOf enabled sinks topic).logger = topic.loggerName from rfl,
    sinksFor_channelsOf]
  simp only [List.map_map, Function.comp_def, hheading]
  rfl

/-- A topic was asked for when the steps were not, and ever since, and now the steps are asked for
as well. -/
def Doubled (lists : List EnableList) (topic : Topic) : Prop :=
  ∃ before list after, lists = before ++ list :: after ∧ list.asks .steps = false ∧
    (∀ l ∈ list :: after, l.asks topic = true) ∧ ∃ last ∈ after.getLast?, last.asks .steps = true

lemma sinksAfter_steps {lists : List EnableList} {last : EnableList}
    (hlast : lists.getLast? = some last) : sinksAfter lists .steps = last.asks .steps := by
  obtain ⟨init, rfl⟩ := List.getLast?_eq_some_iff.mp hlast
  simp [sinksAfter_append, kept]

/-- A channel that is on reaches a sink. -/
lemma sinksAfter_or_asks {lists : List EnableList} {last : EnableList}
    (hlast : lists.getLast? = some last) (hon : last.asks topic = true) :
    sinksAfter lists topic = true ∨ last.asks .steps = true := by
  obtain ⟨init, rfl⟩ := List.getLast?_eq_some_iff.mp hlast
  rw [sinksAfter_append, kept, hon]
  cases last.asks .steps <;> simp

lemma doubled_iff {lists : List EnableList} {last : EnableList}
    (hlast : lists.getLast? = some last) : Doubled lists topic ↔
      topic ≠ .steps ∧ sinksAfter lists topic = true ∧ last.asks .steps = true := by
  rw [sinksAfter_iff]
  constructor
  · rintro ⟨before, list, after, rfl, hoff, hall, l, hl, hsteps⟩
    obtain ⟨init, rfl⟩ := List.getLast?_eq_some_iff.mp hl
    have hsame : l = last := by simpa [List.getLast?_append, List.getLast?_cons] using hlast
    refine ⟨?_, ⟨before, list, _, rfl, .inr hoff, hall⟩, hsame ▸ hsteps⟩
    rintro rfl
    exact absurd (hall list (by simp)) (by simp [hoff])
  · rintro ⟨hne, ⟨before, list, after, rfl, hoff, hall⟩, hsteps⟩
    replace hoff := hoff.resolve_left hne
    refine ⟨before, list, after, rfl, hoff, hall, last, ?_, hsteps⟩
    rcases List.eq_nil_or_concat after with rfl | ⟨init, l, rfl⟩
    · obtain rfl : list = last := by simpa [List.getLast?_append] using hlast
      simp [hoff] at hsteps
    · simpa [List.getLast?_append, List.getLast?_cons] using hlast

/-- What a record of a topic that is on is written as: one line, or two if the topic has a sink
of its own besides that of the steps. -/
lemma exists_emit {lists : List EnableList} {last : EnableList}
    (hlast : lists.getLast? = some last) (hon : last.asks topic = true) (message : String) :
    (¬ Doubled lists topic → ∃ writer ∈ topic.above,
        (topic.above.filter (sinksAfter lists)).map (·.line message) = [writer.line message]) ∧
      (Doubled lists topic → (topic.above.filter (sinksAfter lists)).map (·.line message) =
        [topic.line message, Topic.steps.line message]) := by
  rw [doubled_iff hlast]
  have hself : topic ∈ topic.above := by cases topic <;> simp [Topic.above]
  have hsteps : .steps ∈ topic.above := by cases topic <;> simp [Topic.above]
  by_cases htopic : topic = .steps
  · subst htopic
    have hsinks := (sinksAfter_steps hlast).trans hon
    exact ⟨fun _ => ⟨.steps, hself, by simp [Topic.above, hsinks]⟩, fun h => absurd rfl h.1⟩
  · rw [filter_above htopic, sinksAfter_steps hlast]
    constructor
    · intro hsingle
      rcases sinksAfter_or_asks hlast hon with hsink | hasks
      · have hoff : last.asks .steps = false := by simpa [htopic, hsink] using hsingle
        exact ⟨topic, hself, by simp [hsink, hoff]⟩
      · have hnone : sinksAfter lists topic = false := by simpa [htopic, hasks] using hsingle
        exact ⟨.steps, hsteps, by simp [hnone, hasks]⟩
    · rintro ⟨-, hsink, hasks⟩
      simp [hsink, hasks]

/-- A record of a topic is written once, if the last list asks for the topic, unless the topic has
kept a sink from when the steps were off; then it is written twice. -/
theorem emit_afterLists (first : EnableList) (rest : List EnableList) (topic : Topic)
    (message : String) :
    ∃ c, (afterLists first rest).find? topic.channelName = some c ∧
      c.enabled = (rest.getLastD first).asks topic ∧
      (c.enabled = false → (afterLists first rest).emit c message = "") ∧
      (c.enabled = true → ¬ Doubled (first :: rest) topic →
        ∃ writer ∈ topic.above, (afterLists first rest).emit c message = writer.line message) ∧
      (c.enabled = true → Doubled (first :: rest) topic →
        (afterLists first rest).emit c message =
          topic.line message ++ Topic.steps.line message) := by
  have hlast : (first :: rest).getLast? = some (rest.getLastD first) := by
    simp [List.getLast?_cons, List.getLastD_eq_getLast?]
  rw [afterLists_eq]
  refine ⟨_, find?_channelsOf _ topic, rfl, ?_⟩
  rw [emit_channelsOf,
    show (channelOf _ _ topic).enabled = (rest.getLastD first).asks topic from rfl]
  refine ⟨fun hoff => if_neg (by rw [hoff]; decide), fun hon hsingle => ?_, fun hon hdoubled => ?_⟩
  · obtain ⟨writer, hwriter, hlines⟩ := (exists_emit hlast hon message).1 hsingle
    exact ⟨writer, hwriter, by rw [if_pos hon, hlines]; simp [String.join]⟩
  · rw [if_pos hon, (exists_emit hlast hon message).2 hdoubled]
    simp [String.join]

/-- The list of the channel for source texts alone. -/
def sourcesList : EnableList := .ofString "jsx-if-for-file"

/-- The list of all channels. -/
def allList : EnableList := .ofString "jsx-if-for*"

/-- Where the channel for source texts was switched on before the others, its records are written
twice; where all were switched on at once, they are written once. -/
theorem sources_written_twice :
    (∃ c, (afterLists {} [sourcesList, allList]).find? "jsx-if-for-file" = some c ∧
      (afterLists {} [sourcesList, allList]).emit c "x" =
        "jsx-if-for-file x\njsx-if-for x\n") ∧
    ∃ c, (afterLists {} [allList]).find? "jsx-if-for-file" = some c ∧
      ∃ writer ∈ [Topic.sources, .steps], (afterLists {} [allList]).emit c "x" =
        writer.line "x" := by
  have hsources : sourcesList.asks .sources = true ∧ sourcesList.asks .steps = false := by decide
  have hall : allList.asks .sources = true ∧ allList.asks .steps = true := by decide
  have hdoubled : Doubled [{}, sourcesList, allList] .sources :=
    ⟨[{}], sourcesList, [allList], rfl, hsources.2, by simp [hsources.1, hall.1],
      allList, rfl, hall.2⟩
  have hsingle : ¬ Doubled [{}, allList] .sources := by
    rintro ⟨before, list, after, hsplit, hoff, hasked, -⟩
    have hmem : list ∈ [{}, allList] := by simp [hsplit]
    simp only [List.mem_cons, List.not_mem_nil, or_false] at hmem
    rcases hmem with rfl | rfl
    · exact absurd (hasked _ List.mem_cons_self) (by decide)
    · exact absurd (hoff.symm.trans hall.2) (by decide)
  obtain ⟨c, hc, hon, -, -, htwice⟩ := emit_afterLists {} [sourcesList, allList] .sources "x"
  obtain ⟨d, hd, hon', -, honce, -⟩ := emit_afterLists {} [allList] .sources "x"
  exact ⟨⟨c, hc, htwice (hon.trans hall.1) hdoubled⟩,
    d, hd, honce (hon'.trans hall.1) hsingle⟩

end Channels

end JsxControl
