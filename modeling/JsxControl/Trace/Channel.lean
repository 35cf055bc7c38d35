import JsxControl.Trace.EnableList
import JsxControl.Trace.Topic

/-!
# Channels

A channel is bound to a logger. Loggers form a tree by their dotted names, and a record that is
logged goes to the sinks of its logger and of all loggers above it. A channel that is switched on
makes sure that its records are written: if there is no sink for them, it opens one of its own.
A channel that is switched off closes its own sink.
-/

namespace JsxControl

/-- A channel. Its own sink, if it has opened one, stands at its logger. -/
structure Channel where
  name : String
  logger : String
  enabled : Bool := false
  hasSink : Bool := false
  deriving DecidableEq, Repr

namespace Logger

/-- The names that the points in a logger's name cut off, from the name read backwards and the
longest first. The character in front of a point that cuts is no such point itself. -/
def stems (behindPoint : Bool) : List Char → List (List Char)
  | [] => []
  | c :: rest =>
    if !behindPoint ∧ c = '.' ∧ rest ≠ [] then rest :: stems true rest else stems false rest

/-- The logger above all others. -/
def root : String := "root"

/-- The logger that is asked for under a name; the one above all others needs none. -/
def named (name : String) : String := if name = "" then root else name

/-- The nearest of some loggers that a logger lies below. -/
def parent? (loggers : List String) (logger : String) : Option String :=
  ((stems false logger.toList.reverse).map fun name => String.ofList name.reverse).find?
    fun name => name ≠ root && loggers.contains name

/-- A logger and those of some loggers that it lies below, nearest first and at most `limit`. -/
def ancestry (loggers : List String) : Nat → String → List String
  | 0, logger => [logger]
  | limit + 1, logger =>
    match parent? loggers logger with
    | some parent => logger :: ancestry loggers limit parent
    | none => [logger]

/-- A logger and the loggers above it, nearest first; all of these are among the given ones but the
one above all others. -/
def line (loggers : List String) (logger : String) : List String :=
  if logger = root then [root] else ancestry loggers logger.length logger ++ [root]

end Logger

/-- The channels in the order of their creation, and the list that says which are switched on. -/
structure Channels where
  list : EnableList := {}
  channels : List Channel := []
  deriving DecidableEq, Repr

namespace Channels

/-- The channels whose own sinks a record of a logger goes to, nearest logger first. -/
def sinksFor (channels : List Channel) (logger : String) : List Channel :=
  (Logger.line (channels.map (·.logger)) logger).flatMap fun name =>
    channels.filter fun c => c.hasSink && c.logger = name

/-- A channel switched on or off as the list says, next to all channels as they are. -/
def refresh (list : EnableList) (all : List Channel) (c : Channel) : Channel :=
  if list.enables c.name then
    { c with enabled := true, hasSink := c.hasSink || (sinksFor all c.logger).isEmpty }
  else
    { c with enabled := false, hasSink := false }

/-- All channels switched on or off, one after the other; those in `done` have been. -/
def refreshAll (list : EnableList) (done : List Channel) : List Channel → List Channel
  | [] => done
  | c :: rest => refreshAll list (done ++ [refresh list (done ++ c :: rest) c]) rest

/-- The channel of a name, if there is one. -/
def find? (cs : Channels) (name : String) : Option Channel := cs.channels.find? (·.name = name)

/-- Takes up a new list. -/
def configure (cs : Channels) (list : EnableList) : Channels where
  list := list
  channels := refreshAll list [] cs.channels

/-- Makes a channel, unless there is one of that name, and gives the channel of the name. -/
def create (cs : Channels) (name logger : String) : Channels × Channel :=
  match cs.find? name with
  | some c => (cs, c)
  | none =>
    let c := refresh cs.list cs.channels { name, logger := Logger.named logger }
    ({ cs with channels := cs.channels ++ [c] }, c)

/-- The channels of the topics, all switched off. -/
def initial : Channels :=
  Topic.all.foldl (fun cs topic => (cs.create topic.channelName topic.loggerName).1) {}

/-- Whether a topic is asked for. -/
def asks (cs : Channels) (topic : Topic) : Bool :=
  (cs.find? topic.channelName).any (·.enabled)

/-- The name of a channel at the head of a line that its sink writes; two per cent signs are written
as one. -/
def heading (c : Channel) : String := String.ofList (halve c.name.toList)
where
  /-- The characters of a name with each pair of per cent signs made one. -/
  halve : List Char → List Char
    | '%' :: '%' :: cs => '%' :: halve cs
    | c :: cs => c :: halve cs
    | [] => []

/-- What is written if a message is sent to a channel: one line for each sink that it reaches,
behind the name of the channel that opened the sink. A channel that is switched off writes nothing.
-/
def emit (cs : Channels) (c : Channel) (message : String) : String :=
  if c.enabled then
    let sinks := sinksFor cs.channels c.logger
    String.join (sinks.map fun sink => heading sink ++ " " ++ message ++ "\n")
  else
    ""

/-- What is written for a line of the trace. -/
def emitLine (cs : Channels) (line : TraceLine) : String :=
  match cs.find? line.topic.channelName with
  | some c => cs.emit c line.message
  | none => ""

end Channels

/-- A message with its arguments in the places of `%s`; `%%` is a per cent sign. A message without
arguments is taken as it is. -/
def formatMessage (message : String) (arguments : List String) : String :=
  if arguments.isEmpty then message else String.ofList (fill message.toList arguments)
where
  /-- The characters of a message with the arguments filled in. -/
  fill : List Char → List String → List Char
    | '%' :: '%' :: cs, arguments => '%' :: fill cs arguments
    | '%' :: 's' :: cs, argument :: arguments => argument.toList ++ fill cs arguments
    | c :: cs, arguments => c :: fill cs arguments
    | [], _ => []

end JsxControl
