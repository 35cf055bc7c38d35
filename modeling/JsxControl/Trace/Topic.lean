/-!
# Topics of the trace

What an expansion can be asked to tell about itself. Each topic has a channel, under whose name it
is switched on, and a logger, to which its lines go.
-/

namespace JsxControl

/-- What a line of the trace is about. -/
inductive Topic
  /-- The single expansions. -/
  | steps
  /-- The source text before and after. -/
  | sources
  /-- The outline of the tree before and after. -/
  | outlines
  deriving DecidableEq, Repr

namespace Topic

/-- All topics. -/
def all : List Topic := [steps, sources, outlines]

/-- The channel of a topic. -/
def channelName : Topic → String
  | steps => "jsx-if-for"
  | sources => "jsx-if-for-file"
  | outlines => "jsx-if-for-tree"

/-- The logger of a topic. -/
def loggerName : Topic → String
  | steps => "jsx_if_for"
  | sources => "jsx_if_for.file"
  | outlines => "jsx_if_for.tree"

end Topic

/-- A line of the trace. It may hold line breaks. -/
structure TraceLine where
  topic : Topic
  message : String
  deriving DecidableEq, Repr

end JsxControl
