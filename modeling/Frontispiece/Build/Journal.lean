import Frontispiece.Project.Descriptor

/-!
# What a build tells

A `Journal` keeps what happens in a build: the lines of the log, the messages to the user, what the
tools were asked, and what was given to the publisher.  Each list has the latest entry first.

A `Console` says where messages go: they are kept, become lines of the log, or are dropped.
-/

set_option autoImplicit false

namespace Frontispiece
namespace Build

/-- How much a line of the log matters. -/
inductive Level where
  | debug
  | info
  | warn
  | error
  deriving DecidableEq, Repr

/-- The name of a level. -/
def Level.name : Level → String
  | .debug => "DEBUG"
  | .info => "INFO"
  | .warn => "WARN"
  | .error => "ERROR"

/-- A line of the log. -/
structure LogLine where
  level : Level
  text : String
  deriving DecidableEq, Repr

/-- A message to the user. -/
structure Message where
  isError : Bool
  text : String
  deriving DecidableEq, Repr

/-- What a tool is asked. -/
inductive ToolCall where
  | validate (kind : Project.Kind)
  | minify (kind : Project.Kind) (debug : Bool)
  deriving DecidableEq, Repr

/-- Where messages go. -/
inductive Console where
  | kept
  | logged
  | silent
  deriving DecidableEq, Repr

/-- What a build has told, latest first. -/
structure Journal where
  lines : List LogLine
  messages : List Message
  calls : List ToolCall
  /-- The folders and descriptors that the publisher was given. -/
  published : List (String × Project.Registry)

namespace Journal

/-- Nothing told. -/
def empty : Journal := ⟨[], [], [], []⟩

/-- One more line of the log. -/
def log (j : Journal) (level : Level) (text : String) : Journal :=
  { j with lines := ⟨level, text⟩ :: j.lines }

/-- One more message. -/
def tell (console : Console) (j : Journal) (message : Message) : Journal :=
  match console with
  | .kept => { j with messages := message :: j.messages }
  | .logged => j.log (if message.isError then .error else .info) message.text
  | .silent => j

/-- More messages, in order. -/
def tellAll (console : Console) (j : Journal) (messages : List Message) : Journal :=
  messages.foldl (tell console) j

/-- One more question to the tools. -/
def ask (j : Journal) (call : ToolCall) : Journal :=
  { j with calls := call :: j.calls }

end Journal
end Build
end Frontispiece
