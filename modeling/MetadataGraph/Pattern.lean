import MetadataGraph.Error
import MetadataGraph.Pattern.Matching
import MetadataGraph.Pattern.Parser
import MetadataGraph.Properties

/-!
# Search patterns

A `TextPattern` is a pattern together with its tree. It is found anywhere in a text unless it says
otherwise itself.
-/

namespace MetadataGraph

/-- A search pattern that has been read. -/
structure TextPattern where
  /-- The pattern as written. -/
  source : String
  /-- Its tree. -/
  node : Pattern.Node

namespace TextPattern

/-- Read a pattern. -/
def compile (source : String) : Outcome TextPattern :=
  match Pattern.parse? source with
  | some node => .ok ⟨source, node⟩
  | none => .error (.refused (.invalidParameter (.invalidPattern source)))

/-- The characters that have a meaning in patterns. -/
def metaCharacters : List Char :=
  ['\\', '.', '+', '*', '?', '(', ')', '|', '[', ']', '\x7b', '\x7d', '^', '$', '#', '&', '-', '~']

/-- A text as a pattern for itself. -/
def escape (text : String) : String :=
  String.ofList (text.toList.flatMap fun c => if metaCharacters.contains c then ['\\', c] else [c])

/-- The pattern that only one text matches. -/
def exact (text : String) : Outcome TextPattern := compile ("^" ++ escape text ++ "$")

/-- Whether a part of a text matches. -/
def occursIn (pattern : TextPattern) (text : String) : Bool := pattern.node.occursIn text

/-- Whether a text held by one of some properties matches. -/
def occursInAny (pattern : TextPattern) (properties : Properties) : Bool :=
  properties.strings.any pattern.occursIn

end TextPattern

end MetadataGraph
