import MetadataGraph.Pattern.CharClass

/-!
# Trees of patterns

A search pattern as a tree, and the two bounds on it: how deep it may nest and how much memory a
machine that matches it may take.
-/

namespace MetadataGraph.Pattern

/-- Something asked of a place in a text. Words are made of the letters and digits of ASCII and the
underscore. -/
inductive Assertion where
  /-- The start of the text. -/
  | textStart
  /-- The end of the text. -/
  | textEnd
  /-- The start of a line, lines ending in a line feed. -/
  | lineStart
  /-- The end of a line, lines ending in a line feed. -/
  | lineEnd
  /-- The start of a line, lines ending in a carriage return, a line feed or both. -/
  | anyLineStart
  /-- The end of a line, lines ending in a carriage return, a line feed or both. -/
  | anyLineEnd
  /-- A place where a word starts or ends. -/
  | wordBoundary
  /-- A place where no word starts or ends. -/
  | noWordBoundary
  /-- A place where a word starts. -/
  | wordStart
  /-- A place where a word ends. -/
  | wordEnd
  /-- A place after no word character. -/
  | wordStartHalf
  /-- A place before no word character. -/
  | wordEndHalf
  deriving DecidableEq, Hashable

/-- The tree of a pattern. -/
inductive Node where
  /-- The empty text. -/
  | empty
  /-- One character. -/
  | char (c : Char)
  /-- One character of a class. -/
  | oneOf (cls : CharClass)
  /-- The empty text in a place with a property. -/
  | assertion (assertion : Assertion)
  /-- A node again and again, `least` times at least and `most` times at most. -/
  | repetition (node : Node) (least : Nat) (most : Option Nat)
  /-- A node in a capturing group. Groups are numbered from 1 by where they open, and some have a
  name. -/
  | group (number : Nat) (name : Option String) (node : Node)
  /-- Nodes one after the other. -/
  | sequence (nodes : List Node)
  /-- One of several nodes. -/
  | alternation (nodes : List Node)

namespace Node

instance : Inhabited Node := ⟨empty⟩

/-- Nodes one after the other; a single one is itself. -/
def ofSequence : List Node → Node
  | [] => empty
  | [node] => node
  | nodes => sequence nodes

/-- One of several nodes; a single one is itself. -/
def ofAlternatives : List Node → Node
  | [node] => node
  | nodes => alternation nodes

/-- A node again and again; never is the empty text, and exactly once is the node itself. -/
def ofRepetition (node : Node) (least : Nat) (most : Option Nat) : Node :=
  if least = 0 ∧ most = some 0 then empty
  else if least = 1 ∧ most = some 1 then node
  else repetition node least most

/-! ## Bounds -/

mutual

/-- The number of nodes between the root and the deepest leaf, the root not counted. -/
def depth : Node → Nat
  | empty | char _ | oneOf _ | assertion _ => 0
  | repetition node _ _ | group _ _ node => node.depth + 1
  | sequence nodes | alternation nodes => depthOfAll nodes

/-- The depth of a list of nodes below a common one. -/
def depthOfAll : List Node → Nat
  | [] => 0
  | node :: rest => max (node.depth + 1) (depthOfAll rest)

end

mutual

/-- Whether the node can match the empty text. -/
def matchesEmpty : Node → Bool
  | empty | assertion _ => true
  | char _ | oneOf _ => false
  | repetition node least _ => least = 0 || node.matchesEmpty
  | group _ _ node => node.matchesEmpty
  | sequence nodes => allMatchEmpty nodes
  | alternation nodes => someMatchesEmpty nodes

/-- Whether all nodes of a list can match the empty text. -/
def allMatchEmpty : List Node → Bool
  | [] => true
  | node :: rest => node.matchesEmpty && allMatchEmpty rest

/-- Whether some node of a list can match the empty text. -/
def someMatchesEmpty : List Node → Bool
  | [] => false
  | node :: rest => node.matchesEmpty || someMatchesEmpty rest

end

/-- The bytes that one state of a matching machine takes. -/
def stateSize : Nat := 32

/-- The bytes that a state with two ways out takes. -/
def forkSize : Nat := stateSize + 8

/-- The bytes that `count` copies in a row take. -/
def copiesSize (size count : Nat) : Nat := if count = 0 then stateSize else count * size

/-- The bytes that a repetition takes, given the size of what is repeated. -/
def repetitionSize (size : Nat) (nullable : Bool) (least : Nat) : Option Nat → Nat
  | none =>
    if least = 0 then
      if nullable then size + 2 * forkSize + stateSize else size + forkSize
    else least * size + forkSize
  | some most =>
    if least = most then copiesSize size least
    else if least = 0 ∧ most = 1 then size + forkSize + stateSize
    else copiesSize size least + stateSize + (most - least) * (size + forkSize)

mutual

/-- The bytes that a machine for the node takes: repetitions are unrolled. -/
def size : Node → Nat
  | empty | char _ | assertion _ => stateSize
  | oneOf cls => stateSize + 8 * cls.ranges.length
  | repetition node least most => repetitionSize node.size node.matchesEmpty least most
  | group _ _ node => node.size + 2 * stateSize
  | sequence nodes => sizeOfAll nodes
  | alternation nodes => sizeOfAll nodes + 2 * stateSize + 4 * nodes.length

/-- The bytes that machines for a list of nodes take. -/
def sizeOfAll : List Node → Nat
  | [] => 0
  | node :: rest => node.size + sizeOfAll rest

end

/-- The bytes that the table of groups takes for each number, named or not. -/
def groupSize : Nat := 16

/-- The bytes that the name of a group takes: its text and the number that it stands for. -/
def nameSize (name : Option String) : Nat :=
  match name with
  | none => 0
  | some name => name.utf8ByteSize + 4

mutual

/-- The highest number of a group in the node, zero if there is no group. -/
def lastGroup : Node → Nat
  | empty | char _ | oneOf _ | assertion _ => 0
  | repetition node _ _ => node.lastGroup
  | group number _ node => max number node.lastGroup
  | sequence nodes | alternation nodes => lastGroupOfAll nodes

/-- The highest number of a group in a list of nodes. -/
def lastGroupOfAll : List Node → Nat
  | [] => 0
  | node :: rest => max node.lastGroup (lastGroupOfAll rest)

end

mutual

/-- The bytes that the names of the groups take; a repeated group has its name once. -/
def namesSize : Node → Nat
  | empty | char _ | oneOf _ | assertion _ => 0
  | repetition node _ _ => node.namesSize
  | group _ name node => nameSize name + node.namesSize
  | sequence nodes | alternation nodes => namesSizeOfAll nodes

/-- The bytes that the names of the groups in a list of nodes take. -/
def namesSizeOfAll : List Node → Nat
  | [] => 0
  | node :: rest => node.namesSize + namesSizeOfAll rest

end

/-- The bytes that a machine for a whole pattern takes. It has three states around the node, and
its table of groups goes from the whole match, number zero, to the last group that is left in the
node. -/
def machineSize (node : Node) : Nat :=
  node.size + 3 * stateSize + (node.lastGroup + 1) * groupSize + node.namesSize

/-- The depth to which patterns may nest. -/
def maxDepth : Nat := 50

/-- The bytes that the machine of a pattern may take. -/
def maxSize : Nat := 10 * 1024 * 1024

/-- Whether a pattern keeps both bounds. -/
def isWithinBounds (node : Node) : Bool := node.depth ≤ maxDepth && node.machineSize ≤ maxSize

end Node

end MetadataGraph.Pattern
