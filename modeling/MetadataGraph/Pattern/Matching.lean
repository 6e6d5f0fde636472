import MetadataGraph.Pattern.Node
import MetadataGraph.Pattern.Places
import Std.Data.HashMap

/-!
# Matching

A node is matched at many places at once: from the set of places where a match may start follows
the set of places where it may end. What the node asks of single places is answered for the whole
text first, once for each question, since a pattern asks the same again and again; that this
changes no answer is `AnswerTable.answer_ofQuestions`.
-/

namespace MetadataGraph.Pattern

/-- Whether a character belongs to a word. -/
def isWordChar (c : Option Char) : Bool := c.any CharClass.word.contains

/-- Whether an assertion holds between two characters, of which one is missing at either end. -/
def Assertion.holds : Assertion → Option Char → Option Char → Bool
  | textStart, before, _ => before.isNone
  | textEnd, _, after => after.isNone
  | lineStart, before, _ => before.all (· == '\n')
  | lineEnd, _, after => after.all (· == '\n')
  | anyLineStart, before, after =>
    before.all fun c => c == '\n' || (c == '\r' && after != some '\n')
  | anyLineEnd, before, after =>
    after.all fun c => c == '\r' || (c == '\n' && before != some '\r')
  | wordBoundary, before, after => isWordChar before != isWordChar after
  | noWordBoundary, before, after => isWordChar before == isWordChar after
  | wordStart, before, after => !isWordChar before && isWordChar after
  | wordEnd, before, after => isWordChar before && !isWordChar after
  | wordStartHalf, before, _ => !isWordChar before
  | wordEndHalf, _, after => !isWordChar after

/-! ## Questions to a text -/

/-- What a pattern asks of a place. -/
inductive Question where
  /-- Whether the next character is this one. -/
  | char (c : Char)
  /-- Whether the next character is one of a class. -/
  | oneOf (cls : CharClass)
  /-- Whether an assertion holds. -/
  | assertion (assertion : Assertion)
  deriving DecidableEq

instance : Hashable Question where
  hash
    | .char c => mixHash 1 (hash c.toNat)
    | .oneOf cls => mixHash 2 (hash cls.ranges)
    | .assertion asserted => mixHash 3 (hash asserted)

/-- The answer at a place of a text. -/
def Question.holdsAt (text : Array Char) : Question → Nat → Bool
  | .char c, place => text[place]? == some c
  | .oneOf cls, place => text[place]?.any cls.contains
  | .assertion asserted, place =>
    asserted.holds (if place = 0 then none else text[place - 1]?) text[place]?

/-- The places of a text where the answer is yes. -/
def Question.places (text : Array Char) (question : Question) : Nat :=
  placesUpTo text.size (question.holdsAt text)

mutual

/-- The questions of a node, before some others. -/
def Node.questions : Node → List Question → List Question
  | .empty, others => others
  | .char c, others => .char c :: others
  | .oneOf cls, others => .oneOf cls :: others
  | .assertion assertion, others => .assertion assertion :: others
  | .repetition node _ _, others | .group _ _ node, others => node.questions others
  | .sequence nodes, others | .alternation nodes, others => questionsOfAll nodes others

/-- The questions of the nodes of a list, before some others. -/
def questionsOfAll : List Node → List Question → List Question
  | [], others => others
  | node :: rest, others => questionsOfAll rest (node.questions others)

end

/-- Answers of a text, by question. -/
abbrev AnswerTable := Std.HashMap Question Nat

/-- The answers of a text to some questions, each worked out once. -/
def AnswerTable.ofQuestions (text : Array Char) (questions : List Question) : AnswerTable :=
  questions.foldl
    (fun table question =>
      if table.contains question then table else table.insert question (question.places text))
    ∅

/-- The answer of a text to a question, taken from a table if it is there. -/
def AnswerTable.answer (table : AnswerTable) (text : Array Char) (question : Question) : Nat :=
  match table[question]? with
  | some places => places
  | none => question.places text

private theorem places_of_foldl (text : Array Char) (questions : List Question)
    (table : AnswerTable)
    (h : ∀ (q : Question) (p : Nat), table[q]? = some p → p = q.places text)
    (q : Question) (p : Nat) :
    (questions.foldl
      (fun table question =>
        if table.contains question then table else table.insert question (question.places text))
      table)[q]? = some p → p = q.places text := by
  induction questions generalizing table with
  | nil => exact h q p
  | cons question questions ih =>
    refine ih _ fun q' p' hp => ?_
    dsimp only at hp
    split at hp
    · exact h q' p' hp
    · rw [Std.HashMap.getElem?_insert] at hp
      split at hp
      · next heq => rw [← eq_of_beq heq]; exact (Option.some.inj hp).symm
      · exact h q' p' hp

/-- A table answers as the text itself does, whatever questions it was made for. -/
theorem AnswerTable.answer_ofQuestions (text : Array Char) (questions : List Question)
    (question : Question) :
    (ofQuestions text questions).answer text question = question.places text := by
  rw [answer]
  split
  · next p hp =>
    exact places_of_foldl text questions ∅ (fun q p h => by simp at h) question p hp
  · rfl

/-! ## Ends of matches -/

mutual

/-- The places of the characters that a node accepts, if it always takes one character. -/
def Node.accepted? (answer : Question → Nat) : Node → Option Nat
  | .char c => some (answer (.char c))
  | .oneOf cls => some (answer (.oneOf cls))
  | .group _ _ node => node.accepted? answer
  | .alternation nodes => acceptedByAny? answer nodes
  | .empty | .assertion _ | .repetition _ _ _ | .sequence _ => none

/-- The places of the characters that some node of a list accepts, if all take one character. -/
def acceptedByAny? (answer : Question → Nat) : List Node → Option Nat
  | [] => some 0
  | node :: rest => do return (← node.accepted? answer) ||| (← acceptedByAny? answer rest)

end

mutual

/-- The places where matches of a node end that start at places of a set. The last place of the
text is `last`, and `answer` gives the places where the answer to a question is yes. -/
def Node.ends (last : Nat) (answer : Question → Nat) : Node → Nat → Nat
  | .empty, places => places
  | .char c, places => stepOver (answer (.char c)) places
  | .oneOf cls, places => stepOver (answer (.oneOf cls)) places
  | .assertion assertion, places => places &&& answer (.assertion assertion)
  | .repetition node least most, places =>
    let step := Node.ends last answer node
    match most with
    | some most =>
      let start := follow step least places
      explore step (most - least) start start start
    | none =>
      -- The last round that is asked for also starts the ones that are not.
      let start := follow step (least - 1) places
      match node.accepted? answer with
      | some accepted => runs accepted (if least = 0 then start else stepOver accepted start)
      -- Every round but the last adds a place to those that have been left.
      | none => explore step (last + 1) start (if least = 0 then start else 0) start
  | .group _ _ node, places => Node.ends last answer node places
  | .sequence nodes, places => endsInTurn last answer nodes places
  | .alternation nodes, places => endsOfAny last answer nodes places

/-- The places where matches of nodes one after the other end. -/
def endsInTurn (last : Nat) (answer : Question → Nat) : List Node → Nat → Nat
  | [], places => places
  | node :: rest, places => endsInTurn last answer rest (Node.ends last answer node places)

/-- The places where matches of one of several nodes end. -/
def endsOfAny (last : Nat) (answer : Question → Nat) : List Node → Nat → Nat
  | [], _ => 0
  | node :: rest, places =>
    Node.ends last answer node places ||| endsOfAny last answer rest places

end

/-- Whether some part of a text matches. -/
def Node.occursIn (node : Node) (text : String) : Bool :=
  let chars := text.toList.toArray
  let table := AnswerTable.ofQuestions chars (node.questions [])
  node.ends chars.size (table.answer chars) (allPlaces chars.size) ≠ 0

end MetadataGraph.Pattern
