import SchemaCompiler.Pattern.Basic

/-!
# The automaton of a pattern

Whether an expression matches somewhere in a text is decided by an automaton that reads the text
once. Its nodes read a character, test the place between two characters, or branch. All nodes that
some match could have come to are followed at the same time, so that no character is read twice.
-/

namespace SchemaCompiler

/-- A node of an automaton. A node names those after it by their numbers. -/
inductive Node where
  /-- The match is complete. -/
  | accept
  /-- Read a given character. -/
  | char (c : Char) (next : Nat)
  /-- Read a member of a set. -/
  | member (set : CharSet) (next : Nat)
  /-- Go on where a condition holds. -/
  | look (condition : Look) (next : Nat)
  /-- Go on in two ways. -/
  | branch (first second : Nat)

/-- The node after one that reads the given character, if it does. -/
def Node.after? (c : Char) : Node → Option Nat
  | char wanted next => if wanted = c then some next else none
  | member set next => if set.contains c then some next else none
  | _ => none

/-- An automaton: its nodes, and the number of the first one. -/
structure Automaton where
  /-- The number of the node where a match starts. -/
  start : Nat
  /-- The nodes. -/
  nodes : Array Node

namespace Automaton

/-! ### Building -/

/-- An automaton that starts with one more node. -/
def before (node : Node) (rest : Automaton) : Automaton :=
  ⟨rest.nodes.size, rest.nodes.push node⟩

/-- What repeats `body` without end, or goes on with the rest. The loop leads back to a node that is
numbered before it has its ways out. -/
def loop (body : Automaton → Automaton) (rest : Automaton) : Automaton :=
  let entry := rest.nodes.size
  let exit := rest.start
  let round := body (before (.branch exit exit) rest)
  ⟨entry, round.nodes.set! entry (.branch round.start exit)⟩

/-- What goes through `body` at most `count` times, and goes on with the rest. -/
def optional (body : Automaton → Automaton) (count : Nat) (rest : Automaton) : Automaton :=
  let exit := rest.start
  count.repeat (fun later =>
    let round := body later
    before (.branch round.start exit) round) rest

mutual

/-- The automaton for an expression that is followed by the rest. -/
def ofRegex : Regex → (rest : Automaton) → Automaton
  | .empty, rest => rest
  | .char c, rest => before (.char c rest.start) rest
  | .member set, rest => before (.member set rest.start) rest
  | .look condition, rest => before (.look condition rest.start) rest
  | .capture body, rest => ofRegex body rest
  | .repeated body least most, rest =>
    least.repeat (fun later => ofRegex body later) <|
      match most with
      | some most => optional (fun later => ofRegex body later) (most - least) rest
      | none => loop (fun later => ofRegex body later) rest
  | .sequence parts, rest => ofSequence parts rest
  | .choice parts, rest => ofChoice parts rest

/-- The automaton for expressions one after another. -/
def ofSequence : List Regex → (rest : Automaton) → Automaton
  | [], rest => rest
  | part :: parts, rest => ofRegex part (ofSequence parts rest)

/-- The automaton for a choice between expressions. -/
def ofChoice : List Regex → (rest : Automaton) → Automaton
  | [], rest => before (.member .empty rest.start) rest
  | [part], rest => ofRegex part rest
  | part :: parts, rest =>
    let exit := rest.start
    let others := ofChoice parts rest
    let second := others.start
    let first := ofRegex part ⟨exit, others.nodes⟩
    before (.branch first.start second) first

end

end Automaton

/-- The automaton of an expression. -/
def Regex.automaton (regex : Regex) : Automaton :=
  .ofRegex regex ⟨0, #[.accept]⟩

namespace Automaton

/-! ### Running -/

/-- Follow the nodes of a stack as far as no character has to be read. The result is the nodes that
read one then, and for each node the place where it was come to last, or nothing if a match is
complete. Each node is followed once at a place. The fuel bounds the number of nodes that are taken
from the stack. -/
def follow (nodes : Array Node) (place : Nat) (before after : Option Char) :
    (fuel : Nat) → (stack : List Nat) → (visited : Array Nat) → (readers : List Node) →
      Option (List Node × Array Nat)
  | 0, _, visited, readers | _ + 1, [], visited, readers => some (readers, visited)
  | fuel + 1, number :: stack, visited, readers =>
    if visited[number]? = some place then
      follow nodes place before after fuel stack visited readers
    else
      let visited := visited.set! number place
      match nodes[number]? with
      | some .accept => none
      | some (.look condition next) =>
        let stack := if condition.holds before after then next :: stack else stack
        follow nodes place before after fuel stack visited readers
      | some (.branch first second) =>
        follow nodes place before after fuel (first :: second :: stack) visited readers
      | some node => follow nodes place before after fuel stack visited (node :: readers)
      | none => follow nodes place before after fuel stack visited readers

/-- Whether a match is complete at a place or after it. A match may start at each place, which is
why the first node is followed everywhere. Each node puts at most two on the stack. -/
def run (automaton : Automaton) (place : Nat) (before : Option Char) (stack : List Nat)
    (visited : Array Nat) (text : List Char) : Bool :=
  let stack := automaton.start :: stack
  let fuel := stack.length + 2 * automaton.nodes.size
  match follow automaton.nodes place before text.head? fuel stack visited [] with
  | none => true
  | some (readers, visited) =>
    match text with
    | [] => false
    | c :: text => run automaton (place + 1) (some c) (readers.filterMap (·.after? c)) visited text

/-- Whether an automaton comes to a match somewhere in a text. Places are numbered from one, so that
no node was come to before the first. -/
def isMatch (automaton : Automaton) (text : String) : Bool :=
  automaton.run 1 none [] (.replicate automaton.nodes.size 0) text.toList

end Automaton

end SchemaCompiler
