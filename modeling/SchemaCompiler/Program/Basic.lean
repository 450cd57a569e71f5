import SchemaCompiler.Statement.Layout

/-!
# Programs

A program is compiled code together with the preparations of the slots that it uses, among them the
programs of its sub-validators.
-/

namespace SchemaCompiler

/-- A place in a schema where a check was compiled. -/
structure CheckSite where
  /-- The static location of the values that are checked. -/
  location : Location
  /-- The source text of the check. -/
  source : String
  deriving DecidableEq

mutual

/-- A compiled validator. -/
structure Program where
  /-- The code. -/
  body : List Statement
  /-- What the slots hold before the code runs, in order. -/
  preparations : List Preparation
  /-- Whether the code never records an explanation. -/
  isPure : Bool
  /-- The places where checks were compiled, in order. -/
  sites : List CheckSite
  /-- The number of blanks in a unit of indentation of the source text. -/
  indent : Nat

/-- The initial content of a slot. -/
structure Preparation where
  /-- The slot. -/
  key : SlotKey
  /-- What it holds at first. -/
  init : InitialContent

/-- What a slot may hold at first. -/
inductive InitialContent where
  | undefined
  | index (i : Nat)
  | literal (l : Literal)
  | keySet (s : KeySet)
  /-- A sub-validator. -/
  | validator (program : Program)
  | closure (c : Closure)

end

instance : Inhabited InitialContent := ⟨.undefined⟩
instance : Inhabited Preparation := ⟨⟨default, default⟩⟩
instance : Inhabited Program := ⟨⟨[], [], true, [], 0⟩⟩

namespace Program

/-- The layout of a function with the given body. -/
def functionLayout (body : Layout) : Layout :=
  Layout.ofText "(value) => \x7b" ++ (body ++ Layout.ofText "return true").deeper ++
    Layout.ofText "\x7d"

/-- The source text of code under a unit of indentation. -/
def sourceOf (body : Block) (indent : Nat) : String :=
  (functionLayout (Block.layout body)).text indent

/-- The source text of a program. -/
def source (program : Program) : String :=
  sourceOf program.body program.indent

/-- The debugging text of a program. -/
def debugText (program : Program) : String :=
  "Program \x7b pure: " ++ (if program.isPure then "true" else "false") ++ ", slots: " ++
    Nat.repr program.preparations.length ++ ", source: " ++ escaped program.source ++ " \x7d"

end Program

namespace InitialContent

/-- The text that describes what a slot holds at first. -/
def text : InitialContent → String
  | undefined => "undefined"
  | index i => Nat.repr i
  | literal l => l.text
  | keySet s => s.text
  | validator program => program.source
  | closure _ => "[closure]"

/-- The debugging text of what a slot holds at first. -/
def debugText : InitialContent → String
  | undefined => "Undefined"
  | index i => "Index(" ++ Nat.repr i ++ ")"
  | literal l => "Literal(" ++ l.debugText ++ ")"
  | keySet s => "KeySet(" ++ s.debugText ++ ")"
  | validator program => "Validator(" ++ escaped program.source ++ ")"
  | closure _ => "Closure(..)"

end InitialContent

end SchemaCompiler
