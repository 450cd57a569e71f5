import SchemaCompiler.Statement.Basic
import SchemaCompiler.Text.Escaped
import SchemaCompiler.Text.Layout

/-!
# The source text of statements

Statements are laid out as the source text of a function body. A block is one unit deeper than the
statement that it belongs to.
-/

namespace SchemaCompiler

namespace Statement

/-- The layout of a guard. -/
def guardLayout (v : String) (check : Check) (negation : Option Check) (report : Option Report) :
    Layout :=
  let condition := match negation with
    | some negation => negation.render v "ctx"
    | none => "!(" ++ check.render v "ctx" ++ ")"
  match report with
  | none => .ofText ("if (" ++ condition ++ ") return false")
  | some report =>
    Layout.ofText ("if (" ++ condition ++ ") \x7b") ++
      (Layout.ofText (report.render v "ctx") ++ Layout.ofText "return false").deeper ++
      Layout.ofText "\x7d"

/-- The layout of a loop with the given body. -/
def loopLayout (v : String) (slots : LoopSlots) (body : Layout) : Layout :=
  let keys := "ctx." ++ slots.keys.name
  let index := "ctx." ++ slots.index.name
  let key := "ctx." ++ slots.key.name
  let element := "ctx." ++ slots.element.name
  Layout.ofText (keys ++ " = Object.keys(" ++ v ++ ")") ++
    Layout.ofText ("for (" ++ index ++ " = 0; " ++ index ++ " < " ++ keys ++ ".length; " ++ index ++
      "++) \x7b") ++
    (Layout.ofText (key ++ " = " ++ keys ++ "[" ++ index ++ "]") ++
      (match slots.omitted with
        | some omitted =>
          Layout.ofText ("if (ctx." ++ omitted.name ++ "[" ++ key ++ "] === true) continue")
        | none => []) ++
      Layout.ofText (element ++ " = " ++ v ++ "[" ++ key ++ "]") ++ body).deeper ++
    Layout.ofText "\x7d"

/-- The layout of a branch with the given body. -/
def branchLayout (v : String) (body : Layout) : Layout :=
  Layout.ofText "if (((value) => \x7b" ++ (body ++ Layout.ofText "return true").deeper ++
    Layout.ofText ("\x7d)(" ++ v ++ ")) return true")

end Statement

mutual

/-- The layout of a statement. -/
def Statement.layout : Statement → Layout
  | .guard subject check negation report =>
    Statement.guardLayout subject.render check negation report
  | .requirePresent subject => .ofText ("if (" ++ subject.render ++ " == null) return false")
  | .reject => .ofText "return false"
  | .forKeys subject slots body => Statement.loopLayout subject.render slots (Block.layout body)
  | .anyOf subject branches explains =>
    Branch.layouts subject.render branches ++
      (if explains then
        Layout.ofText ("ctx.explain(" ++ subject.render ++ ", " ++
          escapedList (branches.map Branch.label) ++ ")")
      else []) ++
      Layout.ofText "return false"

/-- The layouts of statements, one after the other. -/
def Block.layout : List Statement → Layout
  | [] => []
  | stmt :: stmts => stmt.layout ++ Block.layout stmts

/-- The layouts of branches, one after the other. -/
def Branch.layouts (v : String) : List Branch → Layout
  | [] => []
  | branch :: branches => branch.layout v ++ Branch.layouts v branches

/-- The layout of a branch. -/
def Branch.layout (v : String) : Branch → Layout
  | ⟨_, body⟩ => Statement.branchLayout v (Block.layout body)

end

end SchemaCompiler
