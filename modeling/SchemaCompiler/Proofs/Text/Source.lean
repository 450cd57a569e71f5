import SchemaCompiler.Program.Basic
import SchemaCompiler.Proofs.Text.Lines

/-!
# Source text, piece by piece

Source text can be written from the inside out, without a layout: a block is written by indenting
the texts of its statements, which may have many lines, and a statement puts blanks before each line
of its own (`Block.written`, `Statement.written`). Where the body of a loop or of a branch is empty
its line is left out. The result is the text of the layout (`Program.sourceOf_eq_written`), if what
the lines of loops are made of has no line feeds.
-/

namespace SchemaCompiler

/-! ### Layouts of code -/

section

open Layout

theorem Statement.isLined_guardLayout (v : String) (check : Check) (negation : Option Check)
    (report : Option Report) : (guardLayout v check negation report).IsLined := by
  unfold guardLayout
  cases report with
  | none => exact isLined_ofText _
  | some report =>
    exact ((isLined_ofText _).append ((isLined_ofText _).append (isLined_ofText _)).deeper).append
      (isLined_ofText _)

theorem Statement.isLined_loopLayout (v : String) (slots : LoopSlots) {body : Layout}
    (h : body.IsLined) : (loopLayout v slots body).IsLined := by
  unfold loopLayout
  refine ((((isLined_ofText _).append (isLined_ofText _)).append ?_).append (isLined_ofText _))
  refine ((((isLined_ofText _).append ?_).append (isLined_ofText _)).append h).deeper
  cases slots.omitted with
  | none => exact isLined_nil
  | some omitted => exact isLined_ofText _

theorem Statement.isLined_branchLayout (v : String) {body : Layout} (h : body.IsLined) :
    (branchLayout v body).IsLined :=
  ((isLined_ofText _).append (h.append (isLined_ofText _)).deeper).append (isLined_ofText _)

mutual

/-- The lines of a statement are without line feeds. -/
theorem Statement.isLined_layout : ∀ stmt : Statement, stmt.layout.IsLined
  | .guard _ _ _ _ => Statement.isLined_guardLayout _ _ _ _
  | .requirePresent _ => isLined_ofText _
  | .reject => isLined_ofText _
  | .forKeys _ _ body => Statement.isLined_loopLayout _ _ (Block.isLined_layout body)
  | .anyOf subject branches explains => by
    refine ((Branch.isLined_layouts subject.render branches).append ?_).append (isLined_ofText _)
    cases explains with
    | false => exact isLined_nil
    | true => exact isLined_ofText _

theorem Block.isLined_layout : ∀ stmts : List Statement, (Block.layout stmts).IsLined
  | [] => isLined_nil
  | stmt :: stmts => stmt.isLined_layout.append (Block.isLined_layout stmts)

theorem Branch.isLined_layouts (v : String) : ∀ branches : List Branch,
    (Branch.layouts v branches).IsLined
  | [] => isLined_nil
  | branch :: branches => (branch.isLined_layout v).append (Branch.isLined_layouts v branches)

theorem Branch.isLined_layout (v : String) : ∀ branch : Branch, (branch.layout v).IsLined
  | ⟨_, body⟩ => Statement.isLined_branchLayout v (Block.isLined_layout body)

end

end

/-! ### Pieces -/

/-- The texts that a layout stands for, one below the other. -/
structure Layout.Writes (unit : Nat) (layout : Layout) (texts : List String) : Prop where
  isLined : layout.IsLined
  nil_iff : layout = [] ↔ texts = []
  text : layout.text unit = "\n".intercalate texts

namespace Layout.Writes

variable {unit : Nat} {layout other : Layout} {texts others : List String}

theorem nil : Writes unit [] [] :=
  ⟨isLined_nil, by simp, rfl⟩

theorem ofText (source : String) : Writes unit (Layout.ofText source) [source] where
  isLined := isLined_ofText source
  nil_iff := by simp [Layout.ofText, Lines.split_ne_nil]
  text := by simp

theorem append (h : layout.Writes unit texts) (h' : other.Writes unit others) :
    (layout ++ other).Writes unit (texts ++ others) where
  isLined := h.isLined.append h'.isLined
  nil_iff := by rw [List.append_eq_nil_iff, List.append_eq_nil_iff, h.nil_iff, h'.nil_iff]
  text := by
    by_cases hl : layout = []
    · rw [hl, h.nil_iff.1 hl, List.nil_append, List.nil_append, h'.text]
    · by_cases ho : other = []
      · rw [ho, h'.nil_iff.1 ho, List.append_nil, List.append_nil, h.text]
      · rw [text_append hl ho, h.text, h'.text,
          String.intercalate_append_of_ne_nil (mt h.nil_iff.2 hl) (mt h'.nil_iff.2 ho)]

/-- Deeper lines are written by indenting the texts. -/
theorem deeper (h : layout.Writes unit texts) :
    layout.deeper.Writes unit (texts.map (indentLines unit)) where
  isLined := h.isLined.deeper
  nil_iff := by simp [Layout.deeper, h.nil_iff]
  text := by
    by_cases hl : layout = []
    · rw [hl, h.nil_iff.1 hl]
      rfl
    · rw [text_deeper h.isLined hl, h.text]
      exact indentLines_intercalate unit (mt h.nil_iff.2 hl)

/-- Texts that are written one below the other make one text. -/
theorem join (h : layout.Writes unit texts) (hne : texts ≠ []) {text : String}
    (ht : "\n".intercalate texts = text) : layout.Writes unit [text] where
  isLined := h.isLined
  nil_iff := by simp [h.nil_iff, hne]
  text := by rw [h.text, ht, String.intercalate_singleton]

end Layout.Writes

/-! ### Statements -/

/-- A text with a line feed after it, unless it is empty. -/
def followed (text : String) : String :=
  if text.isEmpty then "" else text ++ "\n"

/-- The text of a block: the texts of its statements, indented. -/
def blockText (unit : Nat) (texts : List String) : String :=
  "\n".intercalate (texts.map (indentLines unit))

namespace Statement

/-- The text of a guard: a report has lines of its own, which are indented. -/
def guardText (unit : Nat) (v : String) (check : Check) (negation : Option Check)
    (report : Option Report) : String :=
  let condition := match negation with
    | some negation => negation.render v "ctx"
    | none => "!(" ++ check.render v "ctx" ++ ")"
  match report with
  | none => "if (" ++ condition ++ ") return false"
  | some report =>
    "if (" ++ condition ++ ") \x7b" ++ "\n" ++ indentLines unit (report.render v "ctx") ++ "\n" ++
      (pad unit ++ "return false") ++ "\n" ++ "\x7d"

/-- The text of a loop around the text of its body, which is indented already. -/
def loopText (unit : Nat) (v : String) (slots : LoopSlots) (body : String) : String :=
  let keys := "ctx." ++ slots.keys.name
  let index := "ctx." ++ slots.index.name
  let key := "ctx." ++ slots.key.name
  let element := "ctx." ++ slots.element.name
  keys ++ " = Object.keys(" ++ v ++ ")" ++ "\n" ++
    ("for (" ++ index ++ " = 0; " ++ index ++ " < " ++ keys ++ ".length; " ++ index ++ "++) \x7b") ++
    "\n" ++ (pad unit ++ (key ++ " = " ++ keys ++ "[" ++ index ++ "]")) ++ "\n" ++
    (match slots.omitted with
      | some omitted =>
        pad unit ++ ("if (ctx." ++ omitted.name ++ "[" ++ key ++ "] === true) continue") ++ "\n"
      | none => "") ++
    (pad unit ++ (element ++ " = " ++ v ++ "[" ++ key ++ "]")) ++ "\n" ++ followed body ++ "\x7d"

/-- The text of a branch around the text of its body, which is indented already. -/
def branchText (unit : Nat) (v body : String) : String :=
  "if (((value) => \x7b" ++ "\n" ++ followed body ++ (pad unit ++ "return true") ++ "\n" ++
    ("\x7d)(" ++ v ++ ")) return true")

end Statement

mutual

/-- The text of a statement. -/
def Statement.written (unit : Nat) : Statement → String
  | .guard subject check negation report =>
    Statement.guardText unit subject.render check negation report
  | .requirePresent subject => "if (" ++ subject.render ++ " == null) return false"
  | .reject => "return false"
  | .forKeys subject slots body =>
    Statement.loopText unit subject.render slots (blockText unit (Block.written unit body))
  | .anyOf subject branches explains =>
    "\n".intercalate (Branch.allWritten unit subject.render branches ++
      (if explains then
        ["ctx.explain(" ++ subject.render ++ ", " ++ escapedList (branches.map Branch.label) ++ ")"]
      else []) ++ ["return false"])

/-- The texts of statements. -/
def Block.written (unit : Nat) : List Statement → List String
  | [] => []
  | stmt :: stmts => stmt.written unit :: Block.written unit stmts

/-- The texts of branches. -/
def Branch.allWritten (unit : Nat) (v : String) : List Branch → List String
  | [] => []
  | branch :: branches => branch.written unit v :: Branch.allWritten unit v branches

/-- The text of a branch. -/
def Branch.written (unit : Nat) (v : String) : Branch → String
  | ⟨_, body⟩ => Statement.branchText unit v (blockText unit (Block.written unit body))

end

theorem append_ne_empty (first : String) {last : String} (h : last ≠ "") : first ++ last ≠ "" :=
  fun he => h (String.append_eq_empty_iff.1 he).2

/-- No statement is written as the empty text. -/
theorem Statement.written_ne_empty (unit : Nat) (stmt : Statement) : stmt.written unit ≠ "" := by
  cases stmt with
  | guard _ _ _ report => cases report <;> exact append_ne_empty _ (by decide)
  | requirePresent => exact append_ne_empty _ (by decide)
  | reject => exact (by decide : "return false" ≠ "")
  | forKeys => exact append_ne_empty _ (by decide)
  | anyOf subject branches explains =>
    rw [written]
    generalize Branch.allWritten unit subject.render branches ++ _ = texts
    by_cases h : texts = []
    · rw [h]
      exact (by decide : "return false" ≠ "")
    · rw [String.intercalate_append_of_ne_nil h (List.cons_ne_nil _ _)]
      exact append_ne_empty _ (by decide)

theorem Block.forall_written_ne_empty (unit : Nat) (stmts : List Statement) :
    ∀ text ∈ Block.written unit stmts, text ≠ "" := by
  induction stmts with
  | nil => simp [written]
  | cons stmt stmts ih => exact List.forall_mem_cons.2 ⟨stmt.written_ne_empty unit, ih⟩

theorem blockText_ne_empty (unit : Nat) {texts : List String} (h : ∀ text ∈ texts, text ≠ "")
    (hne : texts ≠ []) : blockText unit texts ≠ "" := by
  obtain ⟨first, others, rfl⟩ := List.exists_cons_of_ne_nil hne
  rw [blockText, List.map_cons]
  by_cases ho : others.map (indentLines unit) = []
  · rw [ho, String.intercalate_singleton]
    exact indentLines_ne_empty (h first List.mem_cons_self) unit
  · rw [String.intercalate_cons_of_ne_nil ho]
    simp [String.append_eq_empty_iff]

/-- The line of an empty body is left out. -/
theorem followed_blockText (unit : Nat) {texts : List String} (h : ∀ text ∈ texts, text ≠ "")
    (last : String) :
    followed (blockText unit texts) ++ last =
      "\n".intercalate (texts.map (indentLines unit) ++ [last]) := by
  by_cases hn : texts = []
  · rw [hn]
    simp [followed, blockText]
  · have hm : texts.map (indentLines unit) ≠ [] := by simpa using hn
    rw [followed, if_neg (mt String.isEmpty_iff.1 (blockText_ne_empty unit h hn)), blockText,
      String.intercalate_append_of_ne_nil hm (List.cons_ne_nil _ _), String.intercalate_singleton]

/-! ### Lines of loops -/

/-- Loops whose slots have names without line feeds. -/
structure LoopSlots.InLine (slots : LoopSlots) : Prop where
  keys : IsLine slots.keys.name
  index : IsLine slots.index.name
  key : IsLine slots.key.name
  element : IsLine slots.element.name
  omitted : ∀ omitted ∈ slots.omitted, IsLine omitted.name

mutual

/-- Statements in which the lines of loops are lines. -/
def Statement.LoopsInLine : Statement → Prop
  | .guard _ _ _ _ | .requirePresent _ | .reject => True
  | .forKeys subject slots body =>
    IsLine subject.render ∧ slots.InLine ∧ Block.LoopsInLine body
  | .anyOf _ branches _ => Branch.AllLoopsInLine branches

/-- Blocks in which the lines of loops are lines. -/
def Block.LoopsInLine : List Statement → Prop
  | [] => True
  | stmt :: stmts => stmt.LoopsInLine ∧ Block.LoopsInLine stmts

/-- Branches in which the lines of loops are lines. -/
def Branch.AllLoopsInLine : List Branch → Prop
  | [] => True
  | branch :: branches => branch.LoopsInLine ∧ Branch.AllLoopsInLine branches

/-- A branch in which the lines of loops are lines. -/
def Branch.LoopsInLine : Branch → Prop
  | ⟨_, body⟩ => Block.LoopsInLine body

end

/-! ### Writing layouts -/

section

open Layout Statement

variable {unit : Nat}

theorem Statement.writes_guardLayout (v : String) (check : Check) (negation : Option Check)
    (report : Option Report) :
    (guardLayout v check negation report).Writes unit [guardText unit v check negation report] := by
  unfold guardLayout guardText
  cases report with
  | none => exact .ofText _
  | some report =>
    refine (((Writes.ofText _).append
      ((Writes.ofText _).append (.ofText _)).deeper).append (.ofText _)).join (by simp) ?_
    have hexit : IsLine "return false" := by decide
    cases negation <;> simp [indentLines_of_isLine hexit, String.append_assoc]

/-- Texts that end with another one, between two more. -/
theorem intercalate_between (first : String) (texts : List String) (second last : String) :
    "\n".intercalate ([first] ++ (texts ++ [second]) ++ [last]) =
      first ++ "\n" ++ "\n".intercalate (texts ++ [second]) ++ "\n" ++ last := by
  have hinner : texts ++ [second] ≠ [] :=
    List.append_ne_nil_of_right_ne_nil _ (List.cons_ne_nil _ _)
  have houter : [first] ++ (texts ++ [second]) ≠ [] := List.cons_ne_nil _ _
  rw [String.intercalate_append_of_ne_nil houter (List.cons_ne_nil last []),
    String.intercalate_append_of_ne_nil (List.cons_ne_nil first []) hinner,
    String.intercalate_singleton, String.intercalate_singleton]

variable {body : Layout} {texts : List String} {v : String} {slots : LoopSlots}

theorem Statement.writes_branchLayout (h : body.Writes unit texts) (hne : ∀ text ∈ texts, text ≠ "")
    (v : String) : (branchLayout v body).Writes unit [branchText unit v (blockText unit texts)] := by
  unfold branchLayout
  refine (((Writes.ofText _).append (h.append (.ofText _)).deeper).append (.ofText _)).join
    (by simp) ?_
  have hexit : IsLine "return true" := by decide
  rw [List.map_append, List.map_singleton, indentLines_of_isLine hexit, intercalate_between,
    ← followed_blockText unit hne]
  unfold branchText
  simp only [String.append_assoc]

theorem LoopSlots.InLine.isLine_key (h : slots.InLine) :
    IsLine ("ctx." ++ slots.key.name ++ " = " ++ ("ctx." ++ slots.keys.name) ++ "[" ++
      ("ctx." ++ slots.index.name) ++ "]") := by
  have hnames := And.intro h.key (And.intro h.keys h.index)
  unfold IsLine at hnames ⊢
  simp [hnames]

theorem LoopSlots.InLine.isLine_omitted (h : slots.InLine) {omitted : SlotKey}
    (ho : slots.omitted = some omitted) :
    IsLine ("if (ctx." ++ omitted.name ++ "[" ++ ("ctx." ++ slots.key.name) ++
      "] === true) continue") := by
  have hnames := And.intro h.key (h.omitted omitted ho)
  unfold IsLine at hnames ⊢
  simp [hnames]

theorem LoopSlots.InLine.isLine_element (h : slots.InLine) (hv : IsLine v) :
    IsLine ("ctx." ++ slots.element.name ++ " = " ++ v ++ "[" ++ ("ctx." ++ slots.key.name) ++
      "]") := by
  have hnames := And.intro h.key (And.intro h.element hv)
  unfold IsLine at hnames ⊢
  simp [hnames]

theorem Statement.writes_loopLayout (h : body.Writes unit texts) (hne : ∀ text ∈ texts, text ≠ "")
    (hv : IsLine v) (hs : slots.InLine) :
    (loopLayout v slots body).Writes unit [loopText unit v slots (blockText unit texts)] := by
  have hlast : texts.map (indentLines unit) ++ ["\x7d"] ≠ [] :=
    List.append_ne_nil_of_right_ne_nil _ (List.cons_ne_nil _ _)
  have hkey := indentLines_of_isLine hs.isLine_key unit
  have helement := indentLines_of_isLine (hs.isLine_element hv) unit
  unfold loopLayout loopText
  cases ho : slots.omitted with
  | none =>
    refine ((((Writes.ofText _).append (.ofText _)).append
      ((((Writes.ofText _).append .nil).append (.ofText _)).append h).deeper).append
        (.ofText _)).join (by simp) ?_
    simp only [List.map_cons, List.cons_append, List.nil_append, hkey, helement]
    rw [String.intercalate_cons_cons, String.intercalate_cons_cons, String.intercalate_cons_cons,
      String.intercalate_cons_of_ne_nil hlast, ← followed_blockText unit hne]
    simp only [String.append_assoc, String.empty_append]
  | some omitted =>
    refine ((((Writes.ofText _).append (.ofText _)).append
      ((((Writes.ofText _).append (.ofText _)).append (.ofText _)).append h).deeper).append
        (.ofText _)).join (by simp) ?_
    simp only [List.map_cons, List.cons_append, List.nil_append, hkey, helement,
      indentLines_of_isLine (hs.isLine_omitted ho)]
    rw [String.intercalate_cons_cons, String.intercalate_cons_cons, String.intercalate_cons_cons,
      String.intercalate_cons_cons, String.intercalate_cons_of_ne_nil hlast,
      ← followed_blockText unit hne]
    simp only [String.append_assoc]

mutual

/-- **Statements are written piece by piece as they are laid out.** -/
theorem Statement.writes_layout (unit : Nat) : ∀ {stmt : Statement}, stmt.LoopsInLine →
    stmt.layout.Writes unit [stmt.written unit]
  | .guard _ _ _ _, _ => writes_guardLayout _ _ _ _
  | .requirePresent _, _ => .ofText _
  | .reject, _ => .ofText _
  | .forKeys _ _ body, ⟨hv, hs, h⟩ =>
    writes_loopLayout (Block.writes_layout unit h) (Block.forall_written_ne_empty unit body) hv hs
  | .anyOf subject branches explains, h => by
    refine (((Branch.writes_layouts unit subject.render h).append ?_).append (.ofText _)).join
      (by simp) rfl
    cases explains with
    | false => exact .nil
    | true => exact .ofText _

theorem Block.writes_layout (unit : Nat) : ∀ {stmts : List Statement}, Block.LoopsInLine stmts →
    (Block.layout stmts).Writes unit (Block.written unit stmts)
  | [], _ => .nil
  | _ :: _, ⟨h, hs⟩ => (Statement.writes_layout unit h).append (Block.writes_layout unit hs)

theorem Branch.writes_layouts (unit : Nat) (v : String) : ∀ {branches : List Branch},
    Branch.AllLoopsInLine branches →
      (Branch.layouts v branches).Writes unit (Branch.allWritten unit v branches)
  | [], _ => .nil
  | _ :: _, ⟨h, hs⟩ => (Branch.writes_layout unit v h).append (Branch.writes_layouts unit v hs)

theorem Branch.writes_layout (unit : Nat) (v : String) : ∀ {branch : Branch}, branch.LoopsInLine →
    (branch.layout v).Writes unit [branch.written unit v]
  | ⟨_, body⟩, h =>
    writes_branchLayout (Block.writes_layout unit h) (Block.forall_written_ne_empty unit body) v

end

end

/-! ### Programs -/

namespace Program

open Layout

theorem isLined_functionLayout {body : Layout} (h : body.IsLined) :
    (functionLayout body).IsLined :=
  ((isLined_ofText _).append (h.append (isLined_ofText _)).deeper).append (isLined_ofText _)

/-- The lines of the source text of a program are those of its layout. -/
theorem split_source (program : Program) :
    Lines.split program.source.toList =
      (functionLayout (Block.layout program.body)).map (lineChars program.indent) :=
  Layout.split_text (isLined_functionLayout (Block.isLined_layout program.body)) (by
    simp [functionLayout, Layout.ofText, Lines.split_ne_nil]) program.indent

/-- The text of a function: the line for the body is left out if there is no code. -/
def written (body : Block) (unit : Nat) : String :=
  "(value) => \x7b" ++ "\n" ++
    (if body.isEmpty then "" else blockText unit (Block.written unit body) ++ "\n") ++
    (pad unit ++ "return true") ++ "\n" ++ "\x7d"

/-- **Source text is written piece by piece as it is laid out.** -/
theorem sourceOf_eq_written {body : Block} (h : Block.LoopsInLine body) (unit : Nat) :
    sourceOf body unit = written body unit := by
  have hne := Block.forall_written_ne_empty unit body
  have hbody : (if body.isEmpty then "" else blockText unit (Block.written unit body) ++ "\n") =
      followed (blockText unit (Block.written unit body)) := by
    cases body with
    | nil => rfl
    | cons stmt stmts =>
      rw [followed, if_neg (mt String.isEmpty_iff.1 (blockText_ne_empty unit hne (by
        simp [Block.written])))]
      rfl
  have hexit : IsLine "return true" := by decide
  have hwrites : (functionLayout (Block.layout body)).Writes unit [written body unit] := by
    refine (((Writes.ofText _).append (((Block.writes_layout unit h).append
      (.ofText _)).deeper)).append (.ofText _)).join (by simp) ?_
    rw [List.map_append, List.map_singleton, indentLines_of_isLine hexit, intercalate_between,
      ← followed_blockText unit hne]
    unfold written
    rw [hbody]
    simp only [String.append_assoc]
  rw [sourceOf, hwrites.text, String.intercalate_singleton]

end Program

end SchemaCompiler
