import SchemaCompiler.Json

/-!
# Settings

A compiler is its settings: whether the validators explain failures, how source text is indented,
and whether the places where one variant is used share a sub-validator. Settings are read from JSON,
where a setting that is missing has its default and one that is unknown is passed over.
-/

namespace SchemaCompiler

/-- Whether validators only judge values or also explain their judgement. -/
inductive Mode where
  | fast
  | explain
  deriving DecidableEq

/-- The name of a mode. -/
def Mode.name : Mode → String
  | .fast => "fast"
  | .explain => "explain"

/-- The mode with a given name. -/
def Mode.ofName? (name : String) : Option Mode :=
  if name = "fast" then some .fast
  else if name = "explain" then some .explain
  else none

/-- The settings of a compiler. -/
structure Settings where
  /-- Whether validators explain their judgement. -/
  mode : Mode
  /-- The number of blanks in a unit of indentation. -/
  indent : Nat
  /-- Whether the uses of one variant in a compilation share a sub-validator. -/
  cacheVariants : Bool
  deriving DecidableEq

namespace Settings

/-- The defaults: no explanations, two blanks, shared sub-validators. -/
def fast : Settings := ⟨.fast, 2, true⟩

/-- The defaults, with explanations. -/
def explaining : Settings := ⟨.explain, 2, true⟩

instance : Inhabited Settings := ⟨fast⟩

/-- Whether validators explain their judgement. -/
def explains (settings : Settings) : Bool :=
  settings.mode = .explain

/-! ### Reading and writing -/

/-- A mode in JSON: its name, or an object whose only member has that key and no content. -/
def mode? : Json → Option Mode
  | .string name => Mode.ofName? name
  | .object [(name, .null)] => Mode.ofName? name
  | _ => none

/-- An indentation in JSON: a natural number of 64 bits. -/
def indent? : Json → Option Nat
  | .integer n => if 0 ≤ n && n.toNat < 18446744073709551616 then some n.toNat else none
  | _ => none

/-- A switch in JSON. -/
def switch? : Json → Option Bool
  | .bool b => some b
  | _ => none

/-- The setting that JSON gives, or its default where JSON gives none. -/
def orDefault {α : Type} (read : Json → Option α) (given : Option Json) (standard : α) : Option α :=
  match given with
  | some json => read json
  | none => some standard

/-- The settings with the given parts. -/
def ofParts? (mode indent cacheVariants : Option Json) : Option Settings := do
  let mode ← orDefault mode? mode fast.mode
  let indent ← orDefault indent? indent fast.indent
  let cacheVariants ← orDefault switch? cacheVariants fast.cacheVariants
  some ⟨mode, indent, cacheVariants⟩

/-- Read settings: an object, or an array that gives the settings in order. -/
def ofJson? : Json → Option Settings
  | .object members =>
    ofParts? (Record.find? members "mode") (Record.find? members "indent")
      (Record.find? members "cache-variants")
  | .array items => if items.length ≤ 3 then ofParts? items[0]? items[1]? items[2]? else none
  | _ => none

/-- Write settings. -/
def toJson (settings : Settings) : Json :=
  .ofMembers [("mode", .string settings.mode.name), ("indent", .integer settings.indent),
    ("cache-variants", .bool settings.cacheVariants)]

/-- Settings that were written can be read, if the indentation is in range. -/
theorem ofJson?_toJson (settings : Settings) (h : settings.indent < 18446744073709551616) :
    ofJson? settings.toJson = some settings := by
  obtain ⟨mode, indent, cacheVariants⟩ := settings
  have hi : indent? (.integer indent) = some indent := by
    simp only [indent?, Int.natCast_nonneg, decide_true, Int.toNat_natCast, Bool.true_and,
      decide_eq_true h, if_true]
  have hm : mode? (.string mode.name) = some mode := by
    cases mode <;> rfl
  have hj : toJson ⟨mode, indent, cacheVariants⟩ =
      .object [("cache-variants", .bool cacheVariants), ("indent", .integer indent),
        ("mode", .string mode.name)] := by
    have h1 : "indent" ≠ "mode" := by decide
    have h2 : "indent" < "mode" := by decide
    have h3 : "cache-variants" ≠ "indent" := by decide
    have h4 : "cache-variants" < "indent" := by decide
    simp only [toJson, Json.ofMembers, Record.sortedOfEntries, List.foldl_cons, List.foldl_nil,
      Record.insertSorted, h1, h2, h3, h4, if_false, if_true]
  simp [hj, ofJson?, Record.find?, ofParts?, orDefault, hi, hm, switch?]

end Settings

end SchemaCompiler
