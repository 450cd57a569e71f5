import SchemaCompiler.Compile.Schema

/-!
# Schemas that compilers make

A schema is put together by the constructors of compilers: each function by a compiler of some
mode, and the program for the items of an array by compiling them. A variant is made once and may
be used many times, always with the alternatives that its number stands for. `Schema.Made` says so
on given terms, and recipes make such schemas (`Recipe.made_build`); on the terms of
`Schema.BuiltIn` no function is a caller's own.
-/

namespace SchemaCompiler

namespace Schema

/-- The terms on which schemas are made. -/
structure Terms where
  /-- The alternatives that the number of a variant stands for. -/
  shared : Nat → List Schema
  /-- Whether a compiler that explains failures, or one that does not, may be used. -/
  mode : Bool → Prop
  /-- The callers' own functions that may be used. -/
  custom : CustomFunction → Prop

/-- Schemas that are put together on given terms. -/
inductive Made (terms : Terms) : Schema → Prop
  | method {m : Method} {explains : Bool} (hm : terms.mode explains) :
    Made terms (.function (.method m explains))
  | test {name : String} {t : ValueTest} {explains : Bool} (hm : terms.mode explains) :
    Made terms (.function (.test name t explains))
  | equals {l : Literal} {explains : Bool} (hm : terms.mode explains) :
    Made terms (.function (.equals l explains))
  /-- The items of an array are compiled on their own by the compiler that makes the function. -/
  | arrayOf {items : Schema} {settings : Settings} {supply supply' : Supply} {program : Program}
    (hi : Made terms items) (hm : terms.mode settings.explains)
    (hc : items.compileProgram settings supply = (.ok program, supply')) :
    Made terms (.function (.arrayOf items program settings.explains))
  | custom {f : CustomFunction} (hf : terms.custom f) : Made terms (.function (.custom f))
  | constant {l : Literal} : Made terms (.constant l)
  | object {fields : List (String × Schema)} {rest : Option Schema} {omitted : List String}
    (hf : ∀ field ∈ fields, Made terms field.2) (hr : ∀ schema ∈ rest, Made terms schema) :
    Made terms (.object fields rest omitted)
  | and {members : List Schema} (hm : ∀ schema ∈ members, Made terms schema) :
    Made terms (.and members)
  | variant {id : Nat} {alternatives : List Schema} (hs : terms.shared id = alternatives)
    (ha : ∀ schema ∈ alternatives, Made terms schema) : Made terms (.variant id alternatives)

/-- Schemas without a caller's own function, made by compilers of either mode. -/
def BuiltIn (shared : Nat → List Schema) : Schema → Prop :=
  Made ⟨shared, fun _ => True, fun _ => False⟩

/-- Schemas without a caller's own function, made by compilers that explain failures. -/
def Explaining (shared : Nat → List Schema) : Schema → Prop :=
  Made ⟨shared, fun explains => explains = true, fun _ => False⟩

/-- Weaker terms admit the same schemas. -/
theorem Made.mono {terms others : Terms} {schema : Schema} (h : Made terms schema)
    (hs : terms.shared = others.shared)
    (hm : ∀ explains, terms.mode explains → others.mode explains)
    (hc : ∀ f, terms.custom f → others.custom f) : Made others schema := by
  induction h with
  | method h => exact .method (hm _ h)
  | test h => exact .test (hm _ h)
  | equals h => exact .equals (hm _ h)
  | arrayOf _ h hp ih => exact .arrayOf ih (hm _ h) hp
  | custom h => exact .custom (hc _ h)
  | constant => exact .constant
  | object _ _ ihf ihr => exact .object ihf ihr
  | and _ ih => exact .and ih
  | variant h _ ih => exact .variant (hs ▸ h) ih

theorem Explaining.builtIn {shared : Nat → List Schema} {schema : Schema}
    (h : schema.Explaining shared) : schema.BuiltIn shared :=
  h.mono rfl (fun _ _ => trivial) fun _ h => h

end Schema

end SchemaCompiler
