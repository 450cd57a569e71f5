import SchemaCompiler.Program.Basic

/-!
# Schemas

A schema describes values: by a function, by a literal, by the properties of an object, or by
joining other schemas. A function is a named check; whether it explains failures was settled when it
was made, and so was the program for the items of an array. An object schema may have a schema for
the properties that it does not declare, with keys that this one passes over.
-/

namespace SchemaCompiler

/-- A slot that a function asks for: the base of its name, and what it holds at first. -/
structure SlotRequest where
  /-- The base of the name of the slot. -/
  base : String
  /-- What the slot holds at first. -/
  init : InitialContent

/-- A caller's own function. -/
structure CustomFunction where
  /-- The name of the function. -/
  name : String
  /-- Its check. -/
  check : CustomCheck
  /-- The negation of its check, if it is given. -/
  negation : Option CustomCheck
  /-- Its report, if it reports failures. -/
  report : Option CustomReport
  /-- The slot that its checks and its report use, if they use one. -/
  slot : Option SlotRequest

mutual

/-- A named check. -/
inductive FunctionSchema where
  /-- A ready-made check. -/
  | method (m : Method) (explains : Bool)
  /-- A caller's predicate on the value alone. -/
  | test (name : String) (t : ValueTest) (explains : Bool)
  /-- Arrays whose items fit a schema, with the program that it was compiled to. -/
  | arrayOf (items : Schema) (program : Program) (explains : Bool)
  /-- Values strictly equal to a literal. -/
  | equals (literal : Literal) (explains : Bool)
  /-- A caller's own function. -/
  | custom (f : CustomFunction)

/-- A description of values. -/
inductive Schema where
  /-- Values that pass a function. -/
  | function (f : FunctionSchema)
  /-- Values strictly equal to a literal. -/
  | constant (l : Literal)
  /-- Values, neither `null` nor `undefined`, whose declared properties fit their schemas, and whose
  other properties fit the schema of the rest unless their keys are omitted. -/
  | object (fields : List (String × Schema)) (rest : Option Schema) (omitted : List String)
  /-- Values that fit every member. -/
  | and (members : List Schema)
  /-- Values that fit one of the alternatives. Copies of a variant have its number. -/
  | variant (id : Nat) (alternatives : List Schema)

end

instance : Inhabited Schema := ⟨.and []⟩

/-- What holds of a schema if it holds of its parts holds of every schema. -/
@[elab_as_elim]
theorem Schema.induct {motive : Schema → Prop}
    (function : ∀ f, (∀ items program explains, f = .arrayOf items program explains →
      motive items) → motive (.function f))
    (constant : ∀ l, motive (.constant l))
    (object : ∀ fields rest omitted, (∀ field ∈ fields, motive field.2) →
      (∀ schema ∈ rest, motive schema) → motive (.object fields rest omitted))
    (and : ∀ members, (∀ schema ∈ members, motive schema) → motive (.and members))
    (variant : ∀ id alternatives, (∀ schema ∈ alternatives, motive schema) →
      motive (.variant id alternatives)) : ∀ schema, motive schema
  | .function f => function f fun items program explains h =>
    have : sizeOf items < sizeOf (Schema.function f) := by
      simp [h]
      omega
    induct function constant object and variant items
  | .constant l => constant l
  | .object fields rest omitted => object fields rest omitted
    (fun field hf =>
      have : sizeOf field.2 < sizeOf (Schema.object fields rest omitted) := by
        have hlt := List.sizeOf_lt_of_mem hf
        obtain ⟨key, schema⟩ := field
        simp at hlt ⊢
        omega
      induct function constant object and variant field.2)
    (fun schema hr =>
      have : sizeOf schema < sizeOf (Schema.object fields rest omitted) := by
        simp [Option.mem_def.1 hr]
        omega
      induct function constant object and variant schema)
  | .and members => and members fun schema hm =>
    have : sizeOf schema < sizeOf (Schema.and members) := by
      have hlt := List.sizeOf_lt_of_mem hm
      simp
      omega
    induct function constant object and variant schema
  | .variant id alternatives => variant id alternatives fun schema ha =>
    have : sizeOf schema < sizeOf (Schema.variant id alternatives) := by
      have hlt := List.sizeOf_lt_of_mem ha
      simp
      omega
    induct function constant object and variant schema
termination_by schema => sizeOf schema
decreasing_by all_goals assumption

end SchemaCompiler
