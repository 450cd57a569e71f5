import Mathlib.Data.List.Forall2
import SchemaCompiler.Proofs.Compile.Ledger
import SchemaCompiler.Proofs.Text.Readable

/-!
# The checks that a compilation lists

A schema is compiled in units: the schema itself, and on its own each variant of several
alternatives and each schema of the items of an array. A program lists the guards in its code that
check a function or a constant (`CompileRules.sites`), and these are the guards for the occurrences
of functions and constants in the unit, in document order (`Schema.Emits.occurrences`). The names of
its slots are plain if those of the callers' own functions are (`Schema.Emits.plain`).
-/

namespace SchemaCompiler

/-! ### Listed guards -/

namespace Guard

/-- Whether a guard checks a function or a constant. The others belong to objects and variants. -/
def isListed (guard : Guard) : Bool :=
  match guard.check with
  | .present _ | .always _ | .call _ _ => false
  | _ => true

/-- How a guard is listed. -/
def site (guard : Guard) : CheckSite :=
  ⟨guard.subject.location, guard.check.render guard.subject.render "ctx"⟩

/-- The list of some guards. -/
def sites (guards : List Guard) : List CheckSite :=
  (guards.filter isListed).map site

theorem sites_append (guards others : List Guard) :
    sites (guards ++ others) = sites guards ++ sites others := by
  rw [sites, List.filter_append, List.map_append, sites, sites]

end Guard

/-- The guard of a descriptor of a function. -/
def FunctionSchema.guardAt (f : FunctionSchema) (subject : Subject) (slot : SlotKey) : Guard :=
  ⟨subject, f.check slot, f.negation? slot, f.report? slot⟩

theorem FunctionSchema.guards_ofDescriptor (f : FunctionSchema) (subject : Subject)
    (slot : SlotKey) :
    Block.guards (Code.ofDescriptor subject (f.descriptorAt slot)).block =
      [f.guardAt subject slot] := rfl

theorem FunctionSchema.isListed_guardAt (f : FunctionSchema) (subject : Subject) (slot : SlotKey) :
    (f.guardAt subject slot).isListed = true := by
  cases f <;> rfl

/-- The guards of objects are not listed. -/
theorem Code.filter_requirePresent (explains : Bool) (subject : Subject) :
    (Block.guards (requirePresent explains subject).block).filter Guard.isListed = [] := by
  cases explains <;> rfl

theorem Code.filter_reject (explains : Bool) (subject : Subject) :
    (Block.guards (reject explains subject).block).filter Guard.isListed = [] := by
  cases explains <;> rfl

/-- Code lists its guards. -/
def Code.Lists (code : Code) : Prop :=
  code.sites = Guard.sites (Block.guards code.block)

/-- **Every compilation lists the guards in its code** that check functions and constants. -/
theorem CompileRules.sites (settings : Settings) :
    CompileRules settings (fun _ code _ => code.Lists)
      fun _ branches _ => branches.sites = Guard.sites (Branch.allGuards branches.list) where
  empty _ := rfl
  append h h' := by
    rw [Code.Lists, Code.sites_append, Code.block_append, Block.guards_append, Guard.sites_append,
      h, h']
  function f subject state := by
    rw [Code.Lists, f.guards_ofDescriptor, Guard.sites,
      List.filter_cons_of_pos (f.isListed_guardAt subject _)]
    rfl
  requirePresent subject _ := by
    rw [Code.Lists, Guard.sites, Code.filter_requirePresent]
    cases settings.explains <;> rfl
  reject subject _ := by
    rw [Code.Lists, Guard.sites, Code.filter_reject]
    cases settings.explains <;> rfl
  loopSlots _ _ := rfl
  forKeys subject slots h := by
    rw [Code.Lists, Code.forKeys, Block.guards_forKeys]
    exact h
  known _ _ := rfl
  variant _ _ _ _ _ := rfl
  nil _ := rfl
  cons _ h h' := by
    change _ ++ _ = Guard.sites (_ ++ _)
    rw [Guard.sites_append, h, h']
    rfl

/-! ### Occurrences -/

/-- An occurrence of a function in a unit, where a constant stands for the function that asks for
it. -/
structure Occurrence where
  /-- Where the values are that the function is asked about. -/
  location : Location
  /-- The function. -/
  function : FunctionSchema

/-- A guard is the one for an occurrence. -/
def Occurrence.GuardedBy (occurrence : Occurrence) (guard : Guard) : Prop :=
  ∃ subject slot, subject.location = occurrence.location ∧
    guard = occurrence.function.guardAt subject slot

namespace Schema

mutual

/-- The occurrences of functions and constants in a schema, in document order, as far as they are
compiled in one unit with it: a single alternative belongs to the unit, several do not. -/
def occurrences (explains : Bool) : Schema → Location → List Occurrence
  | .function f, location => [⟨location, f⟩]
  | .constant l, location => [⟨location, .equals l explains⟩]
  | .object fields none _, location => fieldOccurrences explains fields location
  | .object fields (some rest) _, location =>
    fieldOccurrences explains fields location ++ rest.occurrences explains (location ++ [.rest])
  | .and members, location => allOccurrences explains members location
  | .variant _ [], _ => []
  | .variant _ [schema], location => schema.occurrences explains location
  | .variant _ (_ :: _ :: _), _ => []

/-- The occurrences in schemas of one value. -/
def allOccurrences (explains : Bool) : List Schema → Location → List Occurrence
  | [], _ => []
  | schema :: schemas, location =>
    schema.occurrences explains location ++ allOccurrences explains schemas location

/-- The occurrences in the schemas of the properties of a value. -/
def fieldOccurrences (explains : Bool) : List (String × Schema) → Location → List Occurrence
  | [], _ => []
  | (key, schema) :: fields, location =>
    schema.occurrences explains (location ++ [.property key]) ++
      fieldOccurrences explains fields location

end

theorem occurrences_variant {explains : Bool} {id : Nat} {alternatives : List Schema}
    (h : 2 ≤ alternatives.length) (location : Location) :
    occurrences explains (.variant id alternatives) location = [] := by
  match alternatives, h with
  | _ :: _ :: _, _ => rw [occurrences]

/-- Guards are those for some occurrences, apart from those that are not listed. -/
def Guarding (occurrences : List Occurrence) (guards : List Guard) : Prop :=
  List.Forall₂ Occurrence.GuardedBy occurrences (guards.filter Guard.isListed)

theorem Guarding.append {occurrences others : List Occurrence} {guards guards' : List Guard}
    (h : Guarding occurrences guards) (h' : Guarding others guards') :
    Guarding (occurrences ++ others) (guards ++ guards') := by
  rw [Guarding, List.filter_append]
  exact List.rel_append h h'

/-- Guards that are not listed are for no occurrence. -/
theorem Guarding.of_filter_eq_nil {guards : List Guard}
    (h : guards.filter Guard.isListed = []) : Guarding [] guards := by
  rw [Guarding, h]
  exact .nil

theorem Guarding.nil : Guarding [] [] :=
  .of_filter_eq_nil rfl

theorem guarding_guardAt (f : FunctionSchema) (subject : Subject) (slot : SlotKey) :
    Guarding [⟨subject.location, f⟩] [f.guardAt subject slot] := by
  rw [Guarding, List.filter_cons_of_pos (f.isListed_guardAt subject slot)]
  exact .cons ⟨subject, slot, rfl, rfl⟩ .nil

mutual

/-- **The guards that are listed are those for the occurrences in the schema**, in document
order. -/
theorem Emits.occurrences {settings : Settings} :
    ∀ {unit schema subject first next code},
      Emits settings unit schema subject first next code →
        Guarding (schema.occurrences settings.explains subject.location) (Block.guards code.block)
  | _, _, _, _, _, _, .function => guarding_guardAt _ _ _
  | _, _, _, _, _, _, .constant h => h.occurrences
  | _, _, _, _, _, _, .and h => h.occurrences
  | _, _, subject, _, _, _, .object h => by
    rw [Code.block_append, Block.guards_append]
    have hpresent := Guarding.of_filter_eq_nil
      (Code.filter_requirePresent settings.explains subject)
    exact hpresent.append h.occurrences
  | _, _, subject, _, _, _, .objectWithRest _ _ hf hb => by
    simp only [Code.block_append, Block.guards_append, Code.forKeys, Block.guards_forKeys]
    have hpresent := Guarding.of_filter_eq_nil
      (Code.filter_requirePresent settings.explains subject)
    have hdeclared := (hpresent.append hf.occurrences).append Guarding.nil
    rw [List.nil_append, List.append_nil] at hdeclared
    exact hdeclared.append hb.occurrences
  | _, _, _, _, _, _, .reject => .of_filter_eq_nil (Code.filter_reject _ _)
  | _, _, _, _, _, _, .single h => by
    rw [Schema.occurrences]
    exact h.occurrences
  | _, _, _, _, _, _, .variant hl _ => by
    rw [occurrences_variant hl]
    exact .of_filter_eq_nil rfl
  | _, _, _, _, _, _, .variantAgain hl _ _ => by
    rw [occurrences_variant hl]
    exact .of_filter_eq_nil rfl

theorem EmitsAll.occurrences {settings : Settings} :
    ∀ {unit schemas subject first next code},
      EmitsAll settings unit schemas subject first next code →
        Guarding (allOccurrences settings.explains schemas subject.location)
          (Block.guards code.block)
  | _, _, _, _, _, _, .nil => .of_filter_eq_nil rfl
  | _, _, _, _, _, _, .cons h ho => by
    rw [Code.block_append, Block.guards_append]
    exact h.occurrences.append ho.occurrences

theorem EmitsFields.occurrences {settings : Settings} :
    ∀ {unit fields subject first next code},
      EmitsFields settings unit fields subject first next code →
        Guarding (fieldOccurrences settings.explains fields subject.location)
          (Block.guards code.block)
  | _, _, _, _, _, _, .nil => .of_filter_eq_nil rfl
  | _, _, _, _, _, _, .cons h ho => by
    rw [Code.block_append, Block.guards_append]
    exact h.occurrences.append ho.occurrences

end

/-- The guards of the sub-validator for alternatives are those for the occurrences in them. -/
theorem EmitsBranches.occurrences {settings : Settings} {unit : List Preparation}
    {schemas : List Schema} {first next : Nat} {branches : Branches}
    (h : EmitsBranches settings unit schemas first next branches) :
    Guarding (allOccurrences settings.explains schemas []) (Branch.allGuards branches.list) := by
  induction schemas generalizing first branches with
  | nil =>
    cases h
    exact .of_filter_eq_nil rfl
  | cons schema schemas ih =>
    cases h with
    | cons h ho => exact Guarding.append h.occurrences (ih ho)

end Schema

/-! ### Plain names -/

/-- The names of the slots that are prepared have plain bases. -/
def Preparation.AllPlain (preparations : List Preparation) : Prop :=
  ∀ preparation ∈ preparations, SlotKey.IsPlain preparation.key.base

theorem Preparation.AllPlain.append {preparations others : List Preparation}
    (h : AllPlain preparations) (ho : AllPlain others) : AllPlain (preparations ++ others) :=
  List.forall_mem_append.2 ⟨h, ho⟩

/-- The slots of a loop have plain names. -/
theorem LoopSlots.allPlain_preparationsAt (first : Nat) (omitted : List String) :
    Preparation.AllPlain (preparationsAt first omitted) := by
  unfold preparationsAt Preparation.AllPlain
  split <;> simp only [List.cons_append, List.nil_append, List.mem_cons, List.not_mem_nil,
    or_false, forall_eq_or_imp, forall_eq] <;> decide

namespace Schema

open Preparation

/-- The slots of the callers' own functions have plain names. -/
def Terms.Plain (terms : Terms) : Prop :=
  ∀ f, terms.custom f → ∀ request ∈ f.slot, SlotKey.IsPlain request.base

/-- The slot that a constant asks for has a plain name. -/
theorem plain_constant (l : Literal) (explains : Bool) :
    ∀ request ∈ (FunctionSchema.equals l explains).request?, SlotKey.IsPlain request.base := by
  rintro _ ⟨⟩
  exact (by decide : SlotKey.IsPlain "constant")

/-- The slot that a function asks for has a plain name. -/
theorem Made.plain_request {terms : Terms} (ht : terms.Plain) {f : FunctionSchema}
    (hm : Made terms (.function f)) : ∀ request ∈ f.request?, SlotKey.IsPlain request.base := by
  cases hm with
  | method | test => rintro _ ⟨⟩
  | equals => exact plain_constant _ _
  | arrayOf =>
    rintro _ ⟨⟩
    exact (by decide : SlotKey.IsPlain "array_of")
  | custom hf => exact ht _ hf

theorem allPlain_descriptorAt {f : FunctionSchema}
    (hf : ∀ request ∈ f.request?, SlotKey.IsPlain request.base) (first : Nat) :
    AllPlain (f.descriptorAt (f.slotAt first)).preparation.toList := by
  intro preparation hp
  unfold FunctionSchema.slotAt FunctionSchema.descriptorAt at hp
  cases hr : f.request? with
  | none =>
    rw [hr] at hp
    cases hp
  | some request =>
    rw [hr] at hp
    obtain rfl := List.mem_singleton.1 hp
    exact hf request hr

theorem Emits.plain_equals {settings : Settings} {unit : List Preparation} {l : Literal}
    {explains : Bool} {subject : Subject} {first next : Nat} {code : Code}
    (h : Emits settings unit (.function (.equals l explains)) subject first next code) :
    AllPlain code.preparations := by
  cases h with
  | function => exact allPlain_descriptorAt (plain_constant l explains) first

mutual

/-- **The slots of code have plain names** if those of the callers' own functions have. -/
theorem Emits.plain {settings : Settings} {terms : Terms} (ht : terms.Plain) :
    ∀ {unit schema subject first next code},
      Emits settings unit schema subject first next code → schema.Made terms →
        AllPlain code.preparations
  | _, _, _, first, _, _, .function, hm => allPlain_descriptorAt (hm.plain_request ht) first
  | _, _, _, _, _, _, .constant h, _ => h.plain_equals
  | _, _, _, _, _, _, .and h, hm => by
    cases hm with
    | and hm => exact h.plain ht hm
  | _, _, _, _, _, _, .object h, hm => by
    cases hm with
    | object hf _ =>
      rw [Code.preparations_append, Code.preparations_requirePresent]
      exact h.plain ht hf
  | _, _, _, _, _, _, .objectWithRest _ _ hf hb, hm => by
    cases hm with
    | object hmf hmr =>
      simp only [Code.preparations_append, Code.preparations_requirePresent, List.nil_append]
      exact ((hf.plain ht hmf).append (LoopSlots.allPlain_preparationsAt _ _)).append
        (hb.plain ht (hmr _ rfl))
  | _, _, _, _, _, _, .reject, _ => by
    rw [Code.preparations_reject]
    exact fun _ h => absurd h List.not_mem_nil
  | _, _, _, _, _, _, .single h, hm => by
    cases hm with
    | variant _ ha => exact h.plain ht (ha _ (List.mem_singleton.2 rfl))
  | _, _, _, _, _, _, .variant _ _, _ => by
    intro preparation hp
    obtain rfl := List.mem_singleton.1 hp
    exact (by decide : SlotKey.IsPlain "variant")
  | _, _, _, _, _, _, .variantAgain _ _ _, _ => fun _ h => absurd h List.not_mem_nil

theorem EmitsAll.plain {settings : Settings} {terms : Terms} (ht : terms.Plain) :
    ∀ {unit schemas subject first next code},
      EmitsAll settings unit schemas subject first next code →
        (∀ schema ∈ schemas, Made terms schema) → AllPlain code.preparations
  | _, _, _, _, _, _, .nil, _ => fun _ h => absurd h List.not_mem_nil
  | _, _, _, _, _, _, .cons h ho, hm => by
    rw [List.forall_mem_cons] at hm
    exact (h.plain ht hm.1).append (ho.plain ht hm.2)

theorem EmitsFields.plain {settings : Settings} {terms : Terms} (ht : terms.Plain) :
    ∀ {unit fields subject first next code},
      EmitsFields settings unit fields subject first next code →
        (∀ field ∈ fields, Made terms field.2) → AllPlain code.preparations
  | _, _, _, _, _, _, .nil, _ => fun _ h => absurd h List.not_mem_nil
  | _, _, _, _, _, _, .cons h ho, hm => by
    rw [List.forall_mem_cons] at hm
    exact (h.plain ht hm.1).append (ho.plain ht hm.2)

end

theorem EmitsBranches.plain {settings : Settings} {terms : Terms} (ht : terms.Plain)
    {unit : List Preparation} {schemas : List Schema} {first next : Nat} {branches : Branches}
    (h : EmitsBranches settings unit schemas first next branches)
    (hm : ∀ schema ∈ schemas, Made terms schema) : AllPlain branches.preparations := by
  induction schemas generalizing first branches with
  | nil =>
    cases h
    exact fun _ h => absurd h List.not_mem_nil
  | cons schema schemas ih =>
    rw [List.forall_mem_cons] at hm
    cases h with
    | cons h ho => exact (h.plain ht hm.1).append (ih ho hm.2)

end Schema

end SchemaCompiler
