import SchemaCompiler.Proofs.Schema.Made

/-!
# What compiling a schema emits

`Schema.Emits` says which code a schema has for a subject, rule by rule and without the state of a
compilation: `first` is the number of the first slot that is free, `next` the number of the first
slot that is free afterwards, and `unit` holds the preparations of the whole program, in which a
variant that was compiled before is found again. A compilation that succeeds follows the rules
(`Schema.Made.follows`), and the rules number the slots of a program in increasing order
(`Schema.Emits.numbered`).
-/

namespace SchemaCompiler

/-! ### Slots -/

namespace FunctionSchema

/-- The slot of the descriptor of a function where `first` is the next number. -/
def slotAt (f : FunctionSchema) (first : Nat) : SlotKey :=
  match f.request? with
  | some request => ⟨first, request.base⟩
  | none => default

/-- The next number after the descriptor of a function. -/
def nextSlot (f : FunctionSchema) (first : Nat) : Nat :=
  match f.request? with
  | some _ => first + 1
  | none => first

/-- A descriptor takes its slot from the supply. -/
theorem descriptor_eq (f : FunctionSchema) (supply : Supply) :
    f.descriptor supply =
      (f.descriptorAt (f.slotAt supply.nextSlot),
        { supply with nextSlot := f.nextSlot supply.nextSlot }) := by
  unfold descriptor slotAt nextSlot
  cases f.request? <;> rfl

end FunctionSchema

namespace LoopSlots

/-- The slots of a loop that passes over the given keys, from a number on. -/
def startingAt (first : Nat) (omitted : List String) : LoopSlots where
  element := ⟨first, "elem"⟩
  keys := ⟨first + 1, "keys"⟩
  key := ⟨first + 2, "key"⟩
  index := ⟨first + 3, "i"⟩
  omitted := if omitted.isEmpty then none else some ⟨first + 4, "omitkeys"⟩

/-- The preparations of the slots of a loop that passes over the given keys. -/
def preparationsAt (first : Nat) (omitted : List String) : List Preparation :=
  [⟨⟨first, "elem"⟩, .undefined⟩, ⟨⟨first + 1, "keys"⟩, .undefined⟩,
    ⟨⟨first + 2, "key"⟩, .undefined⟩, ⟨⟨first + 3, "i"⟩, .index 0⟩] ++
    if omitted.isEmpty then [] else [⟨⟨first + 4, "omitkeys"⟩, .keySet (.ofList omitted)⟩]

/-- The next number after the slots of a loop. -/
def nextSlot (first : Nat) (omitted : List String) : Nat :=
  first + (preparationsAt first omitted).length

theorem lt_nextSlot (first : Nat) (omitted : List String) : first + 3 < nextSlot first omitted := by
  simp [nextSlot, preparationsAt]

end LoopSlots

/-! ### The rules -/

mutual

/-- The code of a schema for a subject, with the slots that it takes. -/
inductive Schema.Emits (settings : Settings) :
    List Preparation → Schema → Subject → Nat → Nat → Code → Prop
  | function {unit : List Preparation} {f : FunctionSchema} {subject : Subject} {first : Nat} :
    Emits settings unit (.function f) subject first (f.nextSlot first)
      (.ofDescriptor subject (f.descriptorAt (f.slotAt first)))
  | constant {unit : List Preparation} {l : Literal} {subject : Subject} {first next : Nat}
    {code : Code}
    (h : Emits settings unit (.function (.equals l settings.explains)) subject first next code) :
    Emits settings unit (.constant l) subject first next code
  | and {unit : List Preparation} {members : List Schema} {subject : Subject} {first next : Nat}
    {code : Code} (h : Schema.EmitsAll settings unit members subject first next code) :
    Emits settings unit (.and members) subject first next code
  | object {unit : List Preparation} {fields : List (String × Schema)} {subject : Subject}
    {first next : Nat} {declared : Code}
    (h : Schema.EmitsFields settings unit fields subject first next declared) :
    Emits settings unit (.object fields none []) subject first next
      (.requirePresent settings.explains subject ++ declared)
  /-- Keys that are declared or omitted are passed over. -/
  | objectWithRest {unit : List Preparation} {fields : List (String × Schema)} {rest : Schema}
    {omitted excluded : List String} {subject : Subject} {first middle next : Nat}
    {slots : LoopSlots} {declared body : Code} (he : fields.map Prod.fst ++ omitted = excluded)
    (hs : LoopSlots.startingAt middle excluded = slots)
    (hf : Schema.EmitsFields settings unit fields subject first middle declared)
    (hb : Emits settings unit rest (.element subject slots.element slots.key)
      (LoopSlots.nextSlot middle excluded) next body) :
    Emits settings unit (.object fields (some rest) omitted) subject first next
      (.requirePresent settings.explains subject ++ declared ++
        .ofPreparations (LoopSlots.preparationsAt middle excluded) ++
        .forKeys subject slots body)
  | reject {unit : List Preparation} {id : Nat} {subject : Subject} {first : Nat} :
    Emits settings unit (.variant id []) subject first first (.reject settings.explains subject)
  | single {unit : List Preparation} {id : Nat} {schema : Schema} {subject : Subject}
    {first next : Nat} {code : Code} (h : Emits settings unit schema subject first next code) :
    Emits settings unit (.variant id [schema]) subject first next code
  /-- The alternatives of a variant take their slots before the variant takes its own. -/
  | variant {unit : List Preparation} {id : Nat} {alternatives : List Schema} {subject : Subject}
    {first middle : Nat} {branches : Branches} (hl : 2 ≤ alternatives.length)
    (hb : Schema.EmitsBranches settings branches.preparations alternatives first middle branches) :
    Emits settings unit (.variant id alternatives) subject first (middle + 1)
      (.ofPreparations
          [⟨⟨middle, "variant"⟩, .validator (branches.code.program settings.indent)⟩] ++
        .callValidator subject ⟨middle, "variant"⟩ branches.isPure)
  /-- A variant that is used again takes no slots. -/
  | variantAgain {unit : List Preparation} {id : Nat} {alternatives : List Schema}
    {subject : Subject} {first start next : Nat} {branches : Branches} {slot : SlotKey}
    (hl : 2 ≤ alternatives.length)
    (hb : Schema.EmitsBranches settings branches.preparations alternatives start next branches)
    (hs : ⟨slot, .validator (branches.code.program settings.indent)⟩ ∈ unit) :
    Emits settings unit (.variant id alternatives) subject first first
      (.callValidator subject slot branches.isPure)

/-- The code of schemas for one subject, in order. -/
inductive Schema.EmitsAll (settings : Settings) :
    List Preparation → List Schema → Subject → Nat → Nat → Code → Prop
  | nil {unit : List Preparation} {subject : Subject} {first : Nat} :
    EmitsAll settings unit [] subject first first .empty
  | cons {unit : List Preparation} {schema : Schema} {schemas : List Schema} {subject : Subject}
    {first middle next : Nat} {code others : Code}
    (h : Schema.Emits settings unit schema subject first middle code)
    (ho : EmitsAll settings unit schemas subject middle next others) :
    EmitsAll settings unit (schema :: schemas) subject first next (code ++ others)

/-- The code of the schemas of properties of a subject, in order. -/
inductive Schema.EmitsFields (settings : Settings) :
    List Preparation → List (String × Schema) → Subject → Nat → Nat → Code → Prop
  | nil {unit : List Preparation} {subject : Subject} {first : Nat} :
    EmitsFields settings unit [] subject first first .empty
  | cons {unit : List Preparation} {key : String} {schema : Schema}
    {fields : List (String × Schema)} {subject : Subject} {first middle next : Nat}
    {code others : Code}
    (h : Schema.Emits settings unit schema (.property subject key) first middle code)
    (ho : EmitsFields settings unit fields subject middle next others) :
    EmitsFields settings unit ((key, schema) :: fields) subject first next (code ++ others)

/-- The branches of alternatives, in order. -/
inductive Schema.EmitsBranches (settings : Settings) :
    List Preparation → List Schema → Nat → Nat → Branches → Prop
  | nil {unit : List Preparation} {first : Nat} :
    EmitsBranches settings unit [] first first .empty
  | cons {unit : List Preparation} {schema : Schema} {schemas : List Schema}
    {first middle next : Nat} {code : Code} {branches : Branches}
    (h : Schema.Emits settings unit schema .input first middle code)
    (ho : EmitsBranches settings unit schemas middle next branches) :
    EmitsBranches settings unit (schema :: schemas) first next (branches.cons schema.label code)

end

/-! ### The numbers of slots -/

/-- The slots of preparations are numbered in increasing order, from `first` on and below `next`. -/
structure Numbered (first next : Nat) (preparations : List Preparation) : Prop where
  le : first ≤ next
  range : ∀ preparation ∈ preparations, first ≤ preparation.key.id ∧ preparation.key.id < next
  sorted : preparations.Pairwise fun one other => one.key.id < other.key.id

namespace Numbered

theorem nil {first next : Nat} (h : first ≤ next) : Numbered first next [] :=
  ⟨h, by simp, .nil⟩

theorem singleton {first next : Nat} {preparation : Preparation}
    (h : first ≤ preparation.key.id) (h' : preparation.key.id < next) :
    Numbered first next [preparation] :=
  ⟨by omega, by simp [h, h'], by simp⟩

theorem append {first middle next : Nat} {preparations others : List Preparation}
    (h : Numbered first middle preparations) (ho : Numbered middle next others) :
    Numbered first next (preparations ++ others) := by
  have hle := h.le
  have hole := ho.le
  refine ⟨by omega, fun preparation hp => ?_, ?_⟩
  · rcases List.mem_append.1 hp with hp | hp
    · have := h.range preparation hp
      omega
    · have := ho.range preparation hp
      omega
  · refine List.pairwise_append.2 ⟨h.sorted, ho.sorted, fun one hone other hother => ?_⟩
    have := h.range one hone
    have := ho.range other hother
    omega

/-- No two slots have one number. -/
theorem nodup {first next : Nat} {preparations : List Preparation}
    (h : Numbered first next preparations) :
    (preparations.map fun preparation => preparation.key.id).Nodup :=
  List.pairwise_map.2 (h.sorted.imp Nat.ne_of_lt)

end Numbered

theorem FunctionSchema.numbered_descriptorAt (f : FunctionSchema) (first : Nat) :
    Numbered first (f.nextSlot first) (f.descriptorAt (f.slotAt first)).preparation.toList := by
  unfold nextSlot slotAt descriptorAt
  cases f.request? with
  | none => exact .nil (Nat.le_refl _)
  | some request => exact .singleton (Nat.le_refl _) (Nat.lt_succ_self _)

theorem LoopSlots.numbered_preparationsAt (first : Nat) (omitted : List String) :
    Numbered first (nextSlot first omitted) (preparationsAt first omitted) := by
  unfold nextSlot preparationsAt
  split <;> exact ⟨by simp, by simp, by simp⟩

theorem Code.isPure_requirePresent (explains : Bool) (subject : Subject) :
    (Code.requirePresent explains subject).isPure = !explains := by
  cases explains <;> rfl

theorem Code.isPure_reject (explains : Bool) (subject : Subject) :
    (Code.reject explains subject).isPure = !explains := by
  cases explains <;> rfl

theorem Code.isPure_callValidator (subject : Subject) (slot : SlotKey) (isPure : Bool) :
    (Code.callValidator subject slot isPure).isPure = isPure := by
  cases isPure <;> rfl

@[simp] theorem Code.preparations_requirePresent (explains : Bool) (subject : Subject) :
    (Code.requirePresent explains subject).preparations = [] := by
  cases explains <;> rfl

@[simp] theorem Code.preparations_reject (explains : Bool) (subject : Subject) :
    (Code.reject explains subject).preparations = [] := by
  cases explains <;> rfl

mutual

/-- The slots of code are numbered in increasing order, within the numbers that it takes. -/
theorem Schema.Emits.numbered {settings : Settings} :
    ∀ {unit schema subject first next code},
      Schema.Emits settings unit schema subject first next code →
        Numbered first next code.preparations
  | _, _, _, _, _, _, .function => FunctionSchema.numbered_descriptorAt _ _
  | _, _, _, _, _, _, .constant h => h.numbered
  | _, _, _, _, _, _, .and h => h.numbered
  | _, _, _, _, _, _, .object h => by simpa using h.numbered
  | _, _, _, _, _, _, .objectWithRest _ _ hf hb => by
    simpa [Code.ofPreparations, Code.forKeys] using
      hf.numbered.append ((LoopSlots.numbered_preparationsAt _ _).append hb.numbered)
  | _, _, _, _, _, _, .reject => by simpa using Numbered.nil (Nat.le_refl _)
  | _, _, _, _, _, _, .single h => h.numbered
  | _, _, _, _, _, _, .variant _ hb => .singleton hb.numbered.le (Nat.lt_succ_self _)
  | _, _, _, _, _, _, .variantAgain _ _ _ => .nil (Nat.le_refl _)

theorem Schema.EmitsAll.numbered {settings : Settings} :
    ∀ {unit schemas subject first next code},
      Schema.EmitsAll settings unit schemas subject first next code →
        Numbered first next code.preparations
  | _, _, _, _, _, _, .nil => .nil (Nat.le_refl _)
  | _, _, _, _, _, _, .cons h ho => h.numbered.append ho.numbered

theorem Schema.EmitsFields.numbered {settings : Settings} :
    ∀ {unit fields subject first next code},
      Schema.EmitsFields settings unit fields subject first next code →
        Numbered first next code.preparations
  | _, _, _, _, _, _, .nil => .nil (Nat.le_refl _)
  | _, _, _, _, _, _, .cons h ho => h.numbered.append ho.numbered

theorem Schema.EmitsBranches.numbered {settings : Settings} :
    ∀ {unit schemas first next branches},
      Schema.EmitsBranches settings unit schemas first next branches →
        Numbered first next branches.preparations
  | _, _, _, _, _, .nil => .nil (Nat.le_refl _)
  | _, _, _, _, _, .cons h ho => h.numbered.append ho.numbered

end

end SchemaCompiler
