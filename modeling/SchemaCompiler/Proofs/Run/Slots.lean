import SchemaCompiler.Program.Basic

/-!
# The slots that code uses

What can be said of the slots of compiled code without running it: which slots it uses and what for
(`Block.uses`), whether a slot has a preparation that suits its use (`Registered`), and whether the
elements that it inspects are elements of loops around it (`Block.InScope`).
-/

namespace SchemaCompiler

/-! ### Uses -/

/-- What code uses a slot for. -/
inductive SlotUse where
  /-- The slot is written before it is read. -/
  | scratch
  /-- The slot holds the place that a loop has come to. -/
  | index
  /-- The slot holds a literal to compare with. -/
  | literal
  /-- The slot holds the keys that a loop passes over. -/
  | keySet
  /-- The slot holds a sub-validator to call. -/
  | validator
  /-- A caller's own function keeps what it likes in the slot. -/
  | custom
  deriving DecidableEq

/-- Whether the initial content of a slot suits its use. -/
def SlotUse.suits : SlotUse → InitialContent → Bool
  | scratch, .undefined | index, .index _ | literal, .literal _ | keySet, .keySet _ => true
  | validator, .validator _ | custom, _ => true
  | _, _ => false

@[simp] theorem SlotUse.suits_custom (init : InitialContent) : custom.suits init = true := by
  cases init <;> rfl

/-- The slots of a loop. -/
def LoopSlots.uses (slots : LoopSlots) : List (SlotKey × SlotUse) :=
  [(slots.element, .scratch), (slots.keys, .scratch), (slots.key, .scratch),
    (slots.index, .index)] ++ slots.omitted.toList.map (·, .keySet)

/-- The slot of a check. -/
def Check.uses : Check → List (SlotKey × SlotUse)
  | equals slot _ => [(slot, .literal)]
  | call slot _ | callEach slot => [(slot, .validator)]
  | custom _ slot => slot.toList.map (·, .custom)
  | method _ | test _ _ | present _ | always _ => []

/-- The slot of a report. -/
def Report.uses : Report → List (SlotKey × SlotUse)
  | notEqual _ slot => [(slot, .literal)]
  | forward slot | elements slot _ => [(slot, .validator)]
  | custom _ slot => slot.toList.map (·, .custom)
  | mismatch _ | failed _ | notAnObject | noAlternatives => []

mutual

/-- The slots of a statement. A subject uses slots of the loops around the statement. -/
def Statement.uses : Statement → List (SlotKey × SlotUse)
  | .guard _ check negation report =>
    check.uses ++ negation.toList.flatMap Check.uses ++ report.toList.flatMap Report.uses
  | .requirePresent _ | .reject => []
  | .forKeys _ slots body => slots.uses ++ Block.uses body
  | .anyOf _ branches _ => Branch.allUses branches

/-- The slots of the statements of a block. -/
def Block.uses : List Statement → List (SlotKey × SlotUse)
  | [] => []
  | stmt :: stmts => stmt.uses ++ Block.uses stmts

/-- The slots of branches. -/
def Branch.allUses : List Branch → List (SlotKey × SlotUse)
  | [] => []
  | branch :: branches => branch.uses ++ Branch.allUses branches

/-- The slots of the body of a branch. -/
def Branch.uses : Branch → List (SlotKey × SlotUse)
  | ⟨_, body⟩ => Block.uses body

end

theorem Block.uses_append (first second : Block) :
    Block.uses (first ++ second) = Block.uses first ++ Block.uses second := by
  induction first with
  | nil => rfl
  | cons stmt first ih => rw [List.cons_append, uses, uses, ih, List.append_assoc]

/-! ### Preparations -/

/-- The slots are among those of preparations that suit their uses. -/
def Prepared (unit : List Preparation) (uses : List (SlotKey × SlotUse)) : Prop :=
  ∀ use ∈ uses, ∃ init, use.2.suits init = true ∧ ⟨use.1, init⟩ ∈ unit

/-- A slot has exactly one preparation, which suits its use. -/
def Registered (unit : List Preparation) (use : SlotKey × SlotUse) : Prop :=
  ∃ init, use.2.suits init = true ∧
    (unit.filter fun preparation => preparation.key.id = use.1.id) = [⟨use.1, init⟩]

/-- Where no two preparations are of one slot, a preparation is the only one of its slot. -/
theorem filter_slot_eq {unit : List Preparation}
    (hn : (unit.map fun preparation => preparation.key.id).Nodup) {preparation : Preparation}
    (hm : preparation ∈ unit) :
    (unit.filter fun other => other.key.id = preparation.key.id) = [preparation] := by
  induction unit with
  | nil => cases hm
  | cons head unit ih =>
    rw [List.map_cons, List.nodup_cons] at hn
    rcases List.mem_cons.1 hm with rfl | hm
    · rw [List.filter_cons_of_pos (by simp), List.filter_eq_nil_iff.2]
      intro other ho he
      exact hn.1 (List.mem_map.2 ⟨other, ho, of_decide_eq_true he⟩)
    · have hne : head.key.id ≠ preparation.key.id :=
        fun he => hn.1 (List.mem_map.2 ⟨preparation, hm, he.symm⟩)
      rw [List.filter_cons_of_neg (by simpa using hne)]
      exact ih hn.2 hm

namespace Prepared

variable {unit : List Preparation} {uses others : List (SlotKey × SlotUse)}

theorem nil : Prepared unit [] := by
  simp [Prepared]

theorem cons {slot : SlotKey} {use : SlotUse} {init : InitialContent} (h : use.suits init = true)
    (hm : ⟨slot, init⟩ ∈ unit) (ho : Prepared unit others) :
    Prepared unit ((slot, use) :: others) :=
  List.forall_mem_cons.2 ⟨⟨init, h, hm⟩, ho⟩

theorem singleton {slot : SlotKey} {use : SlotUse} {init : InitialContent}
    (h : use.suits init = true) (hm : ⟨slot, init⟩ ∈ unit) : Prepared unit [(slot, use)] :=
  .cons h hm .nil

theorem append (h : Prepared unit uses) (h' : Prepared unit others) :
    Prepared unit (uses ++ others) := by
  intro use hu
  rcases List.mem_append.1 hu with hu | hu
  · exact h use hu
  · exact h' use hu

/-- Where no two preparations are of one slot, the slots that are prepared are registered. -/
theorem registered (h : Prepared unit uses)
    (hn : (unit.map fun preparation => preparation.key.id).Nodup) :
    ∀ use ∈ uses, Registered unit use := by
  intro use hu
  obtain ⟨init, hs, hm⟩ := h use hu
  exact ⟨init, hs, filter_slot_eq hn hm⟩

end Prepared

/-! ### Scopes -/

/-- The loops that a subject goes through are among some loops, each with the subject that it goes
through. -/
def Subject.InScope (loops : List (Subject × LoopSlots)) : Subject → Prop
  | input => True
  | property object _ => object.InScope loops
  | element object elementSlot keySlot =>
    object.InScope loops ∧
      ∃ slots, (object, slots) ∈ loops ∧ slots.element = elementSlot ∧ slots.key = keySlot

mutual

/-- The subjects of a statement are in scope of the loops around them. -/
def Statement.InScope (loops : List (Subject × LoopSlots)) : Statement → Prop
  | .guard subject _ _ _ | .requirePresent subject => subject.InScope loops
  | .reject => True
  | .forKeys subject slots body =>
    subject.InScope loops ∧ Block.InScope ((subject, slots) :: loops) body
  | .anyOf subject branches _ => subject.InScope loops ∧ Branch.AllInScope branches

/-- The subjects of the statements of a block are in scope of the loops around them. -/
def Block.InScope (loops : List (Subject × LoopSlots)) : List Statement → Prop
  | [] => True
  | stmt :: stmts => stmt.InScope loops ∧ Block.InScope loops stmts

/-- The subjects in branches are in scope of the loops around them. -/
def Branch.AllInScope : List Branch → Prop
  | [] => True
  | branch :: branches => branch.InScope ∧ Branch.AllInScope branches

/-- The subjects in the body of a branch, which has an input of its own, are in scope of the loops
in it. -/
def Branch.InScope : Branch → Prop
  | ⟨_, body⟩ => Block.InScope [] body

end

theorem Subject.InScope.cons {loops : List (Subject × LoopSlots)} {subject : Subject}
    (h : subject.InScope loops) (loop : Subject × LoopSlots) : subject.InScope (loop :: loops) := by
  induction subject with
  | input => trivial
  | property object key ih => exact ih h
  | element object elementSlot keySlot ih =>
    obtain ⟨ho, slots, hm, hs⟩ := h
    exact ⟨ih ho, slots, List.mem_cons_of_mem loop hm, hs⟩

theorem Block.inScope_append {loops : List (Subject × LoopSlots)} {first second : Block}
    (h : Block.InScope loops first) (h' : Block.InScope loops second) :
    Block.InScope loops (first ++ second) := by
  induction first with
  | nil => exact h'
  | cons stmt first ih => exact ⟨h.1, ih h.2⟩

end SchemaCompiler
