import SchemaCompiler.Proofs.Compile.Registration
import SchemaCompiler.Proofs.Text.Readable
import SchemaCompiler.Proofs.Text.Source

/-!
# The source text of programs

Compilers name the slots of loops themselves, and the keys in a subject are quoted unless they are
identifiers, so there are no line feeds in what the lines of a loop are made of. The source text of
every program that compilers make is therefore the text that is written piece by piece, and so is
that of its sub-validators, at any depth (`Program.Made.source_eq_written`).
-/

namespace SchemaCompiler

/-! ### Subjects and slots -/

namespace Quoted

theorem digitChar_ne_lineFeed {k : Nat} (h : k < 16) : Nat.digitChar k ≠ '\n' := by
  revert k
  decide

theorem lineFeed_notMem_fourHex (n : Nat) : '\n' ∉ fourHex n := by
  have hdigit (m : Nat) : '\n' ≠ Nat.digitChar (m % 16) :=
    (digitChar_ne_lineFeed (Nat.mod_lt m (by decide))).symm
  simp [fourHex, hdigit]

/-- Line feeds are escaped. -/
theorem lineFeed_notMem_encode (cs : List Char) : '\n' ∉ encode cs := by
  intro h
  obtain ⟨c, -, hc⟩ := List.mem_flatMap.1 h
  unfold encodeChar at hc
  split_ifs at hc with h1 h2 h3
  all_goals simp [lineFeed_notMem_fourHex] at hc
  exact h3 hc.symm

end Quoted

theorem isLine_accessor (key : String) : IsLine (accessor key) := by
  unfold IsLine
  rcases Accessor.toList_accessor key with ⟨c, cs, -, -, hp, h⟩ | h
  · rw [h, List.mem_cons, not_or]
    exact ⟨by decide, fun hm => Bool.false_ne_true (hp '\n' hm)⟩
  · rw [h]
    simp [Quoted.lineFeed_notMem_encode]

/-- The number in the name of a slot is written with digits. -/
theorem SlotKey.isLine_name {key : SlotKey} (h : IsLine key.base) : IsLine key.name := by
  unfold IsLine at h ⊢
  rw [toList_name, List.mem_append, not_or]
  exact ⟨h, fun hm => Bool.false_ne_true (Value.isDigit_of_mem_toDigits hm)⟩

theorem Subject.isLine_property {object : Subject} (h : IsLine object.render) (key : String) :
    IsLine (Subject.property object key).render :=
  h.append (isLine_accessor key)

theorem LoopSlots.inLine_startingAt (first : Nat) (omitted : List String) :
    (LoopSlots.startingAt first omitted).InLine where
  keys := SlotKey.isLine_name (by decide : IsLine "keys")
  index := SlotKey.isLine_name (by decide : IsLine "i")
  key := SlotKey.isLine_name (by decide : IsLine "key")
  element := SlotKey.isLine_name (by decide : IsLine "elem")
  omitted := by
    intro key hk
    rw [LoopSlots.startingAt] at hk
    split at hk
    · cases hk
    · cases hk
      exact SlotKey.isLine_name (by decide : IsLine "omitkeys")

/-- The value of a property that a loop has come to. -/
theorem LoopSlots.isLine_element (first : Nat) (omitted : List String) (subject : Subject)
    (key : SlotKey) :
    IsLine (Subject.element subject (LoopSlots.startingAt first omitted).element key).render :=
  (by decide : IsLine "ctx.").append (LoopSlots.inLine_startingAt first omitted).element

/-! ### Code -/

theorem Block.loopsInLine_append {first second : Block} (h : Block.LoopsInLine first)
    (h' : Block.LoopsInLine second) : Block.LoopsInLine (first ++ second) := by
  induction first with
  | nil => exact h'
  | cons stmt first ih => exact ⟨h.1, ih h.2⟩

theorem Code.loopsInLine_requirePresent (explains : Bool) (subject : Subject) :
    Block.LoopsInLine (Code.requirePresent explains subject).block := by
  cases explains <;> exact ⟨trivial, trivial⟩

theorem Code.loopsInLine_reject (explains : Bool) (subject : Subject) :
    Block.LoopsInLine (Code.reject explains subject).block := by
  cases explains <;> exact ⟨trivial, trivial⟩

mutual

/-- The lines of loops in emitted code are lines. -/
theorem Schema.Emits.loopsInLine {settings : Settings} :
    ∀ {unit schema subject first next code},
      Schema.Emits settings unit schema subject first next code → IsLine subject.render →
        Block.LoopsInLine code.block
  | _, _, _, _, _, _, .function, _ => ⟨trivial, trivial⟩
  | _, _, _, _, _, _, .constant h, hs => h.loopsInLine hs
  | _, _, _, _, _, _, .and h, hs => h.loopsInLine hs
  | _, _, _, _, _, _, .object h, hs =>
    Block.loopsInLine_append (Code.loopsInLine_requirePresent _ _) (h.loopsInLine hs)
  | _, _, _, _, _, _, .objectWithRest _ hslots hf hb, hs => by
    have hbody := hb.loopsInLine (hslots ▸ LoopSlots.isLine_element _ _ _ _)
    have hloop := hslots ▸ LoopSlots.inLine_startingAt _ _
    exact Block.loopsInLine_append
      (Block.loopsInLine_append
        (Block.loopsInLine_append (Code.loopsInLine_requirePresent _ _) (hf.loopsInLine hs))
        trivial)
      ⟨⟨hs, hloop, hbody⟩, trivial⟩
  | _, _, _, _, _, _, .reject, _ => Code.loopsInLine_reject _ _
  | _, _, _, _, _, _, .single h, hs => h.loopsInLine hs
  | _, _, _, _, _, _, .variant _ _, _ => ⟨trivial, trivial⟩
  | _, _, _, _, _, _, .variantAgain _ _ _, _ => ⟨trivial, trivial⟩

theorem Schema.EmitsAll.loopsInLine {settings : Settings} :
    ∀ {unit schemas subject first next code},
      Schema.EmitsAll settings unit schemas subject first next code → IsLine subject.render →
        Block.LoopsInLine code.block
  | _, _, _, _, _, _, .nil, _ => trivial
  | _, _, _, _, _, _, .cons h ho, hs =>
    Block.loopsInLine_append (h.loopsInLine hs) (ho.loopsInLine hs)

theorem Schema.EmitsFields.loopsInLine {settings : Settings} :
    ∀ {unit fields subject first next code},
      Schema.EmitsFields settings unit fields subject first next code → IsLine subject.render →
        Block.LoopsInLine code.block
  | _, _, _, _, _, _, .nil, _ => trivial
  | _, _, _, _, _, _, .cons h ho, hs =>
    Block.loopsInLine_append (h.loopsInLine (Subject.isLine_property hs _)) (ho.loopsInLine hs)

theorem Schema.EmitsBranches.loopsInLine {settings : Settings} :
    ∀ {unit schemas first next branches},
      Schema.EmitsBranches settings unit schemas first next branches →
        Branch.AllLoopsInLine branches.list
  | _, _, _, _, _, .nil => trivial
  | _, _, _, _, _, .cons h ho => ⟨h.loopsInLine (by decide : IsLine "value"), ho.loopsInLine⟩

end

/-! ### Programs -/

/-- The source text of a program is the text that is written piece by piece. -/
def Program.IsWritten (program : Program) : Prop :=
  program.source = Program.written program.body program.indent

namespace Schema

variable {terms : Terms} {settings : Settings} {supply : Supply}

theorem Made.isWritten {schema : Schema} {supply' : Supply} {program : Program}
    (hs : Made terms schema)
    (hc : schema.compileProgram settings supply = (.ok program, supply')) : program.IsWritten := by
  obtain ⟨code, state, hcode, rfl⟩ := compileProgram_eq_ok hc
  obtain ⟨he, -⟩ := hs.follows hcode (known_nil settings terms.shared code.preparations)
    (List.Subset.refl _)
  exact Program.sourceOf_eq_written (he.loopsInLine (by decide : IsLine "value")) settings.indent

theorem isWritten_branches {alternatives : List Schema}
    (ha : ∀ schema ∈ alternatives, Made terms schema) {state : Compilation} {branches : Branches}
    (hc : compileBranches settings alternatives ⟨supply, []⟩ = (.ok branches, state)) :
    (branches.code.program settings.indent).IsWritten := by
  have he := follows_branches (fun schema hs => (ha schema hs).follows) hc
    (known_nil settings terms.shared branches.preparations) (List.Subset.refl _)
  have hbody : Block.LoopsInLine branches.code.block := ⟨he.loopsInLine, trivial⟩
  exact Program.sourceOf_eq_written hbody settings.indent

end Schema

/-- **The source text of a program is written piece by piece**, and so is that of its
sub-validators, at any depth. -/
theorem Program.Made.source_eq_written {program : Program} (h : program.Made) :
    program.Throughout Program.IsWritten := by
  have hprogram {terms : Schema.Terms} {schema : Schema} {settings : Settings}
      {supply supply' : Supply} {program : Program} (hs : schema.Made terms)
      (hg : ∀ inner, schema.Brings inner → inner.Throughout Program.IsWritten)
      (hc : schema.compileProgram settings supply = (.ok program, supply')) :
      program.Throughout Program.IsWritten :=
    hs.throughout_of (fun _ _ _ _ hs hc => hs.isWritten hc)
      (fun _ _ _ _ ha hb => Schema.isWritten_branches ha hb) hg hc
  induction h with
  | intro hs hf hc ih =>
    exact hprogram hs (hs.brings (fun _ _ _ _ _ hs hg hc => hprogram hs hg hc) ih) hc

end SchemaCompiler
