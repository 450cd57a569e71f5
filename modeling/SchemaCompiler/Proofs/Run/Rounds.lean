import SchemaCompiler.Proofs.Run.Enacts

/-!
# Loops that enact judges

A loop runs its body for the parts of a value in turn. In each round the list of keys is long
enough, the keys to pass over are in their slot, and the slots of the element and its key are
written before the body reads them, so a body that enacts a judge of the element judges the part
(`RoundReady.enacted_round`). The cells of the body go from round to round, and the loop enacts the
judge of all parts that are not passed over (`enacts_forKeys`).
-/

namespace SchemaCompiler

open Context

namespace LoopSlots

/-- The slots of a loop are among its preparations. -/
theorem mem_preparationsAt (first : Nat) (omitted : List String) :
    ⟨(startingAt first omitted).element, .undefined⟩ ∈ preparationsAt first omitted ∧
      ⟨(startingAt first omitted).keys, .undefined⟩ ∈ preparationsAt first omitted ∧
      ⟨(startingAt first omitted).key, .undefined⟩ ∈ preparationsAt first omitted ∧
      ⟨(startingAt first omitted).index, .index 0⟩ ∈ preparationsAt first omitted := by
  simp [startingAt, preparationsAt]

variable {first : Nat} {omitted : List String}

/-- A loop passes over the keys that it was prepared for. -/
theorem isOmitted_eq {unit : List Preparation} {ctx : Context} (hr : Ready unit ctx)
    (hm : preparationsAt first omitted ⊆ unit) (key : String) :
    (startingAt first omitted).isOmitted ctx key = omitted.contains key := by
  cases omitted with
  | nil => rfl
  | cons head omitted =>
    have hp : ⟨⟨first + 4, "omitkeys"⟩, .keySet (.ofList (head :: omitted))⟩ ∈ unit :=
      hm (by simp [preparationsAt])
    have hk : ctx.keySet? ⟨first + 4, "omitkeys"⟩ = some (.ofList (head :: omitted)) :=
      keySet?_of_settled (hr _ hp rfl)
    simp only [isOmitted, startingAt, List.isEmpty_cons, Bool.false_eq_true, if_false, hk,
      Option.any_some]
    rw [Bool.eq_iff_iff, KeySet.contains_iff, KeySet.mem_keys_ofList, List.contains_iff_mem]

/-- A loop finds the keys that it passes over. -/
theorem isSome_keySet? {unit : List Preparation} {ctx : Context} (hr : Ready unit ctx)
    (hm : preparationsAt first omitted ⊆ unit) :
    ∀ slot ∈ (startingAt first omitted).omitted, (ctx.keySet? slot).isSome = true := by
  cases omitted with
  | nil => simp [startingAt]
  | cons head omitted =>
    have hp : ⟨⟨first + 4, "omitkeys"⟩, .keySet (.ofList (head :: omitted))⟩ ∈ unit :=
      hm (by simp [preparationsAt])
    have hk : ctx.keySet? ⟨first + 4, "omitkeys"⟩ = some (.ofList (head :: omitted)) :=
      keySet?_of_settled (hr _ hp rfl)
    simp [startingAt, hk]

end LoopSlots

variable {unit : List Preparation} {first high : Nat} {omitted : List String} {subject : Subject}
  {input object : Value} {path : Path} {slots : LoopSlots} {own : List SlotKey}
  {cells : List Content} {body : Block} {judge : Judge}

/-! ### Rounds -/

/-- What holds of a context between the rounds of a loop: the slots of the program are ready, the
keys are those of the object, the subject is still the object at its path, and the slots of the body
hold its cells. -/
structure RoundReady (unit : List Preparation) (first : Nat) (subject : Subject)
    (input object : Value) (path : Path) (own : List SlotKey) (cells : List Content)
    (ctx : Context) : Prop where
  ready : Ready unit ctx
  keys : ctx.settled (first + 1) = some (.keys object.ownKeys)
  resolve : subject.resolve input ctx = object
  path : subject.path input ctx = path
  bound : subject.Bound input ctx
  stored : ctx.Stored own cells

/-- A run that keeps the keys and the slots before the loop leaves the loop ready. -/
theorem RoundReady.keep {ctx ctx' : Context} {cells' : List Content}
    (h : RoundReady unit first subject input object path own cells ctx)
    (hs : subject.Below first) (hr : Ready unit ctx') (hk : Keeps first high ctx ctx')
    (hkeys : ctx'.settled (first + 1) = ctx.settled (first + 1)) (hc : ctx'.Stored own cells') :
    RoundReady unit first subject input object path own cells' ctx' where
  ready := hr
  keys := hkeys.trans h.keys
  resolve := (Subject.resolve_congr hs hk input).trans h.resolve
  path := (Subject.path_congr hs hk input).trans h.path
  bound := Subject.bound_congr hs hk h.bound
  stored := hc

/-- Writing to a slot of the loop other than the keys leaves the loop ready, and spares the other
slots. -/
theorem RoundReady.set {ctx : Context}
    (h : RoundReady unit first subject input object path own cells ctx)
    (hs : subject.Below first) (hn : (unit.map fun preparation => preparation.key.id).Nodup)
    (hu : LoopSlots.preparationsAt first omitted ⊆ unit)
    (hh : LoopSlots.nextSlot first omitted ≤ high) {low' : Nat} (ha : Apart unit low' high own)
    {scratch : Preparation}
    (hm : scratch ∈ LoopSlots.preparationsAt first omitted) (hc : scratch.init.isScratch = true)
    (hne : scratch.key.id ≠ first + 1) (content : Content) :
    RoundReady unit first subject input object path own cells (ctx.set scratch.key content) ∧
      Keeps first high ctx (ctx.set scratch.key content) ∧
      Spares unit first high ctx (ctx.set scratch.key content) := by
  obtain ⟨hl, hlt⟩ := (LoopSlots.numbered_preparationsAt first omitted).range scratch hm
  have hk : Keeps first high ctx (ctx.set scratch.key content) := .set ctx content hl (by omega)
  have hstored : (ctx.set scratch.key content).Stored own cells :=
    h.stored.keep fun slot hslot => slot_set_of_ne ctx (ha.ne slot hslot scratch (hu hm)) content
  exact ⟨h.keep hs (h.ready.set hn (hu hm) hc content) hk (settled_set_of_ne ctx hne content)
    hstored, hk, .set (hu hm) ctx content⟩

/-- In a round the key of a part and the part itself are written into their slots, so the element
of the loop is bound. -/
theorem RoundReady.start {ctx : Context}
    (h : RoundReady unit first subject input object path own cells ctx)
    (hs : subject.Below first) (hn : (unit.map fun preparation => preparation.key.id).Nodup)
    (hu : LoopSlots.preparationsAt first omitted ⊆ unit)
    (hh : LoopSlots.nextSlot first omitted ≤ high)
    (ha : Apart unit (LoopSlots.nextSlot first omitted) high own)
    {part : String × Segment} (hp : part ∈ object.parts) {start : Context}
    (hstart : start = (ctx.set (LoopSlots.startingAt first omitted).key (.key part.1)).set
      (LoopSlots.startingAt first omitted).element (.element (object.get part.1))) :
    RoundReady unit first subject input object path own cells start ∧
      Keeps first high ctx start ∧ Spares unit first high ctx start ∧
      start.element (LoopSlots.startingAt first omitted).element = object.get part.1 ∧
      start.currentKey? (LoopSlots.startingAt first omitted).key = some part.1 ∧
      (Subject.element subject (LoopSlots.startingAt first omitted).element
        (LoopSlots.startingAt first omitted).key).Bound input start := by
  obtain ⟨me, -, mkey, -⟩ := LoopSlots.mem_preparationsAt first omitted
  obtain ⟨h1, k1, s1⟩ := h.set hs hn hu hh ha mkey rfl (by simp [LoopSlots.startingAt])
    (.key part.1)
  obtain ⟨h2, k2, s2⟩ := h1.set hs hn hu hh ha me rfl (by simp [LoopSlots.startingAt])
    (.element (object.get part.1))
  rw [← hstart] at h2 k2 s2
  have he : start.settled (LoopSlots.startingAt first omitted).element.id =
      some (.element (object.get part.1)) := by
    rw [hstart]
    exact settled_set_self _ _ _
  have hk : start.settled (LoopSlots.startingAt first omitted).key.id = some (.key part.1) := by
    rw [hstart]
    exact (settled_set_of_ne _ (by simp [LoopSlots.startingAt]) _).trans (settled_set_self _ _ _)
  refine ⟨h2, k1.trans k2, s1.trans s2, element_of_settled he, currentKey?_of_settled hk, h2.bound,
    part.1, ?_, currentKey?_of_settled hk, ?_⟩
  · rw [h2.resolve, ← Value.map_fst_parts]
    exact List.mem_map_of_mem hp
  · rw [h2.resolve, element?_of_settled he]

/-- A round judges its part, and leaves the loop ready. -/
theorem RoundReady.enacted_round {ctx : Context}
    (h : RoundReady unit first subject input object path own cells ctx)
    (hs : subject.Below first) (hn : (unit.map fun preparation => preparation.key.id).Nodup)
    (hu : LoopSlots.preparationsAt first omitted ⊆ unit)
    (hh : LoopSlots.nextSlot first omitted ≤ high)
    (ha : Apart unit (LoopSlots.nextSlot first omitted) high own)
    (hb : Enacts unit (LoopSlots.nextSlot first omitted) high
      (.element subject (LoopSlots.startingAt first omitted).element
        (LoopSlots.startingAt first omitted).key) own body judge)
    {part : String × Segment} (hp : part ∈ object.parts) {start : Context}
    (hstart : start = (ctx.set (LoopSlots.startingAt first omitted).key (.key part.1)).set
      (LoopSlots.startingAt first omitted).element (.element (object.get part.1))) :
    Block.Finds body input start ∧
      Enacted unit first high own ctx (Block.run body input start)
        (judge (object.get part.1) (path.push part.2) cells) ∧
      RoundReady unit first subject input object path own
        (judge (object.get part.1) (path.push part.2) cells).cells
        (Block.run body input start).2 := by
  have hlt := LoopSlots.lt_nextSlot first omitted
  obtain ⟨h', hk, hspares, helement, hkey, hbound⟩ := h.start hs hn hu hh ha hp hstart
  obtain ⟨hf, he⟩ := hb input start cells h'.ready h'.stored hbound
  rw [Subject.resolve, helement, Subject.path, h'.resolve, h'.path, hkey, Option.getD_some,
    Subject.segment_of_mem_parts hp] at he
  subst hstart
  have he' := (he.mono (Nat.le_of_lt (Nat.lt_of_le_of_lt (Nat.le_add_right first 3) hlt))
    (Nat.le_refl high)).trans_of_eq (by rfl) (by rfl) hk hspares
  exact ⟨hf, he', h'.keep hs he.ready (he.keeps.mono (by omega) (Nat.le_refl high))
    (he.keeps _ (.inl (by omega))) he.stored⟩

/-- The rounds of a loop that are left judge the parts that are left. -/
theorem enacted_iterate (hs : subject.Below first)
    (hn : (unit.map fun preparation => preparation.key.id).Nodup)
    (hu : LoopSlots.preparationsAt first omitted ⊆ unit)
    (hh : LoopSlots.nextSlot first omitted ≤ high)
    (hslots : LoopSlots.startingAt first omitted = slots)
    (ha : Apart unit (LoopSlots.nextSlot first omitted) high own)
    (hb : Enacts unit (LoopSlots.nextSlot first omitted) high
      (.element subject slots.element slots.key) own body judge)
    {isPure : Bool} (hq : judge.Quiet isPure) {done parts : List (String × Segment)}
    (hp : object.parts = done ++ parts) {ctx : Context}
    (h : RoundReady unit first subject input object path own cells ctx) :
    slots.IterateFinds object (fun ctx => Block.run body input ctx)
        (fun ctx => Block.Finds body input ctx) parts.length done.length ctx ∧
      Enacted unit first high own ctx
        (slots.iterate object (fun ctx => Block.run body input ctx) parts.length done.length ctx)
        (Judge.parts omitted judge object path parts cells) := by
  obtain ⟨-, -, -, mi⟩ := LoopSlots.mem_preparationsAt first omitted
  subst hslots
  induction parts generalizing done ctx cells with
  | nil => exact ⟨trivial, .refl h.ready h.stored true⟩
  | cons part parts ih =>
    have hnext : object.parts = (done ++ [part]) ++ parts := by
      rw [hp, List.append_assoc]
      rfl
    have hlength : (done ++ [part]).length = done.length + 1 := by
      rw [List.length_append, List.length_singleton]
    obtain ⟨h1, k1, s1⟩ := h.set hs hn hu hh ha mi rfl (by simp [LoopSlots.startingAt])
      (.index done.length)
    have hkey : ((ctx.set (LoopSlots.startingAt first omitted).index (.index done.length)).keys
        (LoopSlots.startingAt first omitted).keys)[done.length]? = some part.1 := by
      rw [keys_of_settled h1.keys, ← Value.map_fst_parts, hp]
      simp
    simp only [List.length_cons, LoopSlots.iterate, LoopSlots.IterateFinds, hkey,
      LoopSlots.isOmitted_eq h1.ready hu, Option.some.injEq, exists_eq_left']
    by_cases ho : omitted.contains part.1 = true
    · rw [if_pos ho, if_pos ho, Judge.parts_of_omitted ho]
      obtain ⟨hf, he⟩ := ih hnext h1
      rw [hlength] at hf he
      exact ⟨⟨LoopSlots.isSome_keySet? h1.ready hu, hf⟩,
        he.trans_of_eq rfl rfl k1 s1⟩
    · rw [if_neg ho, if_neg ho]
      have hmem : part ∈ object.parts := by
        rw [hp]
        simp
      obtain ⟨hf, hround, hback⟩ := h1.enacted_round hs hn hu hh ha hb hmem rfl
      have he := hround.trans_of_eq (by rfl) (by rfl) k1 s1
      generalize Block.run body input _ = outcome at he hback ⊢
      obtain ⟨answer, ctx'⟩ := outcome
      have hanswer : answer = (judge (object.get part.1) (path.push part.2) cells).holds := he.holds
      cases answer with
      | false =>
        rw [Judge.parts_of_not_holds ho (Bool.eq_false_iff.1 hanswer.symm)]
        exact ⟨⟨LoopSlots.isSome_keySet? h1.ready hu, hf, fun ht => by cases ht⟩, he⟩
      | true =>
        rw [Judge.parts_of_holds ho hanswer.symm]
        have hexplanations : ctx'.explanations = ctx.explanations := by
          have hnone := hq _ _ _ (.inr hanswer.symm)
          rw [← List.append_nil ctx.explanations, ← hnone]
          exact he.explanations
        obtain ⟨hf', hlast⟩ := ih hnext hback
        rw [hlength] at hf' hlast
        exact ⟨⟨LoopSlots.isSome_keySet? h1.ready hu, hf, fun _ => hf'⟩,
          hlast.trans hexplanations he.notes he.keeps he.spares⟩

/-- Once the keys of the subject are in their slot, the loop is ready. -/
theorem RoundReady.enter {ctx : Context} (hs : subject.Below first)
    (hn : (unit.map fun preparation => preparation.key.id).Nodup)
    (hu : LoopSlots.preparationsAt first omitted ⊆ unit)
    (hh : LoopSlots.nextSlot first omitted ≤ high)
    (hslots : LoopSlots.startingAt first omitted = slots)
    (ha : Apart unit (LoopSlots.nextSlot first omitted) high own) (hr : Ready unit ctx)
    (hc : ctx.Stored own cells) (hbound : subject.Bound input ctx) {start : Context}
    (hstart : ctx.set slots.keys (.keys (subject.resolve input ctx).ownKeys) = start) :
    RoundReady unit first subject input (subject.resolve input ctx) (subject.path input ctx) own
      cells start ∧ Keeps first high ctx start ∧ Spares unit first high ctx start := by
  obtain ⟨_, mk, _, _⟩ := LoopSlots.mem_preparationsAt first omitted
  have hlt := LoopSlots.lt_nextSlot first omitted
  generalize hkeys : Content.keys (subject.resolve input ctx).ownKeys = content at hstart
  have hk : Keeps first high ctx start := by
    subst hslots hstart
    exact .set ctx _ (by simp [LoopSlots.startingAt]) (by simp [LoopSlots.startingAt]; omega)
  subst hslots hstart
  refine ⟨⟨hr.set hn (hu mk) rfl _, hkeys ▸ settled_set_self _ _ _,
    Subject.resolve_congr hs hk input, Subject.path_congr hs hk input,
    Subject.bound_congr hs hk hbound, ?_⟩, hk, .set (hu mk) ctx _⟩
  exact hc.keep fun slot hm => slot_set_of_ne ctx (ha.ne slot hm _ (hu mk)) _

/-- **A loop over the keys of a subject judges the parts of the subject that it does not pass
over**, with cells that go from part to part. -/
theorem enacts_forKeys (hs : subject.Below first)
    (hn : (unit.map fun preparation => preparation.key.id).Nodup)
    (hu : LoopSlots.preparationsAt first omitted ⊆ unit)
    (hh : LoopSlots.nextSlot first omitted ≤ high)
    (hslots : LoopSlots.startingAt first omitted = slots)
    (ha : Apart unit (LoopSlots.nextSlot first omitted) high own)
    (hb : Enacts unit (LoopSlots.nextSlot first omitted) high
      (.element subject slots.element slots.key) own body judge)
    {isPure : Bool} (hq : judge.Quiet isPure) :
    Enacts unit first high subject own [.forKeys subject slots body]
      (judge.eachPart omitted) := by
  intro input ctx cells hr hc hbound
  obtain ⟨h, hk, hspares⟩ := RoundReady.enter hs hn hu hh hslots ha hr hc hbound rfl
  obtain ⟨hf, he⟩ := enacted_iterate hs hn hu hh hslots ha hb hq (List.nil_append _).symm h
  have hl (value : Value) : value.parts.length = value.ownKeys.length := by
    rw [← Value.map_fst_parts, List.length_map]
  rw [hl] at hf he
  rw [Block.finds_singleton, Statement.Finds, LoopSlots.Finds, Block.run_singleton, Statement.run,
    LoopSlots.run, keys_of_settled (settled_set_self _ _ _)]
  exact ⟨⟨hbound, hf⟩, he.trans_of_eq rfl rfl hk hspares⟩

end SchemaCompiler
