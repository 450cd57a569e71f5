import SchemaCompiler.Text.Layout

/-!
# Lines are read back

Lines without line feeds are read back from the text that they are put together to. The lines of a
layout are such, if it is put together from texts, so the lines of its text are known under every
unit of indentation (`Layout.split_text`), and to lay it out deeper is to indent its text
(`Layout.text_deeper`).
-/

namespace SchemaCompiler

namespace Lines

variable {line : List Char} {lines others : List (List Char)}

theorem split_cons (c : Char) (cs : List Char) :
    split (c :: cs) = if c = '\n' then [] :: split cs else (split cs).modifyHead (c :: ·) := by
  rw [split]
  split
  · rfl
  · cases h : split cs with
    | nil => exact absurd h (split_ne_nil cs)
    | cons line lines => rfl

/-- Texts are split at line feeds. -/
theorem split_eq_splitOn (cs : List Char) : split cs = cs.splitOn '\n' := by
  induction cs with
  | nil => rfl
  | cons c cs ih =>
    rw [split_cons, ih, List.splitOn_eq_splitOnP, List.splitOn_eq_splitOnP,
      List.splitOnP_cons_eq_if_modifyHead]
    simp only [beq_iff_eq]

/-- The lines before a line feed and those after it. -/
theorem split_append (cs ds : List Char) : split (cs ++ '\n' :: ds) = split cs ++ split ds := by
  simp only [split_eq_splitOn, List.splitOn_eq_splitOnP]
  exact List.splitOnP_append_cons cs ds (by decide)

/-- Lines are put together with line feeds between them. -/
theorem join_eq_intercalate (lines : List (List Char)) : join lines = ['\n'].intercalate lines := by
  induction lines with
  | nil => rfl
  | cons line lines ih =>
    cases lines with
    | nil => simp
    | cons next lines => rw [join_cons_cons, List.intercalate_cons_cons, ih]; simp

/-- Lines without line feeds are read back. -/
theorem split_join (h : ∀ line ∈ lines, '\n' ∉ line) (hne : lines ≠ []) :
    split (join lines) = lines := by
  rw [split_eq_splitOn, join_eq_intercalate]
  exact List.splitOn_intercalate '\n' h hne

/-- A text without line feeds is one line. -/
theorem split_of_lineFeed_notMem {cs : List Char} (h : '\n' ∉ cs) : split cs = [cs] := by
  have hs : split (join [cs]) = [cs] := split_join (by simpa using h) (by simp)
  rwa [join_singleton] at hs

/-- The lines of a text are without line feeds. -/
theorem lineFeed_notMem_of_mem_split {cs : List Char} (h : line ∈ split cs) : '\n' ∉ line := by
  induction cs generalizing line with
  | nil =>
    obtain rfl := List.mem_singleton.1 h
    exact List.not_mem_nil
  | cons c cs ih =>
    rw [split_cons] at h
    split at h
    · rcases List.mem_cons.1 h with rfl | h
      · exact List.not_mem_nil
      · exact ih h
    · next hc =>
      obtain ⟨first, others, hs⟩ := List.exists_cons_of_ne_nil (split_ne_nil cs)
      rw [hs] at h ih
      rcases List.mem_cons.1 h with rfl | h
      · rw [List.mem_cons, not_or]
        exact ⟨Ne.symm hc, ih List.mem_cons_self⟩
      · exact ih (List.mem_cons_of_mem _ h)

theorem join_append (hne : lines ≠ []) (hne' : others ≠ []) :
    join (lines ++ others) = join lines ++ '\n' :: join others := by
  obtain ⟨next, others, rfl⟩ := List.exists_cons_of_ne_nil hne'
  induction lines with
  | nil => exact absurd rfl hne
  | cons line lines ih =>
    cases lines with
    | nil => rfl
    | cons second lines =>
      rw [List.cons_append, List.cons_append, join_cons_cons, ← List.cons_append, ih (by simp),
        join_cons_cons, List.append_assoc, List.cons_append]

end Lines

/-! ### Indented texts -/

/-- The blanks of one unit of indentation. -/
def pad (unit : Nat) : String :=
  String.ofList (Lines.blanks unit)

/-- A text without line feeds. -/
def IsLine (text : String) : Prop :=
  '\n' ∉ text.toList

instance (text : String) : Decidable (IsLine text) :=
  inferInstanceAs (Decidable ('\n' ∉ text.toList))

theorem IsLine.append {first second : String} (h : IsLine first) (h' : IsLine second) :
    IsLine (first ++ second) := by
  unfold IsLine at h h' ⊢
  simp [h, h']

/-- One line is indented by the blanks before it. -/
theorem indentLines_of_isLine {text : String} (h : IsLine text) (unit : Nat) :
    indentLines unit text = pad unit ++ text := by
  rw [indentLines, Lines.split_of_lineFeed_notMem h, ← String.toList_inj]
  simp [pad]

/-- Texts are indented one by one. -/
theorem indentLines_append (unit : Nat) (first second : String) :
    indentLines unit (first ++ "\n" ++ second) =
      indentLines unit first ++ "\n" ++ indentLines unit second := by
  have hsplit : Lines.split (first ++ "\n" ++ second).toList =
      Lines.split first.toList ++ Lines.split second.toList := by
    simp [Lines.split_append]
  rw [indentLines, hsplit, List.map_append,
    Lines.join_append (by simp [Lines.split_ne_nil]) (by simp [Lines.split_ne_nil]),
    ← String.toList_inj]
  simp [indentLines]

theorem indentLines_intercalate (unit : Nat) {texts : List String} (hne : texts ≠ []) :
    indentLines unit ("\n".intercalate texts) =
      "\n".intercalate (texts.map (indentLines unit)) := by
  induction texts with
  | nil => exact absurd rfl hne
  | cons first texts ih =>
    by_cases h : texts = []
    · simp [h]
    · rw [String.intercalate_cons_of_ne_nil h, List.map_cons,
        String.intercalate_cons_of_ne_nil (by simpa using h), indentLines_append, ih h]

/-- Indented text is empty only if there is nothing to indent. -/
theorem indentLines_ne_empty {text : String} (h : text ≠ "") (unit : Nat) :
    indentLines unit text ≠ "" := by
  intro hi
  rw [← String.toList_inj, indentLines, String.toList_ofList] at hi
  have hj := Lines.join_split text.toList
  obtain ⟨first, others, hs⟩ := List.exists_cons_of_ne_nil (Lines.split_ne_nil text.toList)
  rw [hs] at hi hj
  cases others with
  | nil =>
    simp only [List.map_cons, List.map_nil, Lines.join_singleton, String.toList_empty,
      List.append_eq_nil_iff] at hi
    rw [hi.2, Lines.join_singleton] at hj
    exact h (String.toList_inj.1 hj.symm)
  | cons second others => simp at hi

namespace Layout

/-- Layouts whose lines are without line feeds, as those of texts are. -/
def IsLined (layout : Layout) : Prop :=
  ∀ line ∈ layout, '\n' ∉ line.chars

theorem isLined_nil : IsLined [] := by
  simp [IsLined]

theorem isLined_ofText (source : String) : (ofText source).IsLined := by
  intro line h
  obtain ⟨chars, hc, rfl⟩ := List.mem_map.1 h
  exact Lines.lineFeed_notMem_of_mem_split hc

variable {layout other : Layout}

theorem IsLined.append (h : layout.IsLined) (h' : other.IsLined) : (layout ++ other).IsLined :=
  List.forall_mem_append.2 ⟨h, h'⟩

theorem IsLined.deeper (h : layout.IsLined) : layout.deeper.IsLined := by
  intro line hm
  obtain ⟨inner, hi, rfl⟩ := List.mem_map.1 hm
  exact h inner hi

theorem IsLined.lineFeed_notMem (h : layout.IsLined) (unit : Nat) :
    ∀ chars ∈ layout.map (lineChars unit), '\n' ∉ chars := by
  intro chars hc
  obtain ⟨line, hl, rfl⟩ := List.mem_map.1 hc
  simp [lineChars, Lines.blanks, h line hl]

/-- **The lines of a layout are read back from its text.** -/
theorem split_text (h : layout.IsLined) (hne : layout ≠ []) (unit : Nat) :
    Lines.split (text unit layout).toList = layout.map (lineChars unit) := by
  rw [text, String.toList_ofList]
  exact Lines.split_join (h.lineFeed_notMem unit) (by simpa using hne)

theorem text_append (hne : layout ≠ []) (hne' : other ≠ []) (unit : Nat) :
    text unit (layout ++ other) = text unit layout ++ "\n" ++ text unit other := by
  rw [text, List.map_append, Lines.join_append (by simpa using hne) (by simpa using hne'), text,
    text, ← String.toList_inj]
  simp

/-- To lay lines out one unit deeper is to indent their text. -/
theorem text_deeper (h : layout.IsLined) (hne : layout ≠ []) (unit : Nat) :
    text unit layout.deeper = indentLines unit (text unit layout) := by
  rw [indentLines, split_text h hne, text, deeper, List.map_map, List.map_map]
  congr 3
  funext line
  exact lineChars_succ unit line.depth line.chars

end Layout

end SchemaCompiler
