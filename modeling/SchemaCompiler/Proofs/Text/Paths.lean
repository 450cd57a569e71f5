import SchemaCompiler.Proofs.Text.Numeral
import SchemaCompiler.Proofs.Text.Readable

/-!
# Paths and locations can be read back

The steps of a path are written one after the other: an identifier after a dot, a quoted key in
brackets, a numeral in brackets. The first two characters of a step tell which of these it is, and
each of them ends where the next one starts, so the text of a path tells the path
(`Path.text_injective`). The same goes for static locations, where a star takes the place of the
numeral. No key can be taken for another step, whatever its characters (`texts_locate`).
-/

namespace SchemaCompiler

/-! ### Paths -/

namespace Path

theorem toList_segmentsText (segments : List Segment) :
    (segmentsText segments).toList =
      segments.flatMap fun segment => (segmentText segment).toList := by
  induction segments with
  | nil => rfl
  | cons segment segments ih => rw [segmentsText, String.toList_append, ih, List.flatMap_cons]

/-- A place in an array is written in brackets, and its numeral ends at the closing one. -/
theorem toList_segmentText_index (i : Nat) :
    (segmentText (.index i)).toList = '[' :: (Nat.toDigits 10 i ++ [']']) := by
  simp [segmentText]

theorem head_segmentText (segment : Segment) :
    ∃ c cs, (segmentText segment).toList = c :: cs ∧ Accessor.isPart c = false := by
  cases segment with
  | key k => exact Accessor.head_accessor k
  | index i => exact ⟨_, _, toList_segmentText_index i, by decide⟩

/-- A quoted key is no place, since a quote is no digit. -/
theorem accessor_append_ne_index (k : String) (i : Nat) (rest others : List Char) :
    (accessor k).toList ++ rest ≠ (segmentText (.index i)).toList ++ others := by
  intro h
  obtain ⟨c, cs, hd, hc⟩ := SlotKey.exists_toDigits i
  rw [toList_segmentText_index, hd] at h
  rw [Accessor.eq_quote_of_append_eq h] at hc
  cases hc

/-- A step ends where the next one starts. -/
theorem segmentText_append_inj {segment other : Segment} {rest others : List Char}
    (hr : Location.Parted rest) (ho : Location.Parted others)
    (h : (segmentText segment).toList ++ rest = (segmentText other).toList ++ others) :
    segment = other ∧ rest = others := by
  cases segment with
  | key k =>
    cases other with
    | key l =>
      obtain ⟨hkey, hrest⟩ := Accessor.append_inj hr ho h
      exact ⟨congrArg _ hkey, hrest⟩
    | index j => exact absurd h (accessor_append_ne_index k j _ _)
  | index i =>
    cases other with
    | key l => exact absurd h.symm (accessor_append_ne_index l i _ _)
    | index j =>
      rw [toList_segmentText_index, toList_segmentText_index, List.cons_append, List.cons_append,
        List.append_assoc, List.append_assoc] at h
      obtain ⟨hdigits, hrest⟩ := Word.append_inj (p := Char.isDigit)
        (fun _ => Value.isDigit_of_mem_toDigits) (fun _ => Value.isDigit_of_mem_toDigits)
        (by simp) (by simp) (List.cons.inj h).2
      exact ⟨congrArg _ (Numeral.toDigits_injective hdigits), (List.cons.inj hrest).2⟩

/-- **The text of a path tells the path.** -/
theorem text_injective : Function.Injective text := by
  intro path other h
  have hl := congrArg String.toList ((String.append_right_inj _).1 h)
  rw [toList_segmentsText, toList_segmentsText] at hl
  exact congrArg Path.mk (Word.flatMap_injective head_segmentText segmentText_append_inj hl)

end Path

/-! ### Static locations -/

namespace Subject

/-- The text of the location of a property is that of the object, with the accessor of the key. -/
theorem text_location_property (object : Subject) (key : String) :
    (property object key).location.text = object.location.text ++ accessor key := by
  rw [location, Location.text_append, Location.stepsText, Location.stepsText, String.append_empty]
  rfl

/-- The text of the location of the properties that a loop goes through is that of the object, with
a star. -/
theorem text_location_element (object : Subject) (elementSlot keySlot : SlotKey) :
    (element object elementSlot keySlot).location.text = object.location.text ++ ".*" := by
  rw [location, Location.text_append, Location.stepsText, Location.stepsText, String.append_empty]
  rfl

end Subject

/-- **The text of a place tells the place.** Paths with one text have the same steps, and subjects
whose locations have one text are at the same location. -/
theorem texts_locate (path other : Path) (subject another : Subject) :
    (path.text = other.text ↔ path = other) ∧
      (subject.location.text = another.location.text ↔ subject.location = another.location) :=
  ⟨Path.text_injective.eq_iff, Location.text_injective.eq_iff⟩

end SchemaCompiler
