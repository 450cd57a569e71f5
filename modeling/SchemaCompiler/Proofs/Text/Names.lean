import SchemaCompiler.Proofs.Text.Numeral
import SchemaCompiler.Proofs.Text.Readable
import SchemaCompiler.Slot.Supply

/-!
# Names of the slots of a supply

A supply never gives a number twice, but a name does not say where its base ends and its number
starts. Two bases clash if one is the other, extended by digits of which the first is not zero.
Bases without such a pair are exactly those under which the slots of every supply have different
names (`SlotKey.nodup_names_iff`). That is so as numbers are not bounded here: a clash takes a number
that is written with the digits of the extension and at least one more, and a counter of 64 bits
comes to it only if there are at most nineteen digits in the extension.
-/

namespace SchemaCompiler

/-! ### Requests in order -/

namespace Supply

/-- Take slots for the given bases, in order. -/
def takeSlots (bases : List String) : StateM Supply (List SlotKey) :=
  bases.mapM takeSlot

/-- The names of the slots taken for the given bases, in order. -/
def names (supply : Supply) (bases : List String) : List String :=
  (takeSlots bases supply).1.map SlotKey.name

theorem names_nil (supply : Supply) : supply.names [] = [] := rfl

/-- The next slot is named first, and the others are taken from what is left. -/
theorem names_cons (supply : Supply) (base : String) (bases : List String) :
    supply.names (base :: bases) =
      (supply.slot base).name :: supply.afterSlot.names bases := by
  rw [names, takeSlots, List.mapM_cons]
  rfl

/-- Among the names is that of the base at each place, with the number of the place. -/
theorem mem_names_iff {supply : Supply} {bases : List String} {name : String} :
    name ∈ supply.names bases ↔
      ∃ i base, bases[i]? = some base ∧ name = (⟨supply.nextSlot + i, base⟩ : SlotKey).name := by
  induction bases generalizing supply with
  | nil => simp [names_nil]
  | cons first bases ih =>
    rw [names_cons, List.mem_cons, ih]
    constructor
    · rintro (rfl | ⟨i, base, hi, rfl⟩)
      · exact ⟨0, first, rfl, rfl⟩
      · exact ⟨i + 1, base, hi, by rw [afterSlot, Nat.add_assoc, Nat.add_comm 1 i]⟩
    · rintro ⟨i, base, hi, rfl⟩
      cases i with
      | zero => exact .inl (by rw [← Option.some.inj hi]; rfl)
      | succ i =>
        exact .inr ⟨i, base, hi, by rw [afterSlot, Nat.add_assoc, Nat.add_comm 1 i]⟩

end Supply

/-! ### Clashes -/

namespace SlotKey

/-- A base is another base, extended by digits of which the first is not zero. -/
def Extends (base other : String) : Prop :=
  ∃ d ds, d ≠ '0' ∧ (∀ c ∈ d :: ds, c.isDigit = true) ∧
    base.toList = other.toList ++ d :: ds

/-- A base does not extend itself. -/
theorem not_extends_self (base : String) : ¬ Extends base base := by
  rintro ⟨d, ds, -, -, h⟩
  exact List.cons_ne_nil d ds (List.self_eq_append_right.1 h)

/-- An extended base ends with a digit, so a plain base extends no base. -/
theorem not_extends_of_isPlain {base : String} (h : IsPlain base) (other : String) :
    ¬ Extends base other := by
  rintro ⟨d, ds, -, hd, he⟩
  have hmem : d ∈ base.toList := by simp [he]
  have hfalse := isDigit_of_isPlain h hmem
  rw [hd d List.mem_cons_self] at hfalse
  cases hfalse

/-- What stands before a numeral, if the whole is a numeral of another number. -/
theorem ne_zero_of_append {before : List Char} {n m : Nat} (hne : n ≠ m)
    (h : Nat.toDigits 10 n = before ++ Nat.toDigits 10 m) :
    ∃ d ds, d ≠ '0' ∧ (∀ c ∈ d :: ds, c.isDigit = true) ∧ before = d :: ds := by
  have hn := Numeral.isCanonical_toDigits n
  cases before with
  | nil => exact absurd (Numeral.toDigits_injective h) hne
  | cons d ds =>
    refine ⟨d, ds, ?_, fun c hc => hn.isDigit c (h ▸ List.mem_append_left _ hc), rfl⟩
    rintro rfl
    obtain ⟨c, cs, hm, -⟩ := exists_toDigits m
    rw [hm] at h
    cases ds with
    | nil => exact hn.ne_zero_cons _ _ h
    | cons e ds => exact hn.ne_zero_cons _ _ h

/-- Slots with different numbers have one name only if one base extends the other. -/
theorem extends_of_name_eq {key other : SlotKey} (hid : key.id ≠ other.id)
    (h : key.name = other.name) :
    Extends key.base other.base ∨ Extends other.base key.base := by
  rw [← String.toList_inj, toList_name, toList_name] at h
  rcases List.append_eq_append_iff.1 h with ⟨before, hb, hd⟩ | ⟨before, hb, hd⟩
  · obtain ⟨d, ds, h0, hall, rfl⟩ := ne_zero_of_append hid hd
    exact .inr ⟨d, ds, h0, hall, hb⟩
  · obtain ⟨d, ds, h0, hall, rfl⟩ := ne_zero_of_append hid.symm hd
    exact .inl ⟨d, ds, h0, hall, hb⟩

/-- If a base extends another one, they share a name: that of the first one with the number zero. -/
theorem exists_name_eq {base other : String} (h : Extends base other) :
    ∃ n, 0 < n ∧ (⟨0, base⟩ : SlotKey).name = (⟨n, other⟩ : SlotKey).name := by
  obtain ⟨d, ds, h0, hall, hb⟩ := h
  have hcanonical : Numeral.IsCanonical (d :: ds ++ ['0']) := by
    refine ⟨List.cons_ne_nil _ _, fun c hc => ?_, fun c cs he => h0 (List.cons.inj he).1⟩
    rcases List.mem_append.1 hc with hc | hc
    · exact hall c hc
    · rw [List.mem_singleton.1 hc]
      rfl
  obtain ⟨n, hn⟩ := Numeral.isCanonical_iff.1 hcanonical
  refine ⟨n, Nat.pos_of_ne_zero ?_, ?_⟩
  · rintro rfl
    exact h0 (List.cons.inj hn).1
  · rw [← String.toList_inj, toList_name, toList_name, hb, ← hn, List.append_assoc]
    simp only [Nat.toDigits_zero]

end SlotKey

/-! ### Different names -/

namespace Supply

/-- Bases of which none extends another one give different names. -/
theorem nodup_names {bases : List String}
    (h : ∀ base ∈ bases, ∀ other ∈ bases, ¬ SlotKey.Extends base other) (supply : Supply) :
    (supply.names bases).Nodup := by
  induction bases generalizing supply with
  | nil => exact List.nodup_nil
  | cons base bases ih =>
    rw [names_cons, List.nodup_cons]
    refine ⟨fun hmem => ?_, ih (fun b hb o ho => h b (.tail _ hb) o (.tail _ ho)) _⟩
    obtain ⟨i, other, hi, hname⟩ := mem_names_iff.1 hmem
    have hother : other ∈ base :: bases := .tail _ (List.mem_of_getElem? hi)
    have hid : supply.nextSlot ≠ supply.nextSlot + 1 + i := by omega
    rcases SlotKey.extends_of_name_eq hid hname with he | he
    · exact h base List.mem_cons_self other hother he
    · exact h other hother base List.mem_cons_self he

/-- If a base extends another one, enough slots for the first one and then a slot for the other one
have a name twice. -/
theorem exists_not_nodup_names {base other : String} (h : SlotKey.Extends base other) :
    ∃ count, ¬ (initial.names (List.replicate count base ++ [other])).Nodup := by
  obtain ⟨n, hpos, hname⟩ := SlotKey.exists_name_eq h
  obtain ⟨count, rfl⟩ := Nat.exists_eq_succ_of_ne_zero (Nat.ne_of_gt hpos)
  refine ⟨count + 1, fun hnodup => ?_⟩
  rw [List.replicate_succ, List.cons_append, names_cons, List.nodup_cons] at hnodup
  refine hnodup.1 (mem_names_iff.2 ⟨count, other, by simp, ?_⟩)
  rw [show initial.afterSlot.nextSlot + count = count + 1 from Nat.add_comm 1 count]
  exact hname

end Supply

namespace SlotKey

/-- **Which bases keep names apart.** The slots requested under some bases, repeated or not and in
any order, have different names in every supply exactly if none of the bases is another one of them,
extended by digits of which the first is not zero. Supplies are not bounded: with a counter of 64
bits, bases of which one extends another by twenty or more digits keep their names apart as well. -/
theorem nodup_names_iff (usable : String → Prop) :
    (∀ (supply : Supply) (bases : List String), (∀ base ∈ bases, usable base) →
        (supply.names bases).Nodup) ↔
      ∀ base other, usable base → usable other → ¬ Extends base other := by
  constructor
  · intro h base other hbase hother he
    obtain ⟨count, hcount⟩ := Supply.exists_not_nodup_names he
    refine hcount (h _ _ fun b hb => ?_)
    rcases List.mem_append.1 hb with hb | hb
    · rwa [List.eq_of_mem_replicate hb]
    · rwa [List.mem_singleton.1 hb]
  · exact fun h supply bases hb => Supply.nodup_names
      (fun base hbase other hother => h base other (hb base hbase) (hb other hother)) supply

/-- The eleventh slot may have the name of the first one. -/
theorem not_nodup_names_a1 :
    ¬ (Supply.initial.names ("a1" :: List.replicate 9 "b" ++ ["a"])).Nodup := by
  decide

/-- One base keeps its names apart, however often it is used. -/
theorem nodup_names_replicate (supply : Supply) (count : Nat) (base : String) :
    (supply.names (List.replicate count base)).Nodup :=
  Supply.nodup_names (fun b hb o ho => by
    rw [List.eq_of_mem_replicate hb, List.eq_of_mem_replicate ho]
    exact not_extends_self base) supply

/-- Plain bases keep their names apart. -/
theorem nodup_names_of_isPlain (supply : Supply) {bases : List String}
    (h : ∀ base ∈ bases, IsPlain base) : (supply.names bases).Nodup :=
  Supply.nodup_names (fun base hbase other _ => not_extends_of_isPlain (h base hbase) other) supply

end SlotKey

end SchemaCompiler
