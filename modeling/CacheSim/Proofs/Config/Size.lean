import CacheSim.Config.Format
import Mathlib.Algebra.Order.Group.Nat
import Mathlib.Data.List.TakeWhile

/-!
# Which texts are sizes

A size is written as decimal digits and a unit, with blanks around the whole and
around the unit (`Size.Means`).

* `trims_iff`: what is left of a text without the blanks around it is determined;
* `Size.Means.unique`: a text means one number of bytes;
* `Size.ofString?_eq_some`, `Size.ofString?_eq_none`: exactly the texts of this form are
  read, if the number of bytes is a word;
* `Size.ofDocument?_text`: a number and its text are read alike;
* `Size.parse_grammar`: all of this, and the error for all other texts.
-/

namespace CacheSim

/-! ## Blanks -/

/-- `core` is what is left of a text without the blanks at both ends. -/
def Trims (cs core : List Char) : Prop :=
  ∃ front back, cs = front ++ core ++ back ∧ (∀ c ∈ front, isBlank c) ∧ (∀ c ∈ back, isBlank c) ∧
    (∀ c ∈ core.head?, ¬isBlank c) ∧ ∀ c ∈ core.getLast?, ¬isBlank c

theorem dropWhile_isBlank_of_head {cs : List Char} (h : ∀ c ∈ cs.head?, ¬isBlank c) : cs.dropWhile isBlank = cs := by
  cases cs with
  | nil => rfl
  | cons c cs => exact List.dropWhile_cons_of_neg (h c rfl)

theorem not_isBlank_of_head (cs : List Char) : ∀ c ∈ (cs.dropWhile isBlank).head?, ¬isBlank c := by
  intro c hc hblank
  have hnot := List.head?_dropWhile_not isBlank cs
  rw [hc] at hnot
  exact absurd hblank (Bool.eq_false_iff.mp hnot)

theorem trims_trimBlanks (cs : List Char) : Trims cs (trimBlanks cs) := by
  have hsplit : trimBlanks cs ++ ((cs.dropWhile isBlank).reverse.takeWhile isBlank).reverse = cs.dropWhile isBlank := by
    rw [trimBlanks, ← List.reverse_append, List.takeWhile_append_dropWhile, List.reverse_reverse]
  refine ⟨cs.takeWhile isBlank, ((cs.dropWhile isBlank).reverse.takeWhile isBlank).reverse, ?_, ?_, ?_, ?_, ?_⟩
  · rw [List.append_assoc, hsplit, List.takeWhile_append_dropWhile]
  · exact fun c hc => List.mem_takeWhile_imp hc
  · exact fun c hc => List.mem_takeWhile_imp (List.mem_reverse.mp hc)
  · intro c hc
    refine not_isBlank_of_head cs c ?_
    rw [← hsplit, List.head?_append, hc]
    rfl
  · intro c hc
    rw [trimBlanks, List.getLast?_reverse] at hc
    exact not_isBlank_of_head _ c hc

/-- A text has one core. -/
theorem trims_iff {cs core : List Char} : Trims cs core ↔ core = trimBlanks cs := by
  refine ⟨?_, fun h => h ▸ trims_trimBlanks cs⟩
  rintro ⟨front, back, rfl, hfront, hback, hhead, hlast⟩
  have hreverse : (core.reverse).dropWhile isBlank = core.reverse :=
    dropWhile_isBlank_of_head (by rwa [List.head?_reverse])
  rw [trimBlanks, List.append_assoc, List.dropWhile_append_of_pos hfront]
  cases core with
  | nil => rw [List.nil_append, List.dropWhile_eq_nil_iff.mpr hback]; rfl
  | cons c rest =>
    have hstart : ∀ d ∈ (c :: rest ++ back).head?, ¬isBlank d := hhead
    rw [dropWhile_isBlank_of_head hstart, List.reverse_append,
      List.dropWhile_append_of_pos fun c hc => hback c (List.mem_reverse.mp hc), hreverse, List.reverse_reverse]

/-! ## The form of a size -/

namespace Size

/-- A unit stands for a power of two. -/
def HasPower (unit : String) (power : Nat) : Prop :=
  unit ∈ ["", "B"] ∧ power = 0 ∨ unit ∈ ["kB", "KB", "KiB"] ∧ power = 10 ∨
    unit ∈ ["MB", "MiB"] ∧ power = 20 ∨ unit ∈ ["GB", "GiB"] ∧ power = 30

/-- The text means a number of bytes: between blanks, it is a number in decimal digits, at
least one, and a unit between blanks. -/
def Means (cs : List Char) (bytes : Nat) : Prop :=
  ∃ digits rest unit power, Trims cs (digits ++ rest) ∧ digits ≠ [] ∧ (∀ c ∈ digits, c.isDigit) ∧
    Trims rest unit ∧ HasPower (String.ofList unit) power ∧ bytes = Nat.ofDigitChars 10 digits 0 * 2 ^ power

theorem lookup_units {unit : String} {power : Nat} : units.lookup unit = some power ↔ HasPower unit power := by
  constructor
  · intro h
    obtain ⟨front, back, hunits, -⟩ := List.lookup_eq_some_iff.mp h
    have hmem : (unit, power) ∈ units := by simp [hunits]
    simp only [units, List.mem_cons, Prod.mk.injEq, List.not_mem_nil, or_false] at hmem
    simp only [HasPower, List.mem_cons, List.not_mem_nil, or_false]
    grind
  · rintro (⟨hunit, rfl⟩ | ⟨hunit, rfl⟩ | ⟨hunit, rfl⟩ | ⟨hunit, rfl⟩)
    · exact (by decide : ∀ u ∈ ["", "B"], units.lookup u = some 0) unit hunit
    · exact (by decide : ∀ u ∈ ["kB", "KB", "KiB"], units.lookup u = some 10) unit hunit
    · exact (by decide : ∀ u ∈ ["MB", "MiB"], units.lookup u = some 20) unit hunit
    · exact (by decide : ∀ u ∈ ["GB", "GiB"], units.lookup u = some 30) unit hunit

/-- A blank is no digit. -/
theorem isDigit_of_isBlank {c : Char} (h : isBlank c) : c.isDigit = false := by
  simp only [isBlank, Bool.or_eq_true, Bool.and_eq_true, decide_eq_true_eq] at h
  have hval : c.val.toNat = c.toNat := rfl
  have hzero : '0'.val.toNat = 48 := rfl
  have hnine : '9'.val.toNat = 57 := rfl
  simp only [Char.isDigit, Bool.and_eq_false_iff, decide_eq_false_iff_not, UInt32.le_iff_toNat_le, ge_iff_le, hval]
  omega

/-- A unit holds no digit. -/
theorem isDigit_of_lookup {unit : List Char} {power : Nat} (h : units.lookup (String.ofList unit) = some power) :
    ∀ c ∈ unit, c.isDigit = false := by
  obtain ⟨front, back, hunits, -⟩ := List.lookup_eq_some_iff.mp h
  have hmem : (String.ofList unit, power) ∈ units := by simp [hunits]
  have hunits : ∀ u ∈ units, ∀ c ∈ u.1.toList, c.isDigit = false := by simp [units]
  simpa using hunits _ hmem

/-- What follows the digits of a size begins with none. -/
theorem isDigit_of_trims {rest unit : List Char} {power : Nat} (htrims : Trims rest unit)
    (h : units.lookup (String.ofList unit) = some power) : ∀ c ∈ rest, c.isDigit = false := by
  obtain ⟨front, back, rfl, hfront, hback, -, -⟩ := htrims
  intro c hc
  rcases List.mem_append.mp hc with hc | hc
  · rcases List.mem_append.mp hc with hc | hc
    · exact isDigit_of_isBlank (hfront c hc)
    · exact isDigit_of_lookup h c hc
  · exact isDigit_of_isBlank (hback c hc)

/-- The digits at the front of a text end where no digit follows. -/
theorem span_digits {digits rest : List Char} (hdigits : ∀ c ∈ digits, c.isDigit)
    (hrest : ∀ c ∈ rest, c.isDigit = false) :
    (digits ++ rest).takeWhile Char.isDigit = digits ∧ (digits ++ rest).dropWhile Char.isDigit = rest := by
  rw [List.takeWhile_append_of_pos hdigits, List.dropWhile_append_of_pos hdigits]
  cases rest with
  | nil => exact ⟨List.append_nil digits, rfl⟩
  | cons c rest =>
    have hc := hrest c (List.mem_cons_self ..)
    simp [hc]

/-- A word is the one of a number if they have the same value. -/
theorem mk_ofNat_eq_iff {bytes : Nat} {size : Size} :
    (if bytes < UInt64.size then some (⟨UInt64.ofNat bytes⟩ : Size) else none) = some size ↔
      size.bytes.toNat = bytes := by
  constructor
  · intro h
    split at h
    · obtain rfl := Option.some.inj h
      exact UInt64.toNat_ofNat_of_lt (by assumption)
    · cases h
  · rintro rfl
    rw [if_pos size.bytes.toNat_lt, UInt64.ofNat_toNat]

/-- What is read: the digits at the front, and the unit that follows them. -/
theorem ofChars?_eq_some_iff {cs : List Char} {size : Size} : ofChars? cs = some size ↔
    cs.takeWhile Char.isDigit ≠ [] ∧
      ∃ power, units.lookup (String.ofList (trimBlanks (cs.dropWhile Char.isDigit))) = some power ∧
        size.bytes.toNat = Digits.value (cs.takeWhile Char.isDigit) * 2 ^ power := by
  unfold ofChars?
  cases hd : cs.takeWhile Char.isDigit with
  | nil => simp
  | cons d ds =>
    simp only [List.isEmpty_cons, Bool.false_eq_true, if_false, ne_eq, reduceCtorEq, not_false_eq_true, true_and,
      Nat.shiftLeft_eq]
    by_cases hv : UInt64.size ≤ Digits.value (d :: ds)
    · -- a number that is no word stays too large with any unit
      rw [if_pos hv]
      refine ⟨nofun, fun ⟨power, _, hsize⟩ => ?_⟩
      have hle := Nat.le_mul_of_pos_right (Digits.value (d :: ds)) (Nat.two_pow_pos power)
      exact absurd size.bytes.toNat_lt (Nat.not_lt.mpr (Nat.le_trans hv (hsize ▸ hle)))
    · rw [if_neg hv]
      simp only [Option.bind_eq_bind, Option.bind_eq_some_iff, mk_ofNat_eq_iff]

/-- The digits are those at the front of the text, and the unit is what follows them. -/
theorem means_iff {cs : List Char} {bytes : Nat} : Means cs bytes ↔
    (trimBlanks cs).takeWhile Char.isDigit ≠ [] ∧
      ∃ power, units.lookup (String.ofList (trimBlanks ((trimBlanks cs).dropWhile Char.isDigit))) = some power ∧
        bytes = Digits.value ((trimBlanks cs).takeWhile Char.isDigit) * 2 ^ power := by
  constructor
  · rintro ⟨digits, rest, unit, power, hcore, hne, hdigits, htrims, hunit, hbytes⟩
    have hlookup := lookup_units.mpr hunit
    obtain ⟨htake, hdrop⟩ := span_digits hdigits (isDigit_of_trims htrims hlookup)
    rw [← trims_iff.mp hcore, htake, hdrop, ← trims_iff.mp htrims]
    exact ⟨hne, power, hlookup, hbytes⟩
  · rintro ⟨hne, power, hunit, hbytes⟩
    refine ⟨_, _, _, power, ?_, hne, fun c hc => List.mem_takeWhile_imp hc, trims_trimBlanks _, lookup_units.mp hunit,
      hbytes⟩
    rw [List.takeWhile_append_dropWhile]
    exact trims_trimBlanks cs

/-- A text means one number of bytes. -/
theorem Means.unique {cs : List Char} {n k : Nat} (hn : Means cs n) (hk : Means cs k) : n = k := by
  obtain ⟨-, power, hpower, rfl⟩ := means_iff.mp hn
  obtain ⟨-, power', hpower', rfl⟩ := means_iff.mp hk
  rw [Option.some.inj (hpower.symm.trans hpower')]

/-- The texts that are read as a size are those that mean a number of bytes that is a word. -/
theorem ofString?_eq_some {s : String} {size : Size} : ofString? s = some size ↔ Means s.toList size.bytes.toNat := by
  rw [ofString?, ofChars?_eq_some_iff, means_iff]

/-- A number without a unit means itself. -/
theorem means_toString (n : Nat) : Means (toString n).toList n := by
  have htext : (toString n).toList = Nat.toDigits 10 n := Nat.toList_repr
  have hdigits : ∀ c ∈ Nat.toDigits 10 n, c.isDigit := fun c => Nat.isDigit_of_mem_toDigits (by decide) (by decide)
  have hblank : ∀ c ∈ Nat.toDigits 10 n, ¬isBlank c := fun c hc hb =>
    absurd (hdigits c hc) (Bool.eq_false_iff.mp (isDigit_of_isBlank hb))
  refine ⟨Nat.toDigits 10 n, [], [], 0, ?_, Nat.toDigits_ne_nil, hdigits, ⟨[], [], ?_⟩, .inl ⟨by simp, rfl⟩, ?_⟩
  · rw [htext, List.append_nil]
    exact ⟨[], [], by simp, by simp, by simp, fun c hc => hblank c (List.mem_of_mem_head? hc),
      fun c hc => hblank c (List.mem_of_mem_getLast? hc)⟩
  · simp
  · rw [Nat.ofDigitChars_ten_toDigits, Nat.pow_zero, Nat.mul_one]

/-- No size is read if and only if no word is the number of bytes that the text means. -/
theorem ofString?_eq_none {s : String} : ofString? s = none ↔ ∀ n < UInt64.size, ¬Means s.toList n := by
  rw [Option.eq_none_iff_forall_ne_some]
  constructor
  · intro h n hn hmeans
    refine h ⟨.ofNat n⟩ (ofString?_eq_some.mpr ?_)
    rwa [mk_ofNat_eq_iff.mp (if_pos hn)]
  · intro h size hs
    exact h _ size.bytes.toNat_lt (ofString?_eq_some.mp hs)

theorem ofDocument?_nat (n : Nat) :
    ofDocument? (.nat n) = if n < UInt64.size then some ⟨.ofNat n⟩ else none := by
  show ((if n < UInt64.size then some n else none).map UInt64.ofNat).map Size.mk = _
  split <;> rfl

/-- A number and its text are read alike. -/
theorem ofDocument?_text (n : Nat) : ofDocument? (.text (toString n)) = ofDocument? (.nat n) := by
  rw [ofDocument?_nat]
  show ofString? (toString n) = _
  split
  · rename_i hn
    refine ofString?_eq_some.mpr ?_
    rw [mk_ofNat_eq_iff.mp (if_pos hn)]
    exact means_toString n
  · rename_i hn
    exact ofString?_eq_none.mpr fun k hk hmeans => hn (hmeans.unique (means_toString n) ▸ hk)

/-- Exactly the texts of the form `Means` are sizes, if the number of bytes is a word; for all
others the error holds the text without the blanks around it.  A number and its text are read
alike from a document. -/
theorem parse_grammar (s : String) :
    (∀ size, parse s = .ok size ↔ Means s.toList size.bytes.toNat) ∧
      (∀ e, parse s = .error e ↔ (∀ n < UInt64.size, ¬Means s.toList n) ∧
        ∃ core, Trims s.toList core ∧ e = .invalidSize (String.ofList core)) ∧
      ∀ n, ofDocument? (.text (toString n)) = ofDocument? (.nat n) ∧
        ofDocument? (.nat n) = if n < UInt64.size then some ⟨.ofNat n⟩ else none := by
  refine ⟨fun size => ?_, fun e => ?_, fun n => ⟨ofDocument?_text n, ofDocument?_nat n⟩⟩
  · rw [← ofString?_eq_some, parse]
    cases ofString? s <;> simp
  · rw [← ofString?_eq_none, parse]
    simp only [trims_iff, exists_eq_left]
    cases ofString? s <;> simp [eq_comm]

end Size

end CacheSim
