import FlowGraph.Proofs.Digits
import Mathlib.Data.List.TakeDrop
import Mathlib.Tactic.Ring

/-!
# Decimals of single-precision numbers

The decimal that is written for a number is nearest to no other number, so that it is read
as the number it was written for.  On each grid this has been tried before the decimal is
taken; on the finest grid the decimal is exact.  A decimal point and the zeros that go with it
change the decimal, but not the number that is nearest to it.
-/

namespace FlowGraph

namespace Binary32

variable {m : Nat}

/-! ## Magnitudes and their values -/

theorem units_of_lt (h : m < 0x800000) : units m = m := if_pos h

theorem units_of_le (h : 0x800000 ≤ m) :
    units m = (0x800000 + m % 0x800000) * 2 ^ (m / 0x800000 - 1) := by
  rw [units, if_neg (Nat.not_lt.2 h), Nat.shiftLeft_eq]

/-- The next magnitude has a greater value. -/
theorem units_lt_units_succ (m : Nat) : units m < units (m + 1) := by
  rcases Nat.lt_or_ge (m + 1) 0x800000 with hsmall | hbig
  · rw [units_of_lt hsmall, units_of_lt (Nat.lt_of_succ_lt hsmall)]
    exact Nat.lt_succ_self m
  · rw [units_of_le hbig]
    rcases Nat.lt_or_ge m 0x800000 with hlast | hbig'
    · obtain rfl : m = 0x7fffff := by omega
      decide
    · rw [units_of_le hbig']
      rcases Nat.lt_or_ge (m % 0x800000 + 1) 0x800000 with hwithin | hnext
      · have hmod : (m + 1) % 0x800000 = m % 0x800000 + 1 := by omega
        have hdiv : (m + 1) / 0x800000 = m / 0x800000 := by omega
        rw [hmod, hdiv]
        exact Nat.mul_lt_mul_of_pos_right (by omega) (Nat.two_pow_pos _)
      · have hmod : (m + 1) % 0x800000 = 0 := by omega
        have hdiv : (m + 1) / 0x800000 - 1 = m / 0x800000 - 1 + 1 := by omega
        rw [hmod, hdiv, Nat.pow_succ', ← Nat.mul_assoc]
        exact Nat.mul_lt_mul_of_pos_right (by omega) (Nat.two_pow_pos _)

theorem log2_mul_two_pow {n k : Nat} (power : Nat) (hleast : 2 ^ k ≤ n) (hlt : n < 2 ^ (k + 1)) :
    (n * 2 ^ power).log2 = power + k := by
  have hpos : 0 < n := (Nat.two_pow_pos k).trans_le hleast
  have hne : n * 2 ^ power ≠ 0 := Nat.ne_of_gt (Nat.mul_pos hpos (Nat.two_pow_pos power))
  rw [Nat.log2_eq_iff hne, Nat.add_assoc, Nat.pow_add, Nat.pow_add, Nat.mul_comm n]
  exact ⟨Nat.mul_le_mul_left _ hleast, Nat.mul_lt_mul_of_pos_left hlt (Nat.two_pow_pos power)⟩

/-- The value of a magnitude leads back to it. -/
theorem floorMagnitude_units (m : Nat) : floorMagnitude (units m) = m := by
  rcases Nat.lt_or_ge m 0x800000 with hsmall | hbig
  · have hshift : m.log2 - 23 = 0 := by
      rcases Nat.eq_zero_or_pos m with rfl | hpos
      · rfl
      · have hlog : m.log2 < 23 := (Nat.log2_lt (Nat.ne_of_gt hpos)).2 hsmall
        omega
    rw [units_of_lt hsmall, floorMagnitude, hshift]
    exact (Nat.zero_add _).trans (by rw [Nat.shiftRight_zero])
  · have hleast : 2 ^ 23 ≤ 0x800000 + m % 0x800000 := Nat.le_add_right _ _
    have hlt : 0x800000 + m % 0x800000 < 2 ^ 24 :=
      Nat.add_lt_add_left (Nat.mod_lt m (by decide)) _
    rw [units_of_le hbig, floorMagnitude, log2_mul_two_pow _ hleast hlt, Nat.add_sub_cancel,
      Nat.shiftRight_eq_div_pow, Nat.mul_div_cancel _ (Nat.two_pow_pos _)]
    omega

/-! ## The nearest number -/

/-- What is nearest does not depend on how a ratio is written. -/
theorem nearestMagnitude_mul {k : Nat} (hk : 0 < k) (num den : Nat) :
    nearestMagnitude (num * k) (den * k) = nearestMagnitude num den := by
  have htwice : 2 * (num * k) = 2 * num * k := (Nat.mul_assoc 2 num k).symm
  simp only [nearestMagnitude, Nat.mul_div_mul_right _ _ hk, ← Nat.mul_assoc, htwice,
    Nat.mul_lt_mul_right hk]

/-- A finite number is nearest to its own value. -/
theorem nearestMagnitude_units (hfinite : m < infinity) {den : Nat} (hden : 0 < den) :
    nearestMagnitude (units m * den) den = m := by
  have hbelow : floorMagnitude (units m * den / den) = m := by
    rw [Nat.mul_div_cancel _ hden, floorMagnitude_units]
  have hmiddle : 2 * (units m * den) < (units m + units (m + 1)) * den := by
    rw [← Nat.mul_assoc]
    apply Nat.mul_lt_mul_of_pos_right _ hden
    have hnext := units_lt_units_succ m
    omega
  rw [nearestMagnitude]
  dsimp only
  rw [hbelow, if_neg (Nat.not_le.2 hfinite), if_pos hmiddle]

theorem magnitudeOfDecimal_zero (exponent : Int) : magnitudeOfDecimal ⟨0, exponent⟩ = 0 := rfl

/-- A decimal that is not negative in its exponent, within the range that is looked into. -/
theorem magnitudeOfDecimal_of_nonneg {digits places : Nat} (hpos : 0 < digits) (h : places < 40) :
    magnitudeOfDecimal ⟨digits, places⟩ = nearestMagnitude (digits * 10 ^ places * 2 ^ 149) 1 := by
  rw [magnitudeOfDecimal]
  dsimp only
  rw [if_neg (Nat.ne_of_gt hpos), if_neg (by omega), if_pos (Int.natCast_nonneg places),
    Int.toNat_natCast, Nat.shiftLeft_eq]
  rfl

/-- A decimal with places behind the point, within the range that is looked into. -/
theorem magnitudeOfDecimal_of_neg {digits places : Nat} (hdigits : 0 < digits)
    (hplaces : 0 < places) (h : places ≤ digits.log2 + 60) :
    magnitudeOfDecimal ⟨digits, -places⟩ =
      nearestMagnitude (digits * 2 ^ 149) (10 ^ places) := by
  rw [magnitudeOfDecimal]
  dsimp only
  rw [if_neg (Nat.ne_of_gt hdigits), if_neg (by omega), if_neg (by omega), if_neg (by omega),
    Int.neg_neg, Int.toNat_natCast, Nat.shiftLeft_eq]
  rfl

/-- Zeros before a decimal point and one behind it change nothing. -/
theorem magnitudeOfDecimal_point (digits : Nat) {places : Nat} (h : places < 40) :
    magnitudeOfDecimal ⟨10 * (10 ^ places * digits), -1⟩ = magnitudeOfDecimal ⟨digits, places⟩ := by
  rcases Nat.eq_zero_or_pos digits with rfl | hpos
  · rw [Nat.mul_zero, Nat.mul_zero, magnitudeOfDecimal_zero, magnitudeOfDecimal_zero]
  · have hscaled : 0 < 10 * (10 ^ places * digits) :=
      Nat.mul_pos (by decide) (Nat.mul_pos (Nat.pow_pos (by decide)) hpos)
    have hratio : 10 * (10 ^ places * digits) * 2 ^ 149 = digits * 10 ^ places * 2 ^ 149 * 10 := by
      ring
    have hten : 0 < 10 := by decide
    rw [magnitudeOfDecimal_of_nonneg hpos h, ← nearestMagnitude_mul hten, ← hratio]
    exact magnitudeOfDecimal_of_neg hscaled Nat.one_pos (Nat.le_add_left_of_le (by decide))

/-! ## The shortest decimal -/

theorem magnitudeOfDecimal_of_gridNeighbour {exponent : Int} {d : Decimal}
    (h : gridNeighbour m exponent = some d) :
    magnitudeOfDecimal d = m ∧ d.exponent = exponent := by
  rw [gridNeighbour] at h
  dsimp only at h
  split at h
  next hboth =>
    obtain ⟨hbelow, habove⟩ := Bool.and_eq_true_iff.1 hboth
    split at h
    · cases h
      exact ⟨beq_iff_eq.1 hbelow, rfl⟩
    · cases h
      exact ⟨beq_iff_eq.1 habove, rfl⟩
  next =>
    split at h
    next hbelow =>
      cases h
      exact ⟨beq_iff_eq.1 hbelow, rfl⟩
    next =>
      split at h
      next habove =>
        cases h
        exact ⟨beq_iff_eq.1 habove, rfl⟩
      next => cases h

/-- On the grid of 10⁻¹⁴⁹ every number has an exact decimal. -/
theorem magnitudeOfDecimal_exact (hfinite : m < infinity) (hpos : 0 < units m) :
    magnitudeOfDecimal ⟨units m * 5 ^ 149, -149⟩ = m := by
  have hdigits : 0 < units m * 5 ^ 149 := Nat.mul_pos hpos (Nat.pow_pos (by decide))
  have hratio : units m * 5 ^ 149 * 2 ^ 149 = units m * 10 ^ 149 := by
    rw [Nat.mul_assoc, ← Nat.mul_pow]
  have hlog : 89 ≤ (units m * 5 ^ 149).log2 := by
    apply (Nat.le_log2 (Nat.ne_of_gt hdigits)).2
    exact (Nat.le_mul_of_pos_left (5 ^ 149) hpos).trans' (by decide)
  have hnearest := magnitudeOfDecimal_of_neg hdigits (by decide : 0 < 149) (by omega)
  rw [hratio, nearestMagnitude_units hfinite (Nat.pow_pos (by decide))] at hnearest
  exact hnearest

theorem searchGrids_reads (hfinite : m < infinity) (hpos : 0 < units m) (steps : Nat) :
    magnitudeOfDecimal (searchGrids m steps) = m ∧
      (searchGrids m steps).exponent ≤ (steps : Int) - 149 := by
  induction steps with
  | zero => exact ⟨magnitudeOfDecimal_exact hfinite hpos, Int.le_refl _⟩
  | succ steps ih =>
    rw [searchGrids]
    split
    next d hd =>
      obtain ⟨hreads, hexponent⟩ := magnitudeOfDecimal_of_gridNeighbour hd
      exact ⟨hreads, by omega⟩
    next =>
      obtain ⟨hreads, hexponent⟩ := ih
      exact ⟨hreads, by omega⟩

/-- The shortest decimal of a finite number is read as that number. -/
theorem magnitudeOfDecimal_shortest (hfinite : m < infinity) :
    magnitudeOfDecimal (shortest m) = m ∧ (shortest m).exponent < 40 := by
  rw [shortest]
  split
  next hzero =>
    rw [hzero]
    decide
  next hne =>
    have hpos : 0 < units m := by
      obtain ⟨below, rfl⟩ := Nat.exists_eq_succ_of_ne_zero hne
      exact (Nat.zero_le _).trans_lt (units_lt_units_succ below)
    obtain ⟨hreads, hexponent⟩ := searchGrids_reads hfinite hpos 187
    exact ⟨hreads, by omega⟩

end Binary32

/-! ## Reading what is written -/

namespace Document

open Binary32

variable {whole fraction token body : List Char} {negative : Bool}

/-- Two runs of digits with a point between them. -/
structure IsPointed (whole fraction : List Char) : Prop where
  digits : ∀ c ∈ whole ++ fraction, isDecimalDigit c = true
  nonempty : whole ≠ []

/-- What the two runs stand for. -/
def pointed (whole fraction : List Char) : Decimal :=
  ⟨Nat.ofDigitChars 10 (whole ++ fraction) 0, -(fraction.length : Nat)⟩

theorem IsPointed.readDecimal? (h : IsPointed whole fraction) :
    readDecimal? (whole ++ '.' :: fraction) = some (pointed whole fraction) := by
  obtain ⟨hwhole, hfraction⟩ := List.forall_mem_append.1 h.digits
  have hstop : ∀ c ∈ ('.' :: fraction).head?, isDecimalDigit c = false := by
    rintro c hc
    cases hc
    rfl
  have hspan : fraction.span isDecimalDigit = (fraction, []) := by
    rw [List.span_eq_takeWhile_dropWhile, List.takeWhile_eq_self_iff.2 hfraction,
      List.dropWhile_eq_nil_iff.2 hfraction]
  have hsome : (whole.isEmpty && fraction.isEmpty) = false := by
    rw [List.isEmpty_eq_false_iff.2 h.nonempty, Bool.false_and]
  rw [Document.readDecimal?, takeWhile_append_of_stop hwhole hstop, List.drop_left]
  simp only [hspan]
  rw [hsome, if_neg Bool.false_ne_true, readExponent?, Option.map_some, digitsValue_eq h.digits,
    Int.zero_sub, pointed]

theorem isDecimalDigit_of_mem_zeros {c : Char} {count : Nat} (h : c ∈ zeros count) :
    isDecimalDigit c = true := by
  rw [List.eq_of_mem_replicate h]
  rfl

/-- A whole number gets a zero behind the point. -/
theorem isPointed_whole (digits places : Nat) :
    IsPointed (Nat.toDigits 10 digits ++ zeros places) ['0'] where
  digits := by
    have hlast : ∀ c ∈ zeros 1, isDecimalDigit c = true := fun _ => isDecimalDigit_of_mem_zeros
    rw [List.forall_mem_append, List.forall_mem_append]
    exact ⟨⟨fun _ => isDecimalDigit_of_mem_toDigits, fun _ => isDecimalDigit_of_mem_zeros⟩, hlast⟩
  nonempty := List.append_ne_nil_of_left_ne_nil Nat.toDigits_ne_nil _

theorem magnitudeOfDecimal_whole (digits : Nat) {places : Nat} (h : places < 40) :
    magnitudeOfDecimal (pointed (Nat.toDigits 10 digits ++ zeros places) ['0']) =
      magnitudeOfDecimal ⟨digits, places⟩ := by
  rw [← magnitudeOfDecimal_point digits h, pointed, Nat.ofDigitChars_append,
    Nat.ofDigitChars_append, Nat.ofDigitChars_ten_toDigits, zeros,
    Nat.ofDigitChars_replicate_zero]
  rfl

/-- The point stands among the digits. -/
theorem isPointed_among {digits count : Nat} (hpos : 0 < count) :
    IsPointed ((Nat.toDigits 10 digits).take count) ((Nat.toDigits 10 digits).drop count) where
  digits := by
    rw [List.take_append_drop]
    exact fun _ => isDecimalDigit_of_mem_toDigits
  nonempty := by
    rw [ne_eq, List.take_eq_nil_iff, not_or]
    exact ⟨hpos.ne', Nat.toDigits_ne_nil⟩

theorem pointed_among {digits places : Nat} (h : places < (Nat.toDigits 10 digits).length) :
    pointed ((Nat.toDigits 10 digits).take ((Nat.toDigits 10 digits).length - places))
      ((Nat.toDigits 10 digits).drop ((Nat.toDigits 10 digits).length - places)) =
        ⟨digits, -places⟩ := by
  have hlength : ((Nat.toDigits 10 digits).drop
      ((Nat.toDigits 10 digits).length - places)).length = places := by
    rw [List.length_drop]
    omega
  rw [pointed, List.take_append_drop, Nat.ofDigitChars_ten_toDigits, hlength]

/-- The point stands before all digits, behind a zero. -/
theorem isPointed_before (digits count : Nat) :
    IsPointed ['0'] (zeros count ++ Nat.toDigits 10 digits) where
  digits := by
    rw [List.cons_append, List.nil_append, List.forall_mem_cons, List.forall_mem_append]
    exact ⟨rfl, fun _ => isDecimalDigit_of_mem_zeros, fun _ => isDecimalDigit_of_mem_toDigits⟩
  nonempty := List.cons_ne_nil _ _

theorem pointed_before {digits places : Nat} (h : (Nat.toDigits 10 digits).length ≤ places) :
    pointed ['0'] (zeros (places - (Nat.toDigits 10 digits).length) ++ Nat.toDigits 10 digits) =
      ⟨digits, -places⟩ := by
  have hlength : (zeros (places - (Nat.toDigits 10 digits).length) ++
      Nat.toDigits 10 digits).length = places := by
    rw [List.length_append, zeros, List.length_replicate]
    omega
  have hvalue : Nat.ofDigitChars 10 (zeros (places - (Nat.toDigits 10 digits).length) ++
      Nat.toDigits 10 digits) 0 = digits := by
    rw [Nat.ofDigitChars_append, zeros, Nat.ofDigitChars_replicate_zero]
    exact Nat.ofDigitChars_ten_toDigits
  rw [pointed, hlength]
  exact congrArg (Decimal.mk · _) hvalue

/-- The digits of a decimal have a point put among them, perhaps with zeros. -/
theorem exists_pointed_positional {d : Decimal} (h : d.exponent < 40) :
    ∃ whole fraction, positional true d = whole ++ '.' :: fraction ∧ IsPointed whole fraction ∧
      magnitudeOfDecimal (pointed whole fraction) = magnitudeOfDecimal d := by
  obtain ⟨digits, exponent⟩ := d
  rw [positional]
  dsimp only
  split
  next hnonneg =>
    obtain ⟨places, rfl⟩ := Int.eq_ofNat_of_zero_le hnonneg
    exact ⟨_, _, rfl, isPointed_whole digits places,
      magnitudeOfDecimal_whole digits (Int.ofNat_lt.1 h)⟩
  next hnegative =>
    obtain ⟨places, rfl⟩ : ∃ places : Nat, exponent = -places :=
      ⟨exponent.natAbs, by omega⟩
    rw [Int.neg_neg, Int.toNat_natCast]
    split
    next hlt =>
      exact ⟨_, _, rfl, isPointed_among (Nat.sub_pos_of_lt hlt),
        congrArg magnitudeOfDecimal (pointed_among hlt)⟩
    next hle =>
      exact ⟨_, _, rfl, isPointed_before digits _,
        congrArg magnitudeOfDecimal (pointed_before (Nat.not_lt.1 hle))⟩

theorem dropUnderscores?_eq_self (h : '_' ∉ body) (allowed : Bool) :
    dropUnderscores? allowed body = some body := by
  induction body generalizing allowed with
  | nil => rfl
  | cons c body ih =>
    obtain ⟨hc, hbody⟩ := List.ne_and_not_mem_of_not_mem_cons h
    rw [dropUnderscores?, if_neg hc.symm]
    dsimp only
    rw [ih hbody]
    rfl

/-- What begins with a digit is read as a decimal, perhaps behind a minus. -/
theorem readForm?_of_decimal {d : Decimal} (hhead : ∀ c ∈ body.head?, isDecimalDigit c = true)
    (hbody : ∀ c ∈ body, isDecimalDigit c = true ∨ c = '.') (hread : readDecimal? body = some d)
    (negative : Bool) :
    readForm? (if negative then '-' :: body else body) = some (negative, .finite d, []) := by
  generalize htoken : (if negative then '-' :: body else body) = token
  have hsplit : splitSign token = (negative, body) := by
    rw [← htoken]
    cases negative with
    | true => rfl
    | false => exact splitSign_of_head hhead
  have hchars : ∀ c ∈ token, isDecimalChar c = true ∧ c ≠ '_' := by
    have hpart : ∀ c ∈ body, isDecimalChar c = true ∧ c ≠ '_' := by
      intro c hc
      rcases hbody c hc with hdigit | rfl
      · rw [isDecimalChar, hdigit]
        exact ⟨rfl, ne_of_isDecimalDigit hdigit rfl⟩
      · decide
    rw [← htoken]
    cases negative with
    | true => exact List.forall_mem_cons.2 ⟨by decide, hpart⟩
    | false => exact hpart
  have hrun : token.takeWhile isDecimalChar = token :=
    List.takeWhile_eq_self_iff.2 fun c hc => (hchars c hc).1
  have hclean : dropUnderscores? false token = some token :=
    dropUnderscores?_eq_self (fun hmem => (hchars _ hmem).2 rfl) false
  rw [readForm?, hsplit]
  dsimp only
  split
  next => cases hhead _ rfl
  next => cases hhead _ rfl
  next =>
    rw [hrun, hclean, List.drop_length]
    simp only [Option.bind_eq_bind, Option.bind_some, hsplit, hread]
    rfl

/-- The characters of a number that is finite. -/
theorem exists_pointed_write {x : Binary32} (hfinite : x.magnitude < infinity) :
    ∃ whole fraction, IsPointed whole fraction ∧
      x.write .document = (if x.isNegative then '-' :: (whole ++ '.' :: fraction)
        else whole ++ '.' :: fraction) ∧
      magnitudeOfDecimal (pointed whole fraction) = x.magnitude := by
  obtain ⟨hreads, hexponent⟩ := magnitudeOfDecimal_shortest hfinite
  obtain ⟨whole, fraction, hwritten, hpointed, hsame⟩ := exists_pointed_positional hexponent
  refine ⟨whole, fraction, hpointed, ?_, hsame.trans hreads⟩
  have hnumber : x.isNaN = false := decide_eq_false (Nat.not_lt.2 hfinite.le)
  have hsmall : x.isInfinite = false := beq_eq_false_iff_ne.2 hfinite.ne
  rw [write, hnumber, hsmall, ← hwritten]
  rfl

/-- Every number that is one is read back, with its sign. -/
theorem binary32?_decimal {x : Binary32} (h : x.isNaN = false) :
    (decimal x).binary32? = some x := by
  rw [decimal, Tree.binary32?]
  rcases Nat.lt_or_eq_of_le (Nat.not_lt.1 (of_decide_eq_false h)) with hfinite | hinfinite
  · obtain ⟨whole, fraction, hpointed, hwritten, hreads⟩ := exists_pointed_write hfinite
    have hhead : ∀ c ∈ (whole ++ '.' :: fraction).head?, isDecimalDigit c = true := by
      intro c hc
      rw [List.head?_append_of_ne_nil _ hpointed.nonempty] at hc
      exact hpointed.digits c (List.mem_append_left _ (List.mem_of_mem_head? hc))
    have hbody : ∀ c ∈ whole ++ '.' :: fraction, isDecimalDigit c = true ∨ c = '.' := by
      intro c hc
      rcases List.mem_append.1 hc with hwhole | hrest
      · exact .inl (hpointed.digits c (List.mem_append_left _ hwhole))
      · rcases List.mem_cons.1 hrest with hpoint | hfraction
        · exact .inr hpoint
        · exact .inl (hpointed.digits c (List.mem_append_right _ hfraction))
    have hform := readForm?_of_decimal hhead hbody hpointed.readDecimal? x.isNegative
    rw [hwritten, readBinary32?, hform]
    simp only [Option.bind_eq_bind, Option.bind_some, List.isEmpty_nil, Bool.true_or, if_true]
    rw [ofDecimal, hreads, ofMagnitude_magnitude]
    rfl
  · have hinf : x.isInfinite = true := beq_iff_eq.2 hinfinite
    have hform : readForm? (x.write .document) = some (x.isNegative, .infinity, []) := by
      rw [write, h, hinf]
      cases x.isNegative <;> rfl
    rw [readBinary32?, hform]
    simp only [Option.bind_eq_bind, Option.bind_some, List.isEmpty_nil, Bool.true_or, if_true]
    rw [← hinfinite, ofMagnitude_magnitude]
    rfl

end Document

end FlowGraph
