import FlowGraph.Document.Decode
import FlowGraph.Document.Encode
import Mathlib.Data.List.Basic
import Mathlib.Data.List.TakeWhile
import Mathlib.Tactic.Ring

/-!
# Digits

Whole numbers are written with the digits of a base and read back digit by digit.  What has
been written is read as the number again as long as it is in the range of the reader.
-/

namespace FlowGraph

namespace Document

variable {c : Char} {digits typeName : List Char} {n : Nat}

/-! ## Digits of base ten -/

theorem isDecimalDigit_of_mem_toDigits (h : c ∈ Nat.toDigits 10 n) : isDecimalDigit c = true :=
  Nat.isDigit_of_mem_toDigits (by decide) (by decide) h

theorem digitValue_of_isDecimalDigit (h : isDecimalDigit c = true) :
    digitValue c = c.toNat - '0'.toNat := by
  rw [digitValue, if_pos h]

theorem digitValue_lt (h : isDecimalDigit c = true) : digitValue c < 10 := by
  rw [digitValue_of_isDecimalDigit h]
  rw [isDecimalDigit, Bool.and_eq_true, decide_eq_true_eq, decide_eq_true_eq] at h
  have hle : c.toNat ≤ '9'.toNat := h.2
  have hnine : '9'.toNat = '0'.toNat + 9 := rfl
  omega

/-- No digit is another character. -/
theorem ne_of_isDecimalDigit {other : Char} (h : isDecimalDigit c = true)
    (hother : isDecimalDigit other = false) : c ≠ other := by
  rintro rfl
  rw [h] at hother
  cases hother

theorem foldl_digitValue (h : ∀ c ∈ digits, isDecimalDigit c = true) (n : Nat) :
    digits.foldl (fun n c => 10 * n + digitValue c) n = Nat.ofDigitChars 10 digits n := by
  rw [Nat.ofDigitChars_eq_foldl]
  apply List.foldl_ext
  intro n c hc
  rw [digitValue_of_isDecimalDigit (h c hc)]

theorem digitsValue_eq (h : ∀ c ∈ digits, isDecimalDigit c = true) :
    digitsValue digits = Nat.ofDigitChars 10 digits 0 :=
  foldl_digitValue h 0

/-- A run of characters ends where none of its kind follows. -/
theorem takeWhile_append_of_stop {p : Char → Bool} {run rest : List Char}
    (hrun : ∀ c ∈ run, p c = true) (hstop : ∀ c ∈ rest.head?, p c = false) :
    (run ++ rest).takeWhile p = run := by
  rw [List.takeWhile_append_of_pos hrun]
  cases rest with
  | nil => exact List.append_nil run
  | cons c rest =>
    rw [List.takeWhile_cons_of_neg (Bool.eq_false_iff.1 (hstop c rfl)), List.append_nil]

/-! ## Whole numbers -/

theorem readDigits?_of_digits (h : ∀ c ∈ digits, isDecimalDigit c = true) (n : Nat) :
    readDigits? 10 n digits = some (Nat.ofDigitChars 10 digits n) := by
  induction digits generalizing n with
  | nil => rfl
  | cons c digits ih =>
    obtain ⟨hc, hdigits⟩ := List.forall_mem_cons.1 h
    have hunderscore : c ≠ '_' := ne_of_isDecimalDigit hc rfl
    have hdigit : (isHexDigit c && digitValue c < 10) = true := by
      rw [isHexDigit, hc, Bool.true_or, Bool.true_or, Bool.true_and, decide_eq_true_eq]
      exact digitValue_lt hc
    rw [readDigits?, if_neg hunderscore, if_pos hdigit, ih hdigits, Nat.ofDigitChars_cons,
      digitValue_of_isDecimalDigit hc]

/-- Digits without the mark of a base are read in base ten. -/
theorem readMagnitude?_of_digits (h : ∀ c ∈ digits, isDecimalDigit c = true)
    (hne : digits ≠ []) : readMagnitude? digits = some (Nat.ofDigitChars 10 digits 0) := by
  have hrun : readRun? 10 digits = some (Nat.ofDigitChars 10 digits 0) := by
    cases digits with
    | nil => exact absurd rfl hne
    | cons c digits =>
      rw [readRun?, if_neg (ne_of_isDecimalDigit (h c List.mem_cons_self) rfl)]
      exact readDigits?_of_digits h 0
  have hsecond : ∀ mark rest, digits = '0' :: mark :: rest → isDecimalDigit mark = true := by
    rintro mark rest rfl
    exact h mark (List.mem_cons_of_mem _ List.mem_cons_self)
  rw [readMagnitude?.eq_def]
  split
  next => cases hsecond _ _ rfl
  next => cases hsecond _ _ rfl
  next => cases hsecond _ _ rfl
  next => exact hrun

theorem splitSign_of_head (h : ∀ c ∈ digits.head?, isDecimalDigit c = true) :
    splitSign digits = (false, digits) := by
  rw [splitSign.eq_def]
  split
  next => cases h _ rfl
  next => cases h _ rfl
  next => rfl

theorem splitSign_minus (digits : List Char) : splitSign ('-' :: digits) = (true, digits) := rfl

/-- The digits of a number, perhaps behind a minus, are read as that number. -/
theorem readInteger?_of_sign {token : List Char} {negative : Bool}
    (hsign : splitSign token = (negative, Nat.toDigits 10 n)) :
    readInteger? typeName token = some (if negative then -(n : Int) else n) := by
  have hdigits : ∀ c ∈ Nat.toDigits 10 n, isDecimalDigit c = true :=
    fun c => isDecimalDigit_of_mem_toDigits
  have hrun : (Nat.toDigits 10 n).takeWhile (fun c => isHexDigit c || c == '_') =
      Nat.toDigits 10 n := by
    apply List.takeWhile_eq_self_iff.2
    intro c hc
    rw [isHexDigit, hdigits c hc]
    rfl
  rw [readInteger?, hsign]
  dsimp only
  rw [hrun, ite_self, readMagnitude?_of_digits hdigits Nat.toDigits_ne_nil,
    Nat.ofDigitChars_ten_toDigits]
  rfl

theorem readInteger?_toDigits (n : Nat) :
    readInteger? typeName (Nat.toDigits 10 n) = some (n : Int) :=
  readInteger?_of_sign (splitSign_of_head fun _ hc =>
    isDecimalDigit_of_mem_toDigits (List.mem_of_mem_head? hc))

theorem readInteger?_minus (n : Nat) :
    readInteger? typeName ('-' :: Nat.toDigits 10 n) = some (-(n : Int)) :=
  readInteger?_of_sign (splitSign_minus _)

/-- A natural number of 64 bits is read back. -/
theorem natural?_natural (h : n < 2 ^ 64) : (natural n).natural? = some n := by
  have hrange : (0 ≤ (n : Int) && (n : Int) ≤ 0xffffffffffffffff) = true := by
    rw [Bool.and_eq_true, decide_eq_true_eq, decide_eq_true_eq]
    omega
  rw [natural, Tree.natural?, readNatural?, readIntegerIn?, readInteger?_toDigits,
    Option.filter_some, if_pos hrange, Option.map_some, Int.toNat_natCast]

/-- Every number of 32 bits with its sign is read back. -/
theorem int32?_integer (i : Int32) : (integer i.toInt).int32? = some i := by
  have hread : (integer i.toInt).int32? = ((some i.toInt).filter fun n =>
      -0x80000000 ≤ n && n ≤ 0x7fffffff).map Int32.ofInt := by
    rw [integer, Tree.int32?, readInt32?, readIntegerIn?]
    split
    next hnegative =>
      rw [readInteger?_minus, ← Int.eq_neg_natAbs_of_nonpos (Int.le_of_lt hnegative)]
    next hnonnegative =>
      rw [readInteger?_toDigits, Int.natAbs_of_nonneg (Int.not_lt.1 hnonnegative)]
  have hrange : (-0x80000000 ≤ i.toInt && i.toInt ≤ 0x7fffffff) = true := by
    rw [Bool.and_eq_true, decide_eq_true_eq, decide_eq_true_eq]
    exact ⟨i.minValue_le_toInt, Int.lt_add_one_iff.1 i.toInt_lt⟩
  rw [hread, Option.filter_some, if_pos hrange, Option.map_some, Int32.ofInt_toInt]

end Document

/-! ## Digits of base sixteen -/

namespace ConnectionId

variable {digits : List Char} {sizes : List Nat}

theorem hexValue?_digitChar : ∀ n < 16, hexValue? (Nat.digitChar n) = some n := by
  decide

theorem readHex?_append (n : Nat) (before after : List Char) :
    readHex? n (before ++ after) = (readHex? n before).bind fun m => readHex? m after := by
  induction before generalizing n with
  | nil => rfl
  | cons c before ih =>
    rw [List.cons_append, readHex?, readHex?]
    split
    next digit hdigit => rw [ih]
    next hnone => rfl

theorem readHex?_digitChar {digit : Nat} (h : digit < 16) (n : Nat) :
    readHex? n [Nat.digitChar digit] = some (16 * n + digit) := by
  rw [readHex?, hexValue?_digitChar digit h]
  rfl

theorem readHex?_toDigits (n : Nat) : readHex? 0 (Nat.toDigits 16 n) = some n := by
  induction n using Nat.strongRecOn with
  | ind n ih =>
    rw [Nat.toDigits_eq_if (by decide)]
    split
    next hlt => rw [readHex?_digitChar hlt, Nat.mul_zero, Nat.zero_add]
    next hle =>
      rw [readHex?_append, ih (n / 16) (by omega), Option.bind_some,
        readHex?_digitChar (Nat.mod_lt n (by decide)), Nat.div_add_mod]

theorem readHex?_hexTail (count n : Nat) :
    readHex? 0 (hexTail count n) = some (n % 16 ^ count) := by
  induction count generalizing n with
  | zero => rw [hexTail, Nat.pow_zero, Nat.mod_one, readHex?]
  | succ count ih =>
    rw [hexTail, readHex?_append, ih, Option.bind_some, hexDigit,
      readHex?_digitChar (Nat.mod_lt n (by decide)), Nat.pow_succ', Nat.mod_mul]
    exact congrArg some (Nat.add_comm _ _)

@[simp]
theorem length_hexTail (count n : Nat) : (hexTail count n).length = count := by
  induction count generalizing n with
  | zero => rfl
  | succ count ih => rw [hexTail, List.length_append, ih, List.length_singleton]

/-! ## Ids of connections -/

theorem hyphenate_cons (h : sizes ≠ []) (size : Nat) (digits : List Char) :
    hyphenate (size :: sizes) digits =
      digits.take size ++ '-' :: hyphenate sizes (digits.drop size) := by
  cases sizes with
  | nil => exact absurd rfl h
  | cons next sizes => rfl

theorem unhyphenate?_cons (h : sizes ≠ []) (digits rest : List Char) :
    unhyphenate? (digits.length :: sizes) (digits ++ '-' :: rest) =
      (unhyphenate? sizes rest).map (digits ++ ·) := by
  cases sizes with
  | nil => exact absurd rfl h
  | cons next sizes =>
    rw [unhyphenate?, List.drop_left, List.take_left]
    · rfl
    · exact List.cons_ne_nil next sizes

theorem length_hyphenate (h : digits.length = sizes.sum) :
    (hyphenate sizes digits).length = sizes.sum + (sizes.length - 1) := by
  induction sizes generalizing digits with
  | nil => exact h
  | cons size sizes ih =>
    rw [List.sum_cons] at h
    cases sizes with
    | nil =>
      rw [hyphenate, List.length_take, h]
      simp
    | cons next sizes =>
      have hrest : (digits.drop size).length = (next :: sizes).sum := by
        rw [List.length_drop, h, Nat.add_sub_cancel_left]
      have htake : min size digits.length = size := by
        rw [h]
        exact Nat.min_eq_left (Nat.le_add_right _ _)
      rw [hyphenate_cons (List.cons_ne_nil _ _), List.length_append, List.length_cons,
        ih hrest, List.length_take, htake]
      simp only [List.sum_cons, List.length_cons]
      omega

/-- Taking the hyphens out undoes putting them in. -/
theorem unhyphenate?_hyphenate (h : digits.length = sizes.sum) :
    unhyphenate? sizes (hyphenate sizes digits) = some digits := by
  induction sizes generalizing digits with
  | nil =>
    obtain rfl := List.length_eq_zero_iff.1 h
    rfl
  | cons size sizes ih =>
    rw [List.sum_cons] at h
    cases sizes with
    | nil =>
      have hall : digits.take size = digits := List.take_of_length_le h.le
      rw [hyphenate, unhyphenate?, hall]
      exact if_pos h
    | cons next sizes =>
      have hfirst : (digits.take size).length = size := by
        rw [List.length_take, h]
        exact Nat.min_eq_left (Nat.le_add_right _ _)
      have hrest : (digits.drop size).length = (next :: sizes).sum := by
        rw [List.length_drop, h, Nat.add_sub_cancel_left]
      have hread := unhyphenate?_cons (List.cons_ne_nil next sizes) (digits.take size)
        (hyphenate (next :: sizes) (digits.drop size))
      rw [hfirst, ih hrest, Option.map_some, List.take_append_drop] at hread
      rw [hyphenate_cons (List.cons_ne_nil _ _)]
      exact hread

/-- An id is read back from its text. -/
theorem read?_text (id : ConnectionId) : read? id.text.toList = some id := by
  have hlength : (hexTail 32 id.number.toNat).length = groups.sum := length_hexTail 32 _
  have hdigits : digits? id.write = some (hexTail 32 id.number.toNat) := by
    have hwritten : id.write.length = 36 := length_hyphenate hlength
    rw [digits?, hwritten, if_neg (by decide), if_pos rfl]
    exact unhyphenate?_hyphenate hlength
  have hnumber : id.number.toNat % 16 ^ 32 = id.number.toNat :=
    Nat.mod_eq_of_lt id.number.isLt
  rw [text, String.toList_ofList, read?, hdigits, Option.bind_some, readHex?_hexTail, hnumber,
    Option.map_some, BitVec.ofNat_toNat, BitVec.setWidth_eq]

end ConnectionId

end FlowGraph
