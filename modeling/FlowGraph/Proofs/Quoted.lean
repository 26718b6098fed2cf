import FlowGraph.Document.Literal
import FlowGraph.Proofs.Digits
import FlowGraph.Text.Quoted

/-!
# Quoted texts

Whatever characters a text has, it is read back from between its quotes: what would end the
text or begin an escape is escaped, and so is what does not show, as the digits of its code
point.
-/

namespace FlowGraph.Document

open ConnectionId Text

variable {binary : Bool} {c : Char} {acc rest digits : List Char} {count value n : Nat}

theorem charOfCode?_toNat (c : Char) : charOfCode? c.toNat = some c := by
  have hvalid : c.toNat.isValidChar := c.valid
  rw [charOfCode?, if_pos hvalid, Char.ofNat_toNat]

/-- The digits of a code point are read up to the closing brace. -/
theorem readText_code (hdigits : readHex? value digits = some n) (hcode : charOfCode? n = some c)
    (hsome : count + digits.length ≠ 0) (hcount : count + digits.length ≤ 6) :
    readText binary acc (.code count value) (digits ++ '}' :: rest) =
      readText binary (c :: acc) .plain rest := by
  induction digits generalizing count value with
  | nil =>
    cases hdigits
    have hclosed : ('}' = '}' && count != 0) = true := by
      rw [decide_eq_true rfl, Bool.true_and, bne_iff_ne]
      exact hsome
    rw [List.nil_append, readText, if_pos hclosed, hcode]
  | cons digit digits ih =>
    rw [readHex?] at hdigits
    split at hdigits
    next m hm =>
      have hopen : (digit = '}' && count != 0) = false := by
        rw [Bool.and_eq_false_iff]
        apply Or.inl
        apply decide_eq_false
        rintro rfl
        cases hm
      rw [List.length_cons] at hsome hcount
      have hroom : count < 6 := by omega
      rw [List.cons_append, readText, hopen, if_neg Bool.false_ne_true, if_pos hroom, hm]
      exact ih hdigits (by omega) (by omega)
    next => cases hdigits

/-- A code point has at most six digits. -/
theorem length_hexDigits_le (c : Char) : (hexDigits c.toNat).length ≤ 6 := by
  apply (Nat.length_toDigits_le_iff (by decide) (by decide)).2
  have hvalid : c.toNat.isValidChar := c.valid
  rcases hvalid with hlow | ⟨-, hhigh⟩
  · omega
  · omega

/-- A character is read back from the way it stands between quotes. -/
theorem readText_escapeChar (c : Char) (acc rest : List Char) :
    readText false acc .plain (escapeChar .document c ++ rest) =
      readText false (c :: acc) .plain rest := by
  rw [escapeChar]
  split
  next hc => rw [beq_iff_eq.1 hc]; rfl
  split
  next hc => rw [beq_iff_eq.1 hc]; rfl
  split
  next hc => rw [beq_iff_eq.1 hc]; rfl
  split
  next hc => rw [beq_iff_eq.1 hc]; rfl
  split
  next hc => rw [beq_iff_eq.1 hc]; rfl
  split
  next hc => rw [beq_iff_eq.1 hc]; rfl
  split
  next hc => rw [beq_iff_eq.1 (Bool.and_eq_true_iff.1 hc).1]; rfl
  next hbackslash hquote hsingle =>
    split
    next =>
      have hdigits : readHex? 0 (hexDigits c.toNat) = some c.toNat := readHex?_toDigits c.toNat
      have hsome : 0 < (hexDigits c.toNat).length := Nat.length_toDigits_pos
      have hcount := length_hexDigits_le c
      have hopened : readText false acc .plain
          (['\\', 'u', '{'] ++ hexDigits c.toNat ++ ['}'] ++ rest) =
            readText false acc (.code 0 0) (hexDigits c.toNat ++ '}' :: rest) := by
        rw [List.append_assoc, List.append_assoc]
        rfl
      rw [hopened]
      exact readText_code hdigits (charOfCode?_toNat c) (by omega) (by omega)
    next =>
      rw [List.singleton_append, readText, if_neg (mt beq_iff_eq.2 hquote),
        if_neg (mt beq_iff_eq.2 hbackslash)]

theorem readText_escaped (s acc rest : List Char) :
    readText false acc .plain (s.flatMap (escapeChar .document) ++ '"' :: rest) =
      some (acc.reverse ++ s, rest) := by
  induction s generalizing acc with
  | nil => rw [List.flatMap_nil, List.nil_append, readText, if_pos rfl, List.append_nil]
  | cons c s ih =>
    rw [List.flatMap_cons, List.append_assoc, readText_escapeChar, ih, List.reverse_cons,
      List.append_assoc, List.singleton_append]

/-- A text is read back from between its quotes. -/
theorem readString_quoteChars (s rest : List Char) :
    readString (quoteChars .document s ++ rest) = some (s, rest) := by
  have hread := readText_escaped s [] rest
  rw [quoteChars, List.cons_append, List.append_assoc, List.singleton_append]
  exact hread

end FlowGraph.Document
