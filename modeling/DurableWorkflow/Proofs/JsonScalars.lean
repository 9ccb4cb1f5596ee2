import DurableWorkflow.Json.Printer
import DurableWorkflow.Json.Reader
import Mathlib.Tactic.Positivity

/-!
# Reading back what was printed: numbers and strings

The printer writes integers in plain decimal and escapes a few characters of strings. The reader
takes both back, exactly and no further: what follows is left unread. For a number this needs that
nothing follows which would go on with it.

## Main definitions

* `Json.Delimited` — what can follow a document inside a text.

## Main results

* `Json.readNumber_toDigits` — the digits of a word are read back.
* `Json.readString_quoted` — the characters of a string are read back.
-/

namespace DurableWorkflow.Json

/-- Whether a text can follow a document: it is over, or goes on like an array or object after one
of its parts. -/
def Delimited (rest : List Char) : Prop :=
  ∀ c ∈ rest.head?, c = ',' ∨ c = ']' ∨ c = '\x7d'

variable {lenient : Bool} {rest : List Char}

/-- Nothing may follow a document. -/
theorem delimited_nil : Delimited [] := by
  simp [Delimited]

/-! ### Numbers -/

/-- What the printer takes for digits, the reader does. -/
theorem isDigit_of_mem_toDigits {n : Nat} {c : Char} (h : c ∈ Nat.toDigits 10 n) :
    isDigit c = true := by
  have hc : c.isDigit = true := Nat.isDigit_of_mem_toDigits (by decide) (by decide) h
  exact hc

/-- A number is written with one digit or more. -/
theorem toDigits_eq_cons (n : Nat) :
    ∃ d ds, Nat.toDigits 10 n = d :: ds ∧ isDigit d = true := by
  obtain ⟨d, ds, hdigits⟩ := List.exists_cons_of_ne_nil (Nat.toDigits_ne_nil (n := n) (b := 10))
  exact ⟨d, ds, hdigits, isDigit_of_mem_toDigits (hdigits ▸ List.mem_cons_self)⟩

/-- Only zero is written with a leading zero. -/
theorem toDigits_ne_zero_cons {n : Nat} (h : 0 < n) (cs : List Char) :
    Nat.toDigits 10 n ≠ '0' :: cs := by
  induction n using Nat.strongRecOn generalizing cs with
  | ind n ih =>
      by_cases hn : n < 10
      · rw [Nat.toDigits_of_lt_base hn]
        intro heq
        have : n = 0 := Nat.digitChar_eq_zero.mp (List.cons.inj heq).1
        omega
      · rw [Nat.toDigits_of_base_le (by decide) (by omega)]
        intro heq
        obtain ⟨d, ds, hfront, -⟩ := toDigits_eq_cons (n / 10)
        rw [hfront, List.cons_append] at heq
        obtain rfl : d = '0' := (List.cons.inj heq).1
        exact ih (n / 10) (by omega) (by omega) ds hfront

/-- Further digits make a number no smaller. -/
theorem le_ofDigitChars (digits : List Char) (value : Nat) :
    value ≤ Nat.ofDigitChars 10 digits value := by
  rw [Nat.ofDigitChars_eq_ofDigitChars_zero]
  exact Nat.le_add_right_of_le (Nat.le_mul_of_pos_left value (by positivity))

/-- Digits are taken as long as their value fits a word. -/
theorem takeInteger_append {digits : List Char} (hdigits : ∀ c ∈ digits, isDigit c = true)
    (hrest : ∀ c ∈ rest.head?, isDigit c = false) {value : Nat} (count : Nat)
    (hfits : Nat.ofDigitChars 10 digits value ≤ wordMax) :
    takeInteger value count (digits ++ rest)
      = (Nat.ofDigitChars 10 digits value, count + digits.length, rest) := by
  induction digits generalizing value count with
  | nil =>
      cases rest with
      | nil => simp [takeInteger]
      | cons c cs =>
          have hc : isDigit c = false := hrest c rfl
          simp [takeInteger, hc]
  | cons d digits ih =>
      have hvalue : 10 * value + (d.toNat - '0'.toNat) = value * 10 + digitValue d := by
        rw [Nat.mul_comm]
        rfl
      rw [Nat.ofDigitChars_cons, hvalue] at hfits ⊢
      have hle : value * 10 + digitValue d ≤ wordMax :=
        (le_ofDigitChars digits _).trans hfits
      have hd : isDigit d = true := hdigits d List.mem_cons_self
      simp only [List.cons_append, takeInteger, hd, hle, decide_true, Bool.and_self, if_true]
      rw [ih (fun c hc => hdigits c (List.mem_cons_of_mem d hc)) (count + 1) hfits,
        List.length_cons, Nat.add_assoc, Nat.add_comm 1]

/-- What can follow a document does not go on with a number. -/
theorem Delimited.not_isDigit (h : Delimited rest) : ∀ c ∈ rest.head?, isDigit c = false := by
  intro c hc
  rcases h c hc with rfl | rfl | rfl <;> rfl

/-- A number whose digits all fit is an integer if nothing goes on with it. -/
theorem finish_delimited (h : Delimited rest) (negative : Bool) (value : Nat) :
    readNumber.finish lenient negative value rest
      = if negative then
          if 0 < value ∧ value ≤ UInt64.size / 2 then .ok (.number (.int (-(value : Int))), rest)
          else .ok (.number (.float (Binary64.ofWord value.toUInt64).negate), rest)
        else .ok (.number (.int value), rest) := by
  cases rest with
  | nil => rfl
  | cons c cs => rcases h c rfl with rfl | rfl | rfl <;> rfl

/-- **The digits of a word are read back.** -/
theorem readNumber_toDigits {n : Nat} (hn : n < UInt64.size) (h : Delimited rest)
    (negative : Bool) :
    readNumber lenient negative (Nat.toDigits 10 n ++ rest)
      = readNumber.finish lenient negative n rest := by
  rcases Nat.eq_zero_or_pos n with rfl | hpos
  · rw [Nat.toDigits_zero]
    cases rest with
    | nil => rfl
    | cons c cs =>
        have hc : isDigit c = false := h.not_isDigit c rfl
        simp [readNumber, hc]
  · obtain ⟨d, ds, hdigits, hd⟩ := toDigits_eq_cons n
    have hzero : d ≠ '0' := by
      rintro rfl
      exact toDigits_ne_zero_cons hpos ds hdigits
    have hfits : Nat.ofDigitChars 10 (Nat.toDigits 10 n) 0 ≤ wordMax := by
      rw [Nat.ofDigitChars_ten_toDigits]
      exact Nat.le_sub_one_of_lt hn
    have htake := takeInteger_append (fun _ => isDigit_of_mem_toDigits) h.not_isDigit 0 hfits
    rw [Nat.ofDigitChars_ten_toDigits, hdigits, List.cons_append] at htake
    have hnone : rest.takeWhile isDigit = [] := by
      cases rest with
      | nil => rfl
      | cons c cs => simp [h.not_isDigit c rfl]
    rw [hdigits, List.cons_append, readNumber.eq_def]
    simp only [hd, htake, hnone, List.length_nil, if_true]

/-! ### Strings -/

/-- Hexadecimal digits are read back. -/
theorem hexValue?_digitChar {n : Nat} (h : n < 16) : hexValue? (Nat.digitChar n) = some n := by
  revert n
  decide

/-- The four digits of the escape of a control character are read back. -/
theorem readCodePoint_control {c : Char} (h : c.toNat < 32) (cs : List Char) :
    readCodePoint lenient
        ('0' :: '0' :: Nat.digitChar (c.toNat / 16) :: Nat.digitChar (c.toNat % 16) :: cs)
      = .ok (some c, cs) := by
  have hzero : hexValue? '0' = some 0 := rfl
  have hhigh : hexValue? (Nat.digitChar (c.toNat / 16)) = some (c.toNat / 16) :=
    hexValue?_digitChar (by omega)
  have hlow : hexValue? (Nat.digitChar (c.toNat % 16)) = some (c.toNat % 16) :=
    hexValue?_digitChar (by omega)
  have hvalue : ((0 * 16 + 0) * 16 + c.toNat / 16) * 16 + c.toNat % 16 = c.toNat := by omega
  have hsmall : c.toNat < 0xD800 ∨ 0xDFFF < c.toNat := by omega
  simp only [readCodePoint, readHex, hzero, hhigh, hlow, hvalue, bind, Except.bind, hsmall,
    if_true, Char.ofNat_toNat]

/-- A character is read back from the way it is written in a string. -/
theorem readString_quotedChar (steps : Nat) (read : List Char) (c : Char) (cs : List Char) :
    readString lenient (steps + 1) (some read) (quotedChar c ++ cs)
      = readString lenient steps (some (c :: read)) cs := by
  rw [quotedChar.eq_def]
  split
  all_goals try rfl
  split
  · rename_i hcontrol
    simp only [List.cons_append, List.nil_append, readString, readEscape,
      readCodePoint_control hcontrol, bind, Except.bind, Option.bind_some, Option.map_some]
  · rename_i hcontrol
    simp [readString, hcontrol]

/-- **The characters of a string are read back.** -/
theorem readString_quoted (cs : List Char) {steps : Nat} (hsteps : cs.length ≤ steps)
    (read : List Char) :
    readString lenient steps (some read) (cs.flatMap quotedChar ++ '"' :: rest)
      = .ok (some (String.ofList (read.reverse ++ cs)), rest) := by
  induction cs generalizing steps read with
  | nil => cases steps <;> simp [readString]
  | cons c cs ih =>
      obtain ⟨steps, rfl⟩ : ∃ n, steps = n + 1 := ⟨steps - 1, by simp at hsteps; omega⟩
      rw [List.flatMap_cons, List.append_assoc, readString_quotedChar,
        ih (Nat.le_of_succ_le_succ hsteps)]
      simp

end DurableWorkflow.Json
