import Mathlib.Data.List.Induction
import Galley.Proofs.Json.Grammar

/-!
  The numerals of natural numbers.

  The grammar has one numeral without sign, point and exponent for each natural number, as a zero
  in front of other digits is none. So a value gives a number exactly if it is that number's.
-/

namespace Galley.Json

/-! ## From a number to its digits -/

theorem head?_toDigits {n : Nat} (hn : 0 < n) : (Nat.toDigits 10 n).head? ≠ some '0' := by
  induction n using Nat.strongRecOn with
  | ind n ih =>
    by_cases hsmall : n < 10
    · have hdigit : n.digitChar ≠ '0' := fun h => by
        rw [Nat.digitChar_eq_zero] at h
        omega
      simpa [Nat.toDigits_of_lt_base hsmall] using hdigit
    · have hfront := ih (n / 10) (by omega) (by omega)
      obtain ⟨c, tail, hdigits⟩ := List.exists_cons_of_ne_nil
        (Nat.toDigits_ne_nil : Nat.toDigits 10 (n / 10) ≠ [])
      rw [hdigits] at hfront
      rw [Nat.toDigits_of_base_le (by decide) (by omega), hdigits]
      exact hfront

theorem digits_toDigits (n : Nat) : Digits (Nat.toDigits 10 n) :=
  ⟨Nat.toDigits_ne_nil, fun _ hc => Nat.isDigit_of_mem_toDigits (by decide) (by decide) hc⟩

theorem numeral_toDigits (n : Nat) : Numeral (Nat.toDigits 10 n) := by
  have hzero : Nat.toDigits 10 n = ['0'] ∨ (Nat.toDigits 10 n).head? ≠ some '0' := by
    rcases Nat.eq_zero_or_pos n with rfl | hn
    · exact .inl rfl
    · exact .inr (head?_toDigits hn)
  have hnumber := Unsigned.mk (digits_toDigits n) hzero .none .none
  rw [List.append_nil, List.append_nil] at hnumber
  exact .positive hnumber

/-! ## From digits to their number -/

/-- The value of a digit is a number with that one digit. -/
theorem toDigits_of_isDigit {c : Char} (hc : c.isDigit) :
    c.toNat - '0'.toNat < 10 ∧ Nat.toDigits 10 (c.toNat - '0'.toNat) = [c] := by
  obtain ⟨hlower, hupper⟩ := Char.isDigit_iff_toNat.mp hc
  have hsmall : c.toNat - '0'.toNat < 10 := by
    rw [show '9'.toNat = '0'.toNat + 9 from rfl] at hupper
    omega
  have hchars : ∀ n < 10, Nat.digitChar n = Char.ofNat ('0'.toNat + n) := by decide
  rw [Nat.toDigits_of_lt_base hsmall, hchars _ hsmall, Nat.add_sub_cancel' hlower,
    Char.ofNat_toNat]
  exact ⟨hsmall, rfl⟩

/-- Digits without a superfluous zero are the digits of their number. -/
theorem toDigits_ofDigitChars {cs : List Char} (h : Digits cs)
    (hzero : cs = ['0'] ∨ cs.head? ≠ some '0') :
    Nat.toDigits 10 (Nat.ofDigitChars 10 cs 0) = cs := by
  induction cs using List.reverseRecOn with
  | nil => exact absurd rfl h.1
  | append_singleton front c ih =>
    have hc : c.isDigit := h.2 c (by simp)
    by_cases hfront : front = []
    · subst hfront
      simpa [Nat.ofDigitChars_cons] using (toDigits_of_isDigit hc).2
    · have hhead : front.head? ≠ some '0' := by
        rcases hzero with hzero | hzero
        · simp [List.append_eq_singleton_iff, hfront] at hzero
        · obtain ⟨d, tail, rfl⟩ := List.exists_cons_of_ne_nil hfront
          exact hzero
      have hdigits := ih ⟨hfront, fun d hd => h.2 d (by simp [hd])⟩ (.inr hhead)
      have hpos : 0 < Nat.ofDigitChars 10 front 0 := by
        refine Nat.pos_of_ne_zero fun hnumber => hhead ?_
        rw [← hdigits, hnumber]
        rfl
      obtain ⟨hlast, hdigit⟩ := toDigits_of_isDigit hc
      rw [Nat.ofDigitChars_append, Nat.ofDigitChars_cons, Nat.ofDigitChars_nil,
        ← Nat.toDigits_append_toDigits (by decide) hpos hlast, hdigits, hdigit]

/-! ## Values -/

theorem natural?_number (cs : List Char) : (number (String.ofList cs)).natural? =
    if cs.all Char.isDigit then some (Nat.ofDigitChars 10 cs 0) else none := by
  rw [natural?, String.toList_ofList, Nat.ofDigitChars_eq_foldl]

theorem natural_eq (n : Nat) : natural n = number (String.ofList (Nat.toDigits 10 n)) := by
  rw [natural, Nat.toString_eq_ofList_toDigits]

theorem natural?_natural (n : Nat) : (natural n).natural? = some n := by
  have hdigits : (Nat.toDigits 10 n).all Char.isDigit := List.all_eq_true.mpr (digits_toDigits n).2
  rw [natural_eq, natural?_number, if_pos hdigits,
    Nat.ofDigitChars_toDigits (by decide) (by decide)]

theorem spells_natural (n : Nat) : Spells (natural n) (Nat.toDigits 10 n) := by
  rw [natural_eq]
  exact .number (numeral_toDigits n)

theorem Writable.natural (n : Nat) : Writable (.natural n) := by
  rw [natural_eq]
  exact .number (numeral_toDigits n)

/-- A numeral of nothing but digits has no sign, point and exponent. -/
theorem Numeral.digits {cs : List Char} (h : Numeral cs) (hall : ∀ c ∈ cs, c.isDigit) :
    Digits cs ∧ (cs = ['0'] ∨ cs.head? ≠ some '0') := by
  cases h with
  | negative hnumber =>
    have hsign := hall '-' (by simp)
    simp [Char.isDigit] at hsign
  | positive hnumber =>
    obtain @⟨whole, fraction, exponent, hwhole, hzero, hfraction, hexponent⟩ := hnumber
    have hnofraction : fraction = [] := by
      cases hfraction with
      | none => rfl
      | some _ =>
        have hpoint := hall '.' (by simp)
        simp [Char.isDigit] at hpoint
    have hnoexponent : exponent = [] := by
      cases hexponent with
      | none => rfl
      | @unsigned e _ hletter _ | @signed e _ _ hletter _ _ =>
        have he := hall e (by simp)
        rcases hletter with rfl | rfl <;> simp [Char.isDigit] at he
    subst hnofraction hnoexponent
    simpa using And.intro hwhole hzero

/-- The values that give a natural number are the numeral of that number. -/
theorem Writable.natural?_eq_some_iff {value : Json} (h : Writable value) (n : Nat) :
    value.natural? = some n ↔ value = Json.natural n := by
  refine ⟨fun hn => ?_, fun hvalue => hvalue ▸ natural?_natural n⟩
  cases h with
  | number hnumeral =>
    rw [natural?_number] at hn
    split at hn
    · next hall =>
      obtain ⟨hdigits, hzero⟩ := hnumeral.digits (List.all_eq_true.mp hall)
      cases hn
      rw [natural_eq, toDigits_ofDigitChars hdigits hzero]
    · cases hn
  | _ => cases hn

end Galley.Json
