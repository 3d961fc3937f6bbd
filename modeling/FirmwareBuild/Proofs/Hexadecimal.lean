import FirmwareBuild.Json.Reader
import FirmwareBuild.Toml.Scalar
import Mathlib.Data.List.Induction

/-! # Hexadecimal numbers

Escapes name characters by hexadecimal digits, with letters of either case. Which
number digits denote is said here by their places in the alphabet of the digits; the
two readers of escapes come to that number. -/

namespace FirmwareBuild.Text

def IsHexDigit (c : Char) (value : Nat) : Prop :=
  "0123456789abcdef".toList[value]? = some c ∨ "0123456789ABCDEF".toList[value]? = some c

inductive Hexadecimal : Text → Nat → Prop
  | nil : Hexadecimal [] 0
  | concat {digits : Text} {n value : Nat} {c : Char} (front : Hexadecimal digits n)
      (last : IsHexDigit c value) : Hexadecimal (digits ++ [c]) (16 * n + value)

instance (c : Char) (value : Nat) : Decidable (IsHexDigit c value) :=
  inferInstanceAs (Decidable (_ ∨ _))

variable {c : Char} {value n : Nat} {digits : Text}

theorem IsHexDigit.mem (h : IsHexDigit c value) :
    (c, value) ∈ "0123456789abcdef".toList.zipIdx ++ "0123456789ABCDEF".toList.zipIdx := by
  rcases h with h | h
  · exact List.mem_append_left _ (List.mk_mem_zipIdx_iff_getElem?.mpr h)
  · exact List.mem_append_right _ (List.mk_mem_zipIdx_iff_getElem?.mpr h)

theorem IsHexDigit.hexDigit? (h : IsHexDigit c value) : Json.hexDigit? c = some value := by
  have hall : ∀ entry ∈ "0123456789abcdef".toList.zipIdx ++ "0123456789ABCDEF".toList.zipIdx,
      Json.hexDigit? entry.1 = some entry.2 := by decide
  exact hall _ h.mem

theorem IsHexDigit.digitValue (h : IsHexDigit c value) :
    Toml.isDigitIn 16 c = true ∧ Toml.digitValue c = value := by
  have hall : ∀ entry ∈ "0123456789abcdef".toList.zipIdx ++ "0123456789ABCDEF".toList.zipIdx,
      Toml.isDigitIn 16 entry.1 = true ∧ Toml.digitValue entry.1 = entry.2 := by decide
  exact hall _ h.mem

theorem Hexadecimal.hexNumber? (h : Hexadecimal digits n) : Json.hexNumber? digits = some n := by
  induction h with
  | nil => rfl
  | concat front last ih =>
    rw [Json.hexNumber?, List.foldlM_append, ← Json.hexNumber?, ih]
    simp [last.hexDigit?, Nat.mul_comm]

theorem Hexadecimal.numberOf (h : Hexadecimal digits n) :
    digits.all (Toml.isDigitIn 16) = true ∧ Toml.numberOf 16 digits = n := by
  induction h with
  | nil => exact ⟨rfl, rfl⟩
  | concat front last ih =>
    obtain ⟨hall, hnumber⟩ := ih
    obtain ⟨hdigit, hvalue⟩ := last.digitValue
    constructor
    · rw [List.all_append, hall, List.all_cons, hdigit]
      rfl
    · rw [Toml.numberOf, List.foldl_append, ← Toml.numberOf, hnumber]
      simp [hvalue, Nat.mul_comm]

theorem hexadecimal_of_digits (digits : List (Char × Nat))
    (h : ∀ digit ∈ digits, IsHexDigit digit.1 digit.2) :
    Hexadecimal (digits.map Prod.fst) (digits.foldl (fun n digit => 16 * n + digit.2) 0) := by
  induction digits using List.reverseRecOn with
  | nil => exact .nil
  | append_singleton front digit ih =>
    rw [List.map_append, List.foldl_append]
    have hfront := ih fun d hd => h d (List.mem_append_left _ hd)
    exact .concat hfront (h digit (by simp))

end FirmwareBuild.Text
