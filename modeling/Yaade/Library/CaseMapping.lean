import Mathlib.Data.List.DropRight
import Yaade.Library.Utf16

/-!
Text as code units of UTF-16: blanks, words and the mapping between upper and
lower case.
-/

namespace Yaade.Library.Utf16

open List Option

def units (text : String) : Units := text.toList.map fun c => UInt16.ofNat c.toNat

def isSpace (unit : UInt16) : Bool :=
  let n := unit.toNat
  (9 ≤ n && n ≤ 13) || n == 0x20 || n == 0xA0 || n == 0x1680 || (0x2000 ≤ n && n ≤ 0x200A) ||
    n == 0x2028 || n == 0x2029 || n == 0x202F || n == 0x205F || n == 0x3000 || n == 0xFEFF

def trim (text : Units) : Units :=
  ((text.dropWhile isSpace).reverse.dropWhile isSpace).reverse

def words (text : Units) : List Units := (text.splitOnP isSpace).filter (!·.isEmpty)

def isAscii (text : Units) : Bool := text.all (· < 128)

def asciiLower (unit : UInt16) : UInt16 := if 65 ≤ unit ∧ unit ≤ 90 then unit + 32 else unit

def asciiUpper (unit : UInt16) : UInt16 := if 97 ≤ unit ∧ unit ≤ 122 then unit - 32 else unit

def hyphen : UInt16 := 45

def dottedI : Units := [0x69, 0x307]

/-- The default case mapping of Unicode, which is the same in every locale. A
unit has one unit as its lower case, which stays as it is, except for U+0130. -/
structure CaseMapping where
  lower : Units → Units
  upper : Units → Units
  lower_ascii : ∀ text, isAscii text = true → lower text = text.map asciiLower
  upper_ascii : ∀ text, isAscii text = true → upper text = text.map asciiUpper
  lower_unit : ∀ unit : UInt16, 128 ≤ unit → isSpace unit = false →
    (∃ small, lower [unit] = [small] ∧ lower [small] = [small] ∧ small ≠ hyphen ∧
      isSpace small = false) ∨ lower [unit] = dottedI
  lower_dottedI : lower dottedI = dottedI

def CaseMapping.ascii : CaseMapping where
  lower text := text.map asciiLower
  upper text := text.map asciiUpper
  lower_ascii _ _ := rfl
  upper_ascii _ _ := rfl
  lower_unit unit hunit hspace := by
    have hkept : asciiLower unit = unit := by
      unfold asciiLower
      rw [if_neg]
      rintro ⟨-, hupper⟩
      have := UInt16.le_trans hunit hupper
      exact absurd this (by decide)
    refine .inl ⟨unit, by simp [hkept], by simp [hkept], ?_, hspace⟩
    rintro rfl
    exact absurd hunit (by decide)
  lower_dottedI := by decide

variable {text : Units} {unit : UInt16}

/-! ## Blanks -/

theorem trim_of_dense (h : ∀ unit ∈ text, isSpace unit = false) : trim text = text := by
  have hfirst : text.dropWhile isSpace = text := by
    cases text with
    | nil => rfl
    | cons unit rest => rw [dropWhile_cons_of_neg (by simp [h unit mem_cons_self])]
  have hlast : text.reverse.dropWhile isSpace = text.reverse := by
    cases hreverse : text.reverse with
    | nil => rfl
    | cons unit rest =>
      have hmem : unit ∈ text := by
        rw [← mem_reverse, hreverse]
        exact mem_cons_self
      rw [dropWhile_cons_of_neg (by simp [h unit hmem])]
  rw [trim, hfirst, hlast, reverse_reverse]

theorem trim_trim (text : Units) : trim (trim text) = trim text := by
  have hfirst : (trim text).dropWhile isSpace = trim text := by
    have htrimmed : trim text <+: text.dropWhile isSpace := List.rdropWhile_prefix isSpace _
    cases hdrop : text.dropWhile isSpace with
    | nil =>
      rw [hdrop, List.prefix_nil] at htrimmed
      rw [htrimmed, List.dropWhile_nil]
    | cons unit rest =>
      have hunit := List.head_dropWhile_not isSpace (l := text) (by rw [hdrop]; nofun)
      simp only [hdrop, List.head_cons] at hunit
      rw [hdrop, List.prefix_cons_iff] at htrimmed
      rcases htrimmed with hnil | ⟨kept, hkept, -⟩
      · rw [hnil, List.dropWhile_nil]
      · rw [hkept, List.dropWhile_cons_of_neg (by simp [hunit])]
  calc trim (trim text)
      = (trim text).rdropWhile isSpace := congrArg (List.rdropWhile isSpace) hfirst
    _ = trim text := List.rdropWhile_idempotent isSpace _

theorem words_of_dense (h : ∀ unit ∈ text, isSpace unit = false) (hne : text ≠ []) :
    words text = [text] := by
  rw [words, splitOnP_eq_singleton h]
  simp [hne]

/-! ## One unit -/

theorem asciiLower_idem (unit : UInt16) : asciiLower (asciiLower unit) = asciiLower unit := by
  unfold asciiLower
  split
  · rename_i hletter
    rw [if_neg]
    rintro ⟨-, hupper⟩
    have h1 := UInt16.le_iff_toNat_le.mp hletter.1
    have h2 := UInt16.le_iff_toNat_le.mp hletter.2
    have h3 := UInt16.le_iff_toNat_le.mp hupper
    simp only [UInt16.toNat_add, UInt16.reduceToNat] at h1 h2 h3
    omega
  · rfl

theorem asciiLower_lt (h : unit < 128) : asciiLower unit < 128 := by
  unfold asciiLower
  split
  · rename_i hletter
    have h1 := UInt16.le_iff_toNat_le.mp hletter.1
    have h2 := UInt16.le_iff_toNat_le.mp hletter.2
    rw [UInt16.lt_iff_toNat_lt]
    simp only [UInt16.toNat_add, UInt16.reduceToNat] at h1 h2 ⊢
    omega
  · exact h

theorem CaseMapping.lower_single (m : CaseMapping) (hspace : isSpace unit = false)
    (hhyphen : unit ≠ hyphen) :
    (∃ small, m.lower [unit] = [small] ∧ m.lower [small] = [small] ∧ small ≠ hyphen ∧
      isSpace small = false) ∨ m.lower [unit] = dottedI := by
  by_cases hascii : unit < 128
  · refine .inl ⟨asciiLower unit, ?_, ?_, ?_, ?_⟩
    · exact m.lower_ascii [unit] (by simp [isAscii, hascii])
    · rw [m.lower_ascii _ (by simp [isAscii, asciiLower_lt hascii])]
      simp [asciiLower_idem]
    · unfold asciiLower
      split
      · rename_i hletter
        intro habs
        have h1 := UInt16.le_iff_toNat_le.mp hletter.1
        have h2 := UInt16.le_iff_toNat_le.mp hletter.2
        have h3 := congrArg UInt16.toNat habs
        simp only [UInt16.toNat_add, UInt16.reduceToNat, hyphen] at h1 h2 h3
        omega
      · exact hhyphen
    · unfold asciiLower
      split
      · rename_i hletter
        have h1 := UInt16.le_iff_toNat_le.mp hletter.1
        have h2 := UInt16.le_iff_toNat_le.mp hletter.2
        simp only [UInt16.reduceToNat] at h1 h2
        have hnat : (unit + 32).toNat = unit.toNat + 32 := by
          simp only [UInt16.toNat_add, UInt16.reduceToNat]
          omega
        unfold isSpace
        dsimp only
        rw [hnat]
        simp only [Bool.or_eq_false_iff, Bool.and_eq_false_iff, decide_eq_false_iff_not,
          beq_eq_false_iff_ne]
        omega
      · exact hspace
  · exact m.lower_unit unit (UInt16.not_lt.mp hascii) hspace

end Yaade.Library.Utf16
