import Yaade.Library.Utf8

/-!
Text as code units of UTF-16, and its bytes in UTF-8.
-/

namespace Yaade.Library.Utf16

open Utf8 List Option Bool

abbrev Units := List UInt16

instance units_lawful : LawfulBEq Units := inferInstance

def isHigh (unit : UInt16) : Bool := 0xD800 ≤ unit.toNat && unit.toNat ≤ 0xDBFF
def isLow (unit : UInt16) : Bool := 0xDC00 ≤ unit.toNat && unit.toNat ≤ 0xDFFF

def single (unit : UInt16) : Char :=
  if isHigh unit || isLow unit then replacement else Char.ofNat unit.toNat

def pair (high low : UInt16) : Char :=
  Char.ofNat (0x10000 + (high.toNat - 0xD800) * 0x400 + (low.toNat - 0xDC00))

def scalars : Units → List Char
  | [] => []
  | [unit] => [single unit]
  | first :: second :: rest =>
    if isHigh first && isLow second then pair first second :: scalars rest
    else single first :: scalars (second :: rest)

def encode (units : Units) : List UInt8 := (scalars units).flatMap String.utf8EncodeChar

def splits (before after : Units) : Bool :=
  before.getLast?.any isHigh && after.head?.any isLow

section Cut

variable {before after : Units} {first second : UInt16} {rest : Units}

@[simp] theorem scalars_nil : scalars [] = [] := rfl
@[simp] theorem encode_nil : encode [] = [] := rfl

theorem not_high_of_low (h : isLow first = true) : isHigh first = false := by
  simp only [isLow, and_eq_true, decide_eq_true_eq] at h
  have hhigh : ¬ first.toNat ≤ 0xDBFF := by omega
  simp [isHigh, hhigh]

theorem scalars_pair (hhigh : isHigh first = true) (hlow : isLow second = true) :
    scalars (first :: second :: rest) = pair first second :: scalars rest := by
  rw [scalars, hhigh, hlow]
  rfl

theorem scalars_single (h : (isHigh first && rest.head?.any isLow) = false) :
    scalars (first :: rest) = single first :: scalars rest := by
  cases rest with
  | nil => rfl
  | cons second rest =>
    have hpair : (isHigh first && isLow second) = false := h
    rw [scalars, hpair]
    rfl

theorem scalars_append (h : splits before after = false) :
    scalars (before ++ after) = scalars before ++ scalars after := by
  fun_induction scalars before with
  | case1 => rfl
  | case2 unit =>
    have hcut : (isHigh unit && after.head?.any isLow) = false := h
    exact scalars_single hcut
  | case3 first second rest hpair ih =>
    obtain ⟨hhigh, hlow⟩ := and_eq_true_iff.mp hpair
    rw [cons_append, cons_append, scalars_pair hhigh hlow, cons_append]
    congr 1
    apply ih
    cases rest with
    | nil => rfl
    | cons third rest => exact h
  | case4 first second rest hpair ih =>
    rw [cons_append, cons_append, scalars, if_neg hpair, cons_append]
    congr 1
    exact ih h

theorem encode_append (h : splits before after = false) :
    encode (before ++ after) = encode before ++ encode after := by
  rw [encode, scalars_append h, flatMap_append]
  rfl

theorem replacement_length : (String.utf8EncodeChar replacement).length = 3 := by decide

theorem pair_length (hhigh : isHigh first = true) (hlow : isLow second = true) :
    (String.utf8EncodeChar (pair first second)).length = 4 := by
  simp only [isHigh, isLow, and_eq_true, decide_eq_true_eq] at hhigh hlow
  have hvalue : (pair first second).toNat =
      0x10000 + (first.toNat - 0xD800) * 0x400 + (second.toNat - 0xDC00) := by
    have hvalid : (0x10000 + (first.toNat - 0xD800) * 0x400 +
        (second.toNat - 0xDC00)).isValidChar := by
      right
      omega
    unfold pair Char.ofNat
    rw [dif_pos hvalid]
    rfl
  fun_cases String.utf8EncodeChar (pair first second)
  · rename_i value hone
    have hone' : (pair first second).toNat ≤ 0x7F := hone
    omega
  · rename_i value hone htwo
    have htwo' : (pair first second).toNat ≤ 0x7FF := htwo
    omega
  · rename_i value hone htwo hthree
    have hthree' : (pair first second).toNat ≤ 0xFFFF := hthree
    omega
  · rfl

theorem encode_splits (h : splits before after = true) :
    (encode before).length + (encode after).length = (encode (before ++ after)).length + 2 := by
  obtain ⟨hbef, hafter⟩ := and_eq_true_iff.mp h
  obtain ⟨high, hhigh, hhighUnit⟩ := (Option.any_eq_true _ _).mp hbef
  obtain ⟨low, hlow, hlowUnit⟩ := (Option.any_eq_true _ _).mp hafter
  obtain ⟨init, rfl⟩ := getLast?_eq_some_iff.mp hhigh
  obtain ⟨rest, rfl⟩ := head?_eq_some_iff.mp hlow
  have hinit : splits init (high :: low :: rest) = false := by
    simp only [splits, head?_cons, any_some, and_eq_false_iff]
    right
    by_contra hlow
    exact absurd (not_high_of_low (not_eq_false _ ▸ hlow)) (by simp [hhighUnit])
  have hinit' : splits init [high] = false := hinit
  have hjoined : init ++ [high] ++ low :: rest = init ++ (high :: low :: rest) := by simp
  have hsurrogate : ∀ unit, (isHigh unit || isLow unit) = true →
      String.utf8EncodeChar (single unit) = String.utf8EncodeChar replacement := by
    intro unit hunit
    rw [single, if_pos hunit]
  have hlowSingle : scalars (low :: rest) = single low :: scalars rest := by
    apply scalars_single
    rw [not_high_of_low hlowUnit]
    rfl
  have hhighSingle : scalars [high] = [single high] := rfl
  rw [hjoined, encode_append hinit, encode_append hinit']
  simp only [encode, scalars_pair hhighUnit hlowUnit, hlowSingle, hhighSingle, flatMap_cons,
    flatMap_nil, append_nil, length_append,
    hsurrogate high (by simp [hhighUnit]), hsurrogate low (by simp [hlowUnit]),
    pair_length hhighUnit hlowUnit, replacement_length]
  omega

theorem encode_eq_nil {units : Units} : encode units = [] ↔ units = [] := by
  constructor
  · intro h
    cases units with
    | nil => rfl
    | cons first rest =>
      have hsome : ∃ c more, scalars (first :: rest) = c :: more := by
        cases rest with
        | nil => exact ⟨_, _, rfl⟩
        | cons second rest =>
          rw [scalars]
          split <;> exact ⟨_, _, rfl⟩
      obtain ⟨c, more, hscalars⟩ := hsome
      rw [encode, hscalars, flatMap_cons] at h
      have hlength := congrArg List.length (append_eq_nil_iff.mp h).1
      have hpositive : 0 < (String.utf8EncodeChar c).length := by
        fun_cases String.utf8EncodeChar c <;> exact Nat.succ_pos _
      rw [length_nil] at hlength
      omega
  · rintro rfl
    rfl

end Cut

end Yaade.Library.Utf16
