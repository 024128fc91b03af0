import Mathlib.Tactic

/-!
UTF-8 as the Encoding Standard decodes it: byte by byte, with an error for each
maximal part that belongs to no scalar value.
-/

namespace Yaade.Library.Utf8

open List Option

def encode (text : String) : List UInt8 := text.toList.flatMap String.utf8EncodeChar

/-- Between two bytes: how many are to come, what those before them make, and the
bounds of the next one. -/
structure Decoder where
  needed : Nat
  value : Nat
  lower : Nat
  upper : Nat
  deriving DecidableEq

def Decoder.start : Decoder := ⟨0, 0, 0x80, 0xBF⟩

def lead (byte : Nat) : List (Option Char) × Decoder :=
  if byte ≤ 0x7F then ([some (Char.ofNat byte)], .start)
  else if 0xC2 ≤ byte ∧ byte ≤ 0xDF then ([], ⟨1, byte % 0x20, 0x80, 0xBF⟩)
  else if 0xE0 ≤ byte ∧ byte ≤ 0xEF then
    ([], ⟨2, byte % 0x10, if byte = 0xE0 then 0xA0 else 0x80, if byte = 0xED then 0x9F else 0xBF⟩)
  else if 0xF0 ≤ byte ∧ byte ≤ 0xF4 then
    ([], ⟨3, byte % 0x08, if byte = 0xF0 then 0x90 else 0x80, if byte = 0xF4 then 0x8F else 0xBF⟩)
  else ([none], .start)

def Decoder.step (decoder : Decoder) (byte : Nat) : List (Option Char) × Decoder :=
  if decoder.needed = 0 then lead byte
  else if decoder.lower ≤ byte ∧ byte ≤ decoder.upper then
    let value := decoder.value * 0x40 + byte % 0x40
    if decoder.needed = 1 then ([some (Char.ofNat value)], .start)
    else ([], ⟨decoder.needed - 1, value, 0x80, 0xBF⟩)
  else (none :: (lead byte).1, (lead byte).2)

def Decoder.scalars (decoder : Decoder) : List UInt8 → List (Option Char)
  | [] => if decoder.needed = 0 then [] else [none]
  | byte :: rest => (decoder.step byte.toNat).1 ++ (decoder.step byte.toNat).2.scalars rest

def decodeFatal? (bytes : List UInt8) : Option String :=
  if none ∈ Decoder.start.scalars bytes then none
  else some (String.ofList ((Decoder.start.scalars bytes).filterMap id))

def byteOrderMark : Char := Char.ofNat 0xFEFF
def replacement : Char := Char.ofNat 0xFFFD

def decode (bytes : List UInt8) : String :=
  let chars := (Decoder.start.scalars bytes).map (Option.getD · replacement)
  String.ofList (if chars.head? = some byteOrderMark then chars.tail else chars)

section RoundTrip

variable {decoder : Decoder} {byte : UInt8} {rest : List UInt8}

theorem scalars_last (h : decoder.needed = 1)
    (hbyte : decoder.lower ≤ byte.toNat ∧ byte.toNat ≤ decoder.upper) :
    decoder.scalars (byte :: rest) =
      some (Char.ofNat (decoder.value * 0x40 + byte.toNat % 0x40)) :: Decoder.start.scalars rest := by
  rw [Decoder.scalars, Decoder.step, if_neg (by omega), if_pos hbyte, if_pos h]
  rfl

theorem scalars_more {needed : Nat} (h : decoder.needed = needed + 2)
    (hbyte : decoder.lower ≤ byte.toNat ∧ byte.toNat ≤ decoder.upper) :
    decoder.scalars (byte :: rest) = Decoder.scalars
      ⟨needed + 1, decoder.value * 0x40 + byte.toNat % 0x40, 0x80, 0xBF⟩ rest := by
  rw [Decoder.scalars, Decoder.step, if_neg (by omega), if_pos hbyte, if_neg (by omega), h]
  rfl

theorem scalars_lead : Decoder.start.scalars (byte :: rest) =
    (lead byte.toNat).1 ++ (lead byte.toNat).2.scalars rest := rfl

theorem toNat_byte {n : Nat} (h : n < 256) : (UInt8.ofNat n).toNat = n :=
  Nat.mod_eq_of_lt h

theorem toNat_tail (n : Nat) : (UInt8.ofNat (n % 0x40 + 0x80)).toNat = n % 0x40 + 0x80 :=
  toNat_byte (by omega)

/-- The bytes of a scalar value are decoded to it, whatever comes behind them. -/
theorem scalars_encodeChar (c : Char) (rest : List UInt8) :
    Decoder.start.scalars (String.utf8EncodeChar c ++ rest) =
      some c :: Decoder.start.scalars rest := by
  have hvalid : c.toNat < 0xD800 ∨ 0xDFFF < c.toNat ∧ c.toNat < 0x110000 := c.valid
  have hchar : Char.ofNat c.toNat = c := Char.ofNat_toNat c
  fun_cases String.utf8EncodeChar c
  · rename_i value hone
    have hone' : c.toNat ≤ 0x7F := hone
    show Decoder.start.scalars (UInt8.ofNat c.toNat :: rest) = _
    rw [scalars_lead, toNat_byte (by omega), lead, if_pos hone', hchar]
    rfl
  · rename_i value hone htwo
    have hone' : ¬ c.toNat ≤ 0x7F := hone
    have htwo' : c.toNat ≤ 0x7FF := htwo
    show Decoder.start.scalars (UInt8.ofNat (c.toNat / 64 % 0x20 + 0xC0) ::
      UInt8.ofNat (c.toNat % 0x40 + 0x80) :: rest) = _
    rw [scalars_lead, toNat_byte (by omega), lead, if_neg (by omega), if_pos (by omega)]
    simp only [nil_append]
    rw [scalars_last rfl (by rw [toNat_tail]; simp only; omega), toNat_tail]
    simp only
    rw [show (c.toNat / 64 % 0x20 + 0xC0) % 0x20 * 0x40 + (c.toNat % 0x40 + 0x80) % 0x40 =
      c.toNat by omega, hchar]
  · rename_i value hone htwo hthree
    have htwo' : ¬ c.toNat ≤ 0x7FF := htwo
    have hthree' : c.toNat ≤ 0xFFFF := hthree
    show Decoder.start.scalars (UInt8.ofNat (c.toNat / 4096 % 0x10 + 0xE0) ::
      UInt8.ofNat (c.toNat / 64 % 0x40 + 0x80) :: UInt8.ofNat (c.toNat % 0x40 + 0x80) :: rest) = _
    rw [scalars_lead, toNat_byte (by omega), lead, if_neg (by omega), if_neg (by omega),
      if_pos (by omega)]
    simp only [nil_append]
    rw [scalars_more rfl (by rw [toNat_tail]; simp only; split_ifs <;> omega), toNat_tail,
      scalars_last rfl (by rw [toNat_tail]; simp only; omega), toNat_tail]
    simp only
    rw [show ((c.toNat / 4096 % 0x10 + 0xE0) % 0x10 * 0x40 +
        (c.toNat / 64 % 0x40 + 0x80) % 0x40) * 0x40 + (c.toNat % 0x40 + 0x80) % 0x40 = c.toNat by
      omega, hchar]
  · rename_i value hone htwo hthree
    have hthree' : ¬ c.toNat ≤ 0xFFFF := hthree
    show Decoder.start.scalars (UInt8.ofNat (c.toNat / 262144 % 0x08 + 0xF0) ::
      UInt8.ofNat (c.toNat / 4096 % 0x40 + 0x80) :: UInt8.ofNat (c.toNat / 64 % 0x40 + 0x80) ::
        UInt8.ofNat (c.toNat % 0x40 + 0x80) :: rest) = _
    rw [scalars_lead, toNat_byte (by omega), lead, if_neg (by omega), if_neg (by omega),
      if_neg (by omega), if_pos (by omega)]
    simp only [nil_append]
    rw [scalars_more rfl (by rw [toNat_tail]; simp only; split_ifs <;> omega), toNat_tail,
      scalars_more rfl (by rw [toNat_tail]; simp only; omega), toNat_tail,
      scalars_last rfl (by rw [toNat_tail]; simp only; omega), toNat_tail]
    simp only
    rw [show (((c.toNat / 262144 % 0x08 + 0xF0) % 0x08 * 0x40 +
        (c.toNat / 4096 % 0x40 + 0x80) % 0x40) * 0x40 +
          (c.toNat / 64 % 0x40 + 0x80) % 0x40) * 0x40 + (c.toNat % 0x40 + 0x80) % 0x40 = c.toNat by
      omega, hchar]

theorem scalars_encode (chars : List Char) :
    Decoder.start.scalars (chars.flatMap String.utf8EncodeChar) = chars.map some := by
  induction chars with
  | nil => rfl
  | cons c rest ih => rw [flatMap_cons, scalars_encodeChar, ih, map_cons]

theorem decodeFatal?_encode (text : String) : decodeFatal? (encode text) = some text := by
  unfold decodeFatal? encode
  rw [scalars_encode, if_neg (by simp), List.filterMap_map]
  simp

theorem decode_encode (text : String) : decode (encode text) =
    if text.toList.head? = some byteOrderMark then String.ofList text.toList.tail else text := by
  have hchars : (Decoder.start.scalars (encode text)).map (Option.getD · replacement) =
      text.toList := by
    rw [encode, scalars_encode, List.map_map]
    exact List.map_id text.toList
  unfold decode
  rw [hchars]
  simp only
  split
  · rfl
  · exact String.ofList_toList

end RoundTrip

end Yaade.Library.Utf8
