import Mathlib.Data.Rat.Floor
import Yaade.Library.Bytes
import Yaade.Library.Utf8

/-!
The binary frames of terminal output: as the server writes them, as the web
client writes and reads them, and as the desktop client reads them.
-/

namespace Yaade.Connection

open Yaade.Library List Option

def terminalDataFrameTypeV1 : UInt8 := 0x01
def terminalDataFrameType : UInt8 := 0x02

def subarray (bytes : List UInt8) (start stop : Nat) : List UInt8 := (bytes.take stop).drop start

/-! ## The server -/

namespace Server

inductive TerminalFrameError where
  | terminalIdTooLong
  deriving DecidableEq

def encodeTerminalDataFrame (eventSequence terminalSequence : UInt64) (terminalId : String)
    (data : List UInt8) : Except TerminalFrameError (List UInt8) :=
  let id := Utf8.encode terminalId
  if id.length > 0xFFFF then .error .terminalIdTooLong
  else .ok ([terminalDataFrameType] ++ toBytes 8 eventSequence.toNat ++
    toBytes 8 terminalSequence.toNat ++ toBytes 2 id.length ++ id ++ data)

end Server

/-! ## The web client -/

namespace Web

inductive JsError where
  | error (message : String)
  | rangeError
  deriving DecidableEq

def toU64 (value : Option ℚ) : Nat :=
  match value with
  | some value => if value ≤ 0 then 0 else ⌊value⌋.toNat
  | none => 0

def maxSafeInteger : Nat := 2 ^ 53 - 1

def fromU64 (value : Nat) : Nat := if value > maxSafeInteger then maxSafeInteger else value

def encodeTerminalDataFrame (eventSequence terminalSequence : Option ℚ) (id : String)
    (payload : List UInt8) : Except JsError (List UInt8) :=
  let idBytes := Utf8.encode id
  if idBytes.length > 0xFFFF then .error (.error "terminal id too long for binary frame")
  else .ok ([terminalDataFrameType] ++ toBytes 8 (toU64 eventSequence) ++
    toBytes 8 (toU64 terminalSequence) ++ toBytes 2 idBytes.length ++ idBytes ++ payload)

structure DecodedTerminalDataFrame where
  eventSequence : Nat
  terminalSequence : Nat
  id : String
  payload : List UInt8
  deriving DecidableEq

def getUint (bytes : List UInt8) (width offset : Nat) : Except JsError Nat :=
  if offset + width ≤ bytes.length then .ok (ofBytes (subarray bytes offset (offset + width)))
  else .error .rangeError

def decodeTerminalDataFrame (buf : List UInt8) :
    Except JsError (Option DecodedTerminalDataFrame) := do
  if buf.length < 11 then return none
  if buf.head? = some terminalDataFrameType then
    if buf.length < 19 then return none
    let eventSequence := fromU64 (← getUint buf 8 1)
    let terminalSequence := fromU64 (← getUint buf 8 9)
    let idLen ← getUint buf 2 17
    if 19 + idLen > buf.length then return none
    let id := Utf8.decode (subarray buf 19 (19 + idLen))
    return some ⟨eventSequence, terminalSequence, id, buf.drop (19 + idLen)⟩
  if buf.head? ≠ some terminalDataFrameTypeV1 then return none
  let eventSequence ← getUint buf 4 1
  let terminalSequence ← getUint buf 4 5
  let idLen ← getUint buf 2 9
  if 11 + idLen > buf.length then return none
  let id := Utf8.decode (subarray buf 11 (11 + idLen))
  return some ⟨eventSequence, terminalSequence, id, buf.drop (11 + idLen)⟩

def terminalStreamV3Version : UInt8 := 3
def maxTerminalStreamV3Bytes : Nat := 8 * 1024 * 1024

inductive StreamKind where
  | snapshot
  | patch
  | resync

def StreamKind.ofByte? (kind : UInt8) : Option StreamKind :=
  if kind = 1 then some .snapshot
  else if kind = 2 then some .patch
  else if kind = 3 then some .resync
  else none

/-- The text is parsed as JSON and checked against the schema of its kind, which
gives a message or nothing. -/
def decodeTerminalStreamV3 {μ : Type} (message? : StreamKind → String → Option μ)
    (bytes : List UInt8) : Option μ :=
  if bytes.length < 6 || bytes.head? ≠ some terminalStreamV3Version then none
  else
    let size := ofBytes (subarray bytes 2 6)
    if size > maxTerminalStreamV3Bytes || bytes.length ≠ size + 6 then none
    else ((bytes[1]?).bind StreamKind.ofByte?).bind fun kind =>
      message? kind (Utf8.decode (bytes.drop 6))

end Web

/-! ## The desktop client -/

namespace Desktop

structure TerminalFrame where
  ptyId : String
  terminalSequence : UInt64
  payload : List UInt8
  deriving DecidableEq

def slice? (bytes : List UInt8) (start stop : Nat) : Option (List UInt8) :=
  if start ≤ stop ∧ stop ≤ bytes.length then some (subarray bytes start stop) else none

def decodeTerminalFrame (bytes : List UInt8) : Option TerminalFrame := do
  let kind ← bytes.head?
  if kind = 0x02 ∧ bytes.length ≥ 19 then
    let terminalSequence := UInt64.ofNat (ofBytes (← slice? bytes 9 17))
    let idLen := ofBytes (← slice? bytes 17 19)
    let ptyId ← Utf8.decodeFatal? (← slice? bytes 19 (19 + idLen))
    return ⟨ptyId, terminalSequence, ← slice? bytes (19 + idLen) bytes.length⟩
  else if kind = 0x01 ∧ bytes.length ≥ 11 then
    let terminalSequence := UInt64.ofNat (ofBytes (← slice? bytes 5 9))
    let idLen := ofBytes (← slice? bytes 9 11)
    let ptyId ← Utf8.decodeFatal? (← slice? bytes 11 (11 + idLen))
    return ⟨ptyId, terminalSequence, ← slice? bytes (11 + idLen) bytes.length⟩
  else none

end Desktop

/-! ## Reading a header -/

section Header

variable {eventSequence terminalSequence idLen : Nat} {rest : List UInt8}

def header (eventSequence terminalSequence idLen : Nat) : List UInt8 :=
  [terminalDataFrameType] ++ toBytes 8 eventSequence ++ toBytes 8 terminalSequence ++ toBytes 2 idLen

@[simp] theorem length_header : (header eventSequence terminalSequence idLen).length = 19 := by
  simp [header]

theorem subarray_middle {before middle after : List UInt8} {start stop : Nat}
    (hstart : before.length = start) (hstop : start + middle.length = stop) :
    subarray (before ++ middle ++ after) start stop = middle := by
  unfold subarray
  rw [take_left' (by rw [length_append, hstart, hstop]), drop_left' hstart]

theorem header_fields :
    subarray (header eventSequence terminalSequence idLen ++ rest) 1 9 = toBytes 8 eventSequence ∧
    subarray (header eventSequence terminalSequence idLen ++ rest) 9 17 =
      toBytes 8 terminalSequence ∧
    subarray (header eventSequence terminalSequence idLen ++ rest) 17 19 = toBytes 2 idLen := by
  refine ⟨?_, ?_, ?_⟩
  · have h := @subarray_middle [terminalDataFrameType] (toBytes 8 eventSequence)
      (toBytes 8 terminalSequence ++ toBytes 2 idLen ++ rest) 1 9 rfl (by simp)
    simpa only [header, append_assoc] using h
  · have h := @subarray_middle ([terminalDataFrameType] ++ toBytes 8 eventSequence)
      (toBytes 8 terminalSequence) (toBytes 2 idLen ++ rest) 9 17 (by simp) (by simp)
    simpa only [header, append_assoc] using h
  · have h := @subarray_middle ([terminalDataFrameType] ++ toBytes 8 eventSequence ++
      toBytes 8 terminalSequence) (toBytes 2 idLen) rest 17 19 (by simp) (by simp)
    simpa only [header, append_assoc] using h

theorem subarray_rest : subarray (header eventSequence terminalSequence idLen ++ rest) 19
    (19 + idLen) = rest.take idLen := by
  unfold subarray
  rw [take_append, length_header, take_of_length_le (by simp), Nat.add_sub_cancel_left,
    drop_left' length_header]

theorem drop_rest : (header eventSequence terminalSequence idLen ++ rest).drop (19 + idLen) =
    rest.drop idLen := by
  rw [drop_append, length_header, drop_eq_nil_of_le (by simp), Nat.add_sub_cancel_left,
    nil_append]

theorem length_framed : (header eventSequence terminalSequence idLen ++ rest).length =
    19 + rest.length := by
  rw [length_append, length_header]

theorem Web.decode_header (hev : eventSequence < 256 ^ 8) (hterm : terminalSequence < 256 ^ 8)
    (hid : idLen < 256 ^ 2) :
    Web.decodeTerminalDataFrame (header eventSequence terminalSequence idLen ++ rest) =
      .ok (if rest.length < idLen then none else some ⟨Web.fromU64 eventSequence,
        Web.fromU64 terminalSequence, Utf8.decode (rest.take idLen), rest.drop idLen⟩) := by
  obtain ⟨hfirst, hsecond, hthird⟩ := @header_fields eventSequence terminalSequence idLen rest
  have hhead : (header eventSequence terminalSequence idLen ++ rest).head? =
      some terminalDataFrameType := rfl
  unfold Web.decodeTerminalDataFrame Web.getUint
  rw [length_framed, if_neg (by omega), if_pos hhead, if_neg (by omega), if_pos (by omega),
    if_pos (by omega), if_pos (by omega), hfirst, hsecond, hthird, ofBytes_toBytes hev,
    ofBytes_toBytes hterm, ofBytes_toBytes hid]
  show (if 19 + idLen > 19 + rest.length then pure none else pure _) = _
  by_cases hshort : rest.length < idLen
  · rw [if_pos (by omega), if_pos hshort]
    rfl
  · rw [if_neg (by omega), if_neg hshort, subarray_rest, drop_rest]
    rfl

theorem Desktop.decode_header (hid : idLen < 256 ^ 2) (hterm : terminalSequence < 256 ^ 8) :
    Desktop.decodeTerminalFrame (header eventSequence terminalSequence idLen ++ rest) =
      if rest.length < idLen then none else (Utf8.decodeFatal? (rest.take idLen)).map fun ptyId =>
        ⟨ptyId, UInt64.ofNat terminalSequence, rest.drop idLen⟩ := by
  obtain ⟨-, hsecond, hthird⟩ := @header_fields eventSequence terminalSequence idLen rest
  have hhead : (header eventSequence terminalSequence idLen ++ rest).head? =
      some terminalDataFrameType := rfl
  unfold Desktop.decodeTerminalFrame Desktop.slice?
  rw [hhead]
  simp only [bind_eq_bind, bind_some]
  rw [length_framed, if_pos ⟨rfl, by omega⟩, if_pos (by omega), if_pos (by omega), hsecond, hthird]
  simp only [bind_some, ofBytes_toBytes hterm, ofBytes_toBytes hid]
  by_cases hshort : rest.length < idLen
  · rw [if_neg (by omega), if_pos hshort]
    rfl
  rw [if_pos (by omega), if_neg hshort, subarray_rest, if_pos (by omega)]
  have hlast : subarray (header eventSequence terminalSequence idLen ++ rest) (19 + idLen)
      (19 + rest.length) = rest.drop idLen := by
    unfold subarray
    rw [take_of_length_le (by simp), drop_rest]
  rw [hlast, bind_some]
  cases Utf8.decodeFatal? (rest.take idLen) with
  | none => rfl
  | some id => rfl

theorem decode_short {bytes : List UInt8} (hlength : bytes.length < 19)
    (hhead : ∀ kind, bytes.head? = some kind → kind = terminalDataFrameType) :
    Web.decodeTerminalDataFrame bytes = .ok none ∧ Desktop.decodeTerminalFrame bytes = none := by
  cases bytes with
  | nil => exact ⟨rfl, rfl⟩
  | cons kind rest =>
    cases hhead kind rfl
    constructor
    · unfold Web.decodeTerminalDataFrame
      split
      · rfl
      · rw [if_pos (show (terminalDataFrameType :: rest).head? = some terminalDataFrameType from rfl)]
        rfl
    · unfold Desktop.decodeTerminalFrame
      simp only [head?_cons, bind_eq_bind, bind_some]
      rw [if_neg (fun h => Nat.not_lt.mpr h.2 hlength), if_neg (fun h => absurd h.1 (by decide))]

end Header

/-! ## Agreement -/

/-- What the two encoders and the three decoders make of one frame. -/
structure FramesAgree {μ : Type} (message? : Web.StreamKind → String → Option μ)
    (eventSequence terminalSequence : Nat) (id : String) (payload : List UInt8) : Prop where
  fits : (Utf8.encode id).length ≤ 65535 → ∃ frame,
    Server.encodeTerminalDataFrame (UInt64.ofNat eventSequence) (UInt64.ofNat terminalSequence) id
      payload = .ok frame ∧
    Web.decodeTerminalDataFrame frame = .ok (some ⟨eventSequence, terminalSequence, id, payload⟩) ∧
    Desktop.decodeTerminalFrame frame = some ⟨id, UInt64.ofNat terminalSequence, payload⟩ ∧
    Web.encodeTerminalDataFrame (some eventSequence) (some terminalSequence) id payload =
      .ok frame ∧
    Web.decodeTerminalStreamV3 message? frame = none ∧
    ∀ length < 19 + (Utf8.encode id).length,
      Web.decodeTerminalDataFrame (frame.take length) = .ok none ∧
        Desktop.decodeTerminalFrame (frame.take length) = none
  refused : 65535 < (Utf8.encode id).length →
    Server.encodeTerminalDataFrame (UInt64.ofNat eventSequence) (UInt64.ofNat terminalSequence) id
      payload = .error .terminalIdTooLong ∧
    Web.encodeTerminalDataFrame (some eventSequence) (some terminalSequence) id payload =
      .error (.error "terminal id too long for binary frame")

section Agreement

variable {μ : Type} {message? : Web.StreamKind → String → Option μ}
  {eventSequence terminalSequence : Nat} {id : String} {payload : List UInt8}

def frameOf (eventSequence terminalSequence : Nat) (id : String) (payload : List UInt8) :
    List UInt8 :=
  header eventSequence terminalSequence (Utf8.encode id).length ++ (Utf8.encode id ++ payload)

theorem toU64_natCast (value : Nat) : Web.toU64 (some value) = value := by
  show (if ((value : Nat) : ℚ) ≤ 0 then 0 else ⌊((value : Nat) : ℚ)⌋.toNat) = value
  split_ifs with hzero
  · have hcast : ((value : Nat) : ℚ) ≤ ((0 : Nat) : ℚ) := hzero
    exact (Nat.le_zero.mp (Nat.cast_le.mp hcast)).symm
  · rw [Int.floor_natCast, Int.toNat_natCast]

theorem fromU64_small {value : Nat} (h : value < 2 ^ 53) : Web.fromU64 value = value := by
  unfold Web.fromU64 Web.maxSafeInteger
  rw [if_neg (by omega)]

theorem toNat_small {value : Nat} (h : value < 2 ^ 53) : (UInt64.ofNat value).toNat = value := by
  apply Nat.mod_eq_of_lt
  omega

theorem server_frame (hev : eventSequence < 2 ^ 53) (hterm : terminalSequence < 2 ^ 53)
    (hid : (Utf8.encode id).length ≤ 65535) :
    Server.encodeTerminalDataFrame (UInt64.ofNat eventSequence) (UInt64.ofNat terminalSequence) id
      payload = .ok (frameOf eventSequence terminalSequence id payload) := by
  unfold Server.encodeTerminalDataFrame frameOf header
  simp only
  rw [if_neg (by omega), toNat_small hev, toNat_small hterm, append_assoc _ _ payload]

theorem web_frame (hid : (Utf8.encode id).length ≤ 65535) :
    Web.encodeTerminalDataFrame (some eventSequence) (some terminalSequence) id payload =
      .ok (frameOf eventSequence terminalSequence id payload) := by
  unfold Web.encodeTerminalDataFrame frameOf header
  simp only
  rw [if_neg (by omega), toU64_natCast, toU64_natCast, append_assoc _ _ payload]

theorem web_decodes (hev : eventSequence < 2 ^ 53) (hterm : terminalSequence < 2 ^ 53)
    (hid : (Utf8.encode id).length ≤ 65535) :
    Web.decodeTerminalDataFrame (frameOf eventSequence terminalSequence id payload) =
      .ok (some ⟨eventSequence, terminalSequence, Utf8.decode (Utf8.encode id), payload⟩) := by
  unfold frameOf
  rw [Web.decode_header (by omega) (by omega) (by omega), if_neg (by simp), take_left,
    drop_left, fromU64_small hev, fromU64_small hterm]

theorem desktop_decodes (hterm : terminalSequence < 2 ^ 53)
    (hid : (Utf8.encode id).length ≤ 65535) :
    Desktop.decodeTerminalFrame (frameOf eventSequence terminalSequence id payload) =
      some ⟨id, UInt64.ofNat terminalSequence, payload⟩ := by
  unfold frameOf
  rw [Desktop.decode_header (by omega) (by omega), if_neg (by simp), take_left,
    drop_left, Utf8.decodeFatal?_encode]
  rfl

theorem streamV3_rejects : Web.decodeTerminalStreamV3 message?
    (frameOf eventSequence terminalSequence id payload) = none := by
  unfold Web.decodeTerminalStreamV3
  rw [if_pos]
  rw [Bool.or_eq_true]
  right
  rfl

theorem cut_rejected (hev : eventSequence < 2 ^ 53) (hterm : terminalSequence < 2 ^ 53)
    (hid : (Utf8.encode id).length ≤ 65535) {length : Nat}
    (hlength : length < 19 + (Utf8.encode id).length) :
    Web.decodeTerminalDataFrame ((frameOf eventSequence terminalSequence id payload).take length) =
        .ok none ∧
      Desktop.decodeTerminalFrame ((frameOf eventSequence terminalSequence id payload).take
        length) = none := by
  by_cases hheader : length < 19
  · apply decode_short
    · rw [length_take]
      omega
    · intro kind hkind
      cases length with
      | zero => cases hkind
      | succ length => exact (Option.some.inj hkind).symm
  · have hcut : (frameOf eventSequence terminalSequence id payload).take length =
        header eventSequence terminalSequence (Utf8.encode id).length ++
          (Utf8.encode id ++ payload).take (length - 19) := by
      unfold frameOf
      rw [take_append, length_header, take_of_length_le (by rw [length_header]; omega)]
    have hshort : ((Utf8.encode id ++ payload).take (length - 19)).length <
        (Utf8.encode id).length := by
      rw [length_take]
      omega
    rw [hcut, Web.decode_header (by omega) (by omega) (by omega),
      Desktop.decode_header (by omega) (by omega), if_pos hshort, if_pos hshort]
    exact ⟨rfl, rfl⟩

theorem mark_lost (hev : eventSequence < 2 ^ 53) (hterm : terminalSequence < 2 ^ 53)
    (hid : (Utf8.encode id).length ≤ 65535) (hmark : id.toList.head? = some Utf8.byteOrderMark) :
    Web.decodeTerminalDataFrame (frameOf eventSequence terminalSequence id payload) ≠
      .ok (some ⟨eventSequence, terminalSequence, id, payload⟩) := by
  intro hdecoded
  rw [web_decodes hev hterm hid, Utf8.decode_encode, if_pos hmark] at hdecoded
  have hsame : String.ofList id.toList.tail = id := by
    injection hdecoded with hsome
    injection hsome with hframe
    exact congrArg Web.DecodedTerminalDataFrame.id hframe
  have htail : id.toList.tail = id.toList := String.toList_ofList.symm.trans (congrArg _ hsame)
  obtain ⟨rest, hrest⟩ := head?_eq_some_iff.mp hmark
  rw [hrest, tail_cons] at htail
  exact cons_ne_self _ _ htail.symm

/-- The web client reads a frame as it was written unless the id has a byte order
mark in front; in everything else the two languages agree. -/
theorem frames_agree {μ : Type} (message? : Web.StreamKind → String → Option μ)
    (eventSequence terminalSequence : Nat) (id : String) (payload : List UInt8)
    (hev : eventSequence < 2 ^ 53) (hterm : terminalSequence < 2 ^ 53) :
    FramesAgree message? eventSequence terminalSequence id payload ↔
      ((Utf8.encode id).length ≤ 65535 → id.toList.head? ≠ some Utf8.byteOrderMark) := by
  constructor
  · intro h hid hmark
    obtain ⟨frame, hframe, hdecoded, -⟩ := h.fits hid
    rw [server_frame hev hterm hid] at hframe
    cases hframe
    exact mark_lost hev hterm hid hmark hdecoded
  · intro h
    constructor
    · intro hid
      refine ⟨_, server_frame hev hterm hid, ?_, desktop_decodes hterm hid,
        web_frame hid, streamV3_rejects, fun length hlength => cut_rejected hev hterm hid hlength⟩
      rw [web_decodes hev hterm hid, Utf8.decode_encode, if_neg (h hid)]
    · intro hid
      exact ⟨if_pos hid, if_pos hid⟩

theorem frames_agree_sample :
    FramesAgree (fun _ _ => (none : Option Unit)) 7 11 "term-1" [0x68, 0x69] :=
  (frames_agree _ 7 11 "term-1" [0x68, 0x69] (by decide) (by decide)).mpr
    fun _ => by decide

def markedId : String := String.ofList [Utf8.byteOrderMark, Char.ofNat 0x61]

theorem marked_id : ¬ FramesAgree (fun _ _ => (none : Option Unit)) 7 11 markedId [0x68] := by
  intro h
  have hid : (Utf8.encode markedId).length ≤ 65535 := by decide
  obtain ⟨frame, hframe, hdecoded, -⟩ := h.fits hid
  rw [server_frame (by decide) (by decide) hid] at hframe
  cases hframe
  exact mark_lost (by decide) (by decide) hid (by decide) hdecoded

end Agreement

end Yaade.Connection
