import Mathlib.Tactic

/-!
Ids of sessions, tabs, terminals and their processes.
-/

namespace Yaade.Mux

open List Option

inductive EntityKind where
  | session
  | tab
  | terminal
  | pty
  deriving DecidableEq

def EntityKind.tag? : EntityKind → Option String
  | .session => some "ses"
  | .tab => some "tab"
  | .terminal => some "term"
  | .pty => none

def idCharacter (char : Char) : Bool := char.isAlphanum || char == '_' || char == '-'

def matchesTag (tag value : String) : Bool :=
  (tag.toList ++ ['-']).isPrefixOf value.toList &&
    !(value.toList.drop (tag.length + 1)).isEmpty &&
    (value.toList.drop (tag.length + 1)).all idCharacter

def EntityKind.accepts (kind : EntityKind) (value : String) : Bool :=
  match kind.tag? with
  | some tag => matchesTag tag value
  | none => true

structure EntityId (kind : EntityKind) where
  value : String
  valid : kind.accepts value = true
  deriving DecidableEq

instance entityId_lawful (kind : EntityKind) : LawfulBEq (EntityId kind) := inferInstance

abbrev SessionId := EntityId .session
abbrev SessionTabId := EntityId .tab
abbrev MuxTerminalId := EntityId .terminal
abbrev PtyId := EntityId .pty

def validServerId (value : String) : Bool :=
  1 ≤ value.length && value.length ≤ 48 && value.toList.all idCharacter

structure ServerId where
  value : String
  valid : validServerId value = true
  deriving DecidableEq

def alpha : ServerId := ⟨"alpha", by decide⟩
def beta : ServerId := ⟨"beta", by decide⟩

def scopedId (tag serverId localId : String) : String :=
  tag ++ "-" ++ serverId ++ "--" ++ String.ofList (localId.toList.drop (tag.length + 1))

def scopedTerminalId (serverId terminalId : String) : String :=
  "term-" ++ serverId ++ "--" ++ terminalId

section Scoped

variable {tag serverId localId : String}

theorem scopedId_toList : (scopedId tag serverId localId).toList =
    (tag.toList ++ ['-']) ++
      (serverId.toList ++ ['-', '-'] ++ localId.toList.drop (tag.length + 1)) := by
  simp [scopedId]

theorem drop_scopedId : (scopedId tag serverId localId).toList.drop (tag.length + 1) =
    serverId.toList ++ ['-', '-'] ++ localId.toList.drop (tag.length + 1) := by
  rw [scopedId_toList, drop_left']
  rw [length_append, String.length_toList]
  rfl

theorem matchesTag_scopedId (hserver : validServerId serverId = true)
    (hlocal : matchesTag tag localId = true) :
    matchesTag tag (scopedId tag serverId localId) = true := by
  unfold validServerId at hserver
  unfold matchesTag at hlocal ⊢
  simp only [Bool.and_eq_true] at hserver hlocal ⊢
  rw [drop_scopedId]
  refine ⟨⟨?_, by simp⟩, ?_⟩
  · rw [scopedId_toList, isPrefixOf_iff_prefix]
    exact prefix_append _ _
  · rw [all_append, all_append, hserver.2, hlocal.2]
    rfl

theorem length_scopedId (hlocal : matchesTag tag localId = true) :
    (scopedId tag serverId localId).toList.length =
      localId.toList.length + serverId.toList.length + 2 := by
  unfold matchesTag at hlocal
  simp only [Bool.and_eq_true, isPrefixOf_iff_prefix] at hlocal
  have hle := hlocal.1.1.length_le
  rw [scopedId_toList]
  simp only [length_append, length_cons, length_nil, length_drop, String.length_toList] at hle ⊢
  omega

theorem scopedId_server {other : String}
    (h : scopedId tag serverId localId = scopedId tag other localId) : serverId = other := by
  have hlists := congrArg String.toList h
  rw [scopedId_toList, scopedId_toList, append_cancel_left_eq, append_assoc,
    append_assoc, append_cancel_right_eq] at hlists
  exact String.toList_inj.mp hlists

end Scoped

def EntityId.scoped (serverId : ServerId) : {kind : EntityKind} → EntityId kind → EntityId kind
  | .session, id => ⟨scopedId "ses" serverId.value id.value, matchesTag_scopedId serverId.valid id.valid⟩
  | .tab, id => ⟨scopedId "tab" serverId.value id.value, matchesTag_scopedId serverId.valid id.valid⟩
  | .terminal, id =>
    ⟨scopedId "term" serverId.value id.value, matchesTag_scopedId serverId.valid id.valid⟩
  | .pty, id => ⟨scopedTerminalId serverId.value id.value, rfl⟩

/-- How a client sees a server: as its own, or as another of that id. -/
inductive Scoping where
  | current
  | remote (serverId : ServerId)
  deriving DecidableEq

def Scoping.publicId {kind : EntityKind} : Scoping → EntityId kind → EntityId kind
  | .current, id => id
  | .remote serverId, id => id.scoped serverId

theorem Scoping.eq_of_publicId {first second : Scoping} {id : MuxTerminalId}
    (h : first.publicId id = second.publicId id) : first = second := by
  have hvalue := congrArg EntityId.value h
  have hlength := @length_scopedId "term" "" id.value id.valid
  cases first with
  | current =>
    cases second with
    | current => rfl
    | remote other =>
      have hsize := congrArg (fun value => value.toList.length) hvalue
      have hother := @length_scopedId "term" other.value id.value id.valid
      simp only [publicId, EntityId.scoped] at hsize
      omega
  | remote serverId =>
    cases second with
    | current =>
      have hsize := congrArg (fun value => value.toList.length) hvalue
      have hserver := @length_scopedId "term" serverId.value id.value id.valid
      simp only [publicId, EntityId.scoped] at hsize
      omega
    | remote other =>
      have hserver := scopedId_server hvalue
      obtain ⟨server, hvalid⟩ := serverId
      obtain ⟨server', hvalid'⟩ := other
      cases hserver
      rfl

end Yaade.Mux
